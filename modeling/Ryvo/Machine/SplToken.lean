import Ryvo.State.TokenProgram

/-!
# Machine — A token program

A token program that can be run, with the checks in the order the documented one makes them, and the proof that it satisfies the laws of `TokenProgram`.
-/

namespace Ryvo

namespace SplToken

variable (T : Tokens)

/-- `Mint::unpack`. -/
def unpackMint (k : Pubkey) : Result Mint := okOr (T.mints k) (.account .accountNotInitialized)

/-- `Account::unpack`. -/
def unpackAccount (k : Pubkey) : Result TokenAccount :=
  okOr (T.accounts k) (.account .accountNotInitialized)

/-- An account nothing else has taken. -/
def unused (k : Pubkey) : Result Unit :=
  require (T.mints k = none ∧ T.accounts k = none) (.account .accountAlreadyInUse)

/-- `process_transfer`; a transfer to oneself changes nothing. -/
def transfer (source destination authority : Pubkey) (amount : Nat) : Result Tokens := do
  let src ← unpackAccount T source
  let dst ← unpackAccount T destination
  require (src.frozen = false ∧ dst.frozen = false) (.token .accountFrozen)
  require (amount ≤ src.amount) (.token .insufficientFunds)
  require (src.mint = dst.mint) (.token .mintMismatch)
  require (authority = src.owner) (.token .ownerMismatch)
  if source = destination then pure T
  else do
    let received ← checkedAdd u64Bound dst.amount amount (Error.token .overflow)
    pure ((T.setAccount source (some { src with amount := src.amount - amount })).setAccount
      destination (some { dst with amount := received }))

/-- `process_mint_to`. -/
def mintTo (mint destination authority : Pubkey) (amount : Nat) : Result Tokens := do
  let dst ← unpackAccount T destination
  require (dst.frozen = false) (.token .accountFrozen)
  require (dst.mint = mint) (.token .mintMismatch)
  let m ← unpackMint T mint
  require (authority = m.mintAuthority) (.token .ownerMismatch)
  let received ← checkedAdd u64Bound dst.amount amount (Error.token .overflow)
  let supply ← checkedAdd u64Bound m.supply amount (Error.token .overflow)
  pure ((T.setMint mint { m with supply }).setAccount destination
    (some { dst with amount := received }))

/-- `process_burn`. -/
def burn (mint source authority : Pubkey) (amount : Nat) : Result Tokens := do
  let src ← unpackAccount T source
  let m ← unpackMint T mint
  require (src.frozen = false) (.token .accountFrozen)
  require (amount ≤ src.amount) (.token .insufficientFunds)
  require (src.mint = mint) (.token .mintMismatch)
  require (authority = src.owner) (.token .ownerMismatch)
  let supply ← checkedSub m.supply amount (Error.token .overflow)
  pure ((T.setMint mint { m with supply }).setAccount source
    (some { src with amount := src.amount - amount }))

/-- `process_toggle_freeze_account`. -/
def toggleFreeze (freeze : Bool) (account mint authority : Pubkey) : Result Tokens := do
  let a ← unpackAccount T account
  require (a.frozen = !freeze) (.token .invalidState)
  require (a.mint = mint) (.token .mintMismatch)
  let m ← unpackMint T mint
  require (m.freezeAuthority = some authority) (.token .mintCannotFreeze)
  pure (T.setAccount account (some { a with frozen := freeze }))

/-- `process_close_account`. -/
def closeAccount (account authority : Pubkey) : Result Tokens := do
  let a ← unpackAccount T account
  require (a.amount = 0) (.token .nonNativeHasBalance)
  require (authority = a.owner) (.token .ownerMismatch)
  pure (T.setAccount account none)

/-- `process_initialize_mint`, at an unused address. -/
def initializeMint (k mintAuthority : Pubkey) (freezeAuthority : Option Pubkey) (decimals : Nat) :
    Result Tokens := do
  unused T k
  pure (T.setMint k ⟨0, decimals, mintAuthority, freezeAuthority⟩)

/-- `process_initialize_account`, at an unused address. -/
def initializeAccount (k mint owner : Pubkey) : Result Tokens := do
  let _ ← unpackMint T mint
  unused T k
  pure (T.setAccount k (some ⟨mint, owner, 0, false⟩))

variable {T} {T' : Tokens} {source destination authority mint account k owner : Pubkey}
variable {amount decimals : Nat}

/-- A transfer does what the law says, and the same for the other instructions. -/
theorem transfer_iff : transfer T source destination authority amount = .ok T' ↔
    T.Transfers source destination authority amount T' := by
  simp only [transfer, unpackAccount, Except.bind_eq_ok, okOr_eq_ok, require_eq_ok, exists_const,
    Tokens.Transfers]
  constructor
  · rintro ⟨src, hs, dst, hd, ⟨hf, hf'⟩, hle, hm, ha, h⟩
    refine ⟨src, dst, hs, hd, hf, hf', hle, hm, ha, ?_⟩
    split at h <;> rename_i he
    · rw [if_pos he]
      exact (Except.pure_eq_ok.mp h).symm
    · simp only [Except.bind_eq_ok, checkedAdd_eq_ok, Except.pure_eq_ok] at h
      obtain ⟨_, ⟨rfl, hlt⟩, rfl⟩ := h
      rw [if_neg he]
      exact ⟨hlt, rfl⟩
  · rintro ⟨src, dst, hs, hd, hf, hf', hle, hm, ha, h⟩
    refine ⟨src, hs, dst, hd, ⟨hf, hf'⟩, hle, hm, ha, ?_⟩
    split at h <;> rename_i he
    · rw [if_pos he, h]
      rfl
    · rw [if_neg he]
      simp only [Except.bind_eq_ok, checkedAdd_eq_ok, Except.pure_eq_ok]
      exact ⟨_, ⟨rfl, h.1⟩, h.2.symm⟩

theorem mintTo_iff : mintTo T mint destination authority amount = .ok T' ↔
    T.MintsTo mint destination authority amount T' := by
  simp only [mintTo, unpackAccount, unpackMint, Except.bind_eq_ok, okOr_eq_ok, require_eq_ok,
    exists_const, checkedAdd_eq_ok, Except.pure_eq_ok, Tokens.MintsTo]
  constructor
  · rintro ⟨dst, hd, hf, hm, m, hmi, ha, _, ⟨rfl, hlt⟩, _, ⟨rfl, hlt'⟩, rfl⟩
    exact ⟨m, dst, hmi, hd, hf, hm, ha, hlt', hlt, rfl⟩
  · rintro ⟨m, dst, hmi, hd, hf, hm, ha, hlt', hlt, rfl⟩
    exact ⟨dst, hd, hf, hm, m, hmi, ha, _, ⟨rfl, hlt⟩, _, ⟨rfl, hlt'⟩, rfl⟩

theorem burn_iff : burn T mint source authority amount = .ok T' ↔
    T.Burns mint source authority amount T' := by
  simp only [burn, unpackAccount, unpackMint, Except.bind_eq_ok, okOr_eq_ok, require_eq_ok,
    exists_const, checkedSub_eq_ok, Except.pure_eq_ok, Tokens.Burns]
  constructor
  · rintro ⟨src, hs, m, hmi, hf, hle, hm, ha, _, ⟨rfl, hsup⟩, rfl⟩
    exact ⟨m, src, hmi, hs, hf, hm, hle, ha, hsup, rfl⟩
  · rintro ⟨m, src, hmi, hs, hf, hm, hle, ha, hsup, rfl⟩
    exact ⟨src, hs, m, hmi, hf, hle, hm, ha, _, ⟨rfl, hsup⟩, rfl⟩

theorem toggleFreeze_iff {freeze : Bool} : toggleFreeze T freeze account mint authority = .ok T' ↔
    T.Toggles freeze account mint authority T' := by
  simp only [toggleFreeze, unpackAccount, unpackMint, Except.bind_eq_ok, okOr_eq_ok, require_eq_ok,
    exists_const, Except.pure_eq_ok, Tokens.Toggles]
  constructor
  · rintro ⟨a, ha, hf, hm, m, hmi, hau, rfl⟩
    exact ⟨m, a, hmi, ha, hf, hm, hau, rfl⟩
  · rintro ⟨m, a, hmi, ha, hf, hm, hau, rfl⟩
    exact ⟨a, ha, hf, hm, m, hmi, hau, rfl⟩

theorem closeAccount_iff : closeAccount T account authority = .ok T' ↔
    T.Closes account authority T' := by
  simp only [closeAccount, unpackAccount, Except.bind_eq_ok, okOr_eq_ok, require_eq_ok, exists_const,
    Except.pure_eq_ok, Tokens.Closes, eq_comm (a := T')]

theorem initializeMint_iff {mintAuthority : Pubkey} {freezeAuthority : Option Pubkey} :
    initializeMint T k mintAuthority freezeAuthority decimals = .ok T' ↔
      T.InitializesMint k mintAuthority freezeAuthority decimals T' := by
  simp only [initializeMint, unused, Except.bind_eq_ok, require_eq_ok, exists_const,
    Except.pure_eq_ok, Tokens.InitializesMint, and_assoc, eq_comm (a := T')]

theorem initializeAccount_iff : initializeAccount T k mint owner = .ok T' ↔
    T.InitializesAccount k mint owner T' := by
  simp only [initializeAccount, unpackMint, unused, Except.bind_eq_ok, okOr_eq_ok, require_eq_ok,
    exists_const, Except.pure_eq_ok, Tokens.InitializesAccount]
  constructor
  · rintro ⟨m, hm, ⟨h₁, h₂⟩, rfl⟩
    exact ⟨⟨m, hm⟩, h₁, h₂, rfl⟩
  · rintro ⟨⟨m, hm⟩, h₁, h₂, rfl⟩
    exact ⟨m, hm, ⟨h₁, h₂⟩, rfl⟩

end SplToken

open SplToken in
/-- The token program of the local chain. -/
def splToken : TokenProgram where
  transfer := transfer
  mintTo := mintTo
  burn := burn
  toggleFreeze := toggleFreeze
  closeAccount := closeAccount
  initializeMint := initializeMint
  initializeAccount := initializeAccount
  transfer_iff := transfer_iff
  mintTo_iff := mintTo_iff
  burn_iff := burn_iff
  toggleFreeze_iff := toggleFreeze_iff
  closeAccount_iff := closeAccount_iff
  initializeMint_iff := initializeMint_iff
  initializeAccount_iff := initializeAccount_iff

end Ryvo
