import Ryvo.Machine.World

/-!
# Machine — Token program

The token instructions the two programs invoke and everybody may call, on the accounts of the world.  Each is the chain's token program, and each comes with what its law says of the world.
-/

namespace Ryvo

namespace World

/-- Invoke the token program. -/
def invokeToken (w : World) (call : Tokens → Result Tokens) : Result World := do
  let T ← call w.tokens
  pure (w.withTokens T)

variable (env : Env) (w : World)

/-- `token::transfer`. -/
def tokenTransfer (source destination authority : Pubkey) (amount : Nat) : Result World :=
  w.invokeToken fun T => env.tokenProgram.transfer T source destination authority amount

/-- `token::mint_to`. -/
def tokenMintTo (mint destination authority : Pubkey) (amount : Nat) : Result World :=
  w.invokeToken fun T => env.tokenProgram.mintTo T mint destination authority amount

/-- `token::burn`. -/
def tokenBurn (mint source authority : Pubkey) (amount : Nat) : Result World :=
  w.invokeToken fun T => env.tokenProgram.burn T mint source authority amount

/-- `token::freeze_account` and `token::thaw_account`. -/
def tokenToggleFreeze (freeze : Bool) (account mint authority : Pubkey) : Result World :=
  w.invokeToken fun T => env.tokenProgram.toggleFreeze T freeze account mint authority

/-- `token::close_account`. -/
def tokenClose (account authority : Pubkey) : Result World :=
  w.invokeToken fun T => env.tokenProgram.closeAccount T account authority

/-- `init` of a mint. -/
def createMint (k mintAuthority : Pubkey) (freezeAuthority : Option Pubkey) (decimals : Nat) :
    Result World :=
  w.invokeToken fun T =>
    env.tokenProgram.initializeMint T k mintAuthority freezeAuthority decimals

/-- `init` of a token account of an existing mint. -/
def createTokenAccount (k mint owner : Pubkey) : Result World :=
  w.invokeToken fun T => env.tokenProgram.initializeAccount T k mint owner

end World

/-! ### What they do -/

variable {env : Env} {w w' : World} {k source destination authority mint owner account : Pubkey}
variable {amount decimals : Nat}

theorem invokeToken_eq_ok {call : Tokens → Result Tokens} :
    w.invokeToken call = .ok w' ↔ ∃ T, call w.tokens = .ok T ∧ w.withTokens T = w' := by
  simp [World.invokeToken]

theorem tokenTransfer_eq_ok : w.tokenTransfer env source destination authority amount = .ok w' ↔
    ∃ src dst, w.tokenAccounts source = some src ∧ w.tokenAccounts destination = some dst ∧
      src.frozen = false ∧ dst.frozen = false ∧ amount ≤ src.amount ∧ src.mint = dst.mint ∧
      authority = src.owner ∧
      if source = destination then w' = w
      else dst.amount + amount < u64Bound ∧
        w' = (w.setTokenAccount source { src with amount := src.amount - amount }).setTokenAccount
          destination { dst with amount := dst.amount + amount } := by
  simp only [World.tokenTransfer, invokeToken_eq_ok, TokenProgram.transfer_iff, Tokens.Transfers]
  constructor
  · rintro ⟨T, ⟨src, dst, h₁, h₂, h₃, h₄, h₅, h₆, h₇, h⟩, rfl⟩
    refine ⟨src, dst, h₁, h₂, h₃, h₄, h₅, h₆, h₇, ?_⟩
    split
    · rename_i he
      rw [if_pos he] at h
      subst h
      rfl
    · rename_i he
      rw [if_neg he] at h
      obtain ⟨hlt, rfl⟩ := h
      exact ⟨hlt, rfl⟩
  · rintro ⟨src, dst, h₁, h₂, h₃, h₄, h₅, h₆, h₇, h⟩
    by_cases he : source = destination
    · rw [if_pos he] at h
      subst h
      exact ⟨w'.tokens, ⟨src, dst, h₁, h₂, h₃, h₄, h₅, h₆, h₇, by rw [if_pos he]⟩, rfl⟩
    · rw [if_neg he] at h
      obtain ⟨hlt, rfl⟩ := h
      exact ⟨_, ⟨src, dst, h₁, h₂, h₃, h₄, h₅, h₆, h₇, by rw [if_neg he]; exact ⟨hlt, rfl⟩⟩, rfl⟩

theorem tokenToggleFreeze_spec {freeze : Bool}
    (h : w.tokenToggleFreeze env freeze account mint authority = .ok w') : ∃ a,
      w.tokenAccounts account = some a ∧ w' = w.setTokenAccount account { a with frozen := freeze } := by
  simp only [World.tokenToggleFreeze, invokeToken_eq_ok, TokenProgram.toggleFreeze_iff] at h
  obtain ⟨T, ⟨m, a, -, ha, -, -, -, rfl⟩, rfl⟩ := h
  exact ⟨a, ha, rfl⟩

theorem tokenClose_spec (h : w.tokenClose env account authority = .ok w') : ∃ a,
    w.tokenAccounts account = some a ∧ a.amount = 0 ∧ a.owner = authority ∧
      w' = { w with tokenAccounts := Function.update w.tokenAccounts account none } := by
  simp only [World.tokenClose, invokeToken_eq_ok, TokenProgram.closeAccount_iff] at h
  obtain ⟨T, ⟨a, ha, hz, ho, rfl⟩, rfl⟩ := h
  exact ⟨a, ha, hz, ho.symm, rfl⟩

theorem createMint_spec {freezeAuthority : Option Pubkey}
    (h : w.createMint env k authority freezeAuthority decimals = .ok w') :
    w.mints k = none ∧ w.tokenAccounts k = none ∧
      w' = w.setMint k ⟨0, decimals, authority, freezeAuthority⟩ := by
  simp only [World.createMint, invokeToken_eq_ok, TokenProgram.initializeMint_iff] at h
  obtain ⟨T, ⟨hm, ha, rfl⟩, rfl⟩ := h
  exact ⟨hm, ha, rfl⟩

theorem createTokenAccount_spec (h : w.createTokenAccount env k mint owner = .ok w') :
    (w.mints mint).isSome ∧ w.mints k = none ∧ w.tokenAccounts k = none ∧
      w' = w.setTokenAccount k ⟨mint, owner, 0, false⟩ := by
  simp only [World.createTokenAccount, invokeToken_eq_ok, TokenProgram.initializeAccount_iff] at h
  obtain ⟨T, ⟨⟨m, hm⟩, h₁, h₂, rfl⟩, rfl⟩ := h
  exact ⟨Option.isSome_iff_exists.mpr ⟨m, hm⟩, h₁, h₂, rfl⟩

end Ryvo
