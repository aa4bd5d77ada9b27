import Mathlib.Data.Set.Card
import Ryvo.State.ParticipantBucket

/-!
# Layout — The map a participant bucket stands for

What a participant bucket is for, with no bytes in it: an account for each participant of the bucket, and in each account at most sixteen holdings, one for each token.  A reader looks one key up.  A mutator changes the holding of one token, or a field of one account, or opens one account.

* `Mutator.apply` is what each mutator does to the map, with the errors it may end in.
* `Mutator.frame_of_apply`: an operation changes what stands under its own key only.
-/

namespace Ryvo

structure Holding where
  available : Nat
  withdrawing : Nat
  unlockAt : Int
  destination : Pubkey

namespace Holding

def empty : Holding := ⟨0, 0, 0, Pubkey.default⟩

def total (h : Holding) : Result Nat := addU64 h.available h.withdrawing

def cleared (h : Holding) : Holding :=
  { h with withdrawing := 0, unlockAt := 0, destination := Pubkey.default }

def debitAvailable (amount : Nat) (h : Holding) : Result (Holding × Option Nat) := do
  require (amount ≤ h.available) (.vault .insufficientBalance)
  pure ({ h with available := h.available - amount }, some (h.available - amount))

def initiate (amount : Nat) (destination : Pubkey) (unlockAt : Int) (h : Holding) :
    Result (Holding × Option Nat) := do
  require (h.unlockAt = 0) (.vault .withdrawalAlreadyPending)
  require (amount ≤ h.available) (.vault .insufficientBalance)
  pure (⟨h.available - amount, h.withdrawing + amount, unlockAt, destination⟩, none)

def cancel (h : Holding) : Result (Holding × Option Nat) := do
  require (h.unlockAt ≠ 0) (.vault .noWithdrawalPending)
  let available ← h.total
  pure (cleared { h with available }, some h.withdrawing)

def clear (h : Holding) : Result (Holding × Option Nat) := .ok (h.cleared, none)

/-- What is available goes first, and the rest is taken from what is being withdrawn. -/
def debit (amount : Nat) (h : Holding) : Result (Holding × Option Nat) := do
  let total ← h.total
  require (amount ≤ total) (.vault .insufficientBalance)
  if amount ≤ h.available then pure ({ h with available := h.available - amount }, none)
  else pure ({ h with available := 0, withdrawing := total - amount }, none)

end Holding

structure Account where
  owner : Pubkey
  inboundChannelPolicy : InboundChannelPolicy
  blsSchemeVersion : U8
  blsPubkeyCompressed : List UInt8
  holdings : U16 → Option Holding

namespace Account

def opened (owner : Pubkey) : Account where
  owner
  inboundChannelPolicy := .consentRequired
  blsSchemeVersion := ParticipantBucketSlot.blsSchemeVersionUnregistered
  blsPubkeyCompressed := List.replicate blsPublicKeyCompressedSize 0
  holdings := fun _ => none

variable (a : Account) (tokenId : U16)

def put (h : Holding) : Account :=
  { a with holdings := Function.update a.holdings tokenId (some h) }

/-- Change the holding of a token, which must be there. -/
def modify (missing : VaultError) (f : Holding → Result (Holding × Option Nat)) :
    Result (Account × Option Nat) := do
  let h ← okOr (a.holdings tokenId) (.vault missing)
  let (h, r) ← f h
  pure (a.put tokenId h, r)

/-- There is a holding of the token, or fewer than sixteen of others. -/
def HasRoom : Prop :=
  (a.holdings tokenId).isSome = true ∨
    {t | (a.holdings t).isSome = true}.ncard < maxBucketTokenBalances

open scoped Classical in
noncomputable def credit (amount : Nat) : Result (Account × Option Nat) := do
  require (a.HasRoom tokenId) (.vault .tooManyTokenBalances)
  let h := (a.holdings tokenId).getD .empty
  let available ← addU64 h.available amount
  pure (a.put tokenId { h with available }, none)

end Account

structure ParticipantMap where
  bucketId : U32
  bump : U8
  accounts : U32 → Option Account

namespace ParticipantMap

variable (m : ParticipantMap) (participantId : U32) (tokenId : U16)

/-! ### Readers -/

def account : Result Account := do
  require (m.bucketId = ParticipantBucket.bucketIdForParticipantId participantId)
    (.vault .bucketAccountMismatch)
  okOr (m.accounts participantId) (.vault .participantNotFound)

def holding : Result Holding := do
  let a ← m.account participantId
  okOr (a.holdings tokenId) (.vault .tokenNotFound)

/-- A participant's total of a token, zero without a holding. -/
def totalOrZero : Result Nat := do
  let a ← m.account participantId
  match a.holdings tokenId with
  | none => .ok 0
  | some h => h.total

/-! ### Mutators -/

def setAccount (a : Account) : ParticipantMap :=
  { m with accounts := Function.update m.accounts participantId (some a) }

def modify (f : Account → Result (Account × Option Nat)) : Result (ParticipantMap × Option Nat) := do
  let a ← m.account participantId
  let (a, r) ← f a
  pure (m.setAccount participantId a, r)

end ParticipantMap

/-- A call of one of the raw mutators. -/
inductive Mutator where
  | initializeSlot (participantId : U32) (owner : Pubkey)
  | applyTokenDelta (participantId : U32) (tokenId : U16) (delta : Int)
  | debitTokenAvailable (participantId : U32) (tokenId : U16) (amount : U64)
  | initiateTokenWithdrawal (participantId : U32) (tokenId : U16) (amount : U64)
      (destination : Pubkey) (unlockAt : Int)
  | cancelTokenWithdrawal (participantId : U32) (tokenId : U16)
  | clearTokenWithdrawal (participantId : U32) (tokenId : U16)
  | writeInboundChannelPolicy (participantId : U32) (policy : InboundChannelPolicy)
  | writeBlsRegistration (participantId : U32) (blsSchemeVersion : U8)
      (blsPubkeyCompressed : Bytes blsPublicKeyCompressedSize)

namespace Mutator

def participantId : Mutator → U32
  | initializeSlot p _ | applyTokenDelta p _ _ | debitTokenAvailable p _ _
  | initiateTokenWithdrawal p _ _ _ _ | cancelTokenWithdrawal p _ | clearTokenWithdrawal p _
  | writeInboundChannelPolicy p _ | writeBlsRegistration p _ _ => p

/-- The token whose holding a call is about. -/
def tokenId : Mutator → Option U16
  | applyTokenDelta _ t _ | debitTokenAvailable _ t _ | initiateTokenWithdrawal _ t _ _ _
  | cancelTokenWithdrawal _ t | clearTokenWithdrawal _ t => some t
  | initializeSlot _ _ | writeInboundChannelPolicy _ _ | writeBlsRegistration _ _ _ => none

/-- What a call does to the map, and what it returns. -/
noncomputable def apply (m : ParticipantMap) : Mutator → Result (ParticipantMap × Option Nat)
  | initializeSlot p owner => do
      require (m.bucketId = ParticipantBucket.bucketIdForParticipantId p)
        (.vault .bucketAccountMismatch)
      require ((m.accounts p).isNone = true) (.vault .bucketSlotAlreadyInitialized)
      pure (m.setAccount p (.opened owner), none)
  | applyTokenDelta p t delta =>
      if delta = 0 then .ok (m, none)
      else m.modify p fun a => do
        let amount ← ParticipantBucketSlot.deltaToU64 delta
        if 0 < delta then a.credit t amount
        else a.modify t .insufficientBalance (Holding.debit amount)
  | debitTokenAvailable p t amount =>
      m.modify p (·.modify t .tokenNotFound (Holding.debitAvailable amount.val))
  | initiateTokenWithdrawal p t amount destination unlockAt =>
      m.modify p (·.modify t .tokenNotFound (Holding.initiate amount.val destination unlockAt))
  | cancelTokenWithdrawal p t => m.modify p (·.modify t .noWithdrawalPending Holding.cancel)
  | clearTokenWithdrawal p t => m.modify p (·.modify t .tokenNotFound Holding.clear)
  | writeInboundChannelPolicy p policy =>
      m.modify p fun a => .ok ({ a with inboundChannelPolicy := policy }, none)
  | writeBlsRegistration p blsSchemeVersion blsPubkeyCompressed =>
      m.modify p fun a => .ok ({ a with
        blsSchemeVersion, blsPubkeyCompressed := blsPubkeyCompressed.val }, none)

/-- What a call leaves of the account it is about: a call about a token all but that token's holding, a call about a field all but that field. -/
structure AccountFrame (c : Mutator) (a a' : Account) : Prop where
  holdings : ∀ t, c.tokenId ≠ some t → a'.holdings t = a.holdings t
  owner : a'.owner = a.owner
  policy : (∀ p policy, c ≠ writeInboundChannelPolicy p policy) →
    a'.inboundChannelPolicy = a.inboundChannelPolicy
  registration : (∀ p version key, c ≠ writeBlsRegistration p version key) →
    a'.blsSchemeVersion = a.blsSchemeVersion ∧ a'.blsPubkeyCompressed = a.blsPubkeyCompressed

/-- What a call leaves of the map. -/
structure Frame (c : Mutator) (m m' : ParticipantMap) : Prop where
  bucket : m'.bucketId = m.bucketId ∧ m'.bump = m.bump
  others : ∀ q, q ≠ c.participantId → m'.accounts q = m.accounts q
  account : ∀ a, m.accounts c.participantId = some a →
    ∃ a', m'.accounts c.participantId = some a' ∧ c.AccountFrame a a'

end Mutator

/-! ### An operation changes what stands under its own key -/

variable {m m' : ParticipantMap} {p : U32} {t : U16} {a a' : Account} {r : Option Nat} {c : Mutator}

theorem Account.modify_eq_ok {missing : VaultError} {f : Holding → Result (Holding × Option Nat)}
    (h : a.modify t missing f = .ok (a', r)) : ∃ holding, a' = a.put t holding := by
  simp only [Account.modify, Except.bind_eq_ok, Except.pure_eq_ok, Prod.mk.injEq, Prod.exists] at h
  obtain ⟨-, -, holding, -, -, rfl, -⟩ := h
  exact ⟨holding, rfl⟩

theorem Account.credit_eq_ok {amount : Nat} (h : a.credit t amount = .ok (a', r)) :
    ∃ holding, a' = a.put t holding := by
  simp only [Account.credit, Except.bind_eq_ok, Except.pure_eq_ok, Prod.mk.injEq] at h
  obtain ⟨-, -, -, -, rfl, -⟩ := h
  exact ⟨_, rfl⟩

theorem ParticipantMap.modify_eq_ok {f : Account → Result (Account × Option Nat)}
    (h : m.modify p f = .ok (m', r)) :
    ∃ a a', m.accounts p = some a ∧ f a = .ok (a', r) ∧ m' = m.setAccount p a' := by
  simp only [modify, account, Except.bind_eq_ok, require_eq_ok, exists_const, okOr_eq_ok,
    Except.pure_eq_ok, Prod.mk.injEq, Prod.exists] at h
  obtain ⟨a, ⟨-, ha⟩, a', r', hf, rfl, rfl⟩ := h
  exact ⟨a, a', ha, hf, rfl⟩

namespace Mutator

theorem frame_of_modify {f : Account → Result (Account × Option Nat)}
    (h : m.modify c.participantId f = .ok (m', r))
    (hf : ∀ a a', f a = .ok (a', r) → c.AccountFrame a a') : c.Frame m m' := by
  obtain ⟨a, a', ha, hfa, rfl⟩ := ParticipantMap.modify_eq_ok h
  refine ⟨⟨rfl, rfl⟩, fun q hq => Function.update_of_ne hq _ _, fun b hb => ?_⟩
  obtain rfl : a = b := Option.some.inj (ha.symm.trans hb)
  exact ⟨a', Function.update_self .., hf a a' hfa⟩

theorem accountFrame_put (ht : c.tokenId = some t) (holding : Holding) :
    c.AccountFrame a (a.put t holding) where
  holdings t' hne := Function.update_of_ne (fun h : t' = t => hne (h ▸ ht)) _ _
  owner := rfl
  policy _ := rfl
  registration _ := ⟨rfl, rfl⟩

/-- **Operations are framed.** -/
theorem frame_of_apply (h : c.apply m = .ok (m', r)) : c.Frame m m' := by
  have token : ∀ {t missing f} {c : Mutator}, c.tokenId = some t →
      ∀ a a', Account.modify a t missing f = .ok (a', r) → c.AccountFrame a a' := by
    intro t missing f c ht a a' hf
    obtain ⟨holding, rfl⟩ := Account.modify_eq_ok hf
    exact accountFrame_put ht holding
  cases c with
  | initializeSlot p owner =>
      simp only [apply, Except.bind_eq_ok, require_eq_ok, exists_const, Except.pure_eq_ok,
        Prod.mk.injEq, Option.isNone_iff_eq_none] at h
      obtain ⟨-, hnone, rfl, -⟩ := h
      exact ⟨⟨rfl, rfl⟩, fun q hq => Function.update_of_ne hq _ _,
        fun a ha => absurd (hnone.symm.trans ha) (by simp)⟩
  | applyTokenDelta p t delta =>
      rw [apply] at h
      by_cases hz : delta = 0
      · rw [if_pos hz, Except.ok.injEq, Prod.mk.injEq] at h
        obtain ⟨rfl, -⟩ := h
        exact ⟨⟨rfl, rfl⟩, fun _ _ => rfl,
          fun a ha => ⟨a, ha, ⟨fun _ _ => rfl, rfl, fun _ => rfl, fun _ => ⟨rfl, rfl⟩⟩⟩⟩
      · rw [if_neg hz] at h
        refine frame_of_modify h fun a a' hf => ?_
        rw [Except.bind_eq_ok] at hf
        obtain ⟨amount, -, hf⟩ := hf
        split at hf
        · obtain ⟨holding, rfl⟩ := Account.credit_eq_ok hf
          exact accountFrame_put rfl holding
        · exact token rfl a a' hf
  | debitTokenAvailable p t amount => exact frame_of_modify h (token rfl)
  | initiateTokenWithdrawal p t amount destination unlockAt => exact frame_of_modify h (token rfl)
  | cancelTokenWithdrawal p t => exact frame_of_modify h (token rfl)
  | clearTokenWithdrawal p t => exact frame_of_modify h (token rfl)
  | writeInboundChannelPolicy p policy =>
      refine frame_of_modify h fun a a' hf => ?_
      rw [Except.ok.injEq, Prod.mk.injEq] at hf
      obtain ⟨rfl, -⟩ := hf
      exact ⟨fun _ _ => rfl, rfl, fun hne => absurd rfl (hne p policy), fun _ => ⟨rfl, rfl⟩⟩
  | writeBlsRegistration p version key =>
      refine frame_of_modify h fun a a' hf => ?_
      rw [Except.ok.injEq, Prod.mk.injEq] at hf
      obtain ⟨rfl, -⟩ := hf
      exact ⟨fun _ _ => rfl, rfl, fun _ => rfl, fun hne => absurd rfl (hne p version key)⟩

end Mutator

end Ryvo
