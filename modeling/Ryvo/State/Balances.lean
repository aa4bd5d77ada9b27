import Mathlib.Tactic.Ring
import Ryvo.State.ParticipantBucket

/-!
# State — Balances

What the operations on a token balance do, said in terms of the slot's `balance` for a token, where a token without a row counts as zero.

* `put` writes a token's row, in place or on the first free one.  It is read back at that token and nowhere else (`balance_put_self`, `balance_put_ne`), and leaves the slot's owner, id, policy and key alone (`SameProfile.put`).
* Each operation succeeds exactly under its stated checks and is then a `put`: `debitTokenAvailable_eq_ok` and the lemmas after it.
* `AppliedDelta` collects what a delta does, credit or debit: the sum of the two balances moves by exactly the delta, and `withdrawing` is touched only once `available` is drained.
-/

namespace Ryvo

namespace BucketTokenBalance

/-- What the participant can claim: `available + withdrawing`. -/
def total (e : BucketTokenBalance) : Nat := e.availableBalance + e.withdrawingBalance

/-- A debit drains `available` before it touches `withdrawing`. -/
def drain (e : BucketTokenBalance) (amount : Nat) : BucketTokenBalance :=
  if amount ≤ e.availableBalance then
    { e with availableBalance := e.availableBalance - amount }
  else
    { e with
      availableBalance := 0
      withdrawingBalance := e.withdrawingBalance - (amount - e.availableBalance) }

def credit (e : BucketTokenBalance) (amount : Nat) : BucketTokenBalance :=
  { e with availableBalance := e.availableBalance + amount }

theorem total_drain {e : BucketTokenBalance} {amount : Nat} (h : amount ≤ e.total) :
    (e.drain amount).total + amount = e.total := by
  unfold drain total at *
  split <;> simp only <;> omega

theorem withdrawing_drain_le (e : BucketTokenBalance) (amount : Nat) :
    (e.drain amount).withdrawingBalance ≤ e.withdrawingBalance := by
  unfold drain
  split <;> simp

theorem available_of_withdrawing_drain {e : BucketTokenBalance} {amount : Nat}
    (h : (e.drain amount).withdrawingBalance < e.withdrawingBalance) :
    (e.drain amount).availableBalance = 0 := by
  by_cases hle : amount ≤ e.availableBalance
  · simp [drain, hle] at h
  · simp [drain, hle]

@[simp] theorem drain_initialized (e : BucketTokenBalance) (amount : Nat) :
    (e.drain amount).initialized = e.initialized := by
  unfold drain; split <;> rfl

@[simp] theorem drain_tokenId (e : BucketTokenBalance) (amount : Nat) :
    (e.drain amount).tokenId = e.tokenId := by
  unfold drain; split <;> rfl

@[simp] theorem drain_unlockAt (e : BucketTokenBalance) (amount : Nat) :
    (e.drain amount).withdrawalUnlockAt = e.withdrawalUnlockAt := by
  unfold drain; split <;> rfl

@[simp] theorem drain_destination (e : BucketTokenBalance) (amount : Nat) :
    (e.drain amount).withdrawalDestination = e.withdrawalDestination := by
  unfold drain; split <;> rfl

@[simp] theorem credit_zero (e : BucketTokenBalance) : e.credit 0 = e := rfl

theorem credit_credit (e : BucketTokenBalance) (a b : Nat) :
    (e.credit a).credit b = e.credit (a + b) := by
  simp [credit, Nat.add_assoc]

theorem total_credit (e : BucketTokenBalance) (a : Nat) : (e.credit a).total = e.total + a := by
  simp only [total, credit]; omega

end BucketTokenBalance

namespace ParticipantBucketSlot

open BucketTokenBalance

variable {s s' : ParticipantBucketSlot} {t t' : U16} {e e' : BucketTokenBalance}

/-- The slots agree on everything but token balances. -/
structure SameProfile (s s' : ParticipantBucketSlot) : Prop where
  initialized : s'.initialized = s.initialized
  owner : s'.owner = s.owner
  participantId : s'.participantId = s.participantId
  inboundChannelPolicy : s'.inboundChannelPolicy = s.inboundChannelPolicy
  blsSchemeVersion : s'.blsSchemeVersion = s.blsSchemeVersion
  blsPubkeyCompressed : s'.blsPubkeyCompressed = s.blsPubkeyCompressed

theorem SameProfile.refl (s : ParticipantBucketSlot) : SameProfile s s :=
  ⟨rfl, rfl, rfl, rfl, rfl, rfl⟩

/-- The token's row, or the one it would get. -/
def balance (s : ParticipantBucketSlot) (t : U16) : BucketTokenBalance :=
  (s.tokenEntry t).getD (.fresh t)

/-- The token has a row or can get one. -/
def HasRoom (s : ParticipantBucketSlot) (t : U16) : Prop :=
  (s.tokenEntry t).isSome ∨ (Table.free (·.initialized) s.tokenBalances).isSome

/-- The row of `t`, or the free one it takes, becomes `e`. -/
def put (s : ParticipantBucketSlot) (t : U16) (e : BucketTokenBalance) : ParticipantBucketSlot :=
  match s.tokenEntryOffset t with
  | some i => s.setEntry i e
  | none =>
      match Table.free (·.initialized) s.tokenBalances with
      | some i => s.setEntry i e
      | none => s

/-! ### Reading back -/

theorem tokenEntry_initialized (h : s.tokenEntry t = some e) : e.initialized = true := by
  rw [tokenEntry] at h
  exact Table.lookup_used h

theorem tokenEntry_tokenId (h : s.tokenEntry t = some e) : e.tokenId = t := by
  rw [tokenEntry] at h
  exact Table.lookup_key h

theorem balance_of_tokenEntry (h : s.tokenEntry t = some e) : s.balance t = e := by
  simp [balance, h]

theorem balance_of_none (h : s.tokenEntry t = none) : s.balance t = .fresh t := by
  simp [balance, h]

@[simp] theorem balance_initialized (s : ParticipantBucketSlot) (t : U16) :
    (s.balance t).initialized = true := by
  cases h : s.tokenEntry t with
  | none => rw [balance_of_none h]; rfl
  | some e => rw [balance_of_tokenEntry h, tokenEntry_initialized h]

@[simp] theorem balance_tokenId (s : ParticipantBucketSlot) (t : U16) :
    (s.balance t).tokenId = t := by
  cases h : s.tokenEntry t with
  | none => rw [balance_of_none h]; rfl
  | some e => rw [balance_of_tokenEntry h, tokenEntry_tokenId h]

theorem tokenEntryOffset_isSome : (s.tokenEntryOffset t).isSome = (s.tokenEntry t).isSome := by
  simp [tokenEntry, Table.lookup, tokenEntryOffset]

theorem hasRoom_of_tokenEntry (h : s.tokenEntry t = some e) : s.HasRoom t := .inl (by simp [h])

/-- With room for the token, `put` writes one row that holds it. -/
theorem put_eq_setEntry (h : s.HasRoom t) (e : BucketTokenBalance) :
    ∃ i, Table.Holds (·.initialized) (·.tokenId) s.tokenBalances t i ∧ s.put t e = s.setEntry i e := by
  unfold put Table.Holds
  rw [← tokenEntryOffset]
  cases ho : s.tokenEntryOffset t with
  | some i => exact ⟨i, .inl rfl, rfl⟩
  | none =>
      cases hf : Table.free (·.initialized) s.tokenBalances with
      | some i => exact ⟨i, .inr ⟨rfl, rfl⟩, rfl⟩
      | none => simp [HasRoom, ← tokenEntryOffset_isSome, ho, hf] at h

theorem tokenEntry_put_self (h : s.HasRoom t) (hi : e.initialized = true) (ht : e.tokenId = t) :
    (s.put t e).tokenEntry t = some e := by
  obtain ⟨i, hh, hp⟩ := put_eq_setEntry h e
  rw [hp, tokenEntry, setEntry]
  exact Table.lookup_write hh hi ht

theorem put_of_not_hasRoom (h : ¬ s.HasRoom t) : s.put t e = s := by
  simp only [HasRoom, not_or, Bool.not_eq_true, ← tokenEntryOffset_isSome,
    Option.isSome_eq_false_iff, Option.isNone_iff_eq_none] at h
  simp [put, h.1, h.2]

theorem tokenEntry_put_ne (ht : e.tokenId = t) (hne : t' ≠ t) :
    (s.put t e).tokenEntry t' = s.tokenEntry t' := by
  by_cases h : s.HasRoom t
  · obtain ⟨i, hh, hp⟩ := put_eq_setEntry h e
    rw [hp, tokenEntry, setEntry, tokenEntry]
    exact Table.lookup_write_ne hh ht hne
  · rw [put_of_not_hasRoom h]

theorem balance_put_self (h : s.HasRoom t) (hi : e.initialized = true) (ht : e.tokenId = t) :
    (s.put t e).balance t = e := balance_of_tokenEntry (tokenEntry_put_self h hi ht)

theorem balance_put_ne (ht : e.tokenId = t) (hne : t' ≠ t) :
    (s.put t e).balance t' = s.balance t' := by
  simp only [balance, tokenEntry_put_ne ht hne]

theorem SameProfile.put (s : ParticipantBucketSlot) (t : U16) (e : BucketTokenBalance) :
    SameProfile s (s.put t e) := by
  unfold ParticipantBucketSlot.put
  split
  · exact ⟨rfl, rfl, rfl, rfl, rfl, rfl⟩
  · split <;> exact ⟨rfl, rfl, rfl, rfl, rfl, rfl⟩

/-- A second write under the same token replaces the first. -/
theorem put_put (h : s.HasRoom t) (hi : e.initialized = true) (ht : e.tokenId = t) :
    (s.put t e).put t e' = s.put t e' := by
  obtain ⟨i, hh, hp⟩ := put_eq_setEntry h e
  have hf : (s.setEntry i e).tokenEntryOffset t = some i := by
    rw [tokenEntryOffset, setEntry]
    exact Table.find_write hh hi ht
  have h₂ : (s.setEntry i e).put t e' = s.setEntry i e' := by
    simp only [ParticipantBucketSlot.put, hf]
    simp only [setEntry, Function.update_idem]
  have h₁ : s.put t e' = s.setEntry i e' := by
    rcases hh with ho | ⟨ho, hfree⟩
    · rw [← tokenEntryOffset] at ho
      simp only [ParticipantBucketSlot.put, ho]
    · rw [← tokenEntryOffset] at ho
      simp only [ParticipantBucketSlot.put, ho, hfree]
  rw [hp, h₂, h₁]

/-- A new slot has no rows. -/
theorem tokenEntry_fresh (p : U32) (owner : Pubkey) (t : U16) : (fresh p owner).tokenEntry t = none := by
  rw [tokenEntry, Table.lookup_eq_none, Table.find_eq_none]
  exact fun i h => Bool.false_ne_true h.1

/-- No two rows in use are for one token. -/
def DistinctRows (s : ParticipantBucketSlot) : Prop :=
  Table.Distinct (·.initialized) (·.tokenId) s.tokenBalances

theorem DistinctRows.put (hd : s.DistinctRows) (ht : e.tokenId = t) : (s.put t e).DistinctRows := by
  by_cases h : s.HasRoom t
  · obtain ⟨i, hh, hp⟩ := put_eq_setEntry h e
    rw [hp]
    exact hd.write hh ht
  · rwa [put_of_not_hasRoom h]

theorem distinctRows_fresh (p : U32) (owner : Pubkey) : (fresh p owner).DistinctRows :=
  fun _ _ hi => absurd hi Bool.false_ne_true

/-! ### What each operation does -/

section
variable {α : Type} {missing : VaultError} {f : BucketTokenBalance → Result (BucketTokenBalance × α)}

theorem withTokenEntry_of_none (h : s.tokenEntry t = none) :
    s.withTokenEntry t missing f = .error (.vault missing) := by
  have ho : s.tokenEntryOffset t = none := by
    rw [← Option.not_isSome_iff_eq_none, tokenEntryOffset_isSome, h]
    simp
  rw [withTokenEntry, ho]
  rfl

theorem withTokenEntry_of_some (h : s.tokenEntry t = some e) :
    s.withTokenEntry t missing f = (fun r => (s.put t r.1, r.2)) <$> f e := by
  cases ho : s.tokenEntryOffset t with
  | none =>
      have hsome := tokenEntryOffset_isSome (s := s) (t := t)
      rw [ho, h] at hsome
      cases hsome
  | some i =>
      have he : s.tokenEntry t = some (s.tokenBalances i) := by
        rw [tokenEntryOffset] at ho
        exact Table.lookup_of_find ho
      obtain rfl : s.tokenBalances i = e := Option.some.inj (he.symm.trans h)
      simp only [withTokenEntry, ho, okOr, Except.ok_bind, ParticipantBucketSlot.put]
      cases f (s.tokenBalances i) <;> rfl

theorem withTokenEntry_eq_ok {a : α} : s.withTokenEntry t missing f = .ok (s', a) ↔
    ∃ e e', s.tokenEntry t = some e ∧ f e = .ok (e', a) ∧ s' = s.put t e' := by
  cases he : s.tokenEntry t with
  | none => simp [withTokenEntry_of_none he]
  | some e =>
      simp only [withTokenEntry_of_some he, Except.map_eq_ok, Prod.exists, Prod.mk.injEq,
        Option.some.injEq]
      constructor
      · rintro ⟨e', a', hf, rfl, rfl⟩
        exact ⟨e, e', rfl, hf, rfl⟩
      · rintro ⟨_, e', rfl, hf, rfl⟩
        exact ⟨e', a, hf, rfl, rfl⟩

end

theorem debitTokenAvailable_eq_ok {amount n : Nat} :
    s.debitTokenAvailable t amount = .ok (s', n) ↔ ∃ e, s.tokenEntry t = some e ∧
      amount ≤ e.availableBalance ∧ n = e.availableBalance - amount ∧
      s' = s.put t { e with availableBalance := e.availableBalance - amount } := by
  simp only [debitTokenAvailable, withTokenEntry_eq_ok, Except.bind_eq_ok, require_eq_ok,
    exists_const, checkedSub_eq_ok, Except.pure_eq_ok, Prod.mk.injEq]
  constructor
  · rintro ⟨e, e', he, ⟨ha, n, ⟨rfl, -⟩, rfl, rfl⟩, rfl⟩
    exact ⟨e, he, ha, rfl, rfl⟩
  · rintro ⟨e, he, ha, rfl, rfl⟩
    exact ⟨e, _, he, ⟨ha, _, ⟨rfl, ha⟩, rfl, rfl⟩, rfl⟩

theorem initiateTokenWithdrawal_eq_ok {amount : Nat} {destination : Pubkey} {unlockAt : Int}
    {u : Unit} : s.initiateTokenWithdrawal t amount destination unlockAt = .ok (s', u) ↔
      ∃ e, s.tokenEntry t = some e ∧ e.withdrawalUnlockAt = 0 ∧ amount ≤ e.availableBalance ∧
        e.withdrawingBalance + amount < u64Bound ∧
        s' = s.put t { e with
          availableBalance := e.availableBalance - amount
          withdrawingBalance := e.withdrawingBalance + amount
          withdrawalUnlockAt := unlockAt
          withdrawalDestination := destination } := by
  simp only [initiateTokenWithdrawal, withTokenEntry_eq_ok, Except.bind_eq_ok, require_eq_ok,
    exists_const, checkedSub_eq_ok, checkedAdd_eq_ok, Except.pure_eq_ok, Prod.mk.injEq, and_true]
  constructor
  · rintro ⟨e, e', he, ⟨h₀, ha, _, ⟨rfl, -⟩, _, ⟨rfl, hw⟩, rfl⟩, rfl⟩
    exact ⟨e, he, h₀, ha, hw, rfl⟩
  · rintro ⟨e, he, h₀, ha, hw, rfl⟩
    exact ⟨e, _, he, ⟨h₀, ha, _, ⟨rfl, ha⟩, _, ⟨rfl, hw⟩, rfl⟩, rfl⟩

theorem cancelTokenWithdrawal_eq_ok {n : Nat} :
    s.cancelTokenWithdrawal t = .ok (s', n) ↔ ∃ e, s.tokenEntry t = some e ∧
      e.withdrawalUnlockAt ≠ 0 ∧ e.total < u64Bound ∧ n = e.withdrawingBalance ∧
      s' = s.put t (cleared { e with availableBalance := e.total }) := by
  simp only [cancelTokenWithdrawal, withTokenEntry_eq_ok, Except.bind_eq_ok, require_eq_ok,
    exists_const, checkedAdd_eq_ok, Except.pure_eq_ok, Prod.mk.injEq]
  constructor
  · rintro ⟨e, e', he, ⟨h₀, _, ⟨rfl, ht⟩, rfl, rfl⟩, rfl⟩
    exact ⟨e, he, h₀, ht, rfl, rfl⟩
  · rintro ⟨e, he, h₀, ht, rfl, rfl⟩
    exact ⟨e, _, he, ⟨h₀, _, ⟨rfl, ht⟩, rfl, rfl⟩, rfl⟩

theorem clearTokenWithdrawal_eq_ok {u : Unit} :
    s.clearTokenWithdrawal t = .ok (s', u) ↔
      ∃ e, s.tokenEntry t = some e ∧ s' = s.put t (cleared e) := by
  simp only [clearTokenWithdrawal, withTokenEntry_eq_ok, Except.ok.injEq, Prod.mk.injEq, and_true]
  constructor
  · rintro ⟨e, e', he, rfl, rfl⟩
    exact ⟨e, he, rfl⟩
  · rintro ⟨e, he, rfl⟩
    exact ⟨e, _, he, rfl, rfl⟩

theorem creditToken_of_hasRoom (h : s.HasRoom t) (amount : Nat) : s.creditToken t amount
    = (fun available => (s.put t { s.balance t with availableBalance := available }, ()))
        <$> addU64 (s.balance t).availableBalance amount := by
  unfold creditToken findOrCreateTokenEntryOffset
  cases ho : s.tokenEntryOffset t with
  | some i =>
      have he : s.tokenEntry t = some (s.tokenBalances i) := by
        rw [tokenEntryOffset] at ho
        exact Table.lookup_of_find ho
      simp only [Except.ok_bind, balance_of_tokenEntry he, ParticipantBucketSlot.put, ho]
      cases addU64 (s.tokenBalances i).availableBalance amount <;> rfl
  | none =>
      have he : s.tokenEntry t = none := by
        rw [← Option.not_isSome_iff_eq_none, ← tokenEntryOffset_isSome, ho]
        simp
      cases hf : Table.free (·.initialized) s.tokenBalances with
      | none => simp [HasRoom, he, hf] at h
      | some i =>
          simp only [Except.ok_bind, balance_of_none he, ParticipantBucketSlot.put, ho, hf, setEntry,
            Function.update_idem, Function.update_self]
          cases addU64 (BucketTokenBalance.fresh t).availableBalance amount <;> rfl

theorem creditToken_of_not_hasRoom (h : ¬ s.HasRoom t) (amount : Nat) :
    s.creditToken t amount = .error (.vault .tooManyTokenBalances) := by
  simp only [HasRoom, not_or, Bool.not_eq_true, ← tokenEntryOffset_isSome,
    Option.isSome_eq_false_iff, Option.isNone_iff_eq_none] at h
  rw [creditToken, findOrCreateTokenEntryOffset, h.1, h.2]
  rfl

theorem creditToken_eq_ok {amount : Nat} {u : Unit} :
    s.creditToken t amount = .ok (s', u) ↔
      s.HasRoom t ∧ (s.balance t).availableBalance + amount < u64Bound ∧
        s' = s.put t ((s.balance t).credit amount) := by
  by_cases h : s.HasRoom t
  · simp only [creditToken_of_hasRoom h, Except.map_eq_ok, checkedAdd_eq_ok, Prod.mk.injEq, and_true,
      h, true_and, credit]
    constructor
    · rintro ⟨_, ⟨rfl, hlt⟩, rfl⟩
      exact ⟨hlt, rfl⟩
    · rintro ⟨hlt, rfl⟩
      exact ⟨_, ⟨rfl, hlt⟩, rfl⟩
  · simp [creditToken_of_not_hasRoom h, h]

theorem drained_eq_ok {amount : Nat} :
    drained e amount = .ok e' ↔ e.total < u64Bound ∧ amount ≤ e.total ∧ e' = e.drain amount := by
  unfold drained
  by_cases hle : amount ≤ e.availableBalance
  · have hdrain : e.drain amount = { e with availableBalance := e.availableBalance - amount } := by
      simp [drain, hle]
    simp only [Except.bind_eq_ok, checkedAdd_eq_ok, require_eq_ok, exists_const, hle, if_true,
      Except.pure_eq_ok, hdrain, total]
    constructor
    · rintro ⟨_, ⟨rfl, ht⟩, ha, rfl⟩
      exact ⟨ht, ha, rfl⟩
    · rintro ⟨ht, ha, rfl⟩
      exact ⟨_, ⟨rfl, ht⟩, ha, rfl⟩
  · have hdrain : e.drain amount = { e with
        availableBalance := 0
        withdrawingBalance := e.withdrawingBalance - (amount - e.availableBalance) } := by
      simp [drain, hle]
    simp only [Except.bind_eq_ok, checkedAdd_eq_ok, require_eq_ok, exists_const, hle, if_false,
      checkedSub_eq_ok, Except.pure_eq_ok, hdrain, total]
    constructor
    · rintro ⟨_, ⟨rfl, ht⟩, ha, _, ⟨rfl, -⟩, rfl⟩
      exact ⟨ht, ha, rfl⟩
    · rintro ⟨ht, ha, rfl⟩
      exact ⟨_, ⟨rfl, ht⟩, ha, _, ⟨rfl, by omega⟩, rfl⟩

theorem debitToken_eq_ok {amount : Nat} {u : Unit} :
    s.debitToken t amount = .ok (s', u) ↔ ∃ e, s.tokenEntry t = some e ∧
      e.total < u64Bound ∧ amount ≤ e.total ∧ s' = s.put t (e.drain amount) := by
  simp only [debitToken, withTokenEntry_eq_ok, Except.bind_eq_ok, drained_eq_ok,
    Except.pure_eq_ok, Prod.mk.injEq, and_true]
  constructor
  · rintro ⟨e, e', he, ⟨_, ⟨ht, ha, rfl⟩, rfl⟩, rfl⟩
    exact ⟨e, he, ht, ha, rfl⟩
  · rintro ⟨e, he, ht, ha, rfl⟩
    exact ⟨e, _, he, ⟨_, ⟨ht, ha, rfl⟩, rfl⟩, rfl⟩

/-- `s'` is `s` with the balance of `t` rewritten to `e'`. -/
structure Rewrites (s s' : ParticipantBucketSlot) (t : U16) (e' : BucketTokenBalance) : Prop where
  profile : SameProfile s s'
  balance : s'.balance t = e'
  other : ∀ t', t' ≠ t → s'.balance t' = s.balance t'

/-- What a rewrite changes of the total of any token. -/
theorem Rewrites.total (h : Rewrites s s' t e') (t' : U16) : ((s'.balance t').total : Int)
    = (s.balance t').total + if t = t' then (e'.total - (s.balance t).total : Int) else 0 := by
  by_cases ht : t = t'
  · subst ht
    rw [h.balance, if_pos rfl]
    ring
  · rw [h.other t' (Ne.symm ht), if_neg ht, add_zero]

theorem rewrites_put (h : s.tokenEntry t = some e) (hi : e'.initialized = e.initialized)
    (ht : e'.tokenId = e.tokenId) : Rewrites s (s.put t e') t e' where
  profile := .put _ _ _
  balance := balance_put_self (hasRoom_of_tokenEntry h) (hi.trans (tokenEntry_initialized h))
    (ht.trans (tokenEntry_tokenId h))
  other _ hne := balance_put_ne (ht.trans (tokenEntry_tokenId h)) hne

theorem rewrites_debit {amount n : Nat} (h : s.debitTokenAvailable t amount = .ok (s', n)) :
    amount ≤ (s.balance t).availableBalance ∧ Rewrites s s' t { s.balance t with
      availableBalance := (s.balance t).availableBalance - amount } := by
  obtain ⟨e, he, ha, -, rfl⟩ := debitTokenAvailable_eq_ok.mp h
  rw [balance_of_tokenEntry he]
  exact ⟨ha, rewrites_put he rfl rfl⟩

theorem rewrites_initiate {amount : Nat} {destination : Pubkey} {unlockAt : Int} {u : Unit}
    (h : s.initiateTokenWithdrawal t amount destination unlockAt = .ok (s', u)) :
    (s.balance t).withdrawalUnlockAt = 0 ∧ amount ≤ (s.balance t).availableBalance ∧
      Rewrites s s' t { s.balance t with
        availableBalance := (s.balance t).availableBalance - amount
        withdrawingBalance := (s.balance t).withdrawingBalance + amount
        withdrawalUnlockAt := unlockAt
        withdrawalDestination := destination } := by
  obtain ⟨e, he, h₀, ha, -, rfl⟩ := initiateTokenWithdrawal_eq_ok.mp h
  rw [balance_of_tokenEntry he]
  exact ⟨h₀, ha, rewrites_put he rfl rfl⟩

theorem rewrites_cancel {n : Nat} (h : s.cancelTokenWithdrawal t = .ok (s', n)) :
    Rewrites s s' t (cleared { s.balance t with availableBalance := (s.balance t).total }) := by
  obtain ⟨e, he, -, -, -, rfl⟩ := cancelTokenWithdrawal_eq_ok.mp h
  rw [balance_of_tokenEntry he]
  exact rewrites_put he rfl rfl

theorem rewrites_clear {u : Unit} (h : s.clearTokenWithdrawal t = .ok (s', u)) :
    Rewrites s s' t (cleared (s.balance t)) := by
  obtain ⟨e, he, rfl⟩ := clearTokenWithdrawal_eq_ok.mp h
  rw [balance_of_tokenEntry he]
  exact rewrites_put he rfl rfl

theorem total_debit {amount n : Nat} (h : s.debitTokenAvailable t amount = .ok (s', n)) (t' : U16) :
    ((s'.balance t').total : Int) = (s.balance t').total + if t = t' then -(amount : Int) else 0 := by
  obtain ⟨hle, hr⟩ := rewrites_debit h
  rw [hr.total]
  simp only [BucketTokenBalance.total]
  split <;> omega

theorem total_initiate {amount : Nat} {destination : Pubkey} {unlockAt : Int} {u : Unit}
    (h : s.initiateTokenWithdrawal t amount destination unlockAt = .ok (s', u)) (t' : U16) :
    (s'.balance t').total = (s.balance t').total := by
  obtain ⟨-, hle, hr⟩ := rewrites_initiate h
  have := hr.total t'
  simp only [BucketTokenBalance.total] at *
  split at this <;> omega

theorem total_cancel {n : Nat} (h : s.cancelTokenWithdrawal t = .ok (s', n)) (t' : U16) :
    (s'.balance t').total = (s.balance t').total := by
  have := (rewrites_cancel h).total t'
  simp only [BucketTokenBalance.total, cleared] at *
  split at this <;> omega

theorem total_clear {u : Unit} (h : s.clearTokenWithdrawal t = .ok (s', u)) (t' : U16) :
    ((s'.balance t').total : Int) = (s.balance t').total
      + if t = t' then -((s.balance t).withdrawingBalance : Int) else 0 := by
  rw [(rewrites_clear h).total]
  simp only [BucketTokenBalance.total, cleared]
  split <;> omega

/-! ### Deltas -/

/-- `apply_token_delta_in_data` on the slot: a zero delta changes nothing. -/
def withTokenDelta (s : ParticipantBucketSlot) (t : U16) (delta : Int) :
    Result ParticipantBucketSlot :=
  if delta = 0 then .ok s else (·.1) <$> s.applyTokenDelta t delta

@[simp] theorem withTokenDelta_zero (s : ParticipantBucketSlot) (t : U16) :
    s.withTokenDelta t 0 = .ok s := rfl

theorem withTokenDelta_credit {n : Nat} (h : 0 < n) :
    s.withTokenDelta t n = .ok s' ↔ s.HasRoom t ∧
      (s.balance t).availableBalance + n < u64Bound ∧ s' = s.put t ((s.balance t).credit n) := by
  have h0 : (n : Int) ≠ 0 := by omega
  have hpos : (0 : Int) < n := by omega
  simp only [withTokenDelta, h0, if_false, applyTokenDelta, deltaToU64, Except.map_eq_ok,
    Except.bind_eq_ok, tryFrom_eq_ok, Int.natAbs_natCast, hpos, if_true, Prod.exists,
    creditToken_eq_ok, exists_and_right, exists_eq_right, exists_const]
  constructor
  · rintro ⟨_, ⟨rfl, -⟩, hr, ha, rfl⟩
    exact ⟨hr, ha, rfl⟩
  · rintro ⟨hr, ha, rfl⟩
    exact ⟨_, ⟨rfl, by omega⟩, hr, ha, rfl⟩

/-- What is credited becomes available. -/
theorem balance_of_credit {n : Nat} (h : s.withTokenDelta t n = .ok s') :
    s'.balance t = (s.balance t).credit n := by
  rcases Nat.eq_zero_or_pos n with rfl | hn
  · cases h
    exact (credit_zero _).symm
  · obtain ⟨hr, -, rfl⟩ := (withTokenDelta_credit hn).mp h
    exact balance_put_self hr (by simp [credit]) (by simp [credit])

theorem withTokenDelta_debit {n : Nat} (h : 0 < n) :
    s.withTokenDelta t (-n) = .ok s' ↔ ∃ e, s.tokenEntry t = some e ∧ e.total < u64Bound ∧
      n ≤ e.total ∧ s' = s.put t (e.drain n) := by
  have h0 : (-n : Int) ≠ 0 := by omega
  have hpos : ¬ (0 : Int) < -n := by omega
  simp only [withTokenDelta, h0, if_false, applyTokenDelta, deltaToU64, Except.map_eq_ok,
    Except.bind_eq_ok, tryFrom_eq_ok, Int.natAbs_neg, Int.natAbs_natCast, hpos, Prod.exists,
    debitToken_eq_ok, exists_eq_right, exists_const]
  constructor
  · rintro ⟨_, ⟨rfl, -⟩, e, he, ht, ha, rfl⟩
    exact ⟨e, he, ht, ha, rfl⟩
  · rintro ⟨e, he, ht, ha, rfl⟩
    exact ⟨_, ⟨rfl, by omega⟩, e, he, ht, ha, rfl⟩

/-- What a delta on token `t` does to a slot. -/
structure AppliedDelta (s s' : ParticipantBucketSlot) (t : U16) (delta : Int) : Prop where
  profile : SameProfile s s'
  total : ((s'.balance t).total : Int) = (s.balance t).total + delta
  other : ∀ t', t' ≠ t → s'.tokenEntry t' = s.tokenEntry t'
  withdrawing_le : (s'.balance t).withdrawingBalance ≤ (s.balance t).withdrawingBalance
  drained : (s'.balance t).withdrawingBalance < (s.balance t).withdrawingBalance →
    (s'.balance t).availableBalance = 0
  unlockAt : (s'.balance t).withdrawalUnlockAt = (s.balance t).withdrawalUnlockAt
  destination : (s'.balance t).withdrawalDestination = (s.balance t).withdrawalDestination

theorem AppliedDelta.refl (s : ParticipantBucketSlot) (t : U16) : AppliedDelta s s t 0 where
  profile := .refl s
  total := by simp
  other _ _ := rfl
  withdrawing_le := le_rfl
  drained h := absurd h (lt_irrefl _)
  unlockAt := rfl
  destination := rfl

theorem appliedDelta_credit {n : Nat} (h : s.HasRoom t) :
    AppliedDelta s (s.put t ((s.balance t).credit n)) t n := by
  have hb : (s.put t ((s.balance t).credit n)).balance t = (s.balance t).credit n :=
    balance_put_self h (by simp [credit]) (by simp [credit])
  refine ⟨.put _ _ _, ?_, fun t' ht => tokenEntry_put_ne (by simp [credit]) ht, ?_, ?_, ?_, ?_⟩
  · rw [hb, total_credit]; push_cast; rfl
  · rw [hb]; exact le_rfl
  · rw [hb]; exact fun h => absurd h (lt_irrefl _)
  · rw [hb]; rfl
  · rw [hb]; rfl

theorem appliedDelta_debit {n : Nat} (h : s.tokenEntry t = some e) (hn : n ≤ e.total) :
    AppliedDelta s (s.put t (e.drain n)) t (-n) := by
  have hi := tokenEntry_initialized h
  have ht := tokenEntry_tokenId h
  have hb : (s.put t (e.drain n)).balance t = e.drain n :=
    balance_put_self (hasRoom_of_tokenEntry h) (by simp [hi]) (by simp [ht])
  have htot := total_drain hn
  refine ⟨.put _ _ _, ?_, fun t' ht' => tokenEntry_put_ne (by simp [ht]) ht', ?_, ?_, ?_, ?_⟩
  · rw [hb, balance_of_tokenEntry h]; omega
  · rw [hb, balance_of_tokenEntry h]; exact withdrawing_drain_le _ _
  · rw [hb, balance_of_tokenEntry h]; exact available_of_withdrawing_drain
  · rw [hb, balance_of_tokenEntry h, drain_unlockAt]
  · rw [hb, balance_of_tokenEntry h, drain_destination]

/-- An integer is zero, a credit or a debit. -/
theorem delta_cases (delta : Int) :
    delta = 0 ∨ (∃ n : Nat, 0 < n ∧ delta = n) ∨ ∃ n : Nat, 0 < n ∧ delta = -n := by
  rcases lt_trichotomy delta 0 with h | h | h
  · exact .inr (.inr ⟨delta.natAbs, by omega, by omega⟩)
  · exact .inl h
  · exact .inr (.inl ⟨delta.natAbs, by omega, by omega⟩)

theorem appliedDelta {delta : Int} (h : s.withTokenDelta t delta = .ok s') :
    AppliedDelta s s' t delta := by
  rcases delta_cases delta with rfl | ⟨n, hn, rfl⟩ | ⟨n, hn, rfl⟩
  · cases h; exact .refl s t
  · obtain ⟨hr, -, rfl⟩ := (withTokenDelta_credit hn).mp h
    exact appliedDelta_credit hr
  · obtain ⟨e, he, -, ha, rfl⟩ := (withTokenDelta_debit hn).mp h
    exact appliedDelta_debit he ha

theorem AppliedDelta.balance_ne {delta : Int} (h : AppliedDelta s s' t delta) (hne : t' ≠ t) :
    s'.balance t' = s.balance t' := by
  simp only [balance, h.other t' hne]

/-- What a delta changes of the total of any token. -/
theorem AppliedDelta.total_eq {delta : Int} (h : AppliedDelta s s' t delta) (t' : U16) :
    ((s'.balance t').total : Int) = (s.balance t').total + if t = t' then delta else 0 := by
  by_cases ht : t = t'
  · subst ht
    rw [h.total, if_pos rfl]
  · rw [h.balance_ne (Ne.symm ht), if_neg ht, add_zero]

/-- Two credits of one token are one credit of their sum. -/
theorem withTokenDelta_add {a b : Nat} :
    s.withTokenDelta t (a + b : Nat) = .ok s' ↔
      ∃ s₁, s.withTokenDelta t a = .ok s₁ ∧ s₁.withTokenDelta t b = .ok s' := by
  rcases Nat.eq_zero_or_pos a with rfl | ha
  · simp
  rcases Nat.eq_zero_or_pos b with rfl | hb
  · simp
  simp only [withTokenDelta_credit ha, withTokenDelta_credit hb,
    withTokenDelta_credit (Nat.add_pos_left ha b)]
  have hput : ∀ h : s.HasRoom t, (s.put t ((s.balance t).credit a)).balance t
      = (s.balance t).credit a := fun h =>
    balance_put_self h (by simp [credit]) (by simp [credit])
  have hroom : ∀ h : s.HasRoom t, (s.put t ((s.balance t).credit a)).HasRoom t := fun h =>
    hasRoom_of_tokenEntry (tokenEntry_put_self h (by simp [credit]) (by simp [credit]))
  have hpp : ∀ h : s.HasRoom t, (s.put t ((s.balance t).credit a)).put t
      ((s.balance t).credit (a + b)) = s.put t ((s.balance t).credit (a + b)) := fun h =>
    put_put h (by simp [credit]) (by simp [credit])
  constructor
  · rintro ⟨hr, hlt, rfl⟩
    refine ⟨_, ⟨hr, by omega, rfl⟩, hroom hr, ?_, ?_⟩
    · rw [hput hr]; simp only [credit]; omega
    · rw [hput hr, credit_credit, hpp hr]
  · rintro ⟨_, ⟨hr, -, rfl⟩, -, hlt, rfl⟩
    rw [hput hr] at hlt ⊢
    refine ⟨hr, ?_, ?_⟩
    · simp only [credit] at hlt; omega
    · rw [credit_credit, hpp hr]

end ParticipantBucketSlot

end Ryvo
