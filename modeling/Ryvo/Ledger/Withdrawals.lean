import Ryvo.Ledger.Changes

/-!
# Ledger — Withdrawals

The record of a pending withdrawal is three fields of a row, and the moves that write it do not write all three: a settlement and a debit may drain the amount and leave the time and the destination.  What they leave is still a record (`WithdrawalRecord`), since nothing but a request adds to the amount.

* `SlotChange.record`, `SlotChange.distinct`: whatever a move makes of a slot keeps its records, and its rows one for each token.
* `TakesAll.recorded`: so moves whose requests have a time and a destination keep the records of a ledger.
-/

namespace Ryvo

/-- An amount that is being withdrawn has a time and a destination, and without a time there is neither an amount nor a destination. -/
structure WithdrawalRecord (e : BucketTokenBalance) : Prop where
  funded : 0 < e.withdrawingBalance →
    e.withdrawalUnlockAt ≠ 0 ∧ e.withdrawalDestination ≠ Pubkey.default
  idle : e.withdrawalUnlockAt = 0 →
    e.withdrawingBalance = 0 ∧ e.withdrawalDestination = Pubkey.default
  directed : e.withdrawalUnlockAt ≠ 0 → e.withdrawalDestination ≠ Pubkey.default

variable {e e' : BucketTokenBalance}

namespace WithdrawalRecord

theorem fresh (t : U16) : WithdrawalRecord (.fresh t) :=
  ⟨fun h => absurd h (lt_irrefl _), fun _ => ⟨rfl, rfl⟩, fun h => absurd rfl h⟩

theorem cleared (e : BucketTokenBalance) : WithdrawalRecord (ParticipantBucketSlot.cleared e) :=
  ⟨fun h => absurd h (lt_irrefl _), fun _ => ⟨rfl, rfl⟩, fun h => absurd rfl h⟩

/-- The amount may be drained. -/
theorem drained (h : WithdrawalRecord e) (hle : e'.withdrawingBalance ≤ e.withdrawingBalance)
    (hat : e'.withdrawalUnlockAt = e.withdrawalUnlockAt)
    (hto : e'.withdrawalDestination = e.withdrawalDestination) : WithdrawalRecord e' where
  funded h₀ := by
    rw [hat, hto]
    exact h.funded (lt_of_lt_of_le h₀ hle)
  idle h₀ := by
    rw [hat] at h₀
    obtain ⟨hn, hd⟩ := h.idle h₀
    exact ⟨Nat.le_zero.mp (hn ▸ hle), hto.trans hd⟩
  directed h₀ := by
    rw [hat] at h₀
    rw [hto]
    exact h.directed h₀

/-- A request puts a time and a destination in. -/
theorem requested (hat : e.withdrawalUnlockAt ≠ 0) (hto : e.withdrawalDestination ≠ Pubkey.default) :
    WithdrawalRecord e :=
  ⟨fun _ => ⟨hat, hto⟩, fun h => absurd h hat, fun _ => hto⟩

end WithdrawalRecord

/-- A request has a time and a destination. -/
def Move.Timed : Move → Prop
  | .request _ _ _ destination unlockAt => unlockAt ≠ 0 ∧ destination ≠ Pubkey.default
  | _ => True

namespace Ledger

open ParticipantBucketSlot

variable {L L' : Ledger} {t : U16} {p r : U32} {m : Move} {ms : List Move}
variable {s s' : ParticipantBucketSlot}

/-! ### Slots -/

theorem record_rewrite (h : Rewrites s s' t e') (hs : ∀ t, WithdrawalRecord (s.balance t))
    (he : WithdrawalRecord e') (t' : U16) : WithdrawalRecord (s'.balance t') := by
  by_cases ht : t' = t
  · subst ht
    rwa [h.balance]
  · rw [h.other t' ht]
    exact hs t'

theorem SlotChange.record (h : SlotChange r s s' m) (hm : m.Timed)
    (hs : ∀ t, WithdrawalRecord (s.balance t)) (t : U16) : WithdrawalRecord (s'.balance t) := by
  cases h with
  | keep h => exact h ▸ hs t
  | profile h =>
      rw [balance, tokenEntry, h.1]
      exact hs t
  | @delta _ t' n h =>
      have hd := appliedDelta h
      by_cases ht : t = t'
      · subst ht
        exact (hs t).drained hd.withdrawing_le hd.unlockAt hd.destination
      · rw [hd.balance_ne ht]
        exact hs t
  | debit h =>
      obtain ⟨-, hr⟩ := rewrites_debit h
      exact record_rewrite hr hs ((hs _).drained le_rfl rfl rfl) t
  | request h =>
      obtain ⟨-, -, hr⟩ := rewrites_initiate h
      exact record_rewrite hr hs (.requested hm.1 hm.2) t
  | cancel h => exact record_rewrite (rewrites_cancel h) hs (.cleared _) t
  | clear h => exact record_rewrite (rewrites_clear h) hs (.cleared _) t

/-- A change of a slot writes the row of one token, or none. -/
theorem SlotChange.writes (h : SlotChange r s s' m) : s'.tokenBalances = s.tokenBalances ∨
    ∃ t e, s' = s.put t e ∧ e.tokenId = t := by
  cases h with
  | keep h => exact .inl (by rw [h])
  | profile h => exact .inl h.1
  | @delta _ t n h =>
      rcases delta_cases n with rfl | ⟨n, hn, rfl⟩ | ⟨n, hn, rfl⟩
      · cases h
        exact .inl rfl
      · obtain ⟨-, -, rfl⟩ := (withTokenDelta_credit hn).mp h
        exact .inr ⟨t, _, rfl, by simp [BucketTokenBalance.credit]⟩
      · obtain ⟨e, he, -, -, rfl⟩ := (withTokenDelta_debit hn).mp h
        exact .inr ⟨t, _, rfl, by rw [BucketTokenBalance.drain_tokenId, tokenEntry_tokenId he]⟩
  | debit h =>
      obtain ⟨e, he, -, -, rfl⟩ := debitTokenAvailable_eq_ok.mp h
      have ht := tokenEntry_tokenId he
      exact .inr ⟨_, _, rfl, ht⟩
  | request h =>
      obtain ⟨e, he, -, -, -, rfl⟩ := initiateTokenWithdrawal_eq_ok.mp h
      have ht := tokenEntry_tokenId he
      exact .inr ⟨_, _, rfl, ht⟩
  | cancel h =>
      obtain ⟨e, he, -, -, -, rfl⟩ := cancelTokenWithdrawal_eq_ok.mp h
      have ht := tokenEntry_tokenId he
      exact .inr ⟨_, _, rfl, ht⟩
  | clear h =>
      obtain ⟨e, he, rfl⟩ := clearTokenWithdrawal_eq_ok.mp h
      have ht := tokenEntry_tokenId he
      exact .inr ⟨_, _, rfl, ht⟩

theorem SlotChange.distinct (h : SlotChange r s s' m) (hs : s.DistinctRows) : s'.DistinctRows := by
  rcases h.writes with he | ⟨t, e, rfl, ht⟩
  · rwa [DistinctRows, he]
  · exact hs.put ht

/-! ### Ledgers -/

/-- Each slot has one row a token, and a record in each. -/
def Recorded (L : Ledger) : Prop :=
  ∀ p s, L.slot p = some s → s.DistinctRows ∧ ∀ t, WithdrawalRecord (s.balance t)

theorem Takes.recorded (h : L.Takes m L') (hm : m.Timed) (hL : L.Recorded) : L'.Recorded := by
  intro r s' hs'
  cases hs : L.slot r with
  | none =>
      obtain ⟨owner, -, rfl⟩ := h.newSlot hs hs'
      refine ⟨distinctRows_fresh r owner, fun t => ?_⟩
      rw [balance_of_none (tokenEntry_fresh r owner t)]
      exact .fresh t
  | some s =>
      obtain ⟨s₁, hs₁, hc⟩ := h.slotChange hs
      obtain rfl := Option.some.inj (hs₁.symm.trans hs')
      obtain ⟨hd, hr⟩ := hL r s hs
      exact ⟨hc.distinct hd, hc.record hm hr⟩

theorem TakesAll.recorded (h : L.TakesAll ms L') (hm : ∀ m ∈ ms, m.Timed) (hL : L.Recorded) :
    L'.Recorded := by
  induction ms generalizing L with
  | nil => exact h ▸ hL
  | cons m ms ih =>
      obtain ⟨L₁, hmove, h⟩ := h
      exact ih h (fun x hx => hm x (.tail _ hx)) (hmove.recorded (hm m (.head _)) hL)

end Ledger

end Ryvo
