import Ryvo.State.Slots
import Ryvo.Support.Sums

/-!
# Ledger — Positions

What the program keeps books on, without the accounts it keeps them in: a slot for each participant and a lane for each token, payer and payee.

* `Settles` is a settlement, whichever instruction makes it: each lane entry raises its lane to the target, the lane's collateral first, and each participant's balance moves by its net.
* `claim` is what a participant has a claim to in a token: its balance and the collateral of its lanes.  `Settles.claim` says that a settlement moves exactly the amounts paid, and `Settles.claims` that it creates and destroys nothing.
-/

namespace Ryvo

open Finset

structure Ledger where
  slot : U32 → Option ParticipantBucketSlot
  lane : U16 → U32 → U32 → Option DirectionalLaneState

namespace Ledger

variable {L L' : Ledger} {t t' : U16} {p q p' q' : U32}
variable {s s' : ParticipantBucketSlot} {l l' : DirectionalLaneState}

@[ext] theorem ext' (hs : ∀ p, L.slot p = L'.slot p) (hl : ∀ t p q, L.lane t p q = L'.lane t p q) :
    L = L' := by
  cases L
  cases L'
  simp only [mk.injEq]
  exact ⟨funext hs, funext fun t => funext fun p => funext fun q => hl t p q⟩

def setSlot (L : Ledger) (p : U32) (s : ParticipantBucketSlot) : Ledger :=
  { L with slot := Function.update L.slot p (some s) }

def setLane (L : Ledger) (t : U16) (p q : U32) (l : DirectionalLaneState) : Ledger :=
  { L with
    lane := fun t' p' q' => if t' = t ∧ p' = p ∧ q' = q then some l else L.lane t' p' q' }

@[simp] theorem slot_setSlot_self : (L.setSlot p s).slot p = some s := by simp [setSlot]

theorem slot_setSlot_ne (h : q ≠ p) : (L.setSlot p s).slot q = L.slot q := by simp [setSlot, h]

@[simp] theorem lane_setSlot : (L.setSlot p s).lane = L.lane := rfl

@[simp] theorem slot_setLane : (L.setLane t p q l).slot = L.slot := rfl

@[simp] theorem lane_setLane_self : (L.setLane t p q l).lane t p q = some l := by simp [setLane]

theorem lane_setLane_ne (h : ¬ (t' = t ∧ p' = p ∧ q' = q)) :
    (L.setLane t p q l).lane t' p' q' = L.lane t' p' q' := by simp [setLane, h]

theorem setSlot_eq_self (h : L.slot p = some s) : L.setSlot p s = L := by
  cases L
  simp only [setSlot, mk.injEq, and_true]
  exact Function.update_eq_self_iff.mpr h.symm

theorem setSlot_comm (h : p ≠ q) : (L.setSlot p s).setSlot q s' = (L.setSlot q s').setSlot p s := by
  simp [setSlot, Function.update_comm h]

theorem setSlot_setSlot : (L.setSlot p s).setSlot p s' = L.setSlot p s' := by
  simp [setSlot]

/-! ### Claims -/

/-- `available + withdrawing`; a participant without a slot has nothing. -/
def total (L : Ledger) (t : U16) (p : U32) : Nat := (L.slot p).elim 0 fun s => (s.balance t).total

/-- `locked_balance`; a lane that was not created has nothing. -/
def locked (L : Ledger) (t : U16) (p q : U32) : Nat := (L.lane t p q).elim 0 (·.lockedBalance)

/-- Everything a participant has a claim to in a token. -/
def claim (L : Ledger) (t : U16) (p : U32) : Nat := L.total t p + ∑ q, L.locked t p q

/-- Everything anybody has a claim to in a token. -/
def claims (L : Ledger) (t : U16) : Nat := ∑ p, L.claim t p

theorem total_of_slot (h : L.slot p = some s) : L.total t p = (s.balance t).total := by
  simp [total, h]

theorem locked_of_lane (h : L.lane t p q = some l) : L.locked t p q = l.lockedBalance := by
  simp [locked, h]

theorem total_setSlot : (L.setSlot p s).total t = Function.update (L.total t) p (s.balance t).total := by
  funext q
  by_cases h : q = p
  · subst h; simp [total]
  · simp [total, slot_setSlot_ne h, Function.update_of_ne h]

@[simp] theorem locked_setSlot : (L.setSlot p s).locked = L.locked := rfl

@[simp] theorem total_setLane : (L.setLane t' p q l).total = L.total := rfl

theorem locked_setLane_self : (L.setLane t p q l).locked t p
    = Function.update (L.locked t p) q l.lockedBalance := by
  funext r
  by_cases h : r = q
  · subst h; simp [locked]
  · rw [Function.update_of_ne h, locked, lane_setLane_ne (by tauto), locked]

theorem locked_setLane_ne (h : ¬ (t' = t ∧ p' = p)) :
    (L.setLane t p q l).locked t' p' = L.locked t' p' := by
  funext r
  rw [locked, lane_setLane_ne (by tauto), locked]

theorem total_le_claim (L : Ledger) (t : U16) (p : U32) : L.total t p ≤ L.claim t p :=
  Nat.le_add_right _ _

theorem locked_add_total_le_claim (L : Ledger) (t : U16) (p q : U32) :
    L.locked t p q + L.total t p ≤ L.claim t p := by
  have := le_sum (L.locked t p) q
  simp only [claim]
  omega

theorem claim_le_claims (L : Ledger) (t : U16) (p : U32) : L.claim t p ≤ L.claims t :=
  le_sum (L.claim t) p

-- A number that unfolds to a sum over all participants is not to be computed when terms are compared.
attribute [irreducible] claim claims

/-- The claim of a participant whose slot is rewritten. -/
theorem claim_setSlot_self (h : L.slot p = some s) :
    ((L.setSlot p s').claim t p : Int)
      = L.claim t p + ((s'.balance t).total - (s.balance t).total : Int) := by
  simp only [claim, total_setSlot, locked_setSlot, Function.update_self, total_of_slot h]
  push_cast
  ring

theorem claim_setSlot_ne (h : q ≠ p) : (L.setSlot p s).claim t q = L.claim t q := by
  simp only [claim, total_setSlot, locked_setSlot, Function.update_of_ne h]

/-- The claim of a payer whose lane is rewritten. -/
theorem claim_setLane_self : ((L.setLane t p q l).claim t p : Int)
    = L.claim t p + (l.lockedBalance - L.locked t p q : Int) := by
  have h := sum_update (L.locked t p) q l.lockedBalance
  simp only [claim, total_setLane, locked_setLane_self]
  omega

theorem claim_setLane_ne (h : ¬ (t' = t ∧ p' = p)) :
    (L.setLane t p q l).claim t' p' = L.claim t' p' := by
  simp only [claim, total_setLane, locked_setLane_ne h]

end Ledger

/-! ### Settlements -/

/-- One lane of a settlement, and the cumulative amount it is settled to. -/
structure LaneEntry where
  payer : U32
  payee : U32
  target : Nat
  deriving DecidableEq

/-- The lane an entry names. -/
def LaneEntry.lane (e : LaneEntry) : U32 × U32 := (e.payer, e.payee)

namespace Ledger

variable {L L' L'' : Ledger} {t t' : U16} {p q p' q' : U32}
variable {s s' : ParticipantBucketSlot} {l l' : DirectionalLaneState}
variable {e : LaneEntry} {es es' : List LaneEntry}

/-- `settled_cumulative`; a lane that was not created has settled nothing. -/
def settledCumulative (L : Ledger) (t : U16) (p q : U32) : Nat :=
  (L.lane t p q).elim 0 (·.settledCumulative)

/-- What the entry pays. -/
def delta (L : Ledger) (t : U16) (e : LaneEntry) : Nat :=
  e.target - L.settledCumulative t e.payer e.payee

/-- The part of it the lane's collateral pays. -/
def used (L : Ledger) (t : U16) (e : LaneEntry) : Nat :=
  min (L.locked t e.payer e.payee) (L.delta t e)

/-- The lane, settled. -/
def settledLane (l : DirectionalLaneState) (target : Nat) : DirectionalLaneState :=
  l.settled target (min l.lockedBalance (target - l.settledCumulative))

/-- What the entries pay a participant. -/
def paidTo (L : Ledger) (t : U16) (es : List LaneEntry) (p : U32) : Nat :=
  keyed (·.payee) (L.delta t) es p

/-- What the entries cost a participant, collateral included. -/
def paidBy (L : Ledger) (t : U16) (es : List LaneEntry) (p : U32) : Nat :=
  keyed (·.payer) (L.delta t) es p

/-- What the entries cost a participant beyond collateral. -/
def uncoveredBy (L : Ledger) (t : U16) (es : List LaneEntry) (p : U32) : Nat :=
  keyed (·.payer) (fun e => L.delta t e - L.used t e) es p

/-- What the entries change a participant's balance by. -/
def net (L : Ledger) (t : U16) (es : List LaneEntry) (p : U32) : Int :=
  L.paidTo t es p - L.uncoveredBy t es p

/-- A settlement of the entries in token `t`. -/
structure Settles (L : Ledger) (t : U16) (es : List LaneEntry) (L' : Ledger) : Prop where
  nodup : (es.map LaneEntry.lane).Nodup
  lanes : ∀ e ∈ es, ∃ l, L.lane t e.payer e.payee = some l ∧ l.settledCumulative < e.target ∧
    L'.lane t e.payer e.payee = some (settledLane l e.target)
  otherLanes : ∀ t' p q, ¬ (t' = t ∧ (p, q) ∈ es.map LaneEntry.lane) →
    L'.lane t' p q = L.lane t' p q
  slots : ∀ p s, L.slot p = some s → ∃ s', L'.slot p = some s' ∧
    s.withTokenDelta t (L.net t es p) = .ok s'
  noSlot : ∀ p, L.slot p = none → L'.slot p = none
  known : ∀ e ∈ es, e.payer ≠ e.payee ∧ (L.slot e.payer).isSome ∧ (L.slot e.payee).isSome

theorem used_le_delta (L : Ledger) (t : U16) (e : LaneEntry) : L.used t e ≤ L.delta t e :=
  min_le_right _ _

theorem used_le_locked (L : Ledger) (t : U16) (e : LaneEntry) :
    L.used t e ≤ L.locked t e.payer e.payee := min_le_left _ _

/-- A participant no entry names has no net. -/
theorem net_eq_zero (h : ∀ e ∈ es, e.payer ≠ p ∧ e.payee ≠ p) : L.net t es p = 0 := by
  rw [net, paidTo, uncoveredBy, keyed_eq_zero fun e he => (h e he).2,
    keyed_eq_zero fun e he => (h e he).1]
  rfl

/-- The order of the entries does not matter to the nets. -/
theorem net_perm (h : es.Perm es') (p : U32) : L.net t es p = L.net t es' p := by
  simp only [net, paidTo, uncoveredBy, keyed_perm h]

theorem Settles.delta_pos (h : Settles L t es L') (he : e ∈ es) : 0 < L.delta t e := by
  obtain ⟨l, hl, hlt, -⟩ := h.lanes e he
  simp only [delta, settledCumulative, hl, Option.elim_some]
  omega

/-- A lane is named or left alone. -/
theorem Settles.lane_cases (h : Settles L t es L') (t' : U16) (p q : U32) :
    L'.lane t' p q = L.lane t' p q ∨ ∃ e ∈ es, t' = t ∧ e.payer = p ∧ e.payee = q := by
  by_cases hm : t' = t ∧ (p, q) ∈ es.map LaneEntry.lane
  · obtain ⟨rfl, hm⟩ := hm
    obtain ⟨e, he, hk⟩ := List.mem_map.mp hm
    simp only [LaneEntry.lane, Prod.mk.injEq] at hk
    exact .inr ⟨e, he, rfl, hk.1, hk.2⟩
  · exact .inl (h.otherLanes t' p q hm)

/-- Collateral falls by what each entry uses of it. -/
theorem Settles.locked (h : Settles L t es L') (p q : U32) :
    L'.locked t p q + keyed LaneEntry.lane (L.used t) es (p, q) = L.locked t p q := by
  by_cases hm : (p, q) ∈ es.map LaneEntry.lane
  · obtain ⟨e, he, hk⟩ := List.mem_map.mp hm
    have hu := keyed_of_mem (f := L.used t) h.nodup he
    rw [hk] at hu
    simp only [LaneEntry.lane, Prod.mk.injEq] at hk
    obtain ⟨rfl, rfl⟩ := hk
    obtain ⟨l, hl, -, hl'⟩ := h.lanes e he
    rw [hu, locked_of_lane hl', locked_of_lane hl, used, locked_of_lane hl, delta, settledCumulative,
      hl, Option.elim_some, settledLane]
    exact Nat.sub_add_cancel (min_le_left _ _)
  · rw [keyed_eq_zero fun e he hk => hm (List.mem_map.mpr ⟨e, he, hk⟩), add_zero,
      Ledger.locked, h.otherLanes t p q (by tauto), Ledger.locked]

theorem Settles.total (h : Settles L t es L') (p : U32) (hp : (L.slot p).isSome) :
    (L'.total t p : Int) = L.total t p + L.net t es p := by
  obtain ⟨s, hs⟩ := Option.isSome_iff_exists.mp hp
  obtain ⟨s', hs', hd⟩ := h.slots p s hs
  rw [total_of_slot hs, total_of_slot hs']
  exact (ParticipantBucketSlot.appliedDelta hd).total

theorem Settles.net_of_none (h : Settles L t es L') (hp : L.slot p = none) : L.net t es p = 0 := by
  refine net_eq_zero fun e he => ⟨?_, ?_⟩
  · rintro rfl
    simpa [hp] using (h.known e he).2.1
  · rintro rfl
    simpa [hp] using (h.known e he).2.2

theorem Settles.total_eq (h : Settles L t es L') (p : U32) :
    (L'.total t p : Int) = L.total t p + L.net t es p := by
  cases hp : L.slot p with
  | some s => exact h.total p (by simp [hp])
  | none => simp [Ledger.total, hp, h.noSlot p hp, h.net_of_none hp]

theorem uncoveredBy_add_used (L : Ledger) (t : U16) (es : List LaneEntry) (p : U32) :
    L.uncoveredBy t es p + keyed (·.payer) (L.used t) es p = L.paidBy t es p := by
  induction es with
  | nil => rfl
  | cons e es ih =>
      have := L.used_le_delta t e
      simp only [uncoveredBy, paidBy, keyed_cons] at *
      split <;> omega

theorem net_append : L.net t (es ++ es') p = L.net t es p + L.net t es' p := by
  simp only [net, paidTo, uncoveredBy, keyed_append]
  push_cast
  ring

/-- What the entries pay together. -/
def gross (L : Ledger) (t : U16) (es : List LaneEntry) : Nat := (es.map (L.delta t)).sum

theorem gross_append : L.gross t (es ++ es') = L.gross t es + L.gross t es' := by
  simp [gross]

theorem gross_perm (h : es.Perm es') : L.gross t es = L.gross t es' := (h.map _).sum_eq

/-- No net leaves the range of what is paid together. -/
theorem net_le_gross (L : Ledger) (t : U16) (es : List LaneEntry) (p : U32) :
    L.net t es p ≤ L.gross t es ∧ -(L.gross t es : Int) ≤ L.net t es p := by
  have h₁ := keyed_le_sum (·.payee) (L.delta t) es p
  have h₂ := keyed_le_sum (·.payer) (L.delta t) es p
  have h₃ := L.uncoveredBy_add_used t es p
  simp only [net, paidTo, gross, paidBy] at *
  omega

/-- The net of someone who is paid by all entries and pays on none. -/
theorem net_payee (h : ∀ e ∈ es, e.payee = p ∧ e.payer ≠ p) : L.net t es p = L.gross t es := by
  have h₁ : L.paidTo t es p = L.gross t es := by
    rw [paidTo, keyed, gross]
    congr 1
    exact List.map_congr_left fun e he => if_pos (h e he).1
  rw [net, h₁, uncoveredBy, keyed_eq_zero fun e he => (h e he).2]
  simp

/-- The net of someone who pays on one entry and is paid by none. -/
theorem net_payer (hn : (es.map (·.payer)).Nodup) (he : e ∈ es) (h : ∀ e' ∈ es, e'.payee ≠ e.payer) :
    L.net t es e.payer = -((L.delta t e - L.used t e : Nat) : Int) := by
  have hk : keyed (·.payer) (fun e => L.delta t e - L.used t e) es e.payer
      = L.delta t e - L.used t e := keyed_of_mem hn he
  rw [net, paidTo, keyed_eq_zero h, uncoveredBy, hk]
  simp

/-- A settlement moves exactly what its entries pay. -/
theorem Settles.claim (h : Settles L t es L') (p : U32) :
    (L'.claim t p : Int) = L.claim t p + L.paidTo t es p - L.paidBy t es p := by
  have htot := h.total_eq p
  have hlocked : (∑ q, L'.locked t p q) + keyed (·.payer) (L.used t) es p = ∑ q, L.locked t p q := by
    rw [← sum_keyed_pair LaneEntry.payer LaneEntry.payee, ← sum_add_distrib]
    exact sum_congr rfl fun q _ => h.locked p q
  have hsum := L.uncoveredBy_add_used t es p
  simp only [Ledger.claim, net] at *
  omega

/-- In another token nothing changes. -/
theorem Settles.claim_ne (h : Settles L t es L') (ht : t' ≠ t) (p : U32) :
    L'.claim t' p = L.claim t' p := by
  have htot : L'.total t' p = L.total t' p := by
    cases hp : L.slot p with
    | none => simp [Ledger.total, hp, h.noSlot p hp]
    | some s =>
        obtain ⟨s', hs', hd⟩ := h.slots p s hp
        rw [total_of_slot hp, total_of_slot hs', (ParticipantBucketSlot.appliedDelta hd).balance_ne ht]
  have hlock : ∀ q, L'.locked t' p q = L.locked t' p q := fun q => by
    rw [Ledger.locked, h.otherLanes t' p q (by tauto), Ledger.locked]
  simp only [Ledger.claim, htot, hlock]

/-- **Conservation.** A settlement creates and destroys nothing. -/
theorem Settles.claims (h : Settles L t es L') (t' : U16) : L'.claims t' = L.claims t' := by
  by_cases ht : t' = t
  · subst ht
    have hp : ∀ p, L'.claim t' p + L.paidBy t' es p = L.claim t' p + L.paidTo t' es p := fun p => by
      have := h.claim p
      omega
    have hsum := sum_congr (rfl : (univ : Finset U32) = univ) fun p _ => hp p
    simp only [sum_add_distrib, paidBy, paidTo, sum_keyed] at hsum
    simpa [Ledger.claims] using hsum
  · simp only [Ledger.claims]
    exact sum_congr rfl fun p _ => h.claim_ne ht p

/-- Two settlements of the same entries, in whatever order, end alike. -/
theorem Settles.unique (h : Settles L t es L') (h' : Settles L t es' L'') (hp : es.Perm es') :
    L' = L'' := by
  refine Ledger.ext' (fun p => ?_) (fun t' p q => ?_)
  · cases hs : L.slot p with
    | none => rw [h.noSlot p hs, h'.noSlot p hs]
    | some s =>
        obtain ⟨s₁, h₁, d₁⟩ := h.slots p s hs
        obtain ⟨s₂, h₂, d₂⟩ := h'.slots p s hs
        rw [net_perm hp] at d₁
        rw [h₁, h₂, Except.ok.inj (d₁.symm.trans d₂)]
  · by_cases hm : t' = t ∧ (p, q) ∈ es.map LaneEntry.lane
    · obtain ⟨rfl, hm⟩ := hm
      obtain ⟨e, he, hk⟩ := List.mem_map.mp hm
      simp only [LaneEntry.lane, Prod.mk.injEq] at hk
      obtain ⟨rfl, rfl⟩ := hk
      obtain ⟨l, hl, -, h₁⟩ := h.lanes e he
      obtain ⟨l', hl', -, h₂⟩ := h'.lanes e (hp.mem_iff.mp he)
      rw [h₁, h₂, Option.some.inj (hl.symm.trans hl')]
    · rw [h.otherLanes t' p q hm,
        h'.otherLanes t' p q (by simpa [(hp.map LaneEntry.lane).mem_iff] using hm)]

end Ledger

end Ryvo
