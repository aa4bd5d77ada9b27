import Ryvo.Ledger.Ledger

/-!
# Ledger — Moves

What an instruction can do to a ledger.  A `Move` is one such thing, and `Takes` says which ledger it leads to; an instruction makes a short list of them.

* `Takes.claim`: what a move changes of a participant's claim, its `flow`.  Only a debit, a paid-out withdrawal and a settlement make a claim smaller.
* `Takes.claims`: what it changes of all claims together, its `inflow`.  A settlement changes nothing of that.
-/

namespace Ryvo

inductive Move where
  | join (p : U32) (owner : Pubkey)
  | profile (p : U32) (s : ParticipantBucketSlot)
  | credit (t : U16) (p : U32) (amount : Nat)
  | debit (t : U16) (p : U32) (amount : Nat)
  | request (t : U16) (p : U32) (amount : Nat) (destination : Pubkey) (unlockAt : Int)
  | cancel (t : U16) (p : U32)
  | clear (t : U16) (p : U32)
  | openLane (t : U16) (p q : U32) (signer : Pubkey)
  | lock (t : U16) (p q : U32) (amount : Nat)
  | requestUnlock (t : U16) (p q : U32) (amount : Nat) (requestedAt : Int)
  | executeUnlock (t : U16) (p q : U32)
  | cooperativeUnlock (t : U16) (p q : U32) (amount : Nat)
  | requestSigner (t : U16) (p q : U32) (newSigner : Pubkey) (requestedAt : Int)
  | executeSigner (t : U16) (p q : U32)
  | settle (t : U16) (es : List LaneEntry)

namespace Ledger

variable {L L' L₁ : Ledger} {t t' : U16} {p q p' q' r : U32} {m : Move} {ms : List Move}
variable {s s' : ParticipantBucketSlot} {l l' : DirectionalLaneState}
variable {f : ParticipantBucketSlot → ParticipantBucketSlot → Prop}
variable {g : DirectionalLaneState → DirectionalLaneState → Prop}

/-- The slot of `p` is edited. -/
def EditSlot (L : Ledger) (p : U32) (f : ParticipantBucketSlot → ParticipantBucketSlot → Prop)
    (L' : Ledger) : Prop :=
  ∃ s s', L.slot p = some s ∧ f s s' ∧ L' = L.setSlot p s'

/-- The lane from `p` to `q` is edited. -/
def EditLane (L : Ledger) (t : U16) (p q : U32)
    (g : DirectionalLaneState → DirectionalLaneState → Prop) (L' : Ledger) : Prop :=
  ∃ l l', L.lane t p q = some l ∧ g l l' ∧ L' = L.setLane t p q l'

/-- The slots have the same balances and belong to the same participant. -/
def SameHoldings (s s' : ParticipantBucketSlot) : Prop :=
  s'.tokenBalances = s.tokenBalances ∧ s'.owner = s.owner ∧ s'.participantId = s.participantId

/-- `L'` is `L` after the move. -/
def Takes (L : Ledger) (m : Move) (L' : Ledger) : Prop :=
  match m with
  | .join p owner => L.slot p = none ∧ L' = L.setSlot p (.fresh p owner)
  | .profile p r => L.EditSlot p (fun s s' => s' = r ∧ SameHoldings s s') L'
  | .credit t p n => L.EditSlot p (fun s s' => s.withTokenDelta t n = .ok s') L'
  | .debit t p n => L.EditSlot p (fun s s' => ∃ m, s.debitTokenAvailable t n = .ok (s', m)) L'
  | .request t p n destination unlockAt => L.EditSlot p
      (fun s s' => s.initiateTokenWithdrawal t n destination unlockAt = .ok (s', ())) L'
  | .cancel t p => L.EditSlot p (fun s s' => ∃ n, s.cancelTokenWithdrawal t = .ok (s', n)) L'
  | .clear t p => L.EditSlot p (fun s s' => s.clearTokenWithdrawal t = .ok (s', ())) L'
  | .openLane t p q signer => p ≠ q ∧ L.lane t p q = none ∧ (L.slot p).isSome ∧ (L.slot q).isSome ∧
      L' = L.setLane t p q (.fresh signer)
  | .lock t p q n => ∃ L₁,
      L.EditSlot p (fun s s' => ∃ m, s.debitTokenAvailable t n = .ok (s', m)) L₁ ∧
      L₁.EditLane t p q (fun l l' => ∃ m, l.addLockedBalance n = .ok (l', m)) L'
  | .requestUnlock t p q n requestedAt =>
      L.EditLane t p q (fun l l' => l.requestUnlock n requestedAt = .ok (l', ())) L'
  | .executeUnlock t p q => ∃ L₁ n,
      L.EditLane t p q (fun l l' => ∃ m, l.executeUnlock = .ok (l', n, m)) L₁ ∧
      L₁.EditSlot p (fun s s' => s.withTokenDelta t n = .ok s') L'
  | .cooperativeUnlock t p q n => ∃ L₁,
      L.EditLane t p q (fun l l' => ∃ m, l.cooperativeUnlock n = .ok (l', n, m)) L₁ ∧
      L₁.EditSlot p (fun s s' => s.withTokenDelta t n = .ok s') L'
  | .requestSigner t p q newSigner requestedAt => L.EditLane t p q
      (fun l l' => ∃ k, l.requestAuthorizedSignerUpdate newSigner requestedAt = .ok (l', k)) L'
  | .executeSigner t p q => L.EditLane t p q
      (fun l l' => ∃ k k', l.executeAuthorizedSignerUpdate = .ok (l', k, k')) L'
  | .settle t es => L.Settles t es L'

/-- `L'` is `L` after the moves, one after another. -/
def TakesAll (L : Ledger) : List Move → Ledger → Prop
  | [], L' => L' = L
  | m :: ms, L' => ∃ L₁, L.Takes m L₁ ∧ L₁.TakesAll ms L'

theorem takesAll_singleton : L.TakesAll [m] L' ↔ L.Takes m L' := by
  simp only [TakesAll]
  exact ⟨fun ⟨L₁, h, e⟩ => e ▸ h, fun h => ⟨L', h, rfl⟩⟩

/-! ### Claims -/

/-- What a participant is withdrawing. -/
def withdrawing (L : Ledger) (t : U16) (p : U32) : Nat :=
  (L.slot p).elim 0 fun s => (s.balance t).withdrawingBalance

/-- What a move changes of the claim of `p` in token `t`. -/
def flow (L : Ledger) (t : U16) (p : U32) : Move → Int
  | .credit t' p' n => if t' = t ∧ p' = p then n else 0
  | .debit t' p' n => if t' = t ∧ p' = p then -n else 0
  | .clear t' p' => if t' = t ∧ p' = p then -L.withdrawing t p else 0
  | .settle t' es => if t' = t then L.paidTo t es p - L.paidBy t es p else 0
  | _ => 0

/-- The claim of everyone whose slot is edited, or is not. -/
theorem EditSlot.claim (h : L.EditSlot p f L') (d : ParticipantBucketSlot → Int)
    (hf : ∀ s s', f s s' → ((s'.balance t).total : Int) = (s.balance t).total + d s) (q : U32) :
    (L'.claim t q : Int) = L.claim t q + if p = q then (L.slot p).elim 0 d else 0 := by
  obtain ⟨s, s', hs, hfs, rfl⟩ := h
  by_cases hq : p = q
  · subst hq
    rw [claim_setSlot_self hs, hf s s' hfs, if_pos rfl, hs]
    simp
  · rw [claim_setSlot_ne (Ne.symm hq), if_neg hq]
    simp

theorem EditSlot.claim_same (h : L.EditSlot p f L')
    (hf : ∀ s s', f s s' → (s'.balance t).total = (s.balance t).total) (q : U32) :
    (L'.claim t q : Int) = L.claim t q := by
  rw [h.claim (fun _ => 0) (fun s s' hfs => by simp [hf s s' hfs]) q]
  cases L.slot p <;> simp

/-- An edit that changes the total of token `t'` by `d`. -/
theorem EditSlot.claim_token (h : L.EditSlot p f L') (d : ParticipantBucketSlot → Int)
    (hf : ∀ s s', f s s' →
      ((s'.balance t).total : Int) = (s.balance t).total + if t' = t then d s else 0) (q : U32) :
    (L'.claim t q : Int) = L.claim t q
      + if t' = t ∧ p = q then (L.slot p).elim 0 d else 0 := by
  rw [h.claim _ hf q]
  by_cases ht : t' = t <;> by_cases hp : p = q <;> cases L.slot p <;> simp [ht, hp]

theorem EditSlot.elim (h : L.EditSlot p f L') (d : Int) : (L.slot p).elim 0 (fun _ => d) = d := by
  obtain ⟨s, -, hs, -, -⟩ := h
  simp [hs]

/-- The claim of everyone whose lane is edited, or is not. -/
theorem EditLane.claim (h : L.EditLane t p q g L') (d : Int)
    (hg : ∀ l l', g l l' → (l'.lockedBalance : Int) = l.lockedBalance + d) (t' : U16) (r : U32) :
    (L'.claim t' r : Int) = L.claim t' r + if t = t' ∧ p = r then d else 0 := by
  obtain ⟨l, l', hl, hgl, rfl⟩ := h
  by_cases hr : t = t' ∧ p = r
  · obtain ⟨rfl, rfl⟩ := hr
    rw [claim_setLane_self, locked_of_lane hl, hg l l' hgl, if_pos ⟨rfl, rfl⟩]
    ring
  · rw [claim_setLane_ne (by tauto), if_neg hr, add_zero]

theorem EditLane.claim_same (h : L.EditLane t p q g L')
    (hg : ∀ l l', g l l' → l'.lockedBalance = l.lockedBalance) (t' : U16) (r : U32) :
    (L'.claim t' r : Int) = L.claim t' r := by
  rw [h.claim 0 (fun l l' hgl => by simp [hg l l' hgl]) t' r]
  simp

theorem claim_fresh {owner : Pubkey} (h : L.slot p = none) (t : U16) (r : U32) :
    (L.setSlot p (.fresh p owner)).claim t r = L.claim t r := by
  by_cases hr : r = p
  · subst hr
    have hb : ((ParticipantBucketSlot.fresh r owner).balance t).total = 0 := by
      rw [ParticipantBucketSlot.balance_of_none (ParticipantBucketSlot.tokenEntry_fresh r owner t)]
      rfl
    simp only [claim, total_setSlot, locked_setSlot, Function.update_self, hb]
    simp [total, h]
  · exact claim_setSlot_ne hr

theorem claim_openLane {signer : Pubkey} (h : L.lane t' p q = none) :
    ((L.setLane t' p q (.fresh signer)).claim t r : Int) = L.claim t r := by
  by_cases hr : t = t' ∧ r = p
  · obtain ⟨rfl, rfl⟩ := hr
    rw [claim_setLane_self, locked, h]
    simp [DirectionalLaneState.fresh, DirectionalLaneState.uninitialized]
  · rw [claim_setLane_ne hr]

/-- Collateral that goes back to its owner stays in the claim. -/
theorem claim_released {n : Nat} (hl : L.EditLane t' p q g L₁)
    (hs : L₁.EditSlot p (fun s s' => s.withTokenDelta t' n = .ok s') L')
    (hg : ∀ l l', g l l' → n ≤ l.lockedBalance ∧ l'.lockedBalance = l.lockedBalance - n)
    (t : U16) (r : U32) : (L'.claim t r : Int) = L.claim t r := by
  have h₁ := hl.claim (-n) (fun l l' hd => by have := hg l l' hd; omega) t r
  have h₂ := hs.claim_token (t := t) (fun _ => (n : Int)) (fun s s' hd =>
    (ParticipantBucketSlot.appliedDelta hd).total_eq t) r
  rw [hs.elim] at h₂
  rw [h₂, h₁]
  split <;> ring

/-- What a move changes of a claim is its flow. -/
theorem Takes.claim (h : L.Takes m L') (t : U16) (r : U32) :
    (L'.claim t r : Int) = L.claim t r + L.flow t r m := by
  cases m with
  | join p owner =>
      obtain ⟨hn, rfl⟩ := h
      rw [claim_fresh hn]
      exact (add_zero _).symm
  | profile p s' =>
      refine (EditSlot.claim_same h ?_ r).trans (add_zero _).symm
      rintro s r ⟨-, hb, -, -⟩
      simp [ParticipantBucketSlot.balance, ParticipantBucketSlot.tokenEntry, hb]
  | credit t' p n =>
      rw [EditSlot.claim_token h (fun _ => n) fun s s' hd =>
        (ParticipantBucketSlot.appliedDelta hd).total_eq t, EditSlot.elim h]
      rfl
  | debit t' p n =>
      rw [EditSlot.claim_token h (fun _ => -(n : Int)) fun s s' hd =>
        ParticipantBucketSlot.total_debit hd.choose_spec t, EditSlot.elim h]
      rfl
  | request t' p n destination unlockAt =>
      exact (EditSlot.claim_same h (fun s s' hd => ParticipantBucketSlot.total_initiate hd t) r).trans
        (add_zero _).symm
  | cancel t' p =>
      exact (EditSlot.claim_same h (fun s s' hd => ParticipantBucketSlot.total_cancel hd.choose_spec t)
        r).trans (add_zero _).symm
  | clear t' p =>
      rw [EditSlot.claim_token h (fun s => -((s.balance t').withdrawingBalance : Int)) fun s s' hd =>
        ParticipantBucketSlot.total_clear hd t]
      simp only [flow, withdrawing]
      by_cases hm : t' = t ∧ p = r
      · obtain ⟨rfl, rfl⟩ := hm
        cases L.slot p <;> simp
      · simp [hm]
  | openLane t' p q signer =>
      obtain ⟨-, hn, -, -, rfl⟩ := h
      exact (claim_openLane hn).trans (add_zero _).symm
  | lock t' p q n =>
      obtain ⟨L₁, hs, hl⟩ := h
      have h₁ := EditSlot.claim_token hs (fun _ => -(n : Int)) (fun s s' hd =>
        ParticipantBucketSlot.total_debit hd.choose_spec t) r
      have h₂ := hl.claim n (fun l l' hd => by
        obtain ⟨_, hd⟩ := hd
        obtain ⟨-, -, rfl⟩ := DirectionalLaneState.addLockedBalance_eq_ok.mp hd
        simp) t r
      rw [EditSlot.elim hs] at h₁
      rw [h₂, h₁]
      change _ = _ + (0 : Int)
      split <;> ring
  | requestUnlock t' p q n requestedAt =>
      refine (EditLane.claim_same h (fun l l' hd => ?_) t r).trans (add_zero _).symm
      obtain ⟨-, rfl⟩ := DirectionalLaneState.requestUnlock_eq_ok.mp hd
      rfl
  | executeUnlock t' p q =>
      obtain ⟨L₁, n, hl, hs⟩ := h
      refine (claim_released hl hs (fun l l' hd => ?_) t r).trans (add_zero _).symm
      obtain ⟨_, hd⟩ := hd
      obtain ⟨-, -, rfl, -, rfl⟩ := DirectionalLaneState.executeUnlock_eq_ok.mp hd
      exact ⟨min_le_right _ _, rfl⟩
  | cooperativeUnlock t' p q n =>
      obtain ⟨L₁, hl, hs⟩ := h
      refine (claim_released hl hs (fun l l' hd => ?_) t r).trans (add_zero _).symm
      obtain ⟨_, hd⟩ := hd
      obtain ⟨hle, -, -, rfl⟩ := DirectionalLaneState.cooperativeUnlock_eq_ok.mp hd
      exact ⟨hle, rfl⟩
  | requestSigner t' p q newSigner requestedAt =>
      refine (EditLane.claim_same h (fun l l' hd => ?_) t r).trans (add_zero _).symm
      obtain ⟨_, hd⟩ := hd
      obtain ⟨-, -, -, rfl⟩ := DirectionalLaneState.requestAuthorizedSignerUpdate_eq_ok.mp hd
      rfl
  | executeSigner t' p q =>
      refine (EditLane.claim_same h (fun l l' hd => ?_) t r).trans (add_zero _).symm
      obtain ⟨_, _, hd⟩ := hd
      obtain ⟨-, -, -, -, rfl⟩ := DirectionalLaneState.executeAuthorizedSignerUpdate_eq_ok.mp hd
      rfl
  | settle t' es =>
      by_cases ht : t' = t
      · subst ht
        rw [Settles.claim h, flow, if_pos rfl]
        ring
      · rw [Settles.claim_ne h (Ne.symm ht), flow, if_neg ht, add_zero]

/-- What a move changes of all claims in token `t`. -/
def inflow (L : Ledger) (t : U16) : Move → Int
  | .credit t' _ n => if t' = t then n else 0
  | .debit t' _ n => if t' = t then -n else 0
  | .clear t' p => if t' = t then -L.withdrawing t p else 0
  | _ => 0

theorem claims_eq (L : Ledger) (t : U16) : (L.claims t : Int) = ∑ p, (L.claim t p : Int) := by
  rw [claims]
  exact Nat.cast_sum _ _

/-- One participant's part of the inflow is all of it. -/
theorem sum_one (b : Prop) [Decidable b] (p : U32) (x : U32 → Int) :
    (∑ r, if b ∧ p = r then x r else 0) = if b then x p else 0 := by
  by_cases h : b <;> simp [h]

theorem Takes.claims (h : L.Takes m L') (t : U16) :
    (L'.claims t : Int) = L.claims t + L.inflow t m := by
  have hsum : (L'.claims t : Int) = L.claims t + ∑ r, L.flow t r m := by
    rw [claims_eq, claims_eq, ← Finset.sum_add_distrib]
    exact Finset.sum_congr rfl fun r _ => h.claim t r
  cases m with
  | credit t' p n => rw [hsum]; simp only [flow, inflow, sum_one]
  | debit t' p n => rw [hsum]; simp only [flow, inflow, sum_one]
  | clear t' p => rw [hsum]; simp only [flow, inflow, sum_one]
  | settle t' es => rw [Settles.claims h]; exact (add_zero _).symm
  | _ => rw [hsum]; simp [flow, inflow]

end Ledger

end Ryvo
