import Ryvo.Machine.Localnet
import Ryvo.Runs.Identity

/-!
# Runs — Lanes

How a lane changes along a run.  `Reached.laneMove` and `Reached.newLane` put the inventory and the changes of a lane together: a lane stays as it is, or the action makes one move that changes it as listed.

* `UnlockRecord`: a pending unlock is covered by the collateral, and has a time exactly when there is one.
* `unlockRecords_of_reached`: so an executed unlock releases exactly what is pending.
-/

namespace Ryvo

variable {env : Env} {w w' : World} {a : Action} {t : U16} {p q : U32} {m : Move} {ms : List Move}
variable {l l' : DirectionalLaneState} {L L' : Ledger}

theorem Ledger.TakesAll.lane_eq (h : L.TakesAll ms L') (hm : ∀ m ∈ ms, m.OnBalance) :
    L'.lane = L.lane := by
  induction ms generalizing L with
  | nil =>
      obtain rfl := h
      rfl
  | cons m ms ih =>
      obtain ⟨L₁, hmove, h⟩ := h
      refine (ih h fun m hms => hm m (List.mem_cons_of_mem _ hms)).trans ?_
      cases m with
      | credit t p n => exact Ledger.EditSlot.lane hmove
      | debit t p n => exact Ledger.EditSlot.lane hmove
      | _ => exact absurd (hm _ (List.mem_cons_self ..)) id

/-- An action makes one move, or moves balances only. -/
theorem Makes.single_or_balance (h : Makes env w a ms) :
    (∃ m, ms = [m]) ∨ ∀ m ∈ ms, m.OnBalance := by
  cases h with
  | nothing => exact .inr (by simp)
  | depositFor hms _ => exact .inr (DepositFor.onBalance hms)
  | optIn _ _ => exact .inr (by simp [Move.OnBalance])
  | optOut _ _ => exact .inr (by simp [Move.OnBalance])
  | _ => exact .inl ⟨_, rfl⟩

/-- The instructions that settle lanes. -/
def Action.IsSettlement : Action → Prop
  | .call (.settleIndividual ..) | .call (.settleCommitmentBundle ..)
  | .call (.settleClearingRound ..) => True
  | _ => False

theorem Makes.isSettlement {es : List LaneEntry} (hm : Makes env w a [.settle t es]) :
    a.IsSettlement := by
  cases hm with
  | settleIndividual _ => trivial
  | settleBundle _ => trivial
  | settleRound _ => trivial
  | depositFor hms _ => exact (DepositFor.onBalance hms _ (.head _)).elim

/-- A lane stays, and changes by at most one move. -/
theorem Reached.laneMove (hw : Reached env w) (h : Step env w a w')
    (hl : w.lane env t p q = some l) : ∃ l', w'.lane env t p q = some l' ∧
      (l' = l ∨ ∃ m, Makes env w a [m] ∧ (w.ledger env).Takes m (w'.ledger env) ∧
        Ledger.LaneChange t p q l m l') := by
  obtain ⟨ms, hm, hd⟩ := hw.makes h
  rcases hm.single_or_balance with ⟨m, rfl⟩ | hb
  · have ht := Ledger.takesAll_singleton.mp hd.takes
    obtain ⟨l', hl', hc⟩ := ht.lane hl
    exact ⟨l', hl', .inr ⟨m, hm, ht, hc⟩⟩
  · have he := congrFun (congrFun (congrFun (hd.takes.lane_eq hb) t) p) q
    exact ⟨l, he.trans hl, .inl rfl⟩

theorem Reached.laneStep (hw : Reached env w) (h : Step env w a w')
    (hl : w.lane env t p q = some l) : ∃ l', w'.lane env t p q = some l' ∧
      (l' = l ∨ ∃ m, Makes env w a [m] ∧ Ledger.LaneChange t p q l m l') := by
  obtain ⟨l', hl', hc⟩ := hw.laneMove h hl
  exact ⟨l', hl', hc.imp_right fun ⟨m, hm, _, hc⟩ => ⟨m, hm, hc⟩⟩

/-- A lane that was not there is created. -/
theorem Reached.newLane (hw : Reached env w) (h : Step env w a w')
    (hn : w.lane env t p q = none) (hl : w'.lane env t p q = some l) :
    ∃ signer, Makes env w a [.openLane t p q signer] ∧ l = .fresh signer := by
  obtain ⟨ms, hm, hd⟩ := hw.makes h
  rcases hm.single_or_balance with ⟨m, rfl⟩ | hb
  · obtain ⟨signer, rfl, hl⟩ := (Ledger.takesAll_singleton.mp hd.takes).newLane hn hl
    exact ⟨signer, hm, hl⟩
  · have he := congrFun (congrFun (congrFun (hd.takes.lane_eq hb) t) p) q
    rw [World.ledger_lane, World.ledger_lane, hl, hn] at he
    cases he

/-- What a lane is created with and every step keeps holds of it throughout. -/
theorem Reached.lane_invariant {P : U16 → U32 → U32 → DirectionalLaneState → Prop}
    (fresh : ∀ {w a t p q signer}, Reached env w → Makes env w a [.openLane t p q signer] →
      P t p q (.fresh signer))
    (change : ∀ {w a t p q l m l'}, Reached env w → Makes env w a [m] →
      w.lane env t p q = some l → P t p q l → Ledger.LaneChange t p q l m l' → P t p q l')
    (hw : Reached env w) (hl : w.lane env t p q = some l) : P t p q l := by
  refine Reachable.invariant
    (P := fun w => ∀ t p q l, w.lane env t p q = some l → P t p q l) ?_ ?_ hw t p q l hl
  · rintro w ⟨clock, -, rfl⟩ t p q l hl
    rw [lane_genesis] at hl
    cases hl
  · intro w a w' hw ih h t p q l' hl'
    cases hl : w.lane env t p q with
    | none =>
        obtain ⟨signer, hm, rfl⟩ := Reached.newLane hw h hl hl'
        exact fresh hw hm
    | some l =>
        obtain ⟨l₁, hl₁, hc⟩ := Reached.laneStep hw h hl
        obtain rfl := Option.some.inj (hl₁.symm.trans hl')
        rcases hc with rfl | ⟨m, hm, hc⟩
        · exact ih t p q _ hl
        · exact change hw hm hl (ih t p q l hl) hc

/-! ### Pending unlocks -/

/-- A pending unlock is no more than the collateral, and has a time exactly when there is one. -/
structure UnlockRecord (l : DirectionalLaneState) : Prop where
  le : l.pendingUnlockAmount ≤ l.lockedBalance
  timed : 0 < l.pendingUnlockAmount ↔ l.unlockRequestedAt ≠ 0

theorem UnlockRecord.fresh (signer : Pubkey) : UnlockRecord (.fresh signer) :=
  ⟨le_rfl, by simp [DirectionalLaneState.fresh, DirectionalLaneState.uninitialized]⟩

theorem UnlockRecord.settled (h : UnlockRecord l) (target used : Nat) :
    UnlockRecord (l.settled target used) where
  le := min_le_right _ _
  timed := by
    have ht := h.timed
    simp only [DirectionalLaneState.settled]
    split
    · rename_i h₀
      simp [h₀]
    · rename_i h₀
      rw [← ht]
      omega

/-- Each lane operation keeps it; a request has a positive amount and a time. -/
theorem UnlockRecord.change (h : UnlockRecord l) (hc : Ledger.LaneChange t p q l m l')
    (hm : ∀ n requestedAt, m = .requestUnlock t p q n requestedAt → 0 < n ∧ requestedAt ≠ 0) :
    UnlockRecord l' := by
  cases hc with
  | keep => exact h
  | lock n => exact ⟨h.le.trans (Nat.le_add_right _ _), h.timed⟩
  | requestUnlock n requestedAt hle =>
      obtain ⟨hn, hat⟩ := hm n requestedAt rfl
      exact ⟨hle, fun _ => hat, fun _ => hn⟩
  | executeUnlock _ _ => exact ⟨Nat.zero_le _, by simp [DirectionalLaneState.unlocked]⟩
  | cooperativeUnlock n _ => exact h.settled _ _
  | requestSigner newSigner requestedAt _ _ => exact ⟨h.le, h.timed⟩
  | executeSigner _ _ => exact ⟨h.le, h.timed⟩
  | settle es e _ _ _ _ _ => exact h.settled _ _

theorem Reached.unlockRecord (hw : Reached env w) (hl : w.lane env t p q = some l) :
    UnlockRecord l := by
  refine Reached.lane_invariant (P := fun _ _ _ l => UnlockRecord l) ?_ ?_ hw hl
  · intro w a t p q signer _ _
    exact .fresh signer
  · intro w a t p q l m l' hw hm _ h hc
    refine h.change hc ?_
    rintro n requestedAt rfl
    cases hm with
    | requestUnlock hn _ => exact ⟨hn, (Reached.clock_pos hw).ne'⟩
    | depositFor hms _ => exact (DepositFor.onBalance hms _ (.head _)).elim

/-- What the lanes of a world satisfy, and what an executed unlock releases. -/
structure UnlockRecords (env : Env) (w : World) : Prop where
  created : ∀ t p q l, w.lane env t p q = some l → UnlockRecord l
  /-- Wherever a lane could be and is not, every field is zero. -/
  uncreated : ∀ k b off, w.channelBuckets k = some b → (b.laneAt off).initialized = false →
    b.laneAt off = .uninitialized
  released : ∀ owner k k₁ k₂ t q w',
    Step env w (.call (.executeUnlockChannelFunds owner k k₁ k₂ t q)) w' →
    ∃ p l s s', w.IsOwner env owner p ∧ w.lane env t p q = some l ∧
      w'.lane env t p q = some { l with
        lockedBalance := l.lockedBalance - l.pendingUnlockAmount
        pendingUnlockAmount := 0
        unlockRequestedAt := 0 } ∧
      w.slot env p = some s ∧ w'.slot env p = some s' ∧
      s'.balance t = (s.balance t).credit l.pendingUnlockAmount

/-- **The unlock record** is kept by every lane operation, in any order. -/
theorem unlockRecords_of_reached (hw : Reached env w) : UnlockRecords env w where
  created _ _ _ _ := hw.unlockRecord
  uncreated := hw.located.blank
  released owner k k₁ k₂ t q w' h := by
    obtain ⟨p, c, T, l, hp, -, -, hl, -, hd⟩ :=
      ExecuteUnlockChannelFunds.handler_spec (R := Action.rights env w (.outside (.tick 0)))
        hw.located hw.paired h.ran
    obtain ⟨L₁, n, ⟨l₀, l', hl₀, ⟨_, hexec⟩, rfl⟩, s, s', hs, hcredit, he⟩ :=
      Ledger.takesAll_singleton.mp hd.takes
    obtain rfl : l₀ = l := Option.some.inj (hl₀.symm.trans hl)
    obtain ⟨-, -, rfl, -, rfl⟩ := DirectionalLaneState.executeUnlock_eq_ok.mp hexec
    have hmin : min l₀.pendingUnlockAmount l₀.lockedBalance = l₀.pendingUnlockAmount :=
      min_eq_left (hw.unlockRecord hl).le
    rw [hmin] at hcredit
    refine ⟨p, l₀, s, s', ⟨_, hp⟩, hl, ?_, hs, ?_, ParticipantBucketSlot.balance_of_credit hcredit⟩
    · have hlane := congrFun (congrFun (congrFun (congrArg Ledger.lane he) t) p) q
      rw [World.ledger_lane] at hlane
      rw [hlane, Ledger.lane_setSlot, Ledger.lane_setLane_self, DirectionalLaneState.unlocked, hmin]
    · have hslot := congrFun (congrArg Ledger.slot he) p
      rw [World.ledger_slot] at hslot
      rw [hslot, Ledger.slot_setSlot_self]

namespace Localnet

/-- A lane from participant 0 to participant 1 over token 1, signed for by key 33, with collateral of 40. -/
def funding : List Action :=
  [.call (.deposit (key 10) indexBucket bucket (key 60) 1 70),
    .call (.createChannel (key 10) indexBucket bucket bucket (some (key 11)) 1 0 1 0 (some (key 33))),
    .call (.lockChannelFunds (key 10) indexBucket bucket (channels 1) 1 1 40)]

end Localnet

open Localnet in
/-- A lane with a pending unlock of 30. -/
theorem unlockRecords_of_request : ∃ w, (w.lane localnet 1 0 1).map (·.pendingUnlockAmount) = some 30 ∧
    UnlockRecords localnet w := by
  obtain ⟨w, hw, hc⟩ := reached_of_runsTo localnet
    (opening ++ funding ++
      [.call (.requestUnlockChannelFunds (key 10) indexBucket (channels 1) 1 1 30)])
    (fun w => (w.lane localnet 1 0 1).map (·.pendingUnlockAmount) = some 30)
    (by decide +kernel)
  exact ⟨w, of_decide_eq_true hc, unlockRecords_of_reached hw⟩

end Ryvo
