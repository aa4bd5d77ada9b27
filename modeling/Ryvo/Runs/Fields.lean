import Ryvo.Layout.LaneCalls
import Ryvo.Layout.ParticipantRefinement
import Ryvo.Runs.Cumulative
import Ryvo.Runs.Governance
import Ryvo.Runs.Profiles

/-!
# Runs — Fields

The accounts are bytes, and a field holds so much and no more.  As long as the clock is a time an `i64` can hold, every slot and every lane of a reached world fits the fields of its account, so nothing is lost where it is written.

* `Takes.sound`: a move leaves a slot one that fits.
* `Reached.slot_sound`, `Reached.lane_wellTyped`: the slots and the lanes of a reached world.
* `fieldsFit_of_reached`: both of them.
-/

namespace Ryvo

open ParticipantBytes

variable {env : Env} {w w' : World} {a : Action} {t : U16} {p q r : U32} {m : Move} {ms : List Move}
variable {L L' : Ledger} {s s' : ParticipantBucketSlot} {l l' : DirectionalLaneState} {now : Int}

/-! ### Slots -/

theorem sound_withTokenDelta {n : Int} (hs : s.Sound) (h : s.withTokenDelta t n = .ok s') :
    s'.Sound := by
  rw [ParticipantBucketSlot.withTokenDelta] at h
  split at h
  · cases h
    exact hs
  · obtain ⟨x, hx, rfl⟩ := Except.map_eq_ok.mp h
    obtain ⟨y, -, hr⟩ := (applyTokenDelta_agrees hs n).eq_ok hx
    exact hr.sound

namespace Ledger

/-- A withdrawal is recorded with a time the row can hold. -/
def RequestsFit (r : U32) (m : Move) : Prop :=
  ∀ t n destination unlockAt, m = .request t r n destination unlockAt → I64 unlockAt ∧ 0 < unlockAt

theorem SlotChange.sound (h : SlotChange r s s' m) (hp : s.SameProfile s') (hs : s.Sound)
    (hm : RequestsFit r m) : s'.Sound := by
  cases h with
  | keep h => exact h ▸ hs
  | profile h =>
      obtain ⟨hrows, -, -⟩ := h
      refine ⟨hp.blsPubkeyCompressed ▸ hs.blsPubkey, hp.inboundChannelPolicy ▸ hs.policy, ?_, ?_⟩
      · rw [ParticipantBucketSlot.DistinctRows, hrows]
        exact hs.distinct
      · rw [hrows]
        exact hs.entries
  | delta h => exact sound_withTokenDelta hs h
  | debit h =>
      obtain ⟨y, -, hr⟩ := (debitTokenAvailable_agrees hs _).eq_ok h
      exact hr.sound
  | request h =>
      obtain ⟨hi, hpos⟩ := hm _ _ _ _ rfl
      obtain ⟨y, -, hr⟩ := (initiateTokenWithdrawal_agrees hs _ _ hi hpos).eq_ok h
      exact hr.sound
  | cancel h =>
      obtain ⟨y, -, hr⟩ := (cancelTokenWithdrawal_agrees hs).eq_ok h
      exact hr.sound
  | clear h =>
      obtain ⟨y, -, hr⟩ := (clearTokenWithdrawal_agrees hs).eq_ok h
      exact hr.sound

/-- A move that leaves the profile leaves a slot that fits. -/
theorem Takes.sound (h : L.Takes m L') (hs : L.slot r = some s) (hsound : s.Sound)
    (hp : ∀ s', m ≠ .profile r s') (hm : RequestsFit r m) :
    ∃ s', L'.slot r = some s' ∧ s'.Sound := by
  obtain ⟨s', hs', hsame⟩ := h.sameProfile hs hp
  obtain ⟨s₁, hs₁, hc⟩ := h.slotChange hs
  obtain rfl := Option.some.inj (hs₁.symm.trans hs')
  exact ⟨_, hs', hc.sound hsame hsound hm⟩

theorem TakesAll.sound (h : L.TakesAll ms L') (hs : L.slot r = some s) (hsound : s.Sound)
    (hp : ∀ m ∈ ms, ∀ s', m ≠ .profile r s') (hm : ∀ m ∈ ms, RequestsFit r m) :
    ∃ s', L'.slot r = some s' ∧ s'.Sound := by
  induction ms generalizing L s with
  | nil =>
      obtain rfl := h
      exact ⟨s, hs, hsound⟩
  | cons m ms ih =>
      obtain ⟨L₁, hmove, h⟩ := h
      obtain ⟨hp₀, hp⟩ := List.forall_mem_cons.mp hp
      obtain ⟨hm₀, hm⟩ := List.forall_mem_cons.mp hm
      obtain ⟨s₁, hs₁, h₁⟩ := hmove.sound hs hsound hp₀ hm₀
      exact ih h hs₁ h₁ hp hm

end Ledger

theorem Reached.withdrawalTimelock_eq_zero (hw : Reached env w) {c : GlobalConfig}
    (hc : w.globalConfig = some c) : c.withdrawalTimelockSeconds = 0 := by
  have h := (hw.withinBounds hc).withdrawalTimelock
  rw [GlobalConfig.withdrawalTimelockForChainId] at h
  split at h
  · exact (Except.ok.inj h).symm
  · cases h

/-- A withdrawal is recorded with the time of its request, since the timelock is none. -/
theorem Reached.requestsFit (hw : Reached env w) (h : Step env w a w') (hclock : w.clock < 2 ^ 63)
    (hm : Makes env w a ms) (ht : (w.ledger env).TakesAll ms (w'.ledger env)) :
    ∀ m ∈ ms, Ledger.RequestsFit p m := by
  rintro m hmem t n destination unlockAt rfl
  -- One move is made, which writes the time the request has for the slot.
  have single : ∀ owner (amount : U64), ms = [.request t p n destination unlockAt] →
      a.Requests owner t amount destination → amount.val = n → w.IsOwner env owner p →
      I64 unlockAt ∧ 0 < unlockAt := by
    rintro owner amount rfl ha hn ho
    obtain ⟨s, s', hs, hf, hL⟩ := Ledger.takesAll_singleton.mp ht
    obtain ⟨c, s₁, hc, hs₁, -, hat, -⟩ :=
      hw.requestedAt h ⟨owner, amount, ha, hn, hw.ownedBy_iff.mp ho⟩ hs
    have hs' : (w'.ledger env).slot p = some s' := by rw [hL, Ledger.slot_setSlot_self]
    obtain rfl := Option.some.inj (hs₁.symm.trans hs')
    obtain ⟨-, -, hr⟩ := ParticipantBucketSlot.rewrites_initiate hf
    rw [hr.balance, hw.withdrawalTimelock_eq_zero hc] at hat
    have hpos := hw.clock_pos
    simp only [I64] at *
    omega
  cases hm with
  | request ho =>
      obtain ⟨rfl, rfl, rfl, rfl, rfl⟩ := Move.request.inj (List.mem_singleton.mp hmem)
      exact single _ _ rfl ⟨_, _, _, .inl rfl⟩ rfl ho
  | requestYield ho =>
      obtain ⟨rfl, rfl, rfl, rfl, rfl⟩ := Move.request.inj (List.mem_singleton.mp hmem)
      exact single _ _ rfl ⟨_, _, _, .inr rfl⟩ rfl ho
  | depositFor hms _ => exact (DepositFor.onBalance hms _ hmem).elim
  | _ => simp at hmem

theorem Reached.slot_sound (hw : Reached env w) (hclock : w.clock < 2 ^ 63)
    (hs : w.slot env p = some s) : s.Sound := by
  refine Reachable.invariant
    (P := fun w => w.clock < 2 ^ 63 → ∀ p s, w.slot env p = some s → s.Sound) ?_ ?_ hw hclock p s hs
  · rintro w ⟨clock, -, rfl⟩ - p s hs
    cases hs
  · intro w a w' hw ih h hclock p s' hs'
    have hlt : w.clock < 2 ^ 63 := (Reached.clock_le hw h).trans_lt hclock
    cases hs : w.slot env p with
    | none =>
        obtain ⟨owner, rfl⟩ := Reached.newSlot hw h hs hs'
        exact sound_fresh p owner
    | some s =>
        have hsound := ih hlt p s hs
        obtain ⟨s₁, hs₁, hchange⟩ := Reached.profileChange hw h hs
        obtain rfl := Option.some.inj (hs₁.symm.trans hs')
        cases hchange with
        | registered _ _ _ he =>
            subst he
            exact (slotRel_blsRegistration hsound _ _).sound
        | policySet _ he =>
            subst he
            exact (slotRel_policy hsound _).sound
        | kept hk hp _ =>
            obtain ⟨ms, hm, hd⟩ := Reached.makes hw h
            obtain ⟨s₂, hs₂, h₂⟩ := hd.takes.sound hs hsound (Reached.noProfile hw hm hk hp)
              (Reached.requestsFit hw h hlt hm hd.takes)
            obtain rfl := Option.some.inj (hs₂.symm.trans hs')
            exact h₂

/-! ### Lanes -/

/-- The times of a lane are none or past. -/
structure DirectionalLaneState.TimedBy (now : Int) (l : DirectionalLaneState) : Prop where
  unlock : 0 ≤ l.unlockRequestedAt ∧ l.unlockRequestedAt ≤ now
  signer : 0 ≤ l.authorizedSignerUpdateRequestedAt ∧ l.authorizedSignerUpdateRequestedAt ≤ now

theorem DirectionalLaneState.TimedBy.settled (h : l.TimedBy now) (target used : Nat) :
    (l.settled target used).TimedBy now := by
  refine ⟨?_, h.signer⟩
  have := h.unlock
  rw [DirectionalLaneState.settled]
  dsimp only
  split
  · omega
  · exact this

/-- A change keeps the times past, if what it records is. -/
theorem DirectionalLaneState.TimedBy.change (h : l.TimedBy now) (hnow : 0 ≤ now)
    (hc : Ledger.LaneChange t p q l m l')
    (hu : ∀ n requestedAt, m = .requestUnlock t p q n requestedAt → requestedAt = now)
    (hs : ∀ k requestedAt, m = .requestSigner t p q k requestedAt → requestedAt = now) :
    l'.TimedBy now := by
  cases hc with
  | keep => exact h
  | lock n => exact ⟨h.unlock, h.signer⟩
  | requestUnlock n requestedAt _ =>
      obtain rfl := hu n requestedAt rfl
      exact ⟨⟨hnow, le_rfl⟩, h.signer⟩
  | executeUnlock _ _ => exact ⟨⟨le_rfl, hnow⟩, h.signer⟩
  | cooperativeUnlock n _ => exact h.settled _ _
  | requestSigner k requestedAt _ _ =>
      obtain rfl := hs k requestedAt rfl
      exact ⟨h.unlock, hnow, le_rfl⟩
  | executeSigner _ _ => exact ⟨h.unlock, le_rfl, hnow⟩
  | settle es e _ _ _ _ _ => exact h.settled _ _

theorem Reached.timedBy (hw : Reached env w) (hl : w.lane env t p q = some l) : l.TimedBy w.clock := by
  refine Reachable.invariant
    (P := fun w => ∀ t p q l, w.lane env t p q = some l → l.TimedBy w.clock) ?_ ?_ hw t p q l hl
  · rintro w ⟨clock, -, rfl⟩ t p q l hl
    rw [lane_genesis] at hl
    cases hl
  · intro w a w' hw ih h t p q l' hl'
    have hpos := Reached.clock_pos hw
    have hle := Reached.clock_le hw h
    -- What is past stays past.
    have later : ∀ {l : DirectionalLaneState}, l.TimedBy w.clock → l.TimedBy w'.clock := fun ht =>
      ⟨⟨ht.unlock.1, ht.unlock.2.trans hle⟩, ht.signer.1, ht.signer.2.trans hle⟩
    cases hl : w.lane env t p q with
    | none =>
        obtain ⟨signer, -, rfl⟩ := Reached.newLane hw h hl hl'
        exact later ⟨⟨le_rfl, hpos.le⟩, le_rfl, hpos.le⟩
    | some l =>
        obtain ⟨l₁, hl₁, hc⟩ := Reached.laneStep hw h hl
        obtain rfl := Option.some.inj (hl₁.symm.trans hl')
        rcases hc with rfl | ⟨m, hm, hc⟩
        · exact later (ih t p q _ hl)
        · refine later ((ih t p q l hl).change hpos.le hc ?_ ?_)
          · rintro n requestedAt rfl
            cases hm with
            | requestUnlock _ _ => rfl
            | depositFor hms _ => exact (DepositFor.onBalance hms _ (.head _)).elim
          · rintro k requestedAt rfl
            cases hm with
            | requestSigner _ => rfl
            | depositFor hms _ => exact (DepositFor.onBalance hms _ (.head _)).elim

theorem ParsedClearingRoundLayout.entries_target_lt {layout : ParsedClearingRoundLayout}
    {es : List LaneEntry} (h : layout.entries = .ok es) : ∀ e ∈ es, e.target < u64Bound := by
  simp only [ParsedClearingRoundLayout.entries, Except.bind_eq_ok, Except.pure_eq_ok] at h
  obtain ⟨lists, hlists, rfl⟩ := h
  intro e he
  obtain ⟨list, hlist, he⟩ := List.mem_flatten.mp he
  obtain ⟨block, -, hblock⟩ := mem_of_mapM_eq_ok hlists hlist
  simp only [ParticipantBlockMeta.laneEntries, ParticipantBlockMeta.readEntries, Except.bind_eq_ok,
    Except.pure_eq_ok, Prod.exists] at hblock
  obtain ⟨entries, ⟨_, rest, hread, rfl⟩, hentries⟩ := hblock
  obtain ⟨entry, hentry, hlane⟩ := mem_of_mapM_eq_ok hentries he
  simp only [ChannelEntry.laneEntry, Except.bind_eq_ok, Except.pure_eq_ok] at hlane
  obtain ⟨payee, -, rfl⟩ := hlane
  exact parseChannelEntries_target_lt hread entry hentry

/-- No message names an amount past `u64`. -/
theorem SettlementMessage.targets_lt {c : GlobalConfig} {x : SettlementMessage} {n : Nat}
    (hn : n ∈ x.targets c t p q) : n < u64Bound := by
  rw [SettlementMessage.targets] at hn
  cases hx : x.laneEntries c with
  | none => simp [hx] at hn
  | some y =>
      obtain ⟨t', es⟩ := y
      rw [hx, Option.elim_some, targetsOn] at hn
      split at hn
      · obtain ⟨e, he, rfl⟩ := List.mem_map.mp hn
        have he := List.mem_of_mem_filter he
        cases x with
        | commitment bytes =>
            simp only [SettlementMessage.laneEntries, Option.bind_eq_bind, Option.bind_eq_some_iff,
              Except.toOption_eq_some, Option.pure_def, Option.some.injEq, Prod.mk.injEq] at hx
            obtain ⟨parsed, hparsed, rfl, rfl⟩ := hx
            obtain rfl := List.mem_singleton.mp he
            exact parseCommitmentMessage_amount_lt hparsed
        | clearingRound bytes =>
            simp only [SettlementMessage.laneEntries, Option.bind_eq_bind, Option.bind_eq_some_iff,
              Except.toOption_eq_some, Option.pure_def, Option.some.injEq, Prod.mk.injEq] at hx
            obtain ⟨layout, -, es, hes, rfl, rfl⟩ := hx
            exact ParsedClearingRoundLayout.entries_target_lt hes e he
      · cases hn

theorem Reached.settled_lt (hw : Reached env w) : w.settled env t p q < u64Bound := by
  obtain ⟨h, r⟩ := hw
  rcases (highest_of_history r t p q).1 with hz | ⟨x, -, hn⟩
  · rw [hz]
    exact u64_zero
  · rw [World.targets] at hn
    cases hc : x.1.globalConfig with
    | none => simp [hc] at hn
    | some c =>
        rw [hc, Option.elim_some] at hn
        obtain ⟨y, -, hn⟩ := List.mem_flatMap.mp hn
        exact SettlementMessage.targets_lt hn

theorem Reached.lane_wellTyped (hw : Reached env w) (hclock : w.clock < 2 ^ 63)
    (hl : w.lane env t p q = some l) : l.WellTyped := by
  have htimes := hw.timedBy hl
  have hlocked : l.lockedBalance < u64Bound := by
    have hle := (w.ledger env).locked_add_total_le_claim t p q
    have hsum := (w.ledger env).claim_le_claims t p
    have hlt := hw.claims_lt t
    rw [Ledger.locked_of_lane hl] at hle
    omega
  have hunlock := htimes.unlock
  have hsigner := htimes.signer
  exact ⟨settled_of_lane hl ▸ hw.settled_lt, hlocked, (hw.unlockRecord hl).le.trans_lt hlocked,
    ⟨by omega, by omega⟩, by omega, by omega⟩

/-! ### Worlds -/

/-- Slots and lanes fit their accounts' fields, and their times are none or past. -/
structure FieldsFit (env : Env) (w : World) : Prop where
  slots : ∀ p s, w.slot env p = some s → s.Sound
  lanes : ∀ t p q l, w.lane env t p q = some l → l.WellTyped ∧ l.TimedBy w.clock

/-- **Nothing is cut off where it is stored.**  Every amount of a reached world is a `u64` and every time an `i64`; a slot has one row for a token, no balance that is withdrawn without a request, a policy there is and a key of its size. -/
theorem fieldsFit_of_reached (hw : Reached env w) (hclock : w.clock < 2 ^ 63) : FieldsFit env w where
  slots _ _ hs := hw.slot_sound hclock hs
  lanes _ _ _ _ hl := ⟨hw.lane_wellTyped hclock hl, hw.timedBy hl⟩

open Localnet in
theorem fieldsFit_of_funding : ∃ w, FieldsFit localnet w ∧ (w.slot localnet 0).isSome ∧
    (w.lane localnet 1 0 1).isSome := by
  obtain ⟨w, hw, hc⟩ := reached_of_runsTo localnet (opening ++ funding)
    (fun w => decide (w.clock < 2 ^ 63 ∧ (w.slot localnet 0).isSome ∧
      (w.lane localnet 1 0 1).isSome)) (by decide +kernel)
  obtain ⟨hclock, h⟩ := of_decide_eq_true hc
  exact ⟨w, fieldsFit_of_reached hw hclock, h⟩

end Ryvo
