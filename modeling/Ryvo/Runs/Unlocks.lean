import Ryvo.Runs.Rotation

/-!
# Runs — The collateral timelock

How the collateral of a lane gets smaller along a run.  A pending unlock stands for the last request of the lane in the history, and since then the lane has never had less collateral than is pending (`Awaits`); every operation that takes collateral caps what is pending (`UnlockChange`).

* `Reached.unlockChange`: what a step does to a pending unlock.
* `awaits_of_history`: behind a pending unlock there is its request, with the collateral there throughout.
* `collateralTimelock_of_history`: collateral goes to the payee, or back by consent of both sides, or a timelock after a request.
-/

namespace Ryvo

variable {env : Env} {w w' : World} {a : Action} {t : U16} {p q : U32} {n n' : Nat}
variable {l l' : DirectionalLaneState} {h : List (World × Action)} {requestedAt : Int}

/-- The payer's owner asks for `n` of the lane's collateral. -/
def RequestsUnlock (env : Env) (t : U16) (p q : U32) (n : Nat) (x : World × Action) : Prop :=
  ∃ owner k k₁ amount, x.2 = .call (.requestUnlockChannelFunds owner k k₁ t q amount) ∧
    amount.val = n ∧ x.1.OwnedBy env p owner

/-- The payer's owner executes an unlock for the lane. -/
def ExecutesUnlock (env : Env) (t : U16) (p q : U32) (x : World × Action) : Prop :=
  ∃ owner k k₁ k₂, x.2 = .call (.executeUnlockChannelFunds owner k k₁ k₂ t q) ∧
    x.1.OwnedBy env p owner

/-- The lane is there, with at least `n` of collateral. -/
def World.Covers (env : Env) (w : World) (t : U16) (p q : U32) (n : Nat) : Prop :=
  ∃ l, w.lane env t p q = some l ∧ n ≤ l.lockedBalance

/-- The last request for the lane was for at least `n`, at `requestedAt`; since then nothing was requested or executed, and `n` was covered throughout. -/
def Awaits (env : Env) (h : List (World × Action)) (t : U16) (p q : U32) (n : Nat)
    (requestedAt : Int) : Prop :=
  ∃ h₁ x h₂ m, h = h₁ ++ x :: h₂ ∧ RequestsUnlock env t p q m x ∧ n ≤ m ∧ x.1.clock = requestedAt ∧
    (∀ y ∈ h₁, (∀ m, ¬ RequestsUnlock env t p q m y) ∧ ¬ ExecutesUnlock env t p q y) ∧
    ∀ y ∈ x :: h₁, y.1.Covers env t p q n

theorem Awaits.cons {x : World × Action} (hn : Awaits env h t p q n requestedAt) (hle : n' ≤ n)
    (hr : ∀ m, ¬ RequestsUnlock env t p q m x) (he : ¬ ExecutesUnlock env t p q x)
    (hc : x.1.Covers env t p q n') : Awaits env (x :: h) t p q n' requestedAt := by
  obtain ⟨h₁, y, h₂, m, rfl, hy, hm, hat, hlast, hcovers⟩ := hn
  have hlower : ∀ z ∈ y :: h₁, z.1.Covers env t p q n' := by
    intro z hz
    obtain ⟨l, hl, hz⟩ := hcovers z hz
    exact ⟨l, hl, hle.trans hz⟩
  refine ⟨x :: h₁, y, h₂, m, rfl, hy, hle.trans hm, hat, ?_, ?_⟩
  · intro z hz
    rcases List.mem_cons.mp hz with rfl | hz
    · exact ⟨hr, he⟩
    · exact hlast z hz
  · intro z hz
    rcases List.mem_cons.mp hz with rfl | hz
    · exact hlower z List.mem_cons_self
    rcases List.mem_cons.mp hz with rfl | hz
    · exact hc
    · exact hlower z (List.mem_cons_of_mem _ hz)

/-! ### Steps -/

/-- What a step does to the pending unlock of a lane. -/
inductive UnlockChange (env : Env) (w : World) (a : Action) (t : U16) (p q : U32)
    (l : DirectionalLaneState) : DirectionalLaneState → Prop
  | kept {l' : DirectionalLaneState} : (∀ n, ¬ RequestsUnlock env t p q n (w, a)) →
      ¬ ExecutesUnlock env t p q (w, a) → l'.pendingUnlockAmount ≤ l.pendingUnlockAmount →
      (0 < l'.pendingUnlockAmount → l'.unlockRequestedAt = l.unlockRequestedAt) →
      UnlockChange env w a t p q l l'
  | requested {n : Nat} : RequestsUnlock env t p q n (w, a) → n ≤ l.lockedBalance →
      UnlockChange env w a t p q l
        { l with pendingUnlockAmount := n, unlockRequestedAt := w.clock }
  | executed {c : GlobalConfig} {T : Int} : ExecutesUnlock env t p q (w, a) →
      w.globalConfig = some c → c.effectiveChannelUnlockTimelockSeconds = .ok T →
      l.unlockRequestedAt + T ≤ w.clock → 0 < l.pendingUnlockAmount →
      UnlockChange env w a t p q l l.unlocked

/-- A request that succeeds is recorded. -/
theorem Reached.unlockRequested (hw : Reached env w) (h : Step env w a w')
    (hr : RequestsUnlock env t p q n (w, a)) (hl : w.lane env t p q = some l) :
    w'.lane env t p q = some { l with pendingUnlockAmount := n, unlockRequestedAt := w.clock } ∧
      n ≤ l.lockedBalance := by
  obtain ⟨owner, k, k₁, amount, rfl, rfl, ho⟩ := hr
  obtain ⟨p', -, hp', hd⟩ := RequestUnlockChannelFunds.handler_spec
    (R := Action.rights env w (.outside (.tick 0))) hw.located h.ran
  obtain rfl := hw.owner_unique (hw.ownedBy_iff.mpr ho) ⟨k, hp'⟩
  obtain ⟨l₀, l', hl₀, hreq, he⟩ := Ledger.takesAll_singleton.mp hd.takes
  obtain rfl : l₀ = l := Option.some.inj (hl₀.symm.trans hl)
  obtain ⟨hle, rfl⟩ := DirectionalLaneState.requestUnlock_eq_ok.mp hreq
  have hlane := congrFun (congrFun (congrFun (congrArg Ledger.lane he) t) p) q
  rw [World.ledger_lane] at hlane
  exact ⟨by rw [hlane, Ledger.lane_setLane_self], hle⟩

/-- An execution that succeeds comes a timelock after the time on record, and leaves nothing pending. -/
theorem Reached.unlockExecuted (hw : Reached env w) (h : Step env w a w')
    (he : ExecutesUnlock env t p q (w, a)) (hl : w.lane env t p q = some l) :
    w'.lane env t p q = some l.unlocked ∧ UnlockChange env w a t p q l l.unlocked := by
  have hex := he
  obtain ⟨owner, k, k₁, k₂, rfl, ho⟩ := he
  obtain ⟨p', c, T, l₁, hp', hc, hT, hl₁, hle, hd⟩ := ExecuteUnlockChannelFunds.handler_spec
    (R := Action.rights env w (.outside (.tick 0))) hw.located hw.paired h.ran
  obtain rfl := hw.owner_unique (hw.ownedBy_iff.mpr ho) ⟨k, hp'⟩
  obtain rfl : l₁ = l := Option.some.inj (hl₁.symm.trans hl)
  obtain ⟨L₁, n, ⟨l₀, l', hl₀, ⟨_, hexec⟩, rfl⟩, s, s', -, -, heq⟩ :=
    Ledger.takesAll_singleton.mp hd.takes
  obtain rfl : l₀ = l₁ := Option.some.inj (hl₀.symm.trans hl)
  obtain ⟨hpos, -, -, -, rfl⟩ := DirectionalLaneState.executeUnlock_eq_ok.mp hexec
  have hlane := congrFun (congrFun (congrFun (congrArg Ledger.lane heq) t) p) q
  rw [World.ledger_lane] at hlane
  refine ⟨?_, .executed hex hc hT hle hpos⟩
  rw [hlane, Ledger.lane_setSlot, Ledger.lane_setLane_self]

/-- A settlement, and an unlock both sides signed, cap what is pending. -/
theorem settled_pending (l : DirectionalLaneState) (target used : Nat) :
    (l.settled target used).pendingUnlockAmount ≤ l.pendingUnlockAmount ∧
      (0 < (l.settled target used).pendingUnlockAmount →
        (l.settled target used).unlockRequestedAt = l.unlockRequestedAt) :=
  ⟨min_le_left _ _, fun hpos => if_neg hpos.ne'⟩

theorem Reached.unlockChange (hw : Reached env w) (h : Step env w a w')
    (hl : w.lane env t p q = some l) :
    ∃ l', w'.lane env t p q = some l' ∧ UnlockChange env w a t p q l l' := by
  by_cases hr : ∃ n, RequestsUnlock env t p q n (w, a)
  · obtain ⟨n, hr⟩ := hr
    obtain ⟨hl', hle⟩ := hw.unlockRequested h hr hl
    exact ⟨_, hl', .requested hr hle⟩
  by_cases he : ExecutesUnlock env t p q (w, a)
  · exact ⟨_, hw.unlockExecuted h he hl⟩
  have hr : ∀ n, ¬ RequestsUnlock env t p q n (w, a) := not_exists.mp hr
  obtain ⟨l', hl', rfl | ⟨m, hm, hc⟩⟩ := hw.laneStep h hl
  · exact ⟨l', hl', .kept hr he le_rfl fun _ => rfl⟩
  refine ⟨l', hl', ?_⟩
  cases hc with
  | requestUnlock n requestedAt hle =>
      cases hm with
      | requestUnlock _ hp => exact absurd ⟨_, _, _, _, rfl, rfl, hw.ownedBy_iff.mp hp⟩ (hr _)
      | depositFor hms _ => exact (DepositFor.onBalance hms _ (.head _)).elim
  | executeUnlock _ _ =>
      cases hm with
      | executeUnlock hp _ _ _ _ => exact absurd ⟨_, _, _, _, rfl, hw.ownedBy_iff.mp hp⟩ he
      | depositFor hms _ => exact (DepositFor.onBalance hms _ (.head _)).elim
  | settle es e _ _ _ _ _ =>
      obtain ⟨hle, hat⟩ := settled_pending l e.target _
      exact .kept hr he hle hat
  | cooperativeUnlock n _ =>
      obtain ⟨hle, hat⟩ := settled_pending l l.settledCumulative n
      exact .kept hr he hle hat
  | _ => exact .kept hr he le_rfl fun _ => rfl

/-! ### Histories -/

theorem World.covers_of_pending (hw : Reached env w) (hl : w.lane env t p q = some l) :
    w.Covers env t p q l.pendingUnlockAmount := ⟨l, hl, (hw.unlockRecord hl).le⟩

/-- Behind a pending unlock there is the last request for the lane. -/
theorem awaits_of_history (r : History env h w) (hl : w.lane env t p q = some l)
    (hpos : 0 < l.pendingUnlockAmount) :
    Awaits env h t p q l.pendingUnlockAmount l.unlockRequestedAt := by
  refine Run.history (P := fun h w => ∀ l, w.lane env t p q = some l → 0 < l.pendingUnlockAmount →
    Awaits env h t p q l.pendingUnlockAmount l.unlockRequestedAt) ?_ ?_ r l hl hpos
  · rintro w ⟨clock, -, rfl⟩ l hl
    rw [lane_genesis] at hl
    cases hl
  · intro h w a w' r ih hstep l' hl' hpos
    cases hl : w.lane env t p q with
    | none =>
        obtain ⟨signer, -, rfl⟩ := Reached.newLane r.reachable hstep hl hl'
        exact absurd hpos (lt_irrefl 0)
    | some l =>
        have hcovers := World.covers_of_pending r.reachable hl
        obtain ⟨l₁, hl₁, hc⟩ := Reached.unlockChange r.reachable hstep hl
        obtain rfl := Option.some.inj (hl₁.symm.trans hl')
        cases hc with
        | kept hr he hle hat =>
            rw [hat hpos]
            obtain ⟨l₀, hl₀, hcov⟩ := hcovers
            exact (ih l hl (hpos.trans_le hle)).cons hle hr he ⟨l₀, hl₀, hle.trans hcov⟩
        | requested hr hle =>
            refine ⟨[], (w, a), h, _, rfl, hr, le_rfl, rfl, by simp, ?_⟩
            intro y hy
            obtain rfl := List.mem_singleton.mp hy
            exact ⟨l, hl, hle⟩
        | executed _ _ _ _ _ => exact absurd hpos (lt_irrefl 0)

/-! ### Runs -/

/-- The ways in which `r` of a lane's collateral is taken. -/
inductive Lowered (env : Env) (h : List (World × Action)) (w : World) (a : Action) (w' : World)
    (t : U16) (p q : U32) (r : Nat) : Prop
  /-- The lane is settled, and the payee is credited with as much at least. -/
  | settled {es : List LaneEntry} {e : LaneEntry} : a.IsSettlement →
      (w.ledger env).Settles t es (w'.ledger env) → e ∈ es → e.payer = p → e.payee = q →
      r ≤ (w.ledger env).delta t e → Lowered env h w a w' t p q r
  | cooperative {owner payeeOwner k k₁ k₂ k₃ : Pubkey} {amount : U64} :
      a = .call (.cooperativeUnlockChannelFunds owner payeeOwner k k₁ k₂ k₃ t q amount) →
      owner ∈ a.signers → payeeOwner ∈ a.signers → w.OwnedBy env p owner →
      w.OwnedBy env q payeeOwner → r = amount.val → Lowered env h w a w' t p q r
  | executed {c : GlobalConfig} {T requestedAt : Int} : ExecutesUnlock env t p q (w, a) →
      w.globalConfig = some c → c.effectiveChannelUnlockTimelockSeconds = .ok T →
      Awaits env h t p q r requestedAt → requestedAt + T ≤ w.clock → w.Covers env t p q r →
      Lowered env h w a w' t p q r

/-- What a run says about the collateral of the lanes of the world it leads to, and the next step. -/
def CollateralTimelock (env : Env) (h : List (World × Action)) (w : World) : Prop :=
  ∀ a w' t p q l, Step env w a w' → w.lane env t p q = some l → ∃ l', w'.lane env t p q = some l' ∧
    (l'.lockedBalance < l.lockedBalance →
      Lowered env h w a w' t p q (l.lockedBalance - l'.lockedBalance))

/-- **The collateral timelock** holds along every run. -/
theorem collateralTimelock_of_history (r : History env h w) : CollateralTimelock env h w := by
  intro a w' t p q l hstep hl
  have hw : Reached env w := r.reachable
  obtain ⟨l', hl', rfl | ⟨m, hm, ht, hc⟩⟩ := hw.laneMove hstep hl
  · exact ⟨l', hl', fun hlt => absurd hlt (lt_irrefl _)⟩
  refine ⟨l', hl', fun hlt => ?_⟩
  cases hc with
  | keep => exact absurd hlt (lt_irrefl _)
  | lock n => exact absurd hlt (Nat.not_lt.mpr (Nat.le_add_right _ _))
  | requestUnlock _ _ _ => exact absurd hlt (lt_irrefl _)
  | requestSigner _ _ _ _ => exact absurd hlt (lt_irrefl _)
  | executeSigner _ _ => exact absurd hlt (lt_irrefl _)
  | executeUnlock hpos hat =>
      have hle := (hw.unlockRecord hl).le
      have hr : l.lockedBalance - l.unlocked.lockedBalance = l.pendingUnlockAmount := by
        simp only [DirectionalLaneState.unlocked]
        omega
      rw [hr]
      cases hm with
      | executeUnlock hp hc hT hl₀ hpast =>
          obtain rfl := Option.some.inj (hl₀.symm.trans hl)
          exact .executed ⟨_, _, _, _, rfl, hw.ownedBy_iff.mp hp⟩ hc hT
            (awaits_of_history r hl hpos) hpast (World.covers_of_pending hw hl)
      | depositFor hms _ => exact (DepositFor.onBalance hms _ (.head _)).elim
  | cooperativeUnlock n hle =>
      cases hm with
      | cooperativeUnlock _ hp hq ho =>
          exact .cooperative rfl (.head _) (.tail _ (.head _)) (hw.ownedBy_iff.mp hp) ⟨_, hq, ho⟩
            (Nat.sub_sub_self hle)
      | depositFor hms _ => exact (DepositFor.onBalance hms _ (.head _)).elim
  | settle es e he hp hq hn hlt' =>
      refine .settled hm.isSettlement ht he hp hq ?_
      have hsettled : (w.ledger env).settledCumulative t e.payer e.payee = l.settledCumulative := by
        rw [Ledger.settledCumulative, World.ledger_lane, hp, hq, hl]
        rfl
      rw [Ledger.delta, hsettled]
      simp only [Ledger.settledLane, DirectionalLaneState.settled]
      omega

open Localnet in
/-- A lane with collateral of 40, of which 30 are requested back. -/
theorem collateralTimelock_of_request : ∃ h w, History localnet h w ∧
    (w.lane localnet 1 0 1).map (fun l => (l.lockedBalance, l.pendingUnlockAmount)) = some (40, 30) ∧
      CollateralTimelock localnet h w := by
  obtain ⟨w, ⟨h, r⟩, hc⟩ := reached_of_runsTo localnet
    (opening ++ funding ++
      [.call (.requestUnlockChannelFunds (key 10) indexBucket (channels 1) 1 1 30)])
    (fun w => (w.lane localnet 1 0 1).map (fun l => (l.lockedBalance, l.pendingUnlockAmount))
      = some (40, 30)) (by decide +kernel)
  exact ⟨h, w, r, of_decide_eq_true hc, collateralTimelock_of_history r⟩

end Ryvo
