import Ryvo.Runs.Lanes

/-!
# Runs — Signer rotation

Who signs for a lane along a run.  The signer, the pending signer and its time change only where the payer's owner requests a rotation and where one is executed (`Reached.signerChange`), so the request behind a pending signer is the last one in the history (`LastRequest`).

* `rotationTimelock_of_history`: a new signer was requested by the payer's owner a timelock earlier, and nothing was requested since.
-/

namespace Ryvo

variable {env : Env} {w w' : World} {a : Action} {t : U16} {p q : U32} {key : Pubkey}
variable {l l' : DirectionalLaneState} {h : List (World × Action)}

/-- The owner stored in the slot of `p`. -/
def World.OwnedBy (env : Env) (w : World) (p : U32) (owner : Pubkey) : Prop :=
  ∃ s, w.slot env p = some s ∧ s.owner = owner

theorem Reached.ownedBy_iff (hw : Reached env w) {owner : Pubkey} :
    w.IsOwner env owner p ↔ w.OwnedBy env p owner := hw.identities.isOwner

/-- An owner has one id. -/
theorem Reached.owner_unique (hw : Reached env w) {owner : Pubkey} {p' : U32}
    (hp : w.IsOwner env owner p) (hp' : w.IsOwner env owner p') : p = p' := by
  obtain ⟨k, hp⟩ := hp
  obtain ⟨k', hp'⟩ := hp'
  obtain ⟨-, hp⟩ := (participantIdForOwner_eq_ok hw.identities).mp hp
  obtain ⟨-, hp'⟩ := (participantIdForOwner_eq_ok hw.identities).mp hp'
  exact Option.some.inj (hp.symm.trans hp')

/-- The payer's owner asks for `key` to sign for the lane. -/
def RequestsSigner (env : Env) (t : U16) (p q : U32) (key : Pubkey) (x : World × Action) : Prop :=
  ∃ owner k k₁, x.2 = .call (.requestUpdateChannelAuthorizedSigner owner k k₁ t q key) ∧
    x.1.OwnedBy env p owner

/-- The payer's owner executes a rotation for the lane. -/
def ExecutesRotation (env : Env) (t : U16) (p q : U32) (x : World × Action) : Prop :=
  ∃ owner k k₁, x.2 = .call (.executeUpdateChannelAuthorizedSigner owner k k₁ t q) ∧
    x.1.OwnedBy env p owner

/-- The last request for the lane was for `key`, at `requestedAt`. -/
def LastRequest (env : Env) (h : List (World × Action)) (t : U16) (p q : U32) (key : Pubkey)
    (requestedAt : Int) : Prop :=
  ∃ h₁ x h₂, h = h₁ ++ x :: h₂ ∧ RequestsSigner env t p q key x ∧ x.1.clock = requestedAt ∧
    ∀ y ∈ h₁, ∀ key', ¬ RequestsSigner env t p q key' y

theorem LastRequest.cons {x : World × Action} {requestedAt : Int}
    (hr : LastRequest env h t p q key requestedAt) (hx : ∀ key', ¬ RequestsSigner env t p q key' x) :
    LastRequest env (x :: h) t p q key requestedAt := by
  obtain ⟨h₁, y, h₂, rfl, hy, hat, hlast⟩ := hr
  refine ⟨x :: h₁, y, h₂, rfl, hy, hat, fun z hz => ?_⟩
  rcases List.mem_cons.mp hz with rfl | hz
  · exact hx
  · exact hlast z hz

/-! ### Steps -/

/-- The lane has the same signers. -/
structure SameSigners (l l' : DirectionalLaneState) : Prop where
  signer : l'.authorizedSigner = l.authorizedSigner
  pending : l'.pendingAuthorizedSigner = l.pendingAuthorizedSigner
  requestedAt : l'.authorizedSignerUpdateRequestedAt = l.authorizedSignerUpdateRequestedAt

theorem SameSigners.refl (l : DirectionalLaneState) : SameSigners l l := ⟨rfl, rfl, rfl⟩

/-- What a step does to the signers of a lane. -/
inductive SignerChange (env : Env) (w : World) (a : Action) (t : U16) (p q : U32)
    (l : DirectionalLaneState) : DirectionalLaneState → Prop
  | same {l' : DirectionalLaneState} : (∀ key, ¬ RequestsSigner env t p q key (w, a)) →
      SameSigners l l' → SignerChange env w a t p q l l'
  | requested {key : Pubkey} : RequestsSigner env t p q key (w, a) → key ≠ Pubkey.default →
      key ≠ l.authorizedSigner → SignerChange env w a t p q l { l with
        pendingAuthorizedSigner := key, authorizedSignerUpdateRequestedAt := w.clock }
  | executed {c : GlobalConfig} {T : Int} : ExecutesRotation env t p q (w, a) →
      (∀ key, ¬ RequestsSigner env t p q key (w, a)) → w.globalConfig = some c →
      c.effectiveChannelUnlockTimelockSeconds = .ok T →
      l.authorizedSignerUpdateRequestedAt + T ≤ w.clock →
      l.authorizedSignerUpdateRequestedAt ≠ 0 → SignerChange env w a t p q l { l with
        authorizedSigner := l.pendingAuthorizedSigner
        pendingAuthorizedSigner := Pubkey.default
        authorizedSignerUpdateRequestedAt := 0 }

/-- A request that succeeds is recorded. -/
theorem Reached.requested (hw : Reached env w) (h : Step env w a w')
    (hr : RequestsSigner env t p q key (w, a)) (hl : w.lane env t p q = some l) :
    w'.lane env t p q = some { l with
      pendingAuthorizedSigner := key, authorizedSignerUpdateRequestedAt := w.clock } ∧
    key ≠ Pubkey.default ∧ key ≠ l.authorizedSigner := by
  obtain ⟨owner, k, k₁, rfl, ho⟩ := hr
  obtain ⟨p', hp', hd⟩ := RequestUpdateChannelAuthorizedSigner.handler_spec
    (R := Action.rights env w (.outside (.tick 0))) hw.located h.ran
  obtain rfl := hw.owner_unique (hw.ownedBy_iff.mpr ho) ⟨k, hp'⟩
  obtain ⟨l₀, l', hl₀, ⟨_, hreq⟩, he⟩ := Ledger.takesAll_singleton.mp hd.takes
  obtain rfl : l₀ = l := Option.some.inj (hl₀.symm.trans hl)
  obtain ⟨h₁, h₂, -, rfl⟩ := DirectionalLaneState.requestAuthorizedSignerUpdate_eq_ok.mp hreq
  refine ⟨?_, h₁, h₂⟩
  have hlane := congrFun (congrFun (congrFun (congrArg Ledger.lane he) t) p) q
  rw [World.ledger_lane] at hlane
  rw [hlane, Ledger.lane_setLane_self]

theorem Reached.signerChange (hw : Reached env w) (h : Step env w a w')
    (hl : w.lane env t p q = some l) :
    ∃ l', w'.lane env t p q = some l' ∧ SignerChange env w a t p q l l' := by
  by_cases hr : ∃ key, RequestsSigner env t p q key (w, a)
  · obtain ⟨key, hr⟩ := hr
    obtain ⟨hl', h₁, h₂⟩ := hw.requested h hr hl
    exact ⟨_, hl', .requested hr h₁ h₂⟩
  · have hr : ∀ key, ¬ RequestsSigner env t p q key (w, a) := not_exists.mp hr
    obtain ⟨l', hl', rfl | ⟨m, hm, hc⟩⟩ := hw.laneStep h hl
    · exact ⟨l', hl', .same hr (.refl l')⟩
    refine ⟨l', hl', ?_⟩
    cases hc with
    | requestSigner newSigner requestedAt _ _ =>
        cases hm with
        | requestSigner hp => exact absurd ⟨_, _, _, rfl, hw.ownedBy_iff.mp hp⟩ (hr _)
        | depositFor hms _ => exact (DepositFor.onBalance hms _ (.head _)).elim
    | executeSigner hk hat =>
        cases hm with
        | executeSigner hp hc hT hl₀ hle =>
            obtain rfl := Option.some.inj (hl₀.symm.trans hl)
            exact .executed ⟨_, _, _, rfl, hw.ownedBy_iff.mp hp⟩ hr hc hT hle hat
        | depositFor hms _ => exact (DepositFor.onBalance hms _ (.head _)).elim
    | _ => exact .same hr ⟨rfl, rfl, rfl⟩

/-! ### Records -/

/-- A pending signer has a time, and differs from the one that signs. -/
structure SignerRecord (l : DirectionalLaneState) : Prop where
  timed : l.pendingAuthorizedSigner ≠ Pubkey.default ↔ l.authorizedSignerUpdateRequestedAt ≠ 0
  differs : l.pendingAuthorizedSigner ≠ Pubkey.default →
    l.pendingAuthorizedSigner ≠ l.authorizedSigner

theorem SignerRecord.change (hr : SignerRecord l) (hclock : w.clock ≠ 0)
    (hc : SignerChange env w a t p q l l') : SignerRecord l' := by
  cases hc with
  | same _ hs => exact ⟨by rw [hs.pending, hs.requestedAt]; exact hr.timed,
      by rw [hs.pending, hs.signer]; exact hr.differs⟩
  | requested _ h₁ h₂ => exact ⟨⟨fun _ => hclock, fun _ => h₁⟩, fun _ => h₂⟩
  | executed _ _ _ _ _ _ => exact ⟨by simp, fun h => absurd rfl h⟩

theorem Reached.signerRecord (hw : Reached env w) (hl : w.lane env t p q = some l) :
    SignerRecord l := by
  refine Reachable.invariant
    (P := fun w => ∀ t p q l, w.lane env t p q = some l → SignerRecord l) ?_ ?_ hw t p q l hl
  · rintro w ⟨clock, -, rfl⟩ t p q l hl
    rw [lane_genesis] at hl
    cases hl
  · intro w a w' hw ih h t p q l' hl'
    cases hl : w.lane env t p q with
    | none =>
        obtain ⟨signer, -, rfl⟩ := Reached.newLane hw h hl hl'
        exact ⟨by simp [DirectionalLaneState.fresh, DirectionalLaneState.uninitialized],
          fun h => absurd rfl h⟩
    | some l =>
        obtain ⟨l₁, hl₁, hc⟩ := Reached.signerChange hw h hl
        obtain rfl := Option.some.inj (hl₁.symm.trans hl')
        exact (ih t p q l hl).change (Reached.clock_pos hw).ne' hc

/-- Behind a pending signer there is the last request for the lane. -/
theorem lastRequest_of_history (r : History env h w) (hl : w.lane env t p q = some l)
    (hat : l.authorizedSignerUpdateRequestedAt ≠ 0) :
    LastRequest env h t p q l.pendingAuthorizedSigner l.authorizedSignerUpdateRequestedAt := by
  refine Run.history (P := fun h w => ∀ l, w.lane env t p q = some l →
    l.authorizedSignerUpdateRequestedAt ≠ 0 → LastRequest env h t p q l.pendingAuthorizedSigner
      l.authorizedSignerUpdateRequestedAt) ?_ ?_ r l hl hat
  · rintro w ⟨clock, -, rfl⟩ l hl
    rw [lane_genesis] at hl
    cases hl
  · intro h w a w' r ih hstep l' hl' hat
    cases hl : w.lane env t p q with
    | none =>
        obtain ⟨signer, -, rfl⟩ := Reached.newLane r.reachable hstep hl hl'
        exact absurd rfl hat
    | some l =>
        obtain ⟨l₁, hl₁, hc⟩ := Reached.signerChange r.reachable hstep hl
        obtain rfl := Option.some.inj (hl₁.symm.trans hl')
        cases hc with
        | same hr hs =>
            rw [hs.requestedAt] at hat
            rw [hs.pending, hs.requestedAt]
            exact (ih l hl hat).cons hr
        | requested hr _ _ => exact ⟨[], (w, a), h, rfl, hr, rfl, by simp⟩
        | executed _ _ _ _ _ _ => exact absurd rfl hat

/-! ### Runs -/

/-- What a run says about the signers of the world it leads to, and of the next step. -/
structure RotationTimelock (env : Env) (h : List (World × Action)) (w : World) : Prop where
  record : ∀ t p q l, w.lane env t p q = some l → SignerRecord l
  /-- A new lane has the key its payer's owner chose. -/
  chosen : ∀ a w' t p q l', Step env w a w' → w.lane env t p q = none →
    w'.lane env t p q = some l' → ∃ owner k k₁ k₂ payeeOwner lower higher id signer,
      a = .call (.createChannel owner k k₁ k₂ payeeOwner t lower higher id signer) ∧
        w.OwnedBy env p owner ∧ l'.authorizedSigner = signer.getD owner
  /-- It stays until a rotation is executed, a timelock after the last request. -/
  changed : ∀ a w' t p q l, Step env w a w' → w.lane env t p q = some l →
    ∃ l', w'.lane env t p q = some l' ∧ (l'.authorizedSigner ≠ l.authorizedSigner →
      ∃ requestedAt c T, LastRequest env h t p q l'.authorizedSigner requestedAt ∧
        w.globalConfig = some c ∧ c.effectiveChannelUnlockTimelockSeconds = .ok T ∧
        requestedAt + T ≤ w.clock)
  /-- Nothing but a request and an execution for the lane touches its signers. -/
  untouched : ∀ a w' t p q l l', Step env w a w' → w.lane env t p q = some l →
    w'.lane env t p q = some l' → (∀ key, ¬ RequestsSigner env t p q key (w, a)) →
    ¬ ExecutesRotation env t p q (w, a) → SameSigners l l'

/-- **The timelock of a signer rotation** holds along every run. -/
theorem rotationTimelock_of_history (r : History env h w) : RotationTimelock env h w where
  record _ _ _ _ := Reached.signerRecord r.reachable
  chosen a w' t p q l' hstep hn hl' := by
    have hw : Reached env w := r.reachable
    obtain ⟨signer, hm, rfl⟩ := hw.newLane hstep hn hl'
    cases hm with
    | openLane _ hp hs =>
        obtain ⟨s, hs', rfl⟩ := hw.ownedBy_iff.mp hp
        obtain rfl := Option.some.inj (hs.symm.trans hs')
        exact ⟨_, _, _, _, _, _, _, _, _, rfl, ⟨_, hs, rfl⟩, rfl⟩
    | depositFor hms _ => exact (DepositFor.onBalance hms _ (.head _)).elim
  changed a w' t p q l hstep hl := by
    obtain ⟨l', hl', hc⟩ := Reached.signerChange r.reachable hstep hl
    refine ⟨l', hl', fun hne => ?_⟩
    cases hc with
    | same _ hs => exact absurd hs.signer hne
    | requested _ _ _ => exact absurd rfl hne
    | executed _ _ hc hT hle hat => exact ⟨_, _, _, lastRequest_of_history r hl hat, hc, hT, hle⟩
  untouched a w' t p q l l' hstep hl hl' hr he := by
    obtain ⟨l₁, hl₁, hc⟩ := Reached.signerChange r.reachable hstep hl
    obtain rfl := Option.some.inj (hl₁.symm.trans hl')
    cases hc with
    | same _ hs => exact hs
    | requested hr' _ _ => exact absurd hr' (hr _)
    | executed he' _ _ _ _ _ => exact absurd he' he

open Localnet in
/-- A lane whose signer waits to be replaced by key 34. -/
theorem rotationTimelock_of_request : ∃ h w, History localnet h w ∧
    (w.lane localnet 1 0 1).map (·.pendingAuthorizedSigner) = some (Localnet.key 34) ∧
      RotationTimelock localnet h w := by
  obtain ⟨w, ⟨h, r⟩, hc⟩ := reached_of_runsTo localnet
    (opening ++ funding ++ [.call
      (.requestUpdateChannelAuthorizedSigner (Localnet.key 10) indexBucket (channels 1) 1 1 (Localnet.key 34))])
    (fun w => (w.lane localnet 1 0 1).map (·.pendingAuthorizedSigner) = some (Localnet.key 34))
    (by decide +kernel)
  exact ⟨h, w, r, of_decide_eq_true hc, rotationTimelock_of_history r⟩

open Localnet in
/-- A lane created with the zero key as its signer: nothing is pending, and that is the zero key too. -/
theorem pendingSigner_eq_signer : ∃ w l, Reached localnet w ∧ w.lane localnet 1 0 1 = some l ∧
    l.pendingAuthorizedSigner = l.authorizedSigner := by
  obtain ⟨w, hw, hc⟩ := reached_of_runsTo localnet
    (opening ++ [.call (.createChannel (Localnet.key 10) indexBucket bucket bucket
      (some (Localnet.key 11)) 1 0 1 0 (some Pubkey.default))])
    (fun w => (w.lane localnet 1 0 1).any fun l : DirectionalLaneState =>
      decide (l.pendingAuthorizedSigner = l.authorizedSigner)) (by decide +kernel)
  obtain ⟨l, hl, he⟩ := (Option.any_eq_true _ _).mp hc
  exact ⟨w, l, hw, hl, of_decide_eq_true he⟩

end Ryvo
