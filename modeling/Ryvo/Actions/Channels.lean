import Ryvo.Actions.Effects

/-!
# Actions — Channels

What each instruction on a channel does, and whose it is: the payer's owner signs, but for the execution of a cooperative unlock, which the payee's owner signs too.  The two executions wait for the timelock.
-/

namespace Ryvo

variable {env : Env} {R : Rights env} {w w' : World} {k k₁ k₂ owner : Pubkey} {t : U16} {p q : U32}
variable {n : Nat}

/-- The registry knows the token. -/
def World.Registered (w : World) (t : U16) : Prop :=
  ∃ r e, w.tokenRegistry = some r ∧ r.findToken t = some e

theorem requireToken_eq_ok {u : Unit} : w.requireToken t = .ok u ↔ w.Registered t := by
  simp only [World.requireToken, World.getTokenRegistry, Except.bind_eq_ok, okOr_eq_ok,
    Except.pure_eq_ok, World.Registered]
  constructor
  · rintro ⟨r, hr, e, he, -⟩
    exact ⟨r, e, hr, he⟩
  · rintro ⟨r, e, hr, he⟩
    exact ⟨r, hr, e, he, trivial⟩

namespace CreateChannel

/-- The bucket's account is there afterwards, with the lanes it had. -/
theorem createOrVerifyBucket_spec {id : U64} (hl : Located env w)
    (h : createOrVerifyBucket env w t id = .ok w') :
    Located env w' ∧ w'.ledger env = w.ledger env ∧ BucketsOnly w w' := by
  unfold createOrVerifyBucket at h
  split at h
  · rename_i hn
    cases h
    have hcases : ∀ k b, (w.setChannelBucket (env.address (.channelBucket t id))
        (ChannelBucket.initializeAccountData t id (env.bump (.channelBucket t id)))
        ).channelBuckets k = some b → (k = env.address (.channelBucket t id) ∧
          b = ChannelBucket.initializeAccountData t id (env.bump (.channelBucket t id))) ∨
          w.channelBuckets k = some b := fun k b hb => by
      rw [World.setChannelBucket_channelBuckets] at hb
      by_cases e : k = env.address (.channelBucket t id)
      · subst e
        rw [Function.update_self, Option.some.injEq] at hb
        exact .inl ⟨rfl, hb.symm⟩
      · exact .inr (by rwa [Function.update_of_ne e] at hb)
    refine ⟨⟨hl.participants, fun k b hb => ?_, hl.places, fun k b off hb hi => ?_⟩, ?_, rfl⟩
    · obtain ⟨rfl, rfl⟩ | hb := hcases k b hb
      · exact ⟨rfl, rfl⟩
      · exact hl.channels k b hb
    · obtain ⟨rfl, rfl⟩ | hb := hcases k b hb
      · cases off with | mk i sel => cases sel <;> rfl
      · exact hl.blank k b off hb hi
    · -- A bucket of free slots has no lane in it.
      refine Ledger.ext' (fun _ => rfl) fun t' p q => ?_
      simp only [World.ledger_lane, World.lane, World.setChannelBucket_channelBuckets]
      cases hk : laneKey env t' p q with
      | none => rfl
      | some k =>
          rw [Option.bind_some, Option.bind_some]
          by_cases e : k = env.address (.channelBucket t id)
          · rw [e, Function.update_self, hn]
            exact ChannelBucket.lane?_initializeAccountData _ _ _ _ _
          · rw [Function.update_of_ne e]
  · simp only [Except.bind_eq_ok, Except.pure_eq_ok] at h
    obtain ⟨_, -, rfl⟩ := h
    exact ⟨hl, rfl, rfl⟩

/-- Creating a lane in its bucket's account. -/
theorem initializeLane_spec {lower higher : U32} {sel : LaneSelector} {id : U64} {signer : Pubkey}
    {b b' : ChannelBucket} (hl : Located env w)
    (hc : ChannelBucket.canonicalize p q = .ok (lower, higher, sel))
    (hid : ChannelBucket.bucketIdForPair lower higher = .ok id)
    (hb : w.channelBuckets (env.address (.channelBucket t id)) = some b)
    (h : b.initializeLaneInData t lower higher sel signer = .ok b') :
    Located env (w.setChannelBucket (env.address (.channelBucket t id)) b') ∧
      w.lane env t p q = none ∧ (w.setChannelBucket (env.address (.channelBucket t id)) b').ledger env
        = (w.ledger env).setLane t p q (.fresh signer) := by
  obtain ⟨htok, -, hsame, hnone, hself, hother⟩ := ChannelBucket.initializeLaneInData_spec hc h
  have hkey : laneKey env t p q = some (env.address (.channelBucket t id)) :=
    laneKey_eq_some.mpr ⟨id, laneBucketId_eq_ok.mpr ⟨lower, higher, sel, hc, hid⟩, rfl⟩
  have hlane : ∀ t' p' q' k, laneKey env t' p' q' = some k →
      (w.setChannelBucket (env.address (.channelBucket t id)) b').lane env t' p' q'
        = (if k = env.address (.channelBucket t id) then some b' else w.channelBuckets k).bind
          (·.lane? p' q') := fun t' p' q' k hk => by
    rw [World.lane, hk, Option.bind_some, World.setChannelBucket_channelBuckets,
      Function.update_apply]
  refine ⟨⟨hl.participants, fun k b₀ hb₀ => ?_, hl.places, fun k b₀ off hb₀ hi => ?_⟩, ?_,
    Ledger.ext' (fun _ => rfl) fun t' p' q' => ?_⟩
  · rw [World.setChannelBucket_channelBuckets, Function.update_apply] at hb₀
    split at hb₀
    · obtain rfl := Option.some.inj hb₀
      rename_i e
      rw [e, hsame.1, hsame.2.1, hsame.2.2]
      exact hl.channels _ b hb
    · exact hl.channels k b₀ hb₀
  · rw [World.setChannelBucket_channelBuckets, Function.update_apply] at hb₀
    split at hb₀
    · obtain rfl := Option.some.inj hb₀
      exact ChannelBucket.blank_initializeLaneInData (fun off => hl.blank _ b off hb) h off hi
    · exact hl.blank k b₀ off hb₀ hi
  · rw [World.lane, hkey, Option.bind_some, hb, Option.bind_some, hnone]
  · simp only [World.ledger_lane]
    by_cases hm : t' = t ∧ p' = p ∧ q' = q
    · obtain ⟨rfl, rfl, rfl⟩ := hm
      rw [Ledger.lane_setLane_self, hlane _ _ _ _ hkey, if_pos rfl]
      exact hself
    · rw [Ledger.lane_setLane_ne hm, World.ledger_lane]
      cases hk : laneKey env t' p' q' with
      | none => simp [World.lane, hk]
      | some k =>
          rw [hlane _ _ _ _ hk, World.lane, hk, Option.bind_some]
          split
          · rename_i e
            subst e
            rw [hb]
            exact hother p' q' fun hpq => hm ⟨laneKey_token hkey hk, hpq⟩
          · rfl

theorem handler_spec {payeeOwner signer : Option Pubkey} {lower higher : U32} {id : U64}
    (hl : Located env w)
    (h : handler env w owner k k₁ k₂ payeeOwner t lower higher id signer = .ok w') :
    ∃ p q s, w.Registered t ∧ w.participantIdForOwner env k owner = .ok p ∧ w.slot env p = some s ∧
      Does R [.openLane t p q (signer.getD s.owner)] w w' := by
  simp only [handler, Except.bind_eq_ok, require_eq_ok, exists_const, Prod.exists,
    Except.pure_eq_ok, requireToken_eq_ok, World.editChannelBucket, World.getChannelBucket,
    okOr_eq_ok, Prod.mk.injEq] at h
  obtain ⟨hreg, p, ha, payerData, hpd, payerOwner, hpo, q, hq, lower', higher', sel, hc, ⟨rfl, rfl⟩, _,
    hv, payeeData, hqd, payeeKey, hqo, policy, -, _, -, _, hid, rfl, w₁, h₁, w₂,
    ⟨b, hb, b', ⟨_, hinit, rfl, -⟩, rfl, -⟩, rfl⟩ := h
  obtain ⟨hp, rfl, -⟩ := (authenticated_eq_ok hl).mp ha
  obtain ⟨rfl, -⟩ := (verifyParticipantBucket hl).mp hv
  obtain ⟨sp, hsp, rfl⟩ := readOwner_eq_ok.mp ⟨payerData, hpd, hpo⟩
  obtain ⟨sq, hsq, rfl⟩ := readOwner_eq_ok.mp ⟨payeeData, hqd, hqo⟩
  obtain ⟨hl₁, hled, hbuckets⟩ := createOrVerifyBucket_spec hl h₁
  obtain ⟨hl₂, hnone, hset⟩ := initializeLane_spec hl₁ hc hid hb hinit
  have hne : p ≠ q := by
    rcases ChannelBucket.canonicalize_eq_ok.mp hc with ⟨h, -⟩ | ⟨h, -⟩
    · exact ne_of_lt h
    · exact (ne_of_lt h).symm
  refine ⟨p, q, sp, hreg, hp, hsp, .move (hbuckets.trans rfl) hl₂ ⟨hne, ?_, ?_, ?_, ?_⟩⟩
  · rw [← hled]
    exact hnone
  · simp [hsp]
  · simp [hsq]
  · rw [hset, hled]

end CreateChannel

/-! ### Collateral -/

namespace LockChannelFunds

theorem handler_spec (hl : Located env w) (h : handler env w owner k k₁ k₂ t q n = .ok w') :
    ∃ p, 0 < n ∧ w.Registered t ∧ w.participantIdForOwner env k owner = .ok p ∧
      Does R [.lock t p q n] w w' := by
  simp only [handler, Except.bind_eq_ok, require_eq_ok, exists_const, Prod.exists,
    Except.pure_eq_ok, requireToken_eq_ok] at h
  obtain ⟨hn, hreg, p, ha, _, hv, w₁, m, hdebit, _, m', hlock, rfl⟩ := h
  obtain ⟨hp, rfl, -⟩ := (authenticated_eq_ok hl).mp ha
  have hkey := verifyLaneBucket_eq_ok hl hv
  obtain ⟨s, s', hs, hd, rfl⟩ := editSlot_eq_ok.mp hdebit
  obtain ⟨l, l', hlane, ha', rfl⟩ := (editLane_eq_ok hkey).mp hlock
  have hprofile := (ParticipantBucketSlot.rewrites_debit hd).2.profile
  have hi : l'.initialized = true := by
    obtain ⟨-, -, rfl⟩ := DirectionalLaneState.addLockedBalance_eq_ok.mp ha'
    have hi := lane_initialized hlane
    exact hi
  exact ⟨p, hn, hreg, hp, .move (bucketsOnly_writeSlot.trans bucketsOnly_writeLane)
    ((hl.writeSlot (initialized_of_profile hprofile hs).2).writeLane hi)
    ⟨(w.writeSlot env p s').ledger env, editSlot_writeSlot hs hprofile ⟨m, hd⟩,
      editLane_writeLane hlane hi ⟨m', ha'⟩⟩⟩

end LockChannelFunds

namespace RequestUnlockChannelFunds

theorem handler_spec (hl : Located env w) (h : handler env w owner k k₁ t q n = .ok w') :
    ∃ p, 0 < n ∧ w.participantIdForOwner env k owner = .ok p ∧
      Does R [.requestUnlock t p q n w.clock] w w' := by
  simp only [handler, Except.bind_eq_ok, require_eq_ok, exists_const, Prod.exists,
    Except.pure_eq_ok] at h
  obtain ⟨c, -, hn, p, hp, _, hv, T, -, _, -, _, u, hedit, rfl⟩ := h
  obtain ⟨l, l', hlane, hreq, rfl⟩ := (editLane_eq_ok (verifyLaneBucket_eq_ok hl hv)).mp hedit
  refine ⟨p, hn, hp, .lane hl (fun _ _ => id) hlane ?_ hreq⟩
  obtain ⟨-, rfl⟩ := DirectionalLaneState.requestUnlock_eq_ok.mp hreq
  rfl

end RequestUnlockChannelFunds

namespace ExecuteUnlockChannelFunds

theorem handler_spec (hl : Located env w) (hL : (w.ledger env).Paired)
    (h : handler env w owner k k₁ k₂ t q = .ok w') :
    ∃ p c T l, w.participantIdForOwner env k owner = .ok p ∧ w.globalConfig = some c ∧
      c.effectiveChannelUnlockTimelockSeconds = .ok T ∧ w.lane env t p q = some l ∧
      l.unlockRequestedAt + T ≤ w.clock ∧ Does R [.executeUnlock t p q] w w' := by
  simp only [handler, World.getGlobalConfig, World.getChannelBucket, Except.bind_eq_ok,
    require_eq_ok, okOr_eq_ok, exists_const, Prod.exists, addI64, signed_eq_ok] at h
  obtain ⟨c, hc, p, hp, _, hv, data, hdata, core, hcore, hi, -, T, hT, _, ⟨rfl, -⟩, hle, _, hver, w₁,
    n, m, hedit, hcredit⟩ := h
  have hkey := verifyLaneBucket_eq_ok hl hv
  have hlane := (readLaneCore_eq_ok hkey).mp ⟨⟨data, hdata, hcore⟩, hi⟩
  obtain ⟨l, l', hlane', hexec, rfl⟩ := (editLane_eq_ok hkey).mp hedit
  obtain rfl := Option.some.inj (hlane.symm.trans hlane')
  obtain ⟨-, -, rfl, -, rfl⟩ := DirectionalLaneState.executeUnlock_eq_ok.mp hexec
  have hi' : core.unlocked.initialized = true := hi
  have hedit : (w.ledger env).EditLane t p q
      (fun l l' => ∃ m, l.executeUnlock = .ok (l', min core.pendingUnlockAmount core.lockedBalance, m))
      ((w.writeLane env t p q core.unlocked).ledger env) :=
    editLane_writeLane hlane hi' ⟨m, hexec⟩
  refine ⟨p, c, T, core, hp, hc, hT, hlane, hle, ?_⟩
  unfold verifyIfReleased at hver
  unfold creditIfReleased at hcredit
  split at hcredit
  · rename_i hn
    rw [if_pos hn] at hver
    obtain ⟨rfl, -⟩ := (verifyParticipantBucket hl).mp hver
    simp only [Except.bind_eq_ok, Prod.exists, Except.pure_eq_ok] at hcredit
    obtain ⟨_, u, hcredit, rfl⟩ := hcredit
    obtain ⟨s, s', hs, hd, rfl⟩ := (editDelta_eq_ok (by omega)).mp hcredit
    have hprofile := (ParticipantBucketSlot.appliedDelta hd).profile
    exact .move (bucketsOnly_writeLane.trans bucketsOnly_writeSlot)
      ((hl.writeLane hi').writeSlot (initialized_of_profile hprofile hs).2)
      ⟨_, _, hedit, editSlot_writeSlot hs hprofile hd⟩
  · -- Nothing is released: the payer's slot stays as it is.
    rename_i hn
    cases hcredit
    obtain ⟨s, hs⟩ := Option.isSome_iff_exists.mp (hL t p q (by simp [hlane])).1
    refine .move bucketsOnly_writeLane (hl.writeLane hi') ⟨_, _, hedit, s, s, ?_, ?_, ?_⟩
    · rw [World.ledger_slot, slot_writeLane]
      exact hs
    · rw [Nat.eq_zero_of_not_pos hn]
      rfl
    · rw [Ledger.setSlot_eq_self]
      rw [World.ledger_slot, slot_writeLane]
      exact hs

end ExecuteUnlockChannelFunds

namespace CooperativeUnlockChannelFunds

theorem handler_spec {payeeOwner payerBucket payeeBucket : Pubkey} (hl : Located env w)
    (h : handler env w owner payeeOwner k payerBucket payeeBucket k₁ t q n = .ok w') :
    ∃ p s, 0 < n ∧ w.Registered t ∧ w.participantIdForOwner env k owner = .ok p ∧
      w.slot env q = some s ∧ s.owner = payeeOwner ∧ Does R [.cooperativeUnlock t p q n] w w' := by
  simp only [handler, Except.bind_eq_ok, require_eq_ok, exists_const, Prod.exists,
    Except.pure_eq_ok, requireToken_eq_ok] at h
  obtain ⟨hn, hreg, p, ha, _, hq, payeeData, hqd, o, hqo, rfl, _, hv, w₁, released, remaining, hedit, _, u,
    hcredit, rfl⟩ := h
  obtain ⟨hp, rfl, -⟩ := (authenticated_eq_ok hl).mp ha
  obtain ⟨rfl, -⟩ := (verifyParticipantBucket hl).mp hq
  obtain ⟨sq, hsq, rfl⟩ := readOwner_eq_ok.mp ⟨payeeData, hqd, hqo⟩
  have hkey := verifyLaneBucket_eq_ok hl hv
  obtain ⟨l, l', hlane, hcoop, rfl⟩ := (editLane_eq_ok hkey).mp hedit
  obtain ⟨-, rfl, -, rfl⟩ := DirectionalLaneState.cooperativeUnlock_eq_ok.mp hcoop
  have hi := lane_initialized hlane
  have hi' : (l.cooperativelyUnlocked released).initialized = true := hi
  obtain ⟨s, s', hs, hd, rfl⟩ := (editDelta_eq_ok (by omega)).mp hcredit
  have hprofile := (ParticipantBucketSlot.appliedDelta hd).profile
  exact ⟨p, sq, hn, hreg, hp, hsq, rfl, .move (bucketsOnly_writeLane.trans bucketsOnly_writeSlot)
    ((hl.writeLane hi').writeSlot (initialized_of_profile hprofile hs).2)
    ⟨_, editLane_writeLane hlane hi' ⟨remaining, hcoop⟩, editSlot_writeSlot hs hprofile hd⟩⟩

end CooperativeUnlockChannelFunds

/-! ### The authorised signer -/

namespace RequestUpdateChannelAuthorizedSigner

theorem handler_spec {newSigner : Pubkey} (hl : Located env w)
    (h : handler env w owner k k₁ t q newSigner = .ok w') :
    ∃ p, w.participantIdForOwner env k owner = .ok p ∧
      Does R [.requestSigner t p q newSigner w.clock] w w' := by
  simp only [handler, Except.bind_eq_ok, Prod.exists, Except.pure_eq_ok] at h
  obtain ⟨c, -, p, hp, _, hv, T, -, _, -, _, u, hedit, rfl⟩ := h
  obtain ⟨l, l', hlane, hreq, rfl⟩ := (editLane_eq_ok (verifyLaneBucket_eq_ok hl hv)).mp hedit
  refine ⟨p, hp, .lane hl (fun _ _ => id) hlane ?_ ⟨u, hreq⟩⟩
  obtain ⟨-, -, -, rfl⟩ := DirectionalLaneState.requestAuthorizedSignerUpdate_eq_ok.mp hreq
  rfl

end RequestUpdateChannelAuthorizedSigner

namespace ExecuteUpdateChannelAuthorizedSigner

theorem handler_spec (hl : Located env w) (h : handler env w owner k k₁ t q = .ok w') :
    ∃ p c T l, w.participantIdForOwner env k owner = .ok p ∧ w.globalConfig = some c ∧
      c.effectiveChannelUnlockTimelockSeconds = .ok T ∧ w.lane env t p q = some l ∧
      l.authorizedSignerUpdateRequestedAt + T ≤ w.clock ∧ Does R [.executeSigner t p q] w w' := by
  simp only [handler, World.getGlobalConfig, World.getChannelBucket, Except.bind_eq_ok,
    require_eq_ok, okOr_eq_ok, exists_const, Prod.exists, addI64, signed_eq_ok,
    Except.pure_eq_ok] at h
  obtain ⟨c, hc, p, hp, _, hv, data, hdata, core, hcore, hi, -, T, hT, _, ⟨rfl, -⟩, hle, _, k₃, k₄, hedit,
    rfl⟩ := h
  have hkey := verifyLaneBucket_eq_ok hl hv
  have hlane := (readLaneCore_eq_ok hkey).mp ⟨⟨data, hdata, hcore⟩, hi⟩
  obtain ⟨l, l', hlane', hexec, rfl⟩ := (editLane_eq_ok hkey).mp hedit
  obtain rfl := Option.some.inj (hlane.symm.trans hlane')
  refine ⟨p, c, T, core, hp, hc, hT, hlane, hle, .lane hl (fun _ _ => id) hlane ?_ ⟨k₃, k₄, hexec⟩⟩
  obtain ⟨-, -, -, -, rfl⟩ := DirectionalLaneState.executeAuthorizedSignerUpdate_eq_ok.mp hexec
  rfl

end ExecuteUpdateChannelAuthorizedSigner

end Ryvo
