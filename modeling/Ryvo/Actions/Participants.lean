import Ryvo.Actions.Effects
import Ryvo.Instructions.SettleClearingRound

/-!
# Actions — Participants

Joining, the inbound channel policy and the registration of a key.  The last two edit the profile of the signer's own slot.
-/

namespace Ryvo

variable {env : Env} {R : Rights env} {w w' : World} {k k' owner : Pubkey} {p : U32}
variable {s s' : ParticipantBucketSlot}

/-! ### Profiles -/

/-- A slot whose balances and identity stay is rewritten. -/
theorem Does.profile {f : ParticipantBucketSlot → Result (ParticipantBucketSlot × Unit)} {u : Unit}
    (hl : Located env w) (hf : ∀ s s', f s = .ok (s', ()) →
      Ledger.SameHoldings s s' ∧ s'.initialized = s.initialized)
    (h : w.editParticipantBucket (slotKey env p) (·.modifySlot p f) = .ok (w', u)) :
    ∃ s', Does R [.profile p s'] w w' := by
  obtain ⟨s, s', hs, hd, rfl⟩ := editSlot_eq_ok.mp h
  obtain ⟨hh, hi⟩ := hf s s' hd
  have hi' := hi.trans (slot_initialized hs)
  have hp := hh.2.2.trans (slot_participantId hs)
  refine ⟨s', .move bucketsOnly_writeSlot (hl.writeSlot hp) ⟨s, s', hs, ⟨rfl, hh⟩, ?_⟩⟩
  exact ledger_writeSlot (by simp [hs]) hi' hp

namespace UpdateInboundChannelPolicy

theorem handler_spec {policy : U8} (hl : Located env w)
    (h : handler env w owner k k' policy = .ok w') :
    ∃ p s, w.participantIdForOwner env k owner = .ok p ∧ Does R [.profile p s] w w' := by
  simp only [handler, Except.bind_eq_ok, Prod.exists, Except.pure_eq_ok] at h
  obtain ⟨policy, -, p, ha, _, u, he, rfl⟩ := h
  obtain ⟨hp, rfl, -⟩ := (authenticated_eq_ok hl).mp ha
  obtain ⟨s, hd⟩ := Does.profile (R := R) hl (fun s s' hs => by
    simp only [Except.ok.injEq, Prod.mk.injEq, and_true] at hs
    subst hs
    exact ⟨⟨rfl, rfl, rfl⟩, rfl⟩) he
  exact ⟨p, s, hp, hd⟩

end UpdateInboundChannelPolicy

namespace RegisterParticipantBlsKey

theorem handler_spec {key : Bytes 96} {pop : Bytes 48} (hl : Located env w)
    (h : handler env w owner k k' key pop = .ok w') :
    ∃ p s, w.participantIdForOwner env k owner = .ok p ∧ Does R [.profile p s] w w' := by
  simp only [handler, Except.bind_eq_ok, Prod.exists, Except.pure_eq_ok] at h
  obtain ⟨c, -, p, ha, _, -, data, -, o, v, b, -, _, -, _, u, he, rfl⟩ := h
  obtain ⟨hp, rfl, -⟩ := (authenticated_eq_ok hl).mp ha
  obtain ⟨s, hd⟩ := Does.profile (R := R) hl (fun s s' hs => by
    simp only [Except.ok.injEq, Prod.mk.injEq, and_true] at hs
    subst hs
    exact ⟨⟨rfl, rfl, rfl⟩, rfl⟩) he
  exact ⟨p, s, hp, hd⟩

end RegisterParticipantBlsKey

/-! ### Joining -/

namespace InitializeParticipant

/-- The bucket's account is there afterwards, and nobody new in it. -/
theorem createOrVerifyBucket_spec {id : U32} (hl : Located env w)
    (h : createOrVerifyBucket env w id = .ok w') :
    Located env w' ∧ w'.ledger env = w.ledger env ∧ w' = { w with
      participantBuckets := w'.participantBuckets } := by
  unfold createOrVerifyBucket at h
  split at h
  · rename_i hn
    cases h
    have hcases : ∀ k b, (w.setParticipantBucket (env.address (.participantBucket id))
        (ParticipantBucket.initializeAccountData id (env.bump (.participantBucket id)))
        ).participantBuckets k = some b → (k = env.address (.participantBucket id) ∧
          b = ParticipantBucket.initializeAccountData id (env.bump (.participantBucket id))) ∨
          w.participantBuckets k = some b := fun k b hb => by
      rw [World.setParticipantBucket_participantBuckets] at hb
      by_cases e : k = env.address (.participantBucket id)
      · subst e
        rw [Function.update_self, Option.some.injEq] at hb
        exact .inl ⟨rfl, hb.symm⟩
      · exact .inr (by rwa [Function.update_of_ne e] at hb)
    refine ⟨⟨fun k b hb => ?_, hl.channels, fun k b i hb hi => ?_, hl.blank⟩, ?_, rfl⟩
    · obtain ⟨rfl, rfl⟩ | hb := hcases k b hb
      · exact ⟨rfl, rfl⟩
      · exact hl.participants k b hb
    · obtain ⟨rfl, rfl⟩ | hb := hcases k b hb
      · exact absurd hi Bool.false_ne_true
      · exact hl.places k b i hb hi
    · -- A bucket of free slots has no participant in it.
      refine Ledger.ext' (fun p => ?_) fun _ _ _ => rfl
      simp only [World.ledger_slot, World.slot, World.setParticipantBucket_participantBuckets]
      by_cases e : slotKey env p = env.address (.participantBucket id)
      · rw [e, Function.update_self, hn]
        exact ParticipantBucket.slot?_initializeAccountData _ _ _
      · rw [Function.update_of_ne e]
  · simp only [Except.bind_eq_ok, Except.pure_eq_ok] at h
    obtain ⟨_, -, rfl⟩ := h
    exact ⟨hl, rfl, rfl⟩

/-- What joining leaves behind: a slot, a row in the owner index and the next id. -/
structure Joined (env : Env) (w : World) (owner : Pubkey) (c : GlobalConfig)
    (index index' : OwnerIndexBucket) (w' : World) : Prop where
  config : w.globalConfig = some c
  opened : initializeOwnerIndex env w (OwnerIndexBucket.bucketIdForOwner env owner) = .ok index
  entered : index.insertOwner owner c.nextParticipantId = .ok index'
  room : c.nextParticipantId.val + 1 < 2 ^ 32
  frame : w' = { w with
    participantBuckets := w'.participantBuckets
    ownerIndexBuckets := Function.update w.ownerIndexBuckets
      (env.address (.ownerIndexBucket (OwnerIndexBucket.bucketIdForOwner env owner))) (some index')
    globalConfig := some { c with
      nextParticipantId := Fin.ofNat _ (c.nextParticipantId.val + 1) } }
  located : Located env w'
  takes : (w.ledger env).Takes (.join c.nextParticipantId owner) (w'.ledger env)

theorem handler_spec {fee : Pubkey} {id indexId : U32} (hl : Located env w)
    (h : handler env w owner fee id indexId = .ok w') :
    ∃ c index index', Joined env w owner c index index' w' := by
  simp only [handler, World.getGlobalConfig, Except.bind_eq_ok, okOr_eq_ok, require_eq_ok,
    exists_const, Prod.exists, checkedAdd_eq_ok, Except.pure_eq_ok, World.editParticipantBucket,
    World.getParticipantBucket, ParticipantBucket.initializeSlotInData_eq_ok, Prod.mk.injEq] at h
  obtain ⟨c, hc, -, rfl, rfl, w₁, h₁, index, hopen, w₂, ⟨b, hb, _, ⟨_, ⟨hid, hfree, rfl⟩, rfl, -⟩,
    rfl, -⟩, index', henter, _, ⟨rfl, hroom⟩, rfl⟩ := h
  obtain ⟨hl₁, hled, hframe⟩ := createOrVerifyBucket_spec hl h₁
  refine ⟨c, index, index', hc, ?_, henter, hroom, ?_, ?_, ?_⟩
  · rw [hframe] at hopen
    exact hopen
  · rw [hframe]
    rfl
  · refine ⟨fun k b' hb' => ?_, hl₁.channels, fun k b' i hb' hi => ?_, hl₁.blank⟩
    all_goals
      simp only [World.setGlobalConfig_participantBuckets, World.setOwnerIndexBucket_participantBuckets,
        World.setParticipantBucket_participantBuckets] at hb'
      by_cases e : k = env.address (.participantBucket
        (ParticipantBucket.bucketIdForParticipantId c.nextParticipantId))
    · subst e
      rw [Function.update_self, Option.some.injEq] at hb'
      subst hb'
      exact hl₁.participants _ b hb
    · rw [Function.update_of_ne e] at hb'
      exact hl₁.participants k b' hb'
    · subst e
      rw [Function.update_self, Option.some.injEq] at hb'
      subst hb'
      by_cases e : i = ParticipantBucket.slotIndexForParticipantId c.nextParticipantId
      · subst e
        simp only [ParticipantBucket.setSlot, Function.update_self]
        exact ⟨hid.symm, rfl⟩
      · simp only [ParticipantBucket.setSlot, Function.update_of_ne e] at hi ⊢
        exact hl₁.places _ b i hb hi
    · rw [Function.update_of_ne e] at hb'
      exact hl₁.places k b' i hb' hi
  · -- The slot was free, so nobody is displaced.
    have hkey : (w₁.slot env c.nextParticipantId) = none := by
      rw [Option.eq_none_iff_forall_not_mem]
      intro s hs
      obtain ⟨b', hb', hs⟩ := slot_eq_some.mp hs
      obtain rfl := Option.some.inj (hb.symm.trans hb')
      obtain ⟨-, rfl, hi, -⟩ :=
        ParticipantBucket.slotForParticipant_eq_ok.mp (ParticipantBucket.slot?_eq_some.mp hs)
      exact Bool.false_ne_true (hfree.symm.trans hi)
    rw [← hled]
    refine ⟨hkey, Ledger.ext' (fun q => ?_) fun _ _ _ => rfl⟩
    by_cases hq : q = c.nextParticipantId
    · subst hq
      rw [Ledger.slot_setSlot_self]
      exact slot_eq_some.mpr ⟨_, Function.update_self _ _ _,
        ParticipantBucket.slot?_setSlot_self hid rfl rfl⟩
    · rw [Ledger.slot_setSlot_ne hq]
      by_cases e : slotKey env q = slotKey env c.nextParticipantId
      · simp only [World.ledger_slot, World.slot, World.setGlobalConfig_participantBuckets,
          World.setOwnerIndexBucket_participantBuckets, World.setParticipantBucket_participantBuckets]
        rw [e, slotKey, Function.update_self, hb]
        exact ParticipantBucket.slot?_setSlot_ne hq hid
      · simp only [World.ledger_slot, World.slot, World.setGlobalConfig_participantBuckets,
          World.setOwnerIndexBucket_participantBuckets, World.setParticipantBucket_participantBuckets]
        rw [Function.update_of_ne]
        exact e

end InitializeParticipant

end Ryvo
