import Ryvo.Runs.Payouts

/-!
# Runs — Profiles

What participants say of themselves: the key they sign rounds with, and who may open channels to them.  A profile changes by its owner's instructions alone.

* `Takes.sameProfile`: of the moves, one writes a profile.
* `Reached.profileChange`: what a step does to a profile.
* `noSlot_of_history`: before its slot came up, nothing was said for a participant.
-/

namespace Ryvo

variable {env : Env} {w w' : World} {a : Action} {p q : U32} {h : List (World × Action)}
variable {s s' : ParticipantBucketSlot} {m : Move} {ms : List Move} {L L' : Ledger}

/-! ### Moves -/

theorem ParticipantBucketSlot.SameProfile.trans {s₁ : ParticipantBucketSlot} (h : SameProfile s s₁)
    (h' : SameProfile s₁ s') : SameProfile s s' where
  initialized := h'.initialized.trans h.initialized
  owner := h'.owner.trans h.owner
  participantId := h'.participantId.trans h.participantId
  inboundChannelPolicy := h'.inboundChannelPolicy.trans h.inboundChannelPolicy
  blsSchemeVersion := h'.blsSchemeVersion.trans h.blsSchemeVersion
  blsPubkeyCompressed := h'.blsPubkeyCompressed.trans h.blsPubkeyCompressed

namespace Ledger

open ParticipantBucketSlot (SameProfile)

variable {f : ParticipantBucketSlot → ParticipantBucketSlot → Prop} {r : U32}

theorem EditSlot.sameProfile (h : L.EditSlot p f L') (hs : L.slot r = some s)
    (hf : ∀ s s', f s s' → SameProfile s s') : ∃ s', L'.slot r = some s' ∧ SameProfile s s' := by
  obtain ⟨s', hs', rfl | ⟨-, h⟩⟩ := h.slot hs
  · exact ⟨s', hs', .refl _⟩
  · exact ⟨s', hs', hf _ _ h⟩

/-- A move that does not write the profile of `r` keeps it. -/
theorem Takes.sameProfile (h : L.Takes m L') (hs : L.slot r = some s) (hm : ∀ s', m ≠ .profile r s') :
    ∃ s', L'.slot r = some s' ∧ SameProfile s s' := by
  have same : ∀ {L₂ : Ledger}, L₂.slot = L.slot → ∃ s', L₂.slot r = some s' ∧ SameProfile s s' :=
    fun e => ⟨s, by rw [e, hs], .refl s⟩
  cases m with
  | join p owner =>
      obtain ⟨hn, rfl⟩ := h
      have hr : r ≠ p := by
        rintro rfl
        simp [hn] at hs
      exact ⟨s, by rw [slot_setSlot_ne hr, hs], .refl s⟩
  | profile p s₁ =>
      obtain ⟨s', hs', rfl | ⟨rfl, -⟩⟩ := EditSlot.slot h hs
      · exact ⟨s', hs', .refl _⟩
      · exact absurd rfl (hm s₁)
  | credit t p n =>
      exact EditSlot.sameProfile h hs fun _ _ hd => (ParticipantBucketSlot.appliedDelta hd).profile
  | debit t p n =>
      exact EditSlot.sameProfile h hs fun _ _ ⟨_, hd⟩ =>
        (ParticipantBucketSlot.rewrites_debit hd).2.profile
  | request t p n destination unlockAt =>
      exact EditSlot.sameProfile h hs fun _ _ hd =>
        (ParticipantBucketSlot.rewrites_initiate hd).2.2.profile
  | cancel t p =>
      exact EditSlot.sameProfile h hs fun _ _ ⟨_, hd⟩ =>
        (ParticipantBucketSlot.rewrites_cancel hd).profile
  | clear t p =>
      exact EditSlot.sameProfile h hs fun _ _ hd => (ParticipantBucketSlot.rewrites_clear hd).profile
  | openLane t p q signer =>
      obtain ⟨-, -, -, -, rfl⟩ := h
      exact same rfl
  | lock t p q n =>
      obtain ⟨L₁, hd, l, l', -, -, rfl⟩ := h
      exact hd.sameProfile hs fun _ _ ⟨_, hd⟩ => (ParticipantBucketSlot.rewrites_debit hd).2.profile
  | executeUnlock t p q =>
      obtain ⟨L₁, n, ⟨l, l', -, -, rfl⟩, hd⟩ := h
      exact hd.sameProfile hs fun _ _ hd => (ParticipantBucketSlot.appliedDelta hd).profile
  | cooperativeUnlock t p q n =>
      obtain ⟨L₁, ⟨l, l', -, -, rfl⟩, hd⟩ := h
      exact hd.sameProfile hs fun _ _ hd => (ParticipantBucketSlot.appliedDelta hd).profile
  | settle t es =>
      obtain ⟨s', hs', hd⟩ := h.slots r s hs
      exact ⟨s', hs', (ParticipantBucketSlot.appliedDelta hd).profile⟩
  | _ =>
      obtain ⟨l, l', -, -, rfl⟩ := h
      exact same rfl

theorem TakesAll.sameProfile (h : L.TakesAll ms L') (hs : L.slot r = some s)
    (hm : ∀ m ∈ ms, ∀ s', m ≠ .profile r s') : ∃ s', L'.slot r = some s' ∧ SameProfile s s' := by
  induction ms generalizing L s with
  | nil =>
      obtain rfl := h
      exact ⟨s, hs, .refl s⟩
  | cons m ms ih =>
      obtain ⟨L₁, hmove, h⟩ := h
      obtain ⟨hm₀, hm⟩ := List.forall_mem_cons.mp hm
      obtain ⟨s₁, hs₁, h₁⟩ := hmove.sameProfile hs hm₀
      obtain ⟨s', hs', h'⟩ := ih h hs₁ hm
      exact ⟨s', hs', h₁.trans h'⟩

end Ledger

/-! ### Steps -/

/-- The owner of `p` registers the key, with a proof of possession. -/
def RegistersKey (env : Env) (p : U32) (key : Bytes 96) (x : World × Action) : Prop :=
  ∃ owner k k' pop, x.2 = .call (.registerParticipantBlsKey owner k k' key pop) ∧
    x.1.OwnedBy env p owner

/-- The proof that comes with it holds for this deployment, this participant and its owner. -/
def ProvesKey (env : Env) (p : U32) (owner : Pubkey) (key : Bytes 96) (x : World × Action) : Prop :=
  ∃ k k' pop c, x.2 = .call (.registerParticipantBlsKey owner k k' key pop) ∧
    x.1.globalConfig = some c ∧ Bls.verifyPop env c.messageDomain p owner key.val pop.val = .ok ()

/-- The owner of `p` sets its policy. -/
def SetsPolicy (env : Env) (p : U32) (policy : U8) (x : World × Action) : Prop :=
  ∃ owner k k', x.2 = .call (.updateInboundChannelPolicy owner k k' policy) ∧ x.1.OwnedBy env p owner

/-- What a step does to a profile. -/
inductive ProfileChange (env : Env) (w : World) (a : Action) (p : U32) (s s' : ParticipantBucketSlot) :
    Prop
  | kept : (∀ key, ¬ RegistersKey env p key (w, a)) → (∀ policy, ¬ SetsPolicy env p policy (w, a)) →
      s.SameProfile s' → ProfileChange env w a p s s'
  | registered {key : Bytes 96} : RegistersKey env p key (w, a) → ProvesKey env p s.owner key (w, a) →
      s.blsSchemeVersion = ParticipantBucketSlot.blsSchemeVersionUnregistered →
      s' = { s with
        blsSchemeVersion := ParticipantBucketSlot.blsSchemeVersionV1
        blsPubkeyCompressed := key.val } →
      ProfileChange env w a p s s'
  | policySet {policy : InboundChannelPolicy} : SetsPolicy env p policy.toU8 (w, a) →
      s' = { s with inboundChannelPolicy := policy.toU8 } → ProfileChange env w a p s s'

theorem InboundChannelPolicy.tryFrom_eq_ok {value : U8} {policy : InboundChannelPolicy} :
    tryFrom value = .ok policy ↔ value = policy.toU8 := by
  constructor
  · intro h
    unfold tryFrom at h
    split_ifs at h with h₀ h₁ h₂ <;> obtain rfl := Except.ok.inj h <;> assumption
  · rintro rfl
    exact tryFrom_toU8 policy

/-- Reading a policy in its bucket's account. -/
theorem readPolicy_eq_ok {policy : InboundChannelPolicy} :
    (∃ b, w.getParticipantBucket (slotKey env p) = .ok b ∧
      b.readInboundChannelPolicyFromData p = .ok policy) ↔
    ∃ s, w.slot env p = some s ∧ s.inboundChannelPolicy = policy.toU8 := by
  simp only [World.getParticipantBucket, okOr_eq_ok, ParticipantBucket.readInboundChannelPolicyFromData,
    Except.bind_eq_ok, InboundChannelPolicy.tryFrom_eq_ok, ← ParticipantBucket.slot?_eq_some,
    slot_eq_some]
  constructor
  · rintro ⟨b, hb, s, hs, hp⟩
    exact ⟨s, ⟨b, hb, hs⟩, hp⟩
  · rintro ⟨s, ⟨b, hb, hs⟩, hp⟩
    exact ⟨b, hb, s, hs, hp⟩

/-- Reading a key registration in its bucket's account. -/
theorem readBlsRegistration_eq_ok {o : Pubkey} {v : U8} {key : List UInt8} :
    (∃ b, w.getParticipantBucket (slotKey env p) = .ok b ∧
      b.readSlotOwnerAndBlsRegistrationFromData p = .ok (o, v, key)) ↔
    ∃ s, w.slot env p = some s ∧ s.owner = o ∧ s.blsSchemeVersion = v ∧ s.blsPubkeyCompressed = key := by
  simp only [World.getParticipantBucket, okOr_eq_ok,
    ParticipantBucket.readSlotOwnerAndBlsRegistrationFromData, Except.bind_eq_ok, Except.pure_eq_ok,
    Prod.mk.injEq, ← ParticipantBucket.slot?_eq_some, slot_eq_some]
  constructor
  · rintro ⟨b, hb, s, hs, rfl, rfl, rfl⟩
    exact ⟨s, ⟨b, hb, hs⟩, rfl, rfl, rfl⟩
  · rintro ⟨s, ⟨b, hb, hs⟩, rfl, rfl, rfl⟩
    exact ⟨b, hb, s, hs, rfl, rfl, rfl⟩

theorem Reached.registersKey (hw : Reached env w) {key : Bytes 96}
    (hr : RegistersKey env p key (w, a)) (h : Step env w a w') (hs : w.slot env p = some s) :
    ∃ s', w'.slot env p = some s' ∧ ProfileChange env w a p s s' := by
  obtain ⟨owner, k, k', pop, ha, s₀, hs₀, rfl⟩ := hr
  obtain rfl := Option.some.inj (hs₀.symm.trans hs)
  change a = _ at ha
  subst ha
  have hran := h.ran
  change RegisterParticipantBlsKey.handler env w s₀.owner k k' key pop = _ at hran
  simp only [RegisterParticipantBlsKey.handler, World.getGlobalConfig, Except.bind_eq_ok, require_eq_ok,
    okOr_eq_ok, exists_const, Prod.exists, Except.pure_eq_ok] at hran
  obtain ⟨c, hc, p', hauth, _, hpop, data, hdata, o, v, b, hread, rfl, _, u, hedit, rfl⟩ := hran
  obtain ⟨hp, rfl, -⟩ := (authenticated_eq_ok hw.located).mp hauth
  obtain rfl : p' = p := hw.owner_unique ⟨k, hp⟩ (hw.ownedBy_iff.mpr ⟨s₀, hs, rfl⟩)
  obtain ⟨s₁, hs₁, -, hversion, -⟩ := readBlsRegistration_eq_ok.mp ⟨data, hdata, hread⟩
  obtain rfl := Option.some.inj (hs₁.symm.trans hs)
  obtain ⟨s₂, s', hs₂, hset, rfl⟩ := editSlot_eq_ok.mp hedit
  obtain rfl := Option.some.inj (hs₂.symm.trans hs)
  simp only [Except.ok.injEq, Prod.mk.injEq, and_true] at hset
  subst hset
  have hi := slot_initialized hs
  have hid := slot_participantId hs
  refine ⟨_, slot_writeSlot_self (by simp [hs]) hi hid, ?_⟩
  exact .registered ⟨_, k, _, pop, rfl, _, hs, rfl⟩ ⟨k, _, pop, c, rfl, hc, hpop⟩ hversion rfl

theorem Reached.setsPolicy (hw : Reached env w) {policy : U8} (hr : SetsPolicy env p policy (w, a))
    (h : Step env w a w') (hs : w.slot env p = some s) :
    ∃ s', w'.slot env p = some s' ∧ ProfileChange env w a p s s' := by
  obtain ⟨owner, k, k', ha, s₀, hs₀, rfl⟩ := hr
  obtain rfl := Option.some.inj (hs₀.symm.trans hs)
  change a = _ at ha
  subst ha
  have hran := h.ran
  change UpdateInboundChannelPolicy.handler env w s₀.owner k k' policy = _ at hran
  simp only [UpdateInboundChannelPolicy.handler, Except.bind_eq_ok, Prod.exists,
    Except.pure_eq_ok] at hran
  obtain ⟨policy', hpolicy, p', hauth, _, u, hedit, rfl⟩ := hran
  obtain rfl := InboundChannelPolicy.tryFrom_eq_ok.mp hpolicy
  obtain ⟨hp, rfl, -⟩ := (authenticated_eq_ok hw.located).mp hauth
  obtain rfl : p' = p := hw.owner_unique ⟨k, hp⟩ (hw.ownedBy_iff.mpr ⟨s₀, hs, rfl⟩)
  obtain ⟨s₁, s', hs₁, hset, rfl⟩ := editSlot_eq_ok.mp hedit
  obtain rfl := Option.some.inj (hs₁.symm.trans hs)
  simp only [Except.ok.injEq, Prod.mk.injEq, and_true] at hset
  subst hset
  have hi := slot_initialized hs
  have hid := slot_participantId hs
  refine ⟨_, slot_writeSlot_self (by simp [hs]) hi hid, ?_⟩
  exact .policySet ⟨_, k, _, rfl, _, hs, rfl⟩ rfl

/-- Only these two write a profile. -/
theorem Reached.noProfile (hw : Reached env w) (hm : Makes env w a ms)
    (hk : ∀ key, ¬ RegistersKey env p key (w, a)) (hp : ∀ policy, ¬ SetsPolicy env p policy (w, a)) :
    ∀ m ∈ ms, ∀ s', m ≠ .profile p s' := by
  rintro m hmem s' rfl
  cases hm with
  | blsKey ho =>
      obtain ⟨rfl, -⟩ := Move.profile.inj (List.mem_singleton.mp hmem)
      exact hk _ ⟨_, _, _, _, rfl, hw.ownedBy_iff.mp ho⟩
  | policy ho =>
      obtain ⟨rfl, -⟩ := Move.profile.inj (List.mem_singleton.mp hmem)
      exact hp _ ⟨_, _, _, rfl, hw.ownedBy_iff.mp ho⟩
  | depositFor hms _ => exact (DepositFor.onBalance hms _ hmem).elim
  | _ => simp at hmem

theorem Reached.profileChange (hw : Reached env w) (h : Step env w a w') (hs : w.slot env p = some s) :
    ∃ s', w'.slot env p = some s' ∧ ProfileChange env w a p s s' := by
  by_cases hk : ∃ key, RegistersKey env p key (w, a)
  · obtain ⟨key, hk⟩ := hk
    exact hw.registersKey hk h hs
  by_cases hp : ∃ policy, SetsPolicy env p policy (w, a)
  · obtain ⟨policy, hp⟩ := hp
    exact hw.setsPolicy hp h hs
  obtain ⟨ms, hm, hd⟩ := hw.makes h
  have hk : ∀ key, ¬ RegistersKey env p key (w, a) := fun key h => hk ⟨key, h⟩
  have hp : ∀ policy, ¬ SetsPolicy env p policy (w, a) := fun policy h => hp ⟨policy, h⟩
  obtain ⟨s', hs', hsame⟩ := hd.takes.sameProfile hs (hw.noProfile hm hk hp)
  exact ⟨s', hs', .kept hk hp hsame⟩

/-! ### Joining -/

/-- Where there is no slot there never was one. -/
theorem noSlot_of_history (r : History env h w) (hn : w.slot env p = none) :
    ∀ x ∈ h, x.1.slot env p = none := by
  refine Run.history (P := fun h w => w.slot env p = none → ∀ x ∈ h, x.1.slot env p = none) ?_ ?_ r hn
  · simp
  · intro h w a w' r ih hstep hn'
    cases hs : w.slot env p with
    | none => exact List.forall_mem_cons.mpr ⟨hs, ih hs⟩
    | some s =>
        obtain ⟨s', hs', -⟩ := Reached.profileChange r.reachable hstep hs
        rw [hn'] at hs'
        cases hs'

/-- The step a slot came up with, and all before, had no slot to act on. -/
theorem noSlot_of_join (r : History env h w) (hn : w.slot env p = none) :
    ∀ x ∈ (w, a) :: h, ∀ owner, ¬ x.1.OwnedBy env p owner := by
  have hnone : ∀ x ∈ (w, a) :: h, x.1.slot env p = none :=
    List.forall_mem_cons.mpr ⟨hn, noSlot_of_history r hn⟩
  rintro x hx owner ⟨s, hs, -⟩
  rw [hnone x hx] at hs
  cases hs

end Ryvo
