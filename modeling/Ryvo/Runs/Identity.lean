import Ryvo.Machine.Localnet
import Ryvo.Runs.Deployment

/-!
# Runs — Identity

Who is who.  The owner index maps an owner to an id, a participant's slot stores its owner, and the two say the same (`Identities`): both are written once, by the instruction that joins a participant, and neither is written again.

* `Reached.identities`: this holds of every reached world.
* `identity_of_history`: it is a bijection between owners and the ids below the counter, which only grows along a run.
-/

namespace Ryvo

variable {env : Env} {w w' : World} {a : Action} {owner o : Pubkey} {p q : U32}

/-! ### The owner index -/

namespace OwnerIndexBucket

variable {b b' : OwnerIndexBucket} {id : U32} {bump : U8}

theorem entry_eq_none : b.entry owner = none ↔
    ∀ i, ¬ ((b.slots i).initialized = true ∧ (b.slots i).owner = owner) := by
  rw [entry, Option.map_eq_none_iff, Table.lookup_eq_none, Table.find_eq_none]

theorem insertOwner_spec (h : b.insertOwner owner p = .ok b') :
    b.entry owner = none ∧ b'.entry owner = some p ∧ (∀ o, o ≠ owner → b'.entry o = b.entry o) ∧
      b'.bucketId = b.bucketId ∧ b'.bump = b.bump := by
  simp only [insertOwner, Except.bind_eq_ok, require_eq_ok, exists_const, okOr_eq_ok,
    Except.pure_eq_ok] at h
  obtain ⟨hn, i, hi, rfl⟩ := h
  have hholds : Table.Holds (·.initialized) (·.owner) b.slots owner i :=
    .inr ⟨Table.find_eq_none.mpr hn, hi⟩
  refine ⟨entry_eq_none.mpr hn, ?_, fun o ho => ?_, rfl, rfl⟩
  · rw [entry, Table.lookup_write hholds rfl rfl]
    rfl
  · simp only [entry]
    rw [Table.lookup_write_ne hholds rfl ho]

theorem initializeIfNeeded_spec (h : b.initializeIfNeeded id bump = .ok b') :
    b'.bucketId = id ∧ b'.bump = bump ∧ ∀ o, b'.entry o = b.entry o := by
  unfold initializeIfNeeded at h
  split at h
  · rename_i hall
    cases h
    refine ⟨rfl, rfl, fun o => ?_⟩
    -- No row is in use, before or after.
    rw [entry_eq_none.mpr fun i hi => Bool.false_ne_true hi.1,
      entry_eq_none.mpr fun i hi => Bool.false_ne_true ((hall i).symm.trans hi.1)]
  · simp only [Except.bind_eq_ok, require_eq_ok, exists_const, Except.pure_eq_ok] at h
    obtain ⟨h₁, h₂, rfl⟩ := h
    exact ⟨h₁, h₂, fun _ => rfl⟩

end OwnerIndexBucket

/-- The address of the owner index bucket an owner's key hashes to. -/
def indexKey (env : Env) (owner : Pubkey) : Pubkey :=
  env.address (.ownerIndexBucket (OwnerIndexBucket.bucketIdForOwner env owner))

/-- What the owner index maps an owner to. -/
def World.indexEntry (env : Env) (w : World) (owner : Pubkey) : Option U32 :=
  (w.ownerIndexBuckets (indexKey env owner)).bind (·.entry owner)

theorem indexEntry_eq_some : w.indexEntry env owner = some p ↔
    ∃ b, w.ownerIndexBuckets (indexKey env owner) = some b ∧ b.entry owner = some p := by
  simp [World.indexEntry, Option.bind_eq_some_iff]

/-- The index and the slots say the same, and ids are given out in order. -/
structure Identities (env : Env) (w : World) : Prop where
  index : ∀ k b, w.ownerIndexBuckets k = some b →
    k = env.address (.ownerIndexBucket b.bucketId) ∧ b.bump = env.bump (.ownerIndexBucket b.bucketId)
  slots : ∀ p, (w.slot env p).isSome ↔ ∃ c, w.globalConfig = some c ∧ p < c.nextParticipantId
  owners : ∀ o p, w.indexEntry env o = some p ↔ ∃ s, w.slot env p = some s ∧ s.owner = o

/-- Looking an owner up in a verified bucket is looking it up in its own. -/
theorem participantIdForOwner_eq_ok (h : Identities env w) {k : Pubkey} :
    w.participantIdForOwner env k owner = .ok p ↔
      k = indexKey env owner ∧ w.indexEntry env owner = some p := by
  simp only [World.participantIdForOwner, World.getOwnerIndexBucket,
    OwnerIndexBucket.participantIdForVerifiedOwner, OwnerIndexBucket.verifyForOwner,
    OwnerIndexBucket.verifyExpectedPda, OwnerIndexBucket.participantIdForOwner, Except.bind_eq_ok,
    okOr_eq_ok, require_eq_ok, exists_const, indexEntry_eq_some]
  constructor
  · rintro ⟨b, hb, ⟨hid, k', hk', rfl⟩, he⟩
    obtain ⟨hk, hbump⟩ := h.index _ b hb
    have hkey : k = indexKey env owner := by rw [hk, hid, indexKey]
    exact ⟨hkey, b, hkey ▸ hb, he⟩
  · rintro ⟨rfl, b, hb, he⟩
    obtain ⟨hk, hbump⟩ := h.index _ b hb
    have hid : b.bucketId = OwnerIndexBucket.bucketIdForOwner env owner := by
      simpa [indexKey] using hk.symm
    refine ⟨b, hb, ⟨hid, _, ?_, rfl⟩, he⟩
    rw [hbump, hid, Env.create_bump, indexKey]

theorem Identities.isOwner (h : Identities env w) :
    w.IsOwner env owner p ↔ ∃ s, w.slot env p = some s ∧ s.owner = owner := by
  simp only [World.IsOwner, participantIdForOwner_eq_ok h, exists_eq_left, h.owners]

/-! ### Steps -/

/-- Slots stay with their owners, and nobody joins. -/
theorem Identities.of_same (h : Identities env w) (hi : w'.ownerIndexBuckets = w.ownerIndexBuckets)
    (hc : ∀ p : U32, (∃ c, w'.globalConfig = some c ∧ p < c.nextParticipantId) ↔
      ∃ c, w.globalConfig = some c ∧ p < c.nextParticipantId)
    (hs : ∀ p o, (∃ s, w'.slot env p = some s ∧ s.owner = o) ↔ ∃ s, w.slot env p = some s ∧ s.owner = o) :
    Identities env w' where
  index k b hb := h.index k b (hi ▸ hb)
  slots p := by
    rw [hc, ← h.slots]
    constructor <;> intro hp <;> obtain ⟨s, hp⟩ := Option.isSome_iff_exists.mp hp
    · obtain ⟨s, hs, -⟩ := (hs p s.owner).mp ⟨s, hp, rfl⟩
      simp [hs]
    · obtain ⟨s, hs, -⟩ := (hs p s.owner).mpr ⟨s, hp, rfl⟩
      simp [hs]
  owners o p := by
    rw [hs, ← h.owners, World.indexEntry, hi, World.indexEntry]

namespace InitializeParticipant.Joined

variable {c : GlobalConfig} {i i' : OwnerIndexBucket}

/-- The owner's bucket had no entry for it, and has the new one. -/
theorem indexEntry (h : Joined env w owner c i i' w') : w.indexEntry env owner = none ∧
    w'.indexEntry env owner = some c.nextParticipantId ∧
      ∀ o, o ≠ owner → w'.indexEntry env o = w.indexEntry env o := by
  obtain ⟨hid, hbump, hsame⟩ := OwnerIndexBucket.initializeIfNeeded_spec h.opened
  obtain ⟨hnone, hself, hother, -, -⟩ := OwnerIndexBucket.insertOwner_spec h.entered
  have hindex : w'.ownerIndexBuckets = Function.update w.ownerIndexBuckets (indexKey env owner)
      (some i') := by
    rw [h.frame]
    rfl
  -- What the bucket that is opened says, absent or not.
  have hopened : ∀ o, (w.ownerIndexBuckets (indexKey env owner)).bind (·.entry o) = i.entry o := by
    intro o
    rw [hsame o]
    change _ = OwnerIndexBucket.entry ((w.ownerIndexBuckets (indexKey env owner)).getD _) o
    cases w.ownerIndexBuckets (indexKey env owner) with
    | some b => rfl
    | none => exact (OwnerIndexBucket.entry_eq_none.mpr fun i hi => Bool.false_ne_true hi.1).symm
  refine ⟨(hopened owner).trans hnone, ?_, fun o ho => ?_⟩
  · rw [World.indexEntry, hindex, Function.update_self]
    exact hself
  · simp only [World.indexEntry, hindex]
    by_cases hk : indexKey env o = indexKey env owner
    · rw [hk, Function.update_self, hopened o]
      exact hother o ho
    · rw [Function.update_of_ne hk]

theorem slot (h : Joined env w owner c i i' w') : w.slot env c.nextParticipantId = none ∧
    w'.slot env c.nextParticipantId = some (.fresh c.nextParticipantId owner) ∧
      ∀ p, p ≠ c.nextParticipantId → w'.slot env p = w.slot env p := by
  obtain ⟨hn, he⟩ := h.takes
  have hs := fun p => congrFun (congrArg Ledger.slot he) p
  exact ⟨hn, (hs _).trans Ledger.slot_setSlot_self, fun p hp => (hs p).trans (Ledger.slot_setSlot_ne hp)⟩

theorem identities (h : Joined env w owner c i i' w') (hI : Identities env w) : Identities env w' := by
  obtain ⟨hnone, hself, hother⟩ := h.indexEntry
  obtain ⟨hs, hs', hsother⟩ := h.slot
  have hnext : ∀ p : U32, p.val < c.nextParticipantId.val + 1 ↔
      p = c.nextParticipantId ∨ p < c.nextParticipantId := by
    intro p
    rw [Fin.ext_iff, Fin.lt_def]
    omega
  refine ⟨fun k b hb => ?_, fun p => ?_, fun o p => ?_⟩
  · rw [h.frame] at hb
    obtain ⟨hid, hbump, -⟩ := OwnerIndexBucket.initializeIfNeeded_spec h.opened
    obtain ⟨-, -, -, hid', hbump'⟩ := OwnerIndexBucket.insertOwner_spec h.entered
    by_cases hk : k = indexKey env owner
    · subst hk
      simp only [indexKey, Function.update_self, Option.some.injEq] at hb
      rw [← hb, hid', hid, hbump', hbump]
      exact ⟨rfl, rfl⟩
    · rw [indexKey] at hk
      simp only [Function.update_of_ne hk] at hb
      exact hI.index k b hb
  · -- The counter passes the new id, and nothing else.
    have hc : w'.globalConfig = some { c with
        nextParticipantId := Fin.ofNat _ (c.nextParticipantId.val + 1) } := by rw [h.frame]
    have hval : (Fin.ofNat (2 ^ 32) (c.nextParticipantId.val + 1)).val = c.nextParticipantId.val + 1 :=
      Nat.mod_eq_of_lt h.room
    simp only [hc, Option.some.injEq, exists_eq_left', Fin.lt_def, hval, hnext]
    by_cases hp : p = c.nextParticipantId
    · subst hp
      simp [hs']
    · rw [hsother p hp, hI.slots]
      simp [h.config, hp]
  · by_cases ho : o = owner
    · subst ho
      rw [hself, Option.some.injEq]
      constructor
      · rintro rfl
        exact ⟨_, hs', rfl⟩
      · rintro ⟨s, hp, hso⟩
        by_contra hne
        rw [hsother p (Ne.symm hne)] at hp
        rw [(hI.owners o p).mpr ⟨s, hp, hso⟩] at hnone
        cases hnone
    · rw [hother o ho, hI.owners]
      by_cases hp : p = c.nextParticipantId
      · subst hp
        simp only [hs, hs', Option.some.injEq, exists_eq_left', reduceCtorEq, false_and,
          exists_false, false_iff]
        exact Ne.symm ho
      · rw [hsother p hp]

end InitializeParticipant.Joined

/-- No move but a join makes a slot. -/
theorem Makes.not_join {ms : List Move} (h : Makes env w a ms) {o : Pubkey}
    (hm : .join p o ∈ ms) : ∃ owner fee id indexId, a = .call (.initializeParticipant owner fee id indexId) := by
  cases h with
  | join _ => exact ⟨_, _, _, _, rfl⟩
  | depositFor hms _ => exact (DepositFor.onBalance hms _ hm).elim
  | _ => simp at hm

/-- Moves keep slots with their owners. -/
theorem Ledger.TakesAll.owners {L L' : Ledger} {ms : List Move} (h : L.TakesAll ms L')
    (hj : ∀ p o, Move.join p o ∉ ms) (p : U32) (o : Pubkey) :
    (∃ s, L'.slot p = some s ∧ s.owner = o) ↔ ∃ s, L.slot p = some s ∧ s.owner = o := by
  induction ms generalizing L with
  | nil =>
      obtain rfl := h
      rfl
  | cons m ms ih =>
      obtain ⟨L₁, hm, h⟩ := h
      rw [ih h fun p o hp => hj p o (List.mem_cons_of_mem _ hp)]
      cases hs : L.slot p with
      | some s =>
          obtain ⟨s₁, hs₁, ho, -⟩ := hm.slot hs
          simp [hs₁, ho]
      | none =>
          cases hs₁ : L₁.slot p with
          | none => simp
          | some s₁ =>
              obtain ⟨o, rfl, -⟩ := hm.newSlot hs hs₁
              exact absurd (List.mem_cons_self ..) (hj p o)

/-- An action that is no join keeps the counter and the owner index. -/
theorem AdminChange.index (h : AdminChange env w w' a)
    (hj : ∀ owner fee id indexId, a ≠ .call (.initializeParticipant owner fee id indexId)) :
    w'.ownerIndexBuckets = w.ownerIndexBuckets ∧ ∀ p : U32,
      (∃ c, w'.globalConfig = some c ∧ p < c.nextParticipantId) ↔
        ∃ c, w.globalConfig = some c ∧ p < c.nextParticipantId := by
  cases h with
  | kept h => exact ⟨h.index, fun p => by rw [h.config]⟩
  | tick h => exact ⟨by rw [h], fun p => by rw [h]⟩
  | initialized hn hc h =>
      refine ⟨by rw [h]; rfl, fun p => ?_⟩
      rw [h, hn]
      simp [hc]
  | configured hc hk h =>
      refine ⟨by rw [h]; rfl, fun p => ?_⟩
      rw [h, hc]
      simp [hk.2]
  | joined h => exact absurd rfl (hj _ _ _ _)
  | opened _ _ h => exact ⟨by rw [h]; rfl, fun p => by rw [h]; rfl⟩
  | transferred _ _ h => exact ⟨by rw [h]; rfl, fun p => by rw [h]; rfl⟩
  | plain hreg _ _ h => exact ⟨by rw [h, hreg.frame]; rfl, fun p => by rw [h, hreg.frame]; rfl⟩
  | yieldBearing hreg _ _ h =>
      exact ⟨by rw [h, hreg.frame]; rfl, fun p => by rw [h, hreg.frame]; rfl⟩

theorem identities_genesis {clock : Int} : Identities env (.genesis clock) where
  index k b h := by cases h
  slots p := by simp [World.slot, World.genesis]
  owners o p := by simp [World.indexEntry, World.slot, World.genesis]

theorem Reached.identities (hw : Reached env w) : Identities env w := by
  refine Reachable.invariant ?_ ?_ hw
  · rintro w ⟨clock, -, rfl⟩
    exact identities_genesis
  · rintro w a w' hw hI h
    by_cases hj : ∃ owner fee id indexId, a = .call (.initializeParticipant owner fee id indexId)
    · obtain ⟨owner, fee, id, indexId, rfl⟩ := hj
      obtain ⟨c, i, i', hjoin⟩ :=
        InitializeParticipant.handler_spec (Reached.located hw) h.ran
      exact hjoin.identities hI
    · have hj' : ∀ owner fee id indexId, a ≠ .call (.initializeParticipant owner fee id indexId) :=
        fun owner fee id indexId e => hj ⟨owner, fee, id, indexId, e⟩
      obtain ⟨hi, hc⟩ := (Reached.adminChange hw h).index hj'
      obtain ⟨ms, hm, hd⟩ := Reached.makes hw h
      exact hI.of_same hi hc (hd.takes.owners fun p o hp => hj (hm.not_join hp))

/-! ### Runs -/

/-- What a world's slots and owner index say about who is who. -/
structure Bijection (env : Env) (w : World) : Prop where
  /-- The raw slot of `p` is in use exactly when `p` has been given out. -/
  initialised : ∀ p : U32, (∃ b, w.participantBuckets (slotKey env p) = some b ∧
      (b.slots (ParticipantBucket.slotIndexForParticipantId p)).initialized = true) ↔
    ∃ c, w.globalConfig = some c ∧ p < c.nextParticipantId
  /-- A slot in use is at the place its id has, in the bucket account its id has. -/
  placed : ∀ k b i, w.participantBuckets k = some b → (b.slots i).initialized = true →
    k = slotKey env (b.slots i).participantId ∧ b.bucketId.val = (b.slots i).participantId.val / 9 ∧
      i.val = (b.slots i).participantId.val % 9
  owners : ∀ o p, w.indexEntry env o = some p ↔ ∃ s, w.slot env p = some s ∧ s.owner = o
  ids : ∀ p q s s', w.slot env p = some s → w.slot env q = some s' → s.owner = s'.owner → p = q
  /-- Whichever account is passed for the owner index, an id that comes out is the caller's. -/
  verified : ∀ k o p, w.participantIdForOwner env k o = .ok p →
    ∃ s, w.slot env p = some s ∧ s.owner = o
  resolved : ∀ p s, w.slot env p = some s →
    w.participantIdForOwner env (indexKey env s.owner) s.owner = .ok p

/-- The raw slot at an id's place, where it is in use, is the id's. -/
theorem Located.slot_eq_some (h : Located env w) {s : ParticipantBucketSlot} :
    w.slot env p = some s ↔ ∃ b, w.participantBuckets (slotKey env p) = some b ∧
      b.slots (ParticipantBucket.slotIndexForParticipantId p) = s ∧ s.initialized = true := by
  rw [Ryvo.slot_eq_some]
  constructor
  · rintro ⟨b, hb, hs⟩
    obtain ⟨-, hs, hi, -⟩ :=
      ParticipantBucket.slotForParticipant_eq_ok.mp (ParticipantBucket.slot?_eq_some.mp hs)
    exact ⟨b, hb, hs, hi⟩
  · rintro ⟨b, hb, rfl, hi⟩
    have hid : b.bucketId = ParticipantBucket.bucketIdForParticipantId p := by
      simpa [slotKey] using (h.participants _ b hb).1.symm
    obtain ⟨h₁, h₂⟩ := h.places _ b _ hb hi
    refine ⟨b, hb, ParticipantBucket.slot?_eq_some.mpr (ParticipantBucket.slotForParticipant_eq_ok.mpr
      ⟨hid, rfl, hi, ParticipantBucket.id_eq_of_position (h₁.trans hid) h₂⟩)⟩

theorem Identities.bijection (h : Identities env w) (hl : Located env w) : Bijection env w where
  initialised p := by
    rw [← h.slots, Option.isSome_iff_exists]
    simp only [hl.slot_eq_some]
    constructor
    · rintro ⟨b, hb, hi⟩
      exact ⟨_, b, hb, rfl, hi⟩
    · rintro ⟨_, b, hb, rfl, hi⟩
      exact ⟨b, hb, hi⟩
  placed k b i hb hi := by
    obtain ⟨h₁, h₂⟩ := hl.places k b i hb hi
    refine ⟨?_, congrArg Fin.val h₁.symm, congrArg Fin.val h₂.symm⟩
    rw [(hl.participants k b hb).1, slotKey, h₁]
  owners := h.owners
  ids p q s s' hs hs' ho := by
    have hp := (h.owners s.owner p).mpr ⟨s, hs, rfl⟩
    have hq := (h.owners s.owner q).mpr ⟨s', hs', ho.symm⟩
    exact Option.some.inj (hp.symm.trans hq)
  verified k o p hp := h.isOwner.mp ⟨k, hp⟩
  resolved p s hs := (participantIdForOwner_eq_ok h).mpr ⟨rfl, (h.owners _ p).mpr ⟨s, hs, rfl⟩⟩

/-- Nobody's id changes, and no id's owner. -/
structure SameIdentities (env : Env) (w w' : World) : Prop where
  index : ∀ o p, w.indexEntry env o = some p → w'.indexEntry env o = some p
  slot : ∀ p s, w.slot env p = some s → ∃ s', w'.slot env p = some s' ∧ s'.owner = s.owner

theorem SameIdentities.refl (w : World) : SameIdentities env w w :=
  ⟨fun _ _ => id, fun _ s hs => ⟨s, hs, rfl⟩⟩

theorem SameIdentities.trans {w₁ : World} (h : SameIdentities env w w₁)
    (h' : SameIdentities env w₁ w') : SameIdentities env w w' where
  index o p hp := h'.index o p (h.index o p hp)
  slot p s hs := by
    obtain ⟨s₁, hs₁, h₁⟩ := h.slot p s hs
    obtain ⟨s', hs', h₂⟩ := h'.slot p s₁ hs₁
    exact ⟨s', hs', h₂.trans h₁⟩

theorem Ledger.TakesAll.slot {L L' : Ledger} {ms : List Move} (h : L.TakesAll ms L')
    {s : ParticipantBucketSlot} (hs : L.slot p = some s) :
    ∃ s', L'.slot p = some s' ∧ s'.owner = s.owner := by
  induction ms generalizing L s with
  | nil =>
      obtain rfl := h
      exact ⟨s, hs, rfl⟩
  | cons m ms ih =>
      obtain ⟨L₁, hm, h⟩ := h
      obtain ⟨s₁, hs₁, h₁, -⟩ := hm.slot hs
      obtain ⟨s', hs', h₂⟩ := ih h hs₁
      exact ⟨s', hs', h₂.trans h₁⟩

theorem Reached.sameIdentities (hw : Reached env w) (h : Step env w a w') :
    SameIdentities env w w' := by
  obtain ⟨ms, -, hd⟩ := hw.makes h
  have hslot : ∀ p s, w.slot env p = some s → ∃ s', w'.slot env p = some s' ∧ s'.owner = s.owner :=
    fun p s hs => hd.takes.slot hs
  refine ⟨fun o p hp => ?_, hslot⟩
  obtain ⟨s, hs, ho⟩ := (hw.identities.owners o p).mp hp
  obtain ⟨s', hs', ho'⟩ := hslot p s hs
  exact ((Reached.identities (hw.next h)).owners o p).mpr ⟨s', hs', ho'.trans ho⟩

/-- **Identity is a bijection**, and stays what it is along every run. -/
theorem identity_of_history {h : List (World × Action)} (r : History env h w) :
    Bijection env w ∧ ∀ x ∈ h, SameIdentities env x.1 w := by
  refine ⟨(Reached.identities r.reachable).bijection (Reached.located r.reachable), ?_⟩
  refine Run.history (P := fun h w => ∀ x ∈ h, SameIdentities env x.1 w) ?_ ?_ r
  · rintro w - x hx
    cases hx
  · rintro h w a w' r ih hstep x hx
    have hlast := Reached.sameIdentities r.reachable hstep
    rcases List.mem_cons.mp hx with rfl | hx
    · exact hlast
    · exact (ih x hx).trans hlast

/-- Two wallets join a deployment. -/
theorem identity_of_opening : ∃ h w, History localnet h w ∧
    w.globalConfig.map (·.nextParticipantId) = some 2 ∧
      Bijection localnet w ∧ ∀ x ∈ h, SameIdentities localnet x.1 w := by
  obtain ⟨w, ⟨h, r⟩, hc⟩ := reached_of_runsTo localnet Localnet.opening
    (fun w => w.globalConfig.map (·.nextParticipantId) = some 2) (by decide +kernel)
  exact ⟨h, w, r, of_decide_eq_true hc, identity_of_history r⟩

end Ryvo
