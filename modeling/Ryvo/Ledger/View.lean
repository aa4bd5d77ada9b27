import Ryvo.Ledger.Ledger
import Ryvo.Machine.World

/-!
# Ledger — The ledger of a world

`World.ledger` reads the slots and lanes out of the accounts that hold them.  Every account the program accepts as a bucket sits at the bucket's own address (`Located`, with what else the accounts' contents satisfy), so checking an account's address is checking which bucket it is, and an edit of the account is an edit of the ledger at one participant or one lane:

* `verifyParticipantBucket` and `verifyChannelBucket`: what the account checks say;
* `editSlot_eq_ok` and `editLane_eq_ok`: an edit of a verified account is `writeSlot` or `writeLane`;
* `ledger_writeSlot` and `ledger_writeLane`: what these do to the ledger.
-/

namespace Ryvo

variable {env : Env} {w w' : World} {k : Pubkey} {t t' : U16} {p q p' q' : U32}
variable {s s' : ParticipantBucketSlot} {l l' : DirectionalLaneState}

/-- The address of the bucket a participant's slot is in. -/
def slotKey (env : Env) (p : U32) : Pubkey :=
  env.address (.participantBucket (ParticipantBucket.bucketIdForParticipantId p))

/-- The bucket a lane is in. -/
def laneBucketId (p q : U32) : Result U64 := do
  let (lower, higher, _) ← ChannelBucket.canonicalize p q
  ChannelBucket.bucketIdForPair lower higher

/-- The address of the bucket a lane is in. -/
def laneKey (env : Env) (t : U16) (p q : U32) : Option Pubkey :=
  (laneBucketId p q).toOption.map fun id => env.address (.channelBucket t id)

namespace World

/-- The participant's slot. -/
def slot (env : Env) (w : World) (p : U32) : Option ParticipantBucketSlot :=
  (w.participantBuckets (slotKey env p)).bind (·.slot? p)

/-- The lane from `p` to `q` in token `t`. -/
def lane (env : Env) (w : World) (t : U16) (p q : U32) : Option DirectionalLaneState :=
  (laneKey env t p q).bind fun k => (w.channelBuckets k).bind (·.lane? p q)

def ledger (env : Env) (w : World) : Ledger := ⟨w.slot env, w.lane env⟩

@[simp] theorem ledger_slot (env : Env) (w : World) : (w.ledger env).slot = w.slot env := rfl

@[simp] theorem ledger_lane (env : Env) (w : World) : (w.ledger env).lane = w.lane env := rfl

/-- Replace a slot that is there. -/
@[simps] def writeSlot (env : Env) (w : World) (p : U32) (s : ParticipantBucketSlot) : World :=
  { w with
    participantBuckets := Function.update w.participantBuckets (slotKey env p)
      ((w.participantBuckets (slotKey env p)).map (·.setSlot p s)) }

/-- Replace a lane that is there, in the bucket at `k`. -/
@[simps] def writeLaneIn (w : World) (k : Pubkey) (p q : U32) (l : DirectionalLaneState) : World :=
  { w with
    channelBuckets := Function.update w.channelBuckets k
      ((w.channelBuckets k).map fun b =>
        match b.laneOffset p q with
        | .ok off => b.setLaneAt off l
        | .error _ => b) }

/-- Replace a lane that is there. -/
def writeLane (env : Env) (w : World) (t : U16) (p q : U32) (l : DirectionalLaneState) : World :=
  match laneKey env t p q with
  | some k => w.writeLaneIn k p q l
  | none => w

end World

/-- Bucket accounts sit at their buckets' own addresses, participants' slots at their own places in them, and lanes that were not created are all zero. -/
structure Located (env : Env) (w : World) : Prop where
  participants : ∀ k b, w.participantBuckets k = some b →
    k = env.address (.participantBucket b.bucketId) ∧ b.bump = env.bump (.participantBucket b.bucketId)
  channels : ∀ k b, w.channelBuckets k = some b →
    k = env.address (.channelBucket b.tokenId b.bucketId) ∧
      b.bump = env.bump (.channelBucket b.tokenId b.bucketId)
  places : ∀ k b i, w.participantBuckets k = some b → (b.slots i).initialized = true →
    ParticipantBucket.bucketIdForParticipantId (b.slots i).participantId = b.bucketId ∧
      ParticipantBucket.slotIndexForParticipantId (b.slots i).participantId = i
  blank : ∀ k b off, w.channelBuckets k = some b → (b.laneAt off).initialized = false →
    b.laneAt off = .uninitialized

/-! ### Account checks -/

theorem verifyParticipantBucket (h : Located env w) {id : U32} :
    ParticipantBucket.verifyAccountInfo env w k id = .ok () ↔
      k = env.address (.participantBucket id) ∧ (w.participantBuckets k).isSome := by
  simp only [ParticipantBucket.verifyAccountInfo, World.getParticipantBucket,
    ParticipantBucket.verifyExpectedPda, Except.bind_eq_ok, okOr_eq_ok, require_eq_ok, exists_const,
    Option.isSome_iff_exists]
  constructor
  · rintro ⟨b, hb, rfl, -⟩
    exact ⟨(h.participants k b hb).1, b, hb⟩
  · rintro ⟨hk, b, hb⟩
    obtain ⟨hk', hbump⟩ := h.participants k b hb
    obtain rfl : b.bucketId = id := by simpa using hk'.symm.trans hk
    exact ⟨b, hb, rfl, k, by rw [hbump, Env.create_bump, hk], rfl⟩

theorem verifyChannelBucket (h : Located env w) {id : U64} :
    ChannelBucket.verifyAccountInfo env w k t id = .ok () ↔
      k = env.address (.channelBucket t id) ∧ (w.channelBuckets k).isSome := by
  simp only [ChannelBucket.verifyAccountInfo, World.getChannelBucket,
    ChannelBucket.verifyExpectedPda, Except.bind_eq_ok, okOr_eq_ok, require_eq_ok, exists_const,
    Option.isSome_iff_exists]
  constructor
  · rintro ⟨b, hb, rfl, rfl, -⟩
    exact ⟨(h.channels k b hb).1, b, hb⟩
  · rintro ⟨hk, b, hb⟩
    obtain ⟨hk', hbump⟩ := h.channels k b hb
    obtain ⟨rfl, rfl⟩ : b.tokenId = t ∧ b.bucketId = id := by simpa using hk'.symm.trans hk
    exact ⟨b, hb, rfl, rfl, k, by rw [hbump, Env.create_bump, hk], rfl⟩

theorem laneBucketId_eq_ok {id : U64} : laneBucketId p q = .ok id ↔
    ∃ lower higher sel, ChannelBucket.canonicalize p q = .ok (lower, higher, sel) ∧
      ChannelBucket.bucketIdForPair lower higher = .ok id := by
  simp only [laneBucketId, Except.bind_eq_ok, Prod.exists]

theorem laneKey_eq_some : laneKey env t p q = some k ↔
    ∃ id, laneBucketId p q = .ok id ∧ env.address (.channelBucket t id) = k := by
  unfold laneKey
  cases laneBucketId p q <;> simp [Except.toOption]

/-- Two lanes in one bucket account are of one token. -/
theorem laneKey_token (h : laneKey env t p q = some k) (h' : laneKey env t' p' q' = some k) :
    t' = t := by
  obtain ⟨id, -, hk⟩ := laneKey_eq_some.mp h
  obtain ⟨id', -, hk'⟩ := laneKey_eq_some.mp h'
  simpa using (show t' = t ∧ id' = id by simpa using hk'.trans hk.symm).1

/-! ### Reading -/

theorem slot_eq_some : w.slot env p = some s ↔
    ∃ b, w.participantBuckets (slotKey env p) = some b ∧ b.slot? p = some s := by
  simp [World.slot, Option.bind_eq_some_iff]

theorem slot_initialized (h : w.slot env p = some s) : s.initialized = true := by
  obtain ⟨b, -, hs⟩ := slot_eq_some.mp h
  exact ParticipantBucket.slot?_initialized hs

theorem slot_participantId (h : w.slot env p = some s) : s.participantId = p := by
  obtain ⟨b, -, hs⟩ := slot_eq_some.mp h
  exact ParticipantBucket.slot?_participantId hs

theorem lane_eq_some : w.lane env t p q = some l ↔
    ∃ k b, laneKey env t p q = some k ∧ w.channelBuckets k = some b ∧ b.lane? p q = some l := by
  simp only [World.lane, Option.bind_eq_some_iff]
  exact ⟨fun ⟨k, hk, b, hb, hl⟩ => ⟨k, b, hk, hb, hl⟩, fun ⟨k, b, hk, hb, hl⟩ => ⟨k, hk, b, hb, hl⟩⟩

theorem lane_initialized (h : w.lane env t p q = some l) : l.initialized = true := by
  obtain ⟨k, b, -, -, hl⟩ := lane_eq_some.mp h
  exact ChannelBucket.lane?_initialized hl

/-- Nobody has a lane to itself. -/
theorem lane_ne (h : w.lane env t p q = some l) : p ≠ q := by
  obtain ⟨k, b, hk, -, -⟩ := lane_eq_some.mp h
  obtain ⟨id, hid, -⟩ := laneKey_eq_some.mp hk
  obtain ⟨lower, higher, sel, hc, -⟩ := laneBucketId_eq_ok.mp hid
  rcases ChannelBucket.canonicalize_eq_ok.mp hc with ⟨h, -⟩ | ⟨h, -⟩
  · exact ne_of_lt h
  · exact (ne_of_lt h).symm

/-- Reading a slot's owner in its bucket's account. -/
theorem readOwner_eq_ok {o : Pubkey} : (∃ b, w.getParticipantBucket (slotKey env p) = .ok b ∧
    b.readSlotOwnerFromData p = .ok o) ↔ ∃ s, w.slot env p = some s ∧ s.owner = o := by
  simp only [World.getParticipantBucket, okOr_eq_ok, ParticipantBucket.readSlotOwnerFromData,
    ParticipantBucket.readSlotOwnerAndBlsRegistrationFromData, Except.bind_eq_ok, Except.pure_eq_ok,
    Prod.exists, Prod.mk.injEq, ← ParticipantBucket.slot?_eq_some, slot_eq_some]
  constructor
  · rintro ⟨b, hb, _, _, _, ⟨s, hs, rfl, -⟩, rfl⟩
    exact ⟨s, ⟨b, hb, hs⟩, rfl⟩
  · rintro ⟨s, ⟨b, hb, hs⟩, rfl⟩
    exact ⟨b, hb, _, _, _, ⟨s, hs, rfl, rfl, rfl⟩, rfl⟩

/-- Reading a token's total in its bucket's account; the token has to have a row. -/
theorem readTotal_eq_ok {n : Nat} : (∃ b, w.getParticipantBucket (slotKey env p) = .ok b ∧
    b.readTokenTotalBalanceFromData p t = .ok n) ↔ ∃ s e, w.slot env p = some s ∧
      s.tokenEntry t = some e ∧ e.total < u64Bound ∧ n = e.total := by
  simp only [World.getParticipantBucket, okOr_eq_ok,
    ParticipantBucket.readTokenTotalBalanceFromData, ParticipantBucketSlot.readTokenTotalBalance,
    Except.bind_eq_ok, addU64, checkedAdd_eq_ok, ← ParticipantBucket.slot?_eq_some, slot_eq_some]
  constructor
  · rintro ⟨b, hb, s, hs, e, he, rfl, hlt⟩
    exact ⟨s, e, ⟨b, hb, hs⟩, he, hlt, rfl⟩
  · rintro ⟨s, e, ⟨b, hb, hs⟩, he, hlt, rfl⟩
    exact ⟨b, hb, s, hs, e, he, rfl, hlt⟩

/-! ### Writing a slot -/

theorem slot_writeSlot_self (h : (w.slot env p).isSome) (hi : s.initialized = true)
    (hp : s.participantId = p) : (w.writeSlot env p s).slot env p = some s := by
  obtain ⟨s₀, h⟩ := Option.isSome_iff_exists.mp h
  obtain ⟨b, hb, hs⟩ := slot_eq_some.mp h
  exact slot_eq_some.mpr ⟨b.setSlot p s, by simp [hb],
    ParticipantBucket.slot?_setSlot_self (ParticipantBucket.slot?_bucketId hs) hi hp⟩

theorem slot_writeSlot_ne (h : (w.slot env p).isSome) (hne : q ≠ p) :
    (w.writeSlot env p s).slot env q = w.slot env q := by
  obtain ⟨s₀, h⟩ := Option.isSome_iff_exists.mp h
  obtain ⟨b, hb, hs⟩ := slot_eq_some.mp h
  by_cases hk : slotKey env q = slotKey env p
  · simp only [World.slot, World.writeSlot, hk, Function.update_self, hb, Option.map_some,
      Option.bind_some]
    exact ParticipantBucket.slot?_setSlot_ne hne (ParticipantBucket.slot?_bucketId hs)
  · simp only [World.slot, World.writeSlot, Function.update_of_ne hk]

theorem ledger_writeSlot (h : (w.slot env p).isSome) (hi : s.initialized = true)
    (hp : s.participantId = p) : (w.writeSlot env p s).ledger env = (w.ledger env).setSlot p s := by
  refine Ledger.ext' (fun q => ?_) fun _ _ _ => rfl
  by_cases hq : q = p
  · subst hq
    rw [Ledger.slot_setSlot_self]
    exact slot_writeSlot_self h hi hp
  · rw [Ledger.slot_setSlot_ne hq]
    exact slot_writeSlot_ne h hq

theorem Located.writeSlot (h : Located env w) (hp : s.participantId = p) :
    Located env (w.writeSlot env p s) where
  participants k b hb := by
    simp only [World.writeSlot_participantBuckets] at hb
    by_cases hk : k = slotKey env p
    · subst hk
      rw [Function.update_self] at hb
      obtain ⟨b₀, hb₀, rfl⟩ := Option.map_eq_some_iff.mp hb
      exact h.participants _ b₀ hb₀
    · rw [Function.update_of_ne hk] at hb
      exact h.participants k b hb
  channels := h.channels
  places k b i hb hi := by
    simp only [World.writeSlot_participantBuckets] at hb
    by_cases hk : k = slotKey env p
    · subst hk
      rw [Function.update_self] at hb
      obtain ⟨b₀, hb₀, rfl⟩ := Option.map_eq_some_iff.mp hb
      by_cases e : i = ParticipantBucket.slotIndexForParticipantId p
      · subst e
        have hb' := (h.participants _ b₀ hb₀).1
        simp only [slotKey, Env.address_inj, Seeds.participantBucket.injEq] at hb'
        simp only [ParticipantBucket.setSlot, Function.update_self, hp, hb', and_self]
      · simp only [ParticipantBucket.setSlot, Function.update_of_ne e] at hi ⊢
        exact h.places _ b₀ i hb₀ hi
    · rw [Function.update_of_ne hk] at hb
      exact h.places k b i hb hi
  blank := h.blank

/-- Writing back what is there changes nothing. -/
theorem writeSlot_self (h : w.slot env p = some s) : w.writeSlot env p s = w := by
  obtain ⟨b, hb, hs⟩ := slot_eq_some.mp h
  have hset : b.setSlot p s = b := by
    obtain ⟨-, hsl, -, -⟩ := ParticipantBucket.slotForParticipant_eq_ok.mp
      (ParticipantBucket.slot?_eq_some.mp hs)
    cases b
    simp only [ParticipantBucket.setSlot, ParticipantBucket.mk.injEq, true_and]
    exact Function.update_eq_self_iff.mpr hsl.symm
  cases w
  simp only [World.writeSlot, World.mk.injEq, true_and, and_true]
  exact Function.update_eq_self_iff.mpr (by simp only at hb; simp [hb, hset])

/-- Editing a participant's slot in its bucket's account. -/
theorem editSlot_eq_ok {α : Type} {f : ParticipantBucketSlot → Result (ParticipantBucketSlot × α)}
    {a : α} : w.editParticipantBucket (slotKey env p) (·.modifySlot p f) = .ok (w', a) ↔
      ∃ s s', w.slot env p = some s ∧ f s = .ok (s', a) ∧ w' = w.writeSlot env p s' := by
  simp only [World.editParticipantBucket, World.getParticipantBucket, Except.bind_eq_ok,
    okOr_eq_ok, Prod.exists, ParticipantBucket.modifySlot_eq_ok, Except.pure_eq_ok, Prod.mk.injEq,
    slot_eq_some]
  constructor
  · rintro ⟨b, hb, _, _, ⟨s, s', hs, hf, rfl⟩, rfl, rfl⟩
    exact ⟨s, s', ⟨b, hb, hs⟩, hf, by simp [World.writeSlot, World.setParticipantBucket, hb]⟩
  · rintro ⟨s, s', ⟨b, hb, hs⟩, hf, rfl⟩
    exact ⟨b, hb, _, _, ⟨s, s', hs, hf, rfl⟩,
      by simp [World.writeSlot, World.setParticipantBucket, hb], rfl⟩

/-- Applying a delta in the bucket's account.  A zero delta looks no slot up, but the bucket is there. -/
theorem editDelta_eq_ok {delta : Int} {u : Unit} (h : delta ≠ 0) :
    w.editParticipantBucket (slotKey env p) (·.applyTokenDeltaInData p t delta) = .ok (w', u) ↔
      ∃ s s', w.slot env p = some s ∧ s.withTokenDelta t delta = .ok s' ∧
        w' = w.writeSlot env p s' := by
  have hm : ∀ b : ParticipantBucket, b.applyTokenDeltaInData p t delta
      = b.modifySlot p (·.applyTokenDelta t delta) := fun b => by
    simp [ParticipantBucket.applyTokenDeltaInData, h]
  simp only [hm, editSlot_eq_ok, ParticipantBucketSlot.withTokenDelta, h, if_false,
    Except.map_eq_ok, Prod.exists, exists_and_right, exists_eq_right]
  constructor
  · rintro ⟨s, s', hs, hf, hw⟩
    exact ⟨s, s', hs, ⟨u, hf⟩, hw⟩
  · rintro ⟨s, s', hs, ⟨_, hf⟩, hw⟩
    exact ⟨s, s', hs, hf, hw⟩

theorem initialized_of_profile (h : ParticipantBucketSlot.SameProfile s s')
    (hs : w.slot env p = some s) : s'.initialized = true ∧ s'.participantId = p :=
  ⟨h.initialized.trans (slot_initialized hs), h.participantId.trans (slot_participantId hs)⟩

/-- A slot rewritten with its profile kept, in the ledger. -/
theorem ledger_writeSlot_profile (hs : w.slot env p = some s)
    (h : ParticipantBucketSlot.SameProfile s s') :
    (w.writeSlot env p s').ledger env = (w.ledger env).setSlot p s' :=
  ledger_writeSlot (by simp [hs]) (initialized_of_profile h hs).1 (initialized_of_profile h hs).2

/-! ### Writing a lane -/

theorem writeLane_of_key (h : laneKey env t p q = some k) :
    w.writeLane env t p q l = w.writeLaneIn k p q l := by
  simp [World.writeLane, h]

@[simp] theorem slot_writeLane : (w.writeLane env t p q l).slot env = w.slot env := by
  unfold World.writeLane
  cases laneKey env t p q <;> rfl

theorem lane_writeLane_self (h : (w.lane env t p q).isSome) (hi : l.initialized = true) :
    (w.writeLane env t p q l).lane env t p q = some l := by
  obtain ⟨l₀, h⟩ := Option.isSome_iff_exists.mp h
  obtain ⟨k, b, hk, hb, hl⟩ := lane_eq_some.mp h
  obtain ⟨off, ho, -, -⟩ := ChannelBucket.lane?_eq_some.mp hl
  rw [writeLane_of_key hk]
  exact lane_eq_some.mpr ⟨k, b.setLaneAt off l, hk, by simp [hb, ho],
    ChannelBucket.lane?_setLaneAt_self ho hi⟩

theorem lane_writeLane_ne (h : (w.lane env t p q).isSome) (hne : ¬ (t' = t ∧ p' = p ∧ q' = q)) :
    (w.writeLane env t p q l).lane env t' p' q' = w.lane env t' p' q' := by
  obtain ⟨l₀, h⟩ := Option.isSome_iff_exists.mp h
  obtain ⟨k, b, hk, hb, hl⟩ := lane_eq_some.mp h
  obtain ⟨off, ho, -, -⟩ := ChannelBucket.lane?_eq_some.mp hl
  rw [writeLane_of_key hk]
  cases hk' : laneKey env t' p' q' with
  | none => simp [World.lane, hk']
  | some k' =>
      by_cases e : k' = k
      · subst e
        have ht := laneKey_token hk hk'
        simp only [World.lane, hk', Option.bind_some, World.writeLaneIn_channelBuckets,
          Function.update_self, hb, Option.map_some, ho]
        exact ChannelBucket.lane?_setLaneAt_ne ho (by tauto)
      · simp [World.lane, hk', Function.update_of_ne e]

theorem ledger_writeLane (h : (w.lane env t p q).isSome) (hi : l.initialized = true) :
    (w.writeLane env t p q l).ledger env = (w.ledger env).setLane t p q l := by
  refine Ledger.ext' (fun r => ?_) fun t' p' q' => ?_
  · simp
  · by_cases hm : t' = t ∧ p' = p ∧ q' = q
    · obtain ⟨rfl, rfl, rfl⟩ := hm
      rw [Ledger.lane_setLane_self]
      exact lane_writeLane_self h hi
    · rw [Ledger.lane_setLane_ne hm]
      exact lane_writeLane_ne h hm

theorem Located.writeLane (h : Located env w) (hi : l.initialized = true) :
    Located env (w.writeLane env t p q l) := by
  cases hk : laneKey env t p q with
  | none => simpa [World.writeLane, hk] using h
  | some k =>
      rw [writeLane_of_key hk]
      -- The bucket at `k` is the one that was there, or that with one lane rewritten.
      have cases : ∀ k' b, (w.writeLaneIn k p q l).channelBuckets k' = some b →
          ∃ b₀, w.channelBuckets k' = some b₀ ∧ (b = b₀ ∨ ∃ off, b = b₀.setLaneAt off l) := by
        intro k' b hb
        simp only [World.writeLaneIn_channelBuckets] at hb
        by_cases e : k' = k
        · subst e
          rw [Function.update_self] at hb
          obtain ⟨b₀, hb₀, rfl⟩ := Option.map_eq_some_iff.mp hb
          refine ⟨b₀, hb₀, ?_⟩
          split
          · exact .inr ⟨_, rfl⟩
          · exact .inl rfl
        · rw [Function.update_of_ne e] at hb
          exact ⟨b, hb, .inl rfl⟩
      refine ⟨h.participants, fun k' b hb => ?_, h.places, fun k' b off hb hn => ?_⟩
      · obtain ⟨b₀, hb₀, rfl | ⟨off, rfl⟩⟩ := cases k' b hb
        · exact h.channels _ b hb₀
        · exact h.channels _ b₀ hb₀
      · obtain ⟨b₀, hb₀, rfl | ⟨off', rfl⟩⟩ := cases k' b hb
        · exact h.blank _ b off hb₀ hn
        · by_cases e : off = off'
          · subst e
            rw [ChannelBucket.laneAt_setLaneAt_self, hi] at hn
            cases hn
          · rw [ChannelBucket.laneAt_setLaneAt_ne e] at hn ⊢
            exact h.blank _ b₀ off hb₀ hn

/-- Editing a lane in its bucket's account. -/
theorem editLane_eq_ok {α : Type} {a : α} (hk : laneKey env t p q = some k)
    {f : DirectionalLaneState → Result (DirectionalLaneState × α)} :
    w.editChannelBucket k (·.modifyLane p q f) = .ok (w', a) ↔
      ∃ l l', w.lane env t p q = some l ∧ f l = .ok (l', a) ∧ w' = w.writeLane env t p q l' := by
  simp only [World.editChannelBucket, World.getChannelBucket, Except.bind_eq_ok, okOr_eq_ok,
    Prod.exists, ChannelBucket.modifyLane_eq_ok, Except.pure_eq_ok, Prod.mk.injEq, lane_eq_some]
  constructor
  · rintro ⟨b, hb, _, _, ⟨i, sel, l, l', ho, hl, hf, rfl⟩, rfl, rfl⟩
    exact ⟨l, l', ⟨k, b, hk, hb, hl⟩, hf, by
      simp [writeLane_of_key hk, World.writeLaneIn, World.setChannelBucket, hb, ho]⟩
  · rintro ⟨l, l', ⟨k', b, hk', hb, hl⟩, hf, rfl⟩
    obtain rfl : k' = k := Option.some.inj (hk'.symm.trans hk)
    obtain ⟨off, ho, -, -⟩ := ChannelBucket.lane?_eq_some.mp hl
    exact ⟨b, hb, _, _, ⟨off.1, off.2, l, l', ho, hl, hf, rfl⟩, by
      simp [writeLane_of_key hk, World.writeLaneIn, World.setChannelBucket, hb, ho], rfl⟩

/-- Reading a created lane at its resolved offset and settling it there. -/
theorem settleLane_eq_ok {lower higher : U32} {sel : LaneSelector} {off : LaneOffset}
    (target used : Nat) {u : Unit} (hk : laneKey env t p q = some k)
    (hc : ChannelBucket.canonicalize p q = .ok (lower, higher, sel)) :
    (∃ b, w.channelBuckets k = some b ∧
        b.readLaneForSelectorFromData lower higher sel = .ok (off, l)) ∧
      w.editChannelBucket k (·.applyLaneSettlementAtOffsetInData off target used) = .ok (w', u) ↔
    (∃ b, w.channelBuckets k = some b ∧ b.laneOffset p q = .ok off) ∧ w.lane env t p q = some l ∧
      used ≤ l.lockedBalance ∧ w' = w.writeLane env t p q (l.settled target used) := by
  have hread : ∀ b : ChannelBucket, b.readLaneForSelectorFromData lower higher sel = .ok (off, l) ↔
      b.laneOffset p q = .ok off ∧ b.laneAt off = l ∧ l.initialized = true := fun b => by
    simp only [ChannelBucket.readLaneForSelectorFromData, Except.bind_eq_ok, require_eq_ok,
      exists_const, Except.pure_eq_ok, Prod.mk.injEq, ChannelBucket.laneOffset, hc, Except.ok.injEq]
    constructor
    · rintro ⟨i, hi, h₀, rfl, rfl⟩
      exact ⟨⟨_, rfl, i, hi, rfl⟩, rfl, h₀⟩
    · rintro ⟨⟨_, rfl, i, hi, rfl⟩, rfl, h₀⟩
      exact ⟨i, hi, h₀, rfl, rfl⟩
  simp only [hread, World.editChannelBucket, World.getChannelBucket, Except.bind_eq_ok, okOr_eq_ok,
    Prod.exists, ChannelBucket.applyLaneSettlementAtOffsetInData, ChannelBucket.modifyLaneAt_eq_ok,
    DirectionalLaneState.applySettlement_eq_ok, Except.pure_eq_ok, Prod.mk.injEq, lane_eq_some,
    ChannelBucket.lane?_eq_some]
  constructor
  · rintro ⟨⟨b, hb, ho, hl, hi⟩, b', hb', _, _, ⟨-, _, ⟨hu, rfl⟩, rfl⟩, rfl, -⟩
    obtain rfl : b = b' := Option.some.inj (hb.symm.trans hb')
    subst hl
    exact ⟨⟨b, hb, ho⟩, ⟨k, b, hk, hb, off.1, off.2, ho, rfl, hi⟩, hu, by
      simp [writeLane_of_key hk, World.writeLaneIn, World.setChannelBucket, hb, ho]⟩
  · rintro ⟨⟨b, hb, ho⟩, ⟨k', b', hk', hb', i, sel', ho', hl, hi⟩, hu, rfl⟩
    obtain rfl : k' = k := Option.some.inj (hk'.symm.trans hk)
    obtain rfl : b = b' := Option.some.inj (hb.symm.trans hb')
    obtain rfl : off = (i, sel') := Except.ok.inj (ho.symm.trans ho')
    subst hl
    exact ⟨⟨b, hb, ho, rfl, hi⟩, b, hb, _, (), ⟨hi, _, ⟨hu, rfl⟩, rfl⟩, by
      simp [writeLane_of_key hk, World.writeLaneIn, World.setChannelBucket, hb, ho], trivial⟩

end Ryvo
