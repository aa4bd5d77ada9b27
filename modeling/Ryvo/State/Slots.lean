import Ryvo.State.Balances
import Ryvo.State.Lanes
import Mathlib.Order.Basic
import Mathlib.Tactic.Ring

/-!
# State — Slots

Reading a bucket by participant id, and by pair.  `ParticipantBucket.slot?` and `ChannelBucket.lane?` forget where in the account a row sits; the lemmas here say that writing one row changes the reading at that row's id, or at that lane, and at no other.

For channel buckets this rests on the slot header: two pairs that share a slot are the same pair (`laneOffset_inj`), and its two lanes are the two directions.
-/

namespace Ryvo

namespace ParticipantBucket

variable {b b' : ParticipantBucket} {p q : U32} {s s' : ParticipantBucketSlot}

/-- The participant's slot, if it has been initialised in this bucket. -/
def slot? (b : ParticipantBucket) (p : U32) : Option ParticipantBucketSlot :=
  (b.slotForParticipant p).toOption

theorem slotForParticipant_eq_ok : b.slotForParticipant p = .ok s ↔
    b.bucketId = bucketIdForParticipantId p ∧ b.slots (slotIndexForParticipantId p) = s ∧
      s.initialized = true ∧ s.participantId = p := by
  simp only [slotForParticipant, slotForParticipantIndex, Except.bind_eq_ok, require_eq_ok,
    exists_const, Except.pure_eq_ok]
  constructor
  · rintro ⟨_, ⟨h, rfl⟩, hi, hp, rfl⟩
    exact ⟨h, rfl, hi, hp⟩
  · rintro ⟨h, rfl, hi, hp⟩
    exact ⟨_, ⟨h, rfl⟩, hi, hp, rfl⟩

theorem slot?_eq_some : b.slot? p = some s ↔ b.slotForParticipant p = .ok s := by
  unfold slot?
  cases b.slotForParticipant p <;> simp [Except.toOption]

theorem slot?_initialized (h : b.slot? p = some s) : s.initialized = true :=
  (slotForParticipant_eq_ok.mp (slot?_eq_some.mp h)).2.2.1

theorem slot?_participantId (h : b.slot? p = some s) : s.participantId = p :=
  (slotForParticipant_eq_ok.mp (slot?_eq_some.mp h)).2.2.2

theorem slot?_bucketId (h : b.slot? p = some s) : b.bucketId = bucketIdForParticipantId p :=
  (slotForParticipant_eq_ok.mp (slot?_eq_some.mp h)).1

/-- Two ids with one bucket and one slot are one id. -/
theorem id_eq_of_position (hb : bucketIdForParticipantId p = bucketIdForParticipantId q)
    (hs : slotIndexForParticipantId p = slotIndexForParticipantId q) : p = q := by
  have h₁ : p.val / 9 = q.val / 9 := congrArg Fin.val hb
  have h₂ : p.val % 9 = q.val % 9 := congrArg Fin.val hs
  exact Fin.ext (by omega)

theorem slot?_setSlot_self (hb : b.bucketId = bucketIdForParticipantId p)
    (hi : s.initialized = true) (hp : s.participantId = p) : (b.setSlot p s).slot? p = some s := by
  rw [slot?_eq_some, slotForParticipant_eq_ok]
  exact ⟨hb, by simp [setSlot], hi, hp⟩

theorem slot?_setSlot_ne (hne : q ≠ p) (hb : b.bucketId = bucketIdForParticipantId p) :
    (b.setSlot p s).slot? q = b.slot? q := by
  refine Option.ext fun r => ?_
  simp only [slot?_eq_some, slotForParticipant_eq_ok, setSlot]
  refine and_congr_right fun hq => ?_
  have hi : slotIndexForParticipantId q ≠ slotIndexForParticipantId p := fun e =>
    hne (id_eq_of_position (hq.symm.trans hb) e)
  rw [Function.update_of_ne hi]

theorem modifySlot_eq_ok {α : Type} {f : ParticipantBucketSlot → Result (ParticipantBucketSlot × α)}
    {a : α} : b.modifySlot p f = .ok (b', a) ↔
      ∃ s s', b.slot? p = some s ∧ f s = .ok (s', a) ∧ b' = b.setSlot p s' := by
  simp only [modifySlot, Except.bind_eq_ok, Prod.exists, Except.pure_eq_ok, Prod.mk.injEq,
    slot?_eq_some]
  constructor
  · rintro ⟨s, hs, s', a', hf, rfl, rfl⟩
    exact ⟨s, s', hs, hf, rfl⟩
  · rintro ⟨s, s', hs, hf, rfl⟩
    exact ⟨s, hs, s', a, hf, rfl, rfl⟩

theorem applyTokenDeltaInData_eq_ok {t : U16} {delta : Int} {u : Unit} (h : delta ≠ 0) :
    b.applyTokenDeltaInData p t delta = .ok (b', u) ↔
      ∃ s s', b.slot? p = some s ∧ s.withTokenDelta t delta = .ok s' ∧ b' = b.setSlot p s' := by
  simp only [applyTokenDeltaInData, h, if_false, modifySlot_eq_ok,
    ParticipantBucketSlot.withTokenDelta, Except.map_eq_ok, Prod.exists, exists_and_right,
    exists_eq_right]
  exact ⟨fun ⟨s, s', hs, hf, hb⟩ => ⟨s, s', hs, ⟨u, hf⟩, hb⟩,
    fun ⟨s, s', hs, ⟨_, hf⟩, hb⟩ => ⟨s, s', hs, hf, hb⟩⟩

theorem slot?_initializeAccountData (bucketId : U32) (bump : U8) (p : U32) :
    (initializeAccountData bucketId bump).slot? p = none := by
  rw [Option.eq_none_iff_forall_not_mem]
  intro s hs
  obtain ⟨-, rfl, hi, -⟩ := slotForParticipant_eq_ok.mp (slot?_eq_some.mp hs)
  exact Bool.false_ne_true hi

theorem initializeSlotInData_eq_ok {owner : Pubkey} :
    b.initializeSlotInData p owner = .ok b' ↔ b.bucketId = bucketIdForParticipantId p ∧
      (b.slots (slotIndexForParticipantId p)).initialized = false ∧
      b' = b.setSlot p (.fresh p owner) := by
  simp only [initializeSlotInData, slotForParticipantIndex, Except.bind_eq_ok, require_eq_ok,
    exists_const, Except.pure_eq_ok, eq_comm (b := b')]
  constructor
  · rintro ⟨_, ⟨hb, rfl⟩, hi, rfl⟩
    exact ⟨hb, hi, rfl⟩
  · rintro ⟨hb, hi, rfl⟩
    exact ⟨_, ⟨hb, rfl⟩, hi, rfl⟩

end ParticipantBucket

namespace ChannelBucketSlot

@[simp] theorem lane_setLane_self (slot : ChannelBucketSlot) (sel : LaneSelector)
    (l : DirectionalLaneState) : (slot.setLane sel l).lane sel = l := by
  cases sel <;> rfl

theorem lane_setLane_ne (slot : ChannelBucketSlot) {sel sel' : LaneSelector} (h : sel' ≠ sel)
    (l : DirectionalLaneState) : (slot.setLane sel l).lane sel' = slot.lane sel' := by
  cases sel <;> cases sel' <;> first | rfl | exact absurd rfl h

@[simp] theorem setLane_initialized (slot : ChannelBucketSlot) (sel : LaneSelector)
    (l : DirectionalLaneState) : (slot.setLane sel l).initialized = slot.initialized := by
  cases sel <;> rfl

@[simp] theorem setLane_lower (slot : ChannelBucketSlot) (sel : LaneSelector)
    (l : DirectionalLaneState) :
    (slot.setLane sel l).lowerParticipantId = slot.lowerParticipantId := by
  cases sel <;> rfl

@[simp] theorem setLane_higher (slot : ChannelBucketSlot) (sel : LaneSelector)
    (l : DirectionalLaneState) :
    (slot.setLane sel l).higherParticipantId = slot.higherParticipantId := by
  cases sel <;> rfl

end ChannelBucketSlot

namespace ChannelBucket

variable {b b' : ChannelBucket} {p q p' q' : U32} {off off' : LaneOffset}
variable {lane : DirectionalLaneState}

/-- The lane from `p` to `q`, if it has been created in this bucket. -/
def lane? (b : ChannelBucket) (p q : U32) : Option DirectionalLaneState :=
  (do
    let off ← b.laneOffset p q
    require ((b.laneAt off).initialized = true) (Error.vault .channelNotInitialized)
    pure (b.laneAt off)).toOption

theorem canonicalize_eq_ok {lower higher : U32} {sel : LaneSelector} :
    canonicalize p q = .ok (lower, higher, sel) ↔
      (p < q ∧ lower = p ∧ higher = q ∧ sel = .lowerToHigher) ∨
        (q < p ∧ lower = q ∧ higher = p ∧ sel = .higherToLower) := by
  simp only [canonicalize, Except.bind_eq_ok, require_eq_ok, exists_const]
  by_cases h : p < q
  · have hn : ¬ q < p := lt_asymm h
    have hne : p ≠ q := ne_of_lt h
    simp only [h, if_true, Except.pure_eq_ok, Prod.mk.injEq, hne, ne_eq, not_false_eq_true,
      true_and, hn, false_and, or_false]
    constructor <;> rintro ⟨rfl, rfl, rfl⟩ <;> exact ⟨rfl, rfl, rfl⟩
  · simp only [h, if_false, Except.pure_eq_ok, Prod.mk.injEq, false_and, false_or]
    constructor
    · rintro ⟨hne, rfl, rfl, rfl⟩
      exact ⟨lt_of_le_of_ne (not_lt.mp h) (Ne.symm hne), rfl, rfl, rfl⟩
    · rintro ⟨hlt, rfl, rfl, rfl⟩
      exact ⟨hlt.ne', rfl, rfl, rfl⟩

/-- A pair in order and a direction name the payer and the payee. -/
theorem canonicalize_inj {r : U32 × U32 × LaneSelector} (h : canonicalize p q = .ok r)
    (h' : canonicalize p' q' = .ok r) : p = p' ∧ q = q' := by
  obtain ⟨lower, higher, sel⟩ := r
  rcases canonicalize_eq_ok.mp h with ⟨-, rfl, rfl, rfl⟩ | ⟨-, rfl, rfl, rfl⟩ <;>
    rcases canonicalize_eq_ok.mp h' with ⟨-, h₁, h₂, h₃⟩ | ⟨-, h₁, h₂, h₃⟩ <;>
    first | exact absurd h₃ (by decide) | exact ⟨h₁, h₂⟩ | exact ⟨h₂, h₁⟩

theorem slotOffsetForPair_eq_ok {lower higher : U32} {i : Fin channelBucketSlotCount} :
    b.slotOffsetForPair lower higher = .ok i ↔
      bucketIdForPair lower higher = .ok b.bucketId ∧ slotIndexForPair lower higher = .ok i ∧
        (b.slots i).initialized = true ∧ (b.slots i).lowerParticipantId = lower ∧
        (b.slots i).higherParticipantId = higher := by
  simp only [slotOffsetForPair, Except.bind_eq_ok, require_eq_ok, exists_const, Except.pure_eq_ok]
  constructor
  · rintro ⟨_, hb, rfl, i, hi, h₀, ⟨h₁, h₂⟩, rfl⟩
    exact ⟨hb, hi, h₀, h₁, h₂⟩
  · rintro ⟨hb, hi, h₀, h₁, h₂⟩
    exact ⟨_, hb, rfl, i, hi, h₀, ⟨h₁, h₂⟩, rfl⟩

theorem laneOffset_eq_ok : b.laneOffset p q = .ok off ↔ ∃ lower higher,
    canonicalize p q = .ok (lower, higher, off.2) ∧ b.slotOffsetForPair lower higher = .ok off.1 := by
  simp only [laneOffset, Except.bind_eq_ok, Except.pure_eq_ok, Prod.exists]
  constructor
  · rintro ⟨lower, higher, sel, hc, i, hs, rfl⟩
    exact ⟨lower, higher, hc, hs⟩
  · rintro ⟨lower, higher, hc, hs⟩
    exact ⟨lower, higher, off.2, hc, off.1, hs, rfl⟩

/-- Two lanes at one offset are one lane: the slot header names the pair. -/
theorem laneOffset_inj (h : b.laneOffset p q = .ok off) (h' : b.laneOffset p' q' = .ok off) :
    p = p' ∧ q = q' := by
  obtain ⟨lower, higher, hc, hs⟩ := laneOffset_eq_ok.mp h
  obtain ⟨lower', higher', hc', hs'⟩ := laneOffset_eq_ok.mp h'
  obtain ⟨-, -, -, rfl, rfl⟩ := slotOffsetForPair_eq_ok.mp hs
  obtain ⟨-, -, -, rfl, rfl⟩ := slotOffsetForPair_eq_ok.mp hs'
  exact canonicalize_inj hc hc'

theorem lane?_eq_some : b.lane? p q = some lane ↔ ∃ off, b.laneOffset p q = .ok off ∧
    b.laneAt off = lane ∧ lane.initialized = true := by
  have h : ∀ x : Result DirectionalLaneState, x.toOption = some lane ↔ x = .ok lane := fun x => by
    cases x <;> simp [Except.toOption]
  simp only [lane?, h, Except.bind_eq_ok, require_eq_ok, exists_const, Except.pure_eq_ok]
  constructor
  · rintro ⟨off, ho, hi, rfl⟩
    exact ⟨off, ho, rfl, hi⟩
  · rintro ⟨off, ho, rfl, hi⟩
    exact ⟨off, ho, hi, rfl⟩

theorem lane?_initialized (h : b.lane? p q = some lane) : lane.initialized = true := by
  obtain ⟨-, -, -, hi⟩ := lane?_eq_some.mp h
  exact hi

/-- Writing a lane moves no slot. -/
theorem slotOffsetForPair_setLaneAt {lower higher : U32} :
    (b.setLaneAt off lane).slotOffsetForPair lower higher = b.slotOffsetForPair lower higher := by
  have hslot : ∀ i, ((b.setLaneAt off lane).slots i).initialized = (b.slots i).initialized ∧
      ((b.setLaneAt off lane).slots i).lowerParticipantId = (b.slots i).lowerParticipantId ∧
      ((b.setLaneAt off lane).slots i).higherParticipantId = (b.slots i).higherParticipantId := by
    intro i
    simp only [setLaneAt, setSlot]
    by_cases e : i = off.1
    · subst e; simp
    · simp [Function.update_of_ne e]
  simp only [slotOffsetForPair, (hslot _).1, (hslot _).2.1, (hslot _).2.2]
  rfl

theorem laneOffset_setLaneAt : (b.setLaneAt off lane).laneOffset p q = b.laneOffset p q := by
  simp only [laneOffset, slotOffsetForPair_setLaneAt]

theorem laneAt_setLaneAt_self : (b.setLaneAt off lane).laneAt off = lane := by
  simp [laneAt, setLaneAt, setSlot]

theorem laneAt_setLaneAt_ne (h : off' ≠ off) :
    (b.setLaneAt off lane).laneAt off' = b.laneAt off' := by
  simp only [laneAt, setLaneAt, setSlot]
  by_cases e : off'.1 = off.1
  · have hsel : off'.2 ≠ off.2 := fun e' => h (Prod.ext e e')
    rw [e, Function.update_self, ChannelBucketSlot.lane_setLane_ne _ hsel]
  · rw [Function.update_of_ne e]

theorem lane?_setLaneAt_self (h : b.laneOffset p q = .ok off) (hi : lane.initialized = true) :
    (b.setLaneAt off lane).lane? p q = some lane :=
  lane?_eq_some.mpr ⟨off, laneOffset_setLaneAt.trans h, laneAt_setLaneAt_self, hi⟩

theorem lane?_setLaneAt_ne (h : b.laneOffset p q = .ok off) (hne : ¬ (p' = p ∧ q' = q)) :
    (b.setLaneAt off lane).lane? p' q' = b.lane? p' q' := by
  refine Option.ext fun r => ?_
  simp only [lane?_eq_some, laneOffset_setLaneAt]
  refine exists_congr fun off' => and_congr_right fun ho => ?_
  have hoff : off' ≠ off := by
    rintro rfl
    exact hne (laneOffset_inj ho h)
  rw [laneAt_setLaneAt_ne hoff]

theorem modifyLaneAt_eq_ok {α : Type} {a : α}
    {f : DirectionalLaneState → Result (DirectionalLaneState × α)} :
    b.modifyLaneAt off f = .ok (b', a) ↔ (b.laneAt off).initialized = true ∧
      ∃ lane', f (b.laneAt off) = .ok (lane', a) ∧ b' = b.setLaneAt off lane' := by
  simp only [modifyLaneAt, Except.bind_eq_ok, require_eq_ok, exists_const, Prod.exists,
    Except.pure_eq_ok, Prod.mk.injEq]
  refine and_congr_right fun _ => ?_
  constructor
  · rintro ⟨l, a', hf, rfl, rfl⟩
    exact ⟨l, hf, rfl⟩
  · rintro ⟨l, hf, rfl⟩
    exact ⟨l, a, hf, rfl, rfl⟩

/-- Editing a created lane is editing the lane of the pair. -/
theorem modifyLane_eq_ok {α : Type} {a : α}
    {f : DirectionalLaneState → Result (DirectionalLaneState × α)} :
    b.modifyLane p q f = .ok (b', a) ↔ ∃ off lane lane', b.laneOffset p q = .ok off ∧
      b.lane? p q = some lane ∧ f lane = .ok (lane', a) ∧ b' = b.setLaneAt off lane' := by
  simp only [modifyLane, Except.bind_eq_ok, modifyLaneAt_eq_ok, lane?_eq_some]
  constructor
  · rintro ⟨off, ho, hi, l, hf, rfl⟩
    exact ⟨off, _, l, ho, ⟨off, ho, rfl, hi⟩, hf, rfl⟩
  · rintro ⟨off, _, l, ho, ⟨off', ho', rfl, hi⟩, hf, rfl⟩
    obtain rfl : off = off' := Except.ok.inj (ho.symm.trans ho')
    exact ⟨off, ho, hi, l, hf, rfl⟩

theorem lane?_initializeAccountData (t : U16) (bucketId : U64) (bump : U8) (p q : U32) :
    (initializeAccountData t bucketId bump).lane? p q = none := by
  rw [Option.eq_none_iff_forall_not_mem]
  intro l hl
  obtain ⟨off, ho, -, -⟩ := lane?_eq_some.mp hl
  obtain ⟨lower, higher, -, hs⟩ := laneOffset_eq_ok.mp ho
  obtain ⟨-, -, hi, -⟩ := slotOffsetForPair_eq_ok.mp hs
  exact Bool.false_ne_true hi

theorem claimedSlot_lane (lower higher : U32) (sel : LaneSelector) :
    (claimedSlot lower higher).lane sel = .uninitialized := by
  cases sel <;> rfl

/-- Claiming a free slot creates no lane and hides none. -/
theorem lane?_setSlot_claimedSlot {i : Fin channelBucketSlotCount} {lower higher : U32}
    (h : (b.slots i).initialized = false) :
    (b.setSlot i (claimedSlot lower higher)).lane? p q = b.lane? p q := by
  refine Option.ext fun r => ?_
  simp only [lane?_eq_some, laneOffset_eq_ok, slotOffsetForPair_eq_ok, laneAt, setSlot]
  constructor
  · rintro ⟨off, ⟨lower', higher', hc, hb, hi, h₀, h₁, h₂⟩, rfl, hr⟩
    by_cases e : off.1 = i
    · rw [e, Function.update_self, claimedSlot_lane] at hr
      exact absurd hr (by decide)
    · rw [Function.update_of_ne e] at *
      exact ⟨off, ⟨lower', higher', hc, hb, hi, h₀, h₁, h₂⟩, rfl, hr⟩
  · rintro ⟨off, ⟨lower', higher', hc, hb, hi, h₀, h₁, h₂⟩, rfl, hr⟩
    have e : off.1 ≠ i := by
      rintro rfl
      exact Bool.false_ne_true (h.symm.trans h₀)
    refine ⟨off, ⟨lower', higher', hc, hb, hi, ?_, ?_, ?_⟩, ?_, hr⟩ <;>
      rw [Function.update_of_ne e] <;> assumption

/-- `initialize_lane_in_data` creates one lane, which was not there. -/
theorem initializeLaneInData_spec {t : U16} {lower higher : U32} {sel : LaneSelector}
    {signer : Pubkey} (hc : canonicalize p q = .ok (lower, higher, sel))
    (h : b.initializeLaneInData t lower higher sel signer = .ok b') :
    b.tokenId = t ∧ bucketIdForPair lower higher = .ok b.bucketId ∧
      (b'.tokenId = b.tokenId ∧ b'.bucketId = b.bucketId ∧ b'.bump = b.bump) ∧
      b.lane? p q = none ∧ b'.lane? p q = some (.fresh signer) ∧
      ∀ p' q', ¬ (p' = p ∧ q' = q) → b'.lane? p' q' = b.lane? p' q' := by
  simp only [initializeLaneInData, Except.bind_eq_ok, require_eq_ok, exists_const,
    Except.pure_eq_ok] at h
  obtain ⟨ht, _, hb, rfl, i, hi, slot, hslot, hun, rfl⟩ := h
  refine ⟨ht, hb, ⟨rfl, rfl, rfl⟩, ?_⟩
  -- In both cases the new lane goes into a bucket whose slot already carries the pair.
  have key : ∀ c : ChannelBucket, c.bucketId = b.bucketId → c.slots i = slot →
      slot.initialized = true → slot.lowerParticipantId = lower →
      slot.higherParticipantId = higher → c.lane? p q = none ∧
      (c.setLaneAt (i, sel) (.fresh signer)).lane? p q = some (.fresh signer) ∧
      ∀ p' q', ¬ (p' = p ∧ q' = q) →
        (c.setLaneAt (i, sel) (.fresh signer)).lane? p' q' = c.lane? p' q' := by
    intro c hcb hcs h₀ h₁ h₂
    have ho : c.laneOffset p q = .ok (i, sel) :=
      laneOffset_eq_ok.mpr ⟨lower, higher, hc, slotOffsetForPair_eq_ok.mpr
        ⟨hcb ▸ hb, hi, hcs ▸ h₀, hcs ▸ h₁, hcs ▸ h₂⟩⟩
    refine ⟨?_, lane?_setLaneAt_self ho rfl, fun p' q' hne => lane?_setLaneAt_ne ho hne⟩
    rw [Option.eq_none_iff_forall_not_mem]
    intro l hl
    obtain ⟨off, ho', rfl, hl⟩ := lane?_eq_some.mp hl
    obtain rfl : off = (i, sel) := Except.ok.inj (ho'.symm.trans ho)
    simp only [laneAt, hcs, hun] at hl
    exact Bool.false_ne_true hl
  by_cases h₀ : (b.slots i).initialized = true
  · simp only [claimSlot, h₀, if_true, Except.bind_eq_ok, require_eq_ok, exists_const,
      Except.pure_eq_ok] at hslot
    obtain ⟨⟨h₁, h₂⟩, rfl⟩ := hslot
    exact key b rfl rfl h₀ h₁ h₂
  · have h₀' : (b.slots i).initialized = false := by simpa using h₀
    obtain rfl : claimedSlot lower higher = slot := by
      rwa [claimSlot, if_neg h₀, Except.pure_eq_ok] at hslot
    have hset : b.setSlot i ((claimedSlot lower higher).setLane sel (.fresh signer))
        = (b.setSlot i (claimedSlot lower higher)).setLaneAt (i, sel) (.fresh signer) := by
      simp [setLaneAt, setSlot, Function.update_idem]
    have hk := key (b.setSlot i (claimedSlot lower higher)) rfl (by simp [setSlot]) rfl rfl rfl
    simp only [lane?_setSlot_claimedSlot h₀'] at hk
    rw [hset]
    exact hk

/-- Lanes that were not created stay all zero. -/
theorem blank_initializeLaneInData {t : U16} {lower higher : U32} {sel : LaneSelector}
    {signer : Pubkey}
    (hblank : ∀ off, (b.laneAt off).initialized = false → b.laneAt off = .uninitialized)
    (h : b.initializeLaneInData t lower higher sel signer = .ok b') :
    ∀ off, (b'.laneAt off).initialized = false → b'.laneAt off = .uninitialized := by
  simp only [initializeLaneInData, Except.bind_eq_ok, require_eq_ok, exists_const,
    Except.pure_eq_ok] at h
  obtain ⟨-, _, -, -, i, -, slot, hslot, -, rfl⟩ := h
  intro off hi
  by_cases e : off.1 = i
  · subst e
    simp only [laneAt, setSlot, Function.update_self] at hi ⊢
    by_cases e' : off.2 = sel
    · rw [e', ChannelBucketSlot.lane_setLane_self] at hi
      cases hi
    · rw [ChannelBucketSlot.lane_setLane_ne _ e'] at hi ⊢
      unfold claimSlot at hslot
      split at hslot
      · simp only [Except.bind_eq_ok, require_eq_ok, exists_const, Except.pure_eq_ok] at hslot
        obtain ⟨-, rfl⟩ := hslot
        exact hblank off hi
      · rw [Except.pure_eq_ok] at hslot
        subst hslot
        exact claimedSlot_lane _ _ _
  · simp only [laneAt, setSlot, Function.update_of_ne e] at hi ⊢
    exact hblank off hi

end ChannelBucket

end Ryvo
