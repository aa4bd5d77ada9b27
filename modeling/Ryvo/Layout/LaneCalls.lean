import Ryvo.Layout.ChannelLayout
import Ryvo.State.Addressing

/-!
# Layout — Calls on lanes

Every call that writes lanes is about one of them, the one from its payer to its payee.

* `Effect` says once what a call that succeeds has done: it has written its own lane, and the call that opens the first lane of a pair has claimed the pair's slot before.
* `Effect.frame`: what a call leaves of every other lane.
-/

namespace Ryvo

/-- The payer and the payee of a direction of a pair. -/
def directed (lower higher : U32) : LaneSelector → U32 × U32
  | .lowerToHigher => (lower, higher)
  | .higherToLower => (higher, lower)

/-- A call of one of the raw functions that write lanes.  A settlement at an offset is about the lane the offset was read for. -/
inductive LaneCall where
  | initializeLane (tokenId : U16) (lower higher : U32) (selector : LaneSelector)
      (authorizedSigner : Pubkey)
  | addLockedBalance (payerId payeeId : U32) (amount : U64)
  | requestUnlock (payerId payeeId : U32) (amount : U64) (requestedAt : Int)
  | executeUnlock (payerId payeeId : U32)
  | cooperativeUnlock (payerId payeeId : U32) (amount : U64)
  | applySettlement (payerId payeeId : U32) (targetCumulative lockedConsumed : U64)
  | applySettlementForSelector (lower higher : U32) (selector : LaneSelector)
      (targetCumulative lockedConsumed : U64)
  | applySettlementAtOffset (payerId payeeId : U32) (laneOffset : Nat)
      (targetCumulative lockedConsumed : U64)
  | requestAuthorizedSignerUpdate (payerId payeeId : U32) (newSigner : Pubkey) (requestedAt : Int)
  | executeAuthorizedSignerUpdate (payerId payeeId : U32)

namespace LaneCall

/-- The lane a call is about. -/
def lane : LaneCall → U32 × U32
  | initializeLane _ lower higher selector _ => directed lower higher selector
  | applySettlementForSelector lower higher selector _ _ => directed lower higher selector
  | addLockedBalance p q _ | requestUnlock p q _ _ | executeUnlock p q | cooperativeUnlock p q _
  | applySettlement p q _ _ | applySettlementAtOffset p q _ _ _
  | requestAuthorizedSignerUpdate p q _ _ | executeAuthorizedSignerUpdate p q => (p, q)

def opens : LaneCall → Bool
  | initializeLane _ _ _ _ _ => true
  | _ => false

/-- Times are `i64`. -/
def Typed : LaneCall → Prop
  | requestUnlock _ _ _ requestedAt | requestAuthorizedSignerUpdate _ _ _ requestedAt =>
      I64 requestedAt
  | _ => True

/-- What a call does to the bucket; what it returns besides is left out. -/
def apply (b : ChannelBucket) : LaneCall → Result ChannelBucket
  | initializeLane t lower higher selector signer =>
      b.initializeLaneInData t lower higher selector signer
  | addLockedBalance p q amount => Prod.fst <$> b.addLaneLockedBalanceInData p q amount.val
  | requestUnlock p q amount requestedAt =>
      Prod.fst <$> b.requestLaneUnlockInData p q amount.val requestedAt
  | executeUnlock p q => Prod.fst <$> b.executeLaneUnlockInData p q
  | cooperativeUnlock p q amount => Prod.fst <$> b.cooperativeUnlockLaneInData p q amount.val
  | applySettlement p q target used | applySettlementAtOffset p q _ target used =>
      Prod.fst <$> b.modifyLane p q (·.applySettlement target.val used.val)
  | applySettlementForSelector lower higher selector target used => do
      let slotOffset ← b.slotOffsetForPair lower higher
      Prod.fst <$> b.applyLaneSettlementAtOffsetInData (slotOffset, selector) target.val used.val
  | requestAuthorizedSignerUpdate p q newSigner requestedAt =>
      Prod.fst <$> b.requestAuthorizedSignerUpdateInData p q newSigner requestedAt
  | executeAuthorizedSignerUpdate p q => Prod.fst <$> b.executeAuthorizedSignerUpdateInData p q

end LaneCall

namespace ChannelBucket

variable {b b' : ChannelBucket} {p q p' q' lower higher lower' higher' : U32} {off : LaneOffset}
variable {selector selector' : LaneSelector} {l : DirectionalLaneState} {c : LaneCall}

/-! ### Buckets as the calls leave them -/

/-- What was never written is all zero. -/
structure Sound (b : ChannelBucket) : Prop where
  wellTyped : b.WellTyped
  headed : b.Headed
  free : ∀ i, (b.slots i).initialized = false → b.slots i = .empty
  blank : ∀ off, (b.laneAt off).initialized = false → b.laneAt off = .uninitialized

theorem wellTyped_uninitialized : DirectionalLaneState.uninitialized.WellTyped :=
  ⟨u64_zero, u64_zero, u64_zero, i64_zero, i64_zero⟩

theorem wellTyped_fresh (signer : Pubkey) : (DirectionalLaneState.fresh signer).WellTyped :=
  ⟨u64_zero, u64_zero, u64_zero, i64_zero, i64_zero⟩

theorem sound_initializeAccountData (t : U16) (bucketId : U64) (bump : U8) :
    (initializeAccountData t bucketId bump).Sound where
  wellTyped _ selector := by cases selector <;> exact wellTyped_uninitialized
  headed := (Written.account t bucketId bump).headed
  free _ _ := rfl
  blank off _ := by
    obtain ⟨i, selector⟩ := off
    cases selector <;> rfl

theorem canonicalize_directed (h : lower < higher) (selector : LaneSelector) :
    canonicalize (directed lower higher selector).1 (directed lower higher selector).2
      = .ok (lower, higher, selector) := by
  rw [canonicalize_eq_ok]
  cases selector with
  | lowerToHigher => exact .inl ⟨h, rfl, rfl, rfl⟩
  | higherToLower => exact .inr ⟨h, rfl, rfl, rfl⟩

theorem directed_of_canonicalize (h : canonicalize p q = .ok (lower, higher, selector)) :
    lower < higher ∧ directed lower higher selector = (p, q) := by
  obtain ⟨hlt, rfl, rfl, rfl⟩ | ⟨hlt, rfl, rfl, rfl⟩ := canonicalize_eq_ok.mp h
  · exact ⟨hlt, rfl⟩
  · exact ⟨hlt, rfl⟩

/-- The lane of a direction of a pair is in the pair's slot. -/
theorem laneOffset_directed {i : Fin channelBucketSlotCount}
    (h : b.slotOffsetForPair lower higher = .ok i) (selector : LaneSelector) :
    b.laneOffset (directed lower higher selector).1 (directed lower higher selector).2
      = .ok (i, selector) := by
  have hlt := (bucketIdForPair_eq_ok.mp (slotOffsetForPair_eq_ok.mp h).1).1
  exact laneOffset_eq_ok.mpr ⟨lower, higher, canonicalize_directed hlt selector, h⟩

/-- What a call that succeeds has done. -/
inductive Effect (b : ChannelBucket) (c : LaneCall) : ChannelBucket → Prop
  | edited (off : LaneOffset) (l : DirectionalLaneState) :
      b.laneOffset c.lane.1 c.lane.2 = .ok off → (b.laneAt off).initialized = true →
      c.opens = false → l.initialized = true → l.WellTyped → Effect b c (b.setLaneAt off l)
  | opened (off : LaneOffset) (signer : Pubkey) :
      b.laneOffset c.lane.1 c.lane.2 = .ok off → (b.laneAt off).initialized = false →
      c.opens = true → Effect b c (b.setLaneAt off (.fresh signer))
  | claimed (i : Fin channelBucketSlotCount) (lower higher : U32) (selector : LaneSelector)
      (signer : Pubkey) :
      PlacedAt lower higher b.bucketId i → c.lane = directed lower higher selector →
      (b.slots i).initialized = false → c.opens = true →
      Effect b c ((b.setSlot i (claimedSlot lower higher)).setLaneAt (i, selector) (.fresh signer))

/-- An operation keeps a lane created and its fields in their ranges. -/
def Keeps {α : Type} (f : DirectionalLaneState → Result (DirectionalLaneState × α)) : Prop :=
  ∀ l l' a, f l = .ok (l', a) → l.WellTyped → l'.initialized = l.initialized ∧ l'.WellTyped

theorem effect_of_modifyLaneAt {α : Type} {a : α} (hb : b.WellTyped)
    {f : DirectionalLaneState → Result (DirectionalLaneState × α)} (hf : Keeps f)
    (ho : b.laneOffset c.lane.1 c.lane.2 = .ok off) (hc : c.opens = false)
    (h : b.modifyLaneAt off f = .ok (b', a)) : Effect b c b' := by
  obtain ⟨hi, l, hl, rfl⟩ := modifyLaneAt_eq_ok.mp h
  obtain ⟨hl', hw⟩ := hf _ _ _ hl (hb off.1 off.2)
  exact .edited off l ho hi hc (hl'.trans hi) hw

theorem effect_of_modifyLane {α : Type} (hb : b.WellTyped)
    {f : DirectionalLaneState → Result (DirectionalLaneState × α)} (hf : Keeps f)
    (hc : c.opens = false) (h : Prod.fst <$> b.modifyLane c.lane.1 c.lane.2 f = .ok b') :
    Effect b c b' := by
  rw [Except.map_eq_ok] at h
  obtain ⟨⟨b', a⟩, h, rfl⟩ := h
  rw [modifyLane, Except.bind_eq_ok] at h
  obtain ⟨off, ho, h⟩ := h
  exact effect_of_modifyLaneAt hb hf ho hc h

section
open DirectionalLaneState

theorem wellTyped_settled {target used : Nat} (h : l.WellTyped) (ht : target < u64Bound) :
    (l.settled target used).WellTyped where
  settledCumulative := ht
  lockedBalance := lt_of_le_of_lt (Nat.sub_le _ _) h.lockedBalance
  pendingUnlockAmount := lt_of_le_of_lt (min_le_left _ _) h.pendingUnlockAmount
  unlockRequestedAt := by
    rw [settled]
    split
    · exact i64_zero
    · exact h.unlockRequestedAt
  authorizedSignerUpdateRequestedAt := h.authorizedSignerUpdateRequestedAt

theorem keeps_applySettlement {target used : Nat} (ht : target < u64Bound) :
    Keeps (·.applySettlement target used) := by
  intro l l' a h hw
  obtain ⟨-, rfl⟩ := applySettlement_eq_ok.mp h
  exact ⟨rfl, wellTyped_settled hw ht⟩

theorem keeps_addLockedBalance {amount : Nat} : Keeps (·.addLockedBalance amount) := by
  intro l l' a h hw
  obtain ⟨hlt, -, rfl⟩ := addLockedBalance_eq_ok.mp h
  exact ⟨rfl, { hw with lockedBalance := hlt }⟩

theorem keeps_requestUnlock {amount : Nat} {requestedAt : Int} (ht : I64 requestedAt) :
    Keeps (·.requestUnlock amount requestedAt) := by
  intro l l' a h hw
  obtain ⟨hle, rfl⟩ := requestUnlock_eq_ok.mp h
  exact ⟨rfl, { hw with
    pendingUnlockAmount := lt_of_le_of_lt hle hw.lockedBalance, unlockRequestedAt := ht }⟩

theorem keeps_executeUnlock : Keeps (·.executeUnlock) := by
  intro l l' a h hw
  obtain ⟨-, -, -, -, rfl⟩ := executeUnlock_eq_ok.mp h
  exact ⟨rfl, { hw with
    lockedBalance := lt_of_le_of_lt (Nat.sub_le _ _) hw.lockedBalance
    pendingUnlockAmount := u64_zero, unlockRequestedAt := i64_zero }⟩

theorem keeps_cooperativeUnlock {amount : Nat} : Keeps (·.cooperativeUnlock amount) := by
  intro l l' a h hw
  obtain ⟨-, -, -, rfl⟩ := cooperativeUnlock_eq_ok.mp h
  exact ⟨rfl, wellTyped_settled hw hw.settledCumulative⟩

theorem keeps_requestAuthorizedSignerUpdate {newSigner : Pubkey} {requestedAt : Int}
    (ht : I64 requestedAt) : Keeps (·.requestAuthorizedSignerUpdate newSigner requestedAt) := by
  intro l l' a h hw
  obtain ⟨-, -, -, rfl⟩ := requestAuthorizedSignerUpdate_eq_ok.mp h
  exact ⟨rfl, { hw with authorizedSignerUpdateRequestedAt := ht }⟩

theorem keeps_executeAuthorizedSignerUpdate : Keeps (·.executeAuthorizedSignerUpdate) := by
  intro l l' a h hw
  obtain ⟨-, -, -, -, rfl⟩ := executeAuthorizedSignerUpdate_eq_ok.mp h
  exact ⟨rfl, { hw with authorizedSignerUpdateRequestedAt := i64_zero }⟩

end

theorem effect_of_initializeLane {t : U16} {signer : Pubkey} (hb : b.Headed)
    (h : b.initializeLaneInData t lower higher selector signer = .ok b') :
    Effect b (.initializeLane t lower higher selector signer) b' := by
  simp only [initializeLaneInData, Except.bind_eq_ok, require_eq_ok, exists_const,
    Except.pure_eq_ok] at h
  obtain ⟨-, _, hid, rfl, i, hi, slot, hslot, hun, rfl⟩ := h
  have hlt : lower < higher := (bucketIdForPair_eq_ok.mp hid).1
  by_cases hused : (b.slots i).initialized = true
  · obtain ⟨hlower, hhigher⟩ := hb.header hid hi hused
    obtain rfl : b.slots i = slot := by
      simpa [claimSlot, hused, hlower, hhigher] using hslot
    refine .opened (i, selector) signer (laneOffset_eq_ok.mpr ⟨lower, higher, ?_, ?_⟩) hun rfl
    · exact canonicalize_directed hlt selector
    · exact slotOffsetForPair_eq_ok.mpr ⟨hid, hi, hused, hlower, hhigher⟩
  · obtain rfl : claimedSlot lower higher = slot := by
      rwa [claimSlot, if_neg hused, Except.pure_eq_ok] at hslot
    have hset : b.setSlot i ((claimedSlot lower higher).setLane selector (.fresh signer))
        = (b.setSlot i (claimedSlot lower higher)).setLaneAt (i, selector) (.fresh signer) := by
      simp [setLaneAt, setSlot, Function.update_idem]
    rw [hset]
    exact .claimed i lower higher selector signer ⟨hid, hi⟩ rfl (by simpa using hused) rfl

/-- **What a call does**, whichever it is. -/
theorem effect_of_apply (hb : b.WellTyped) (hh : b.Headed) (hc : c.Typed)
    (h : c.apply b = .ok b') : Effect b c b' := by
  cases c with
  | initializeLane t lower higher selector signer => exact effect_of_initializeLane hh h
  | addLockedBalance p q amount => exact effect_of_modifyLane hb keeps_addLockedBalance rfl h
  | requestUnlock p q amount requestedAt =>
      exact effect_of_modifyLane hb (keeps_requestUnlock hc) rfl h
  | executeUnlock p q => exact effect_of_modifyLane hb keeps_executeUnlock rfl h
  | cooperativeUnlock p q amount => exact effect_of_modifyLane hb keeps_cooperativeUnlock rfl h
  | applySettlement p q target used =>
      exact effect_of_modifyLane hb (keeps_applySettlement target.isLt) rfl h
  | applySettlementAtOffset p q off target used =>
      exact effect_of_modifyLane hb (keeps_applySettlement target.isLt) rfl h
  | applySettlementForSelector lower higher selector target used =>
      rw [LaneCall.apply, Except.bind_eq_ok] at h
      obtain ⟨i, hi, h⟩ := h
      obtain ⟨⟨b', a⟩, hat, rfl⟩ := Except.map_eq_ok.mp h
      exact effect_of_modifyLaneAt hb (keeps_applySettlement target.isLt)
        (laneOffset_directed hi selector) rfl hat
  | requestAuthorizedSignerUpdate p q newSigner requestedAt =>
      exact effect_of_modifyLane hb (keeps_requestAuthorizedSignerUpdate hc) rfl h
  | executeAuthorizedSignerUpdate p q =>
      exact effect_of_modifyLane hb keeps_executeAuthorizedSignerUpdate rfl h

/-! ### What a call leaves -/

theorem slots_setSlot_self {i : Fin channelBucketSlotCount} {s : ChannelBucketSlot} :
    (b.setSlot i s).slots i = s := Function.update_self ..

theorem slots_setSlot_ne {i j : Fin channelBucketSlotCount} {s : ChannelBucketSlot} (h : j ≠ i) :
    (b.setSlot i s).slots j = b.slots j := Function.update_of_ne h ..

/-- Reading the header, or a lane, of a bucket in which one lane was written. -/
theorem readLane_setLaneAt_ne (ho : b.laneOffset p q = .ok off)
    (hne : directed lower higher selector ≠ (p, q)) :
    (b.setLaneAt off l).readLaneForSelectorFromData lower higher selector
      = b.readLaneForSelectorFromData lower higher selector := by
  rw [readLaneForSelectorFromData, readLaneForSelectorFromData, slotOffsetForPair_setLaneAt]
  refine Except.bind_congr_ok fun i hi => ?_
  have hoff : (i, selector) ≠ off := by
    rintro rfl
    obtain ⟨lower', higher', hc, hi'⟩ := laneOffset_eq_ok.mp ho
    obtain ⟨-, -, -, rfl, rfl⟩ := slotOffsetForPair_eq_ok.mp hi
    obtain ⟨-, -, -, rfl, rfl⟩ := slotOffsetForPair_eq_ok.mp hi'
    exact hne (directed_of_canonicalize hc).2
  rw [laneAt_setLaneAt_ne hoff]

theorem readCore_setLaneAt_ne (ho : b.laneOffset p q = .ok off) (hne : (p', q') ≠ (p, q)) :
    (b.setLaneAt off l).readResolvedLaneCoreFromData p' q'
      = b.readResolvedLaneCoreFromData p' q' := by
  rw [readResolvedLaneCoreFromData, readResolvedLaneCoreFromData, laneOffset_setLaneAt]
  refine Except.bind_congr_ok fun off' ho' => ?_
  have hoff : off' ≠ off := by
    rintro rfl
    obtain ⟨rfl, rfl⟩ := laneOffset_inj ho' ho
    exact hne rfl
  rw [laneAt_setLaneAt_ne hoff]

section
variable {i : Fin channelBucketSlotCount} (hplace : PlacedAt lower higher b.bucketId i)
  (hfree : (b.slots i).initialized = false)
include hplace hfree

theorem slotOffsetForPair_free :
    b.slotOffsetForPair lower higher = .error (.vault .channelNotInitialized) := by
  rw [slotOffsetForPair, hplace.1, Except.ok_bind, require_of rfl, Except.ok_bind, hplace.2,
    Except.ok_bind, hfree]
  rfl

omit hfree in
theorem slotOffsetForPair_claim :
    (b.setSlot i (claimedSlot lower higher)).slotOffsetForPair lower higher = .ok i := by
  refine slotOffsetForPair_eq_ok.mpr ⟨hplace.1, hplace.2, ?_⟩
  simp [setSlot, claimedSlot]

omit hfree in
/-- Another pair of the bucket is in another slot. -/
theorem slotOffsetForPair_claim_ne (hne : (lower', higher') ≠ (lower, higher)) :
    (b.setSlot i (claimedSlot lower higher)).slotOffsetForPair lower' higher'
      = b.slotOffsetForPair lower' higher' := by
  rw [slotOffsetForPair, slotOffsetForPair]
  refine Except.bind_congr_ok fun bucketId hid => Except.bind_congr_ok fun _ hb => ?_
  refine Except.bind_congr_ok fun j hj => ?_
  obtain ⟨-, rfl⟩ := require_eq_ok.mp hb
  have hji : j ≠ i := by
    rintro rfl
    obtain ⟨rfl, rfl⟩ := position_unique ⟨hid, hj⟩ hplace
    exact hne rfl
  rw [slots_setSlot_ne hji]

theorem readLane_claim :
    (b.setSlot i (claimedSlot lower higher)).readLaneForSelectorFromData lower' higher' selector
      = b.readLaneForSelectorFromData lower' higher' selector := by
  rw [readLaneForSelectorFromData, readLaneForSelectorFromData]
  by_cases hpair : (lower', higher') = (lower, higher)
  · obtain ⟨rfl, rfl⟩ := Prod.mk.inj hpair
    rw [slotOffsetForPair_free hplace hfree, slotOffsetForPair_claim hplace, Except.ok_bind, laneAt,
      slots_setSlot_self, claimedSlot_lane]
    rfl
  · rw [slotOffsetForPair_claim_ne hplace hpair]
    refine Except.bind_congr_ok fun j hj => ?_
    have hji : j ≠ i := by
      rintro rfl
      exact Bool.false_ne_true (hfree.symm.trans (slotOffsetForPair_eq_ok.mp hj).2.2.1)
    rw [laneAt, laneAt, slots_setSlot_ne hji]

/-- No lane of the pair could be found before, and both directions can afterwards. -/
theorem laneOffset_claim_own (selector : LaneSelector) :
    (b.setSlot i (claimedSlot lower higher)).laneOffset (directed lower higher selector).1
        (directed lower higher selector).2 = .ok (i, selector) ∧
      b.laneOffset (directed lower higher selector).1 (directed lower higher selector).2
        = .error (.vault .channelNotInitialized) := by
  have hlt := (bucketIdForPair_eq_ok.mp hplace.1).1
  have hc := canonicalize_directed hlt selector
  refine ⟨laneOffset_directed (slotOffsetForPair_claim hplace) selector, ?_⟩
  simp only [laneOffset, hc, Except.ok_bind, slotOffsetForPair_free hplace hfree]
  rfl

/-- A lane that could be found is where it was, as it was. -/
theorem laneOffset_claim_of_ok (ho : b.laneOffset p q = .ok off) :
    (b.setSlot i (claimedSlot lower higher)).laneOffset p q = .ok off ∧
      (b.setSlot i (claimedSlot lower higher)).laneAt off = b.laneAt off := by
  obtain ⟨lower', higher', hc, hs⟩ := laneOffset_eq_ok.mp ho
  obtain ⟨hid, hi, hused, rfl, rfl⟩ := slotOffsetForPair_eq_ok.mp hs
  have hne : off.1 ≠ i := by
    rintro rfl
    exact Bool.false_ne_true (hfree.symm.trans hused)
  refine ⟨laneOffset_eq_ok.mpr ⟨_, _, hc, slotOffsetForPair_eq_ok.mpr ⟨hid, hi, ?_⟩⟩, ?_⟩
  · rw [slots_setSlot_ne hne]
    exact ⟨hused, rfl, rfl⟩
  · rw [laneAt, laneAt, slots_setSlot_ne hne]

/-- Another pair's lanes read as before. -/
theorem readCore_claim_ne (hc : canonicalize p q = .ok (lower', higher', selector))
    (hne : (lower', higher') ≠ (lower, higher)) :
    (b.setSlot i (claimedSlot lower higher)).readResolvedLaneCoreFromData p q
      = b.readResolvedLaneCoreFromData p q := by
  simp only [readResolvedLaneCoreFromData, laneOffset, hc, Except.ok_bind, bind_assoc, pure_bind,
    slotOffsetForPair_claim_ne hplace hne]
  refine Except.bind_congr_ok fun j hj => ?_
  have hji : j ≠ i := by
    rintro rfl
    exact Bool.false_ne_true (hfree.symm.trans (slotOffsetForPair_eq_ok.mp hj).2.2.1)
  rw [laneAt, laneAt, slots_setSlot_ne hji]

end

/-! ### What a call leaves of the other lanes -/

/-- After a call its own lane is there. -/
theorem Effect.own (h : Effect b c b') :
    ∃ off, b'.laneOffset c.lane.1 c.lane.2 = .ok off ∧ (b'.laneAt off).initialized = true := by
  cases h with
  | edited off l ho hi hc hl hw =>
      exact ⟨off, by rwa [laneOffset_setLaneAt], by rwa [laneAt_setLaneAt_self]⟩
  | opened off signer ho hi hc =>
      exact ⟨off, by rwa [laneOffset_setLaneAt], by rw [laneAt_setLaneAt_self]; rfl⟩
  | claimed i lower higher selector signer hplace hlane hfree hc =>
      refine ⟨(i, selector), ?_, by rw [laneAt_setLaneAt_self]; rfl⟩
      rw [laneOffset_setLaneAt, hlane]
      exact (laneOffset_claim_own hplace hfree selector).1

/-- A lane that was found is found where it was, and if it was created it stays created. -/
theorem Effect.stays (h : Effect b c b') (ho : b.laneOffset p q = .ok off) :
    b'.laneOffset p q = .ok off ∧
      ((b.laneAt off).initialized = true → (b'.laneAt off).initialized = true) := by
  have hset : ∀ {b₁ : ChannelBucket} {off' : LaneOffset} {l : DirectionalLaneState},
      l.initialized = true → (b₁.laneAt off).initialized = true →
        ((b₁.setLaneAt off' l).laneAt off).initialized = true := by
    intro b₁ off' l hl hoff
    by_cases he : off = off'
    · rw [he, laneAt_setLaneAt_self, hl]
    · rw [laneAt_setLaneAt_ne he, hoff]
  cases h with
  | edited off' l ho' hi hc hl hw => exact ⟨by rwa [laneOffset_setLaneAt], hset hl⟩
  | opened off' signer ho' hi hc => exact ⟨by rwa [laneOffset_setLaneAt], hset rfl⟩
  | claimed i lower higher selector signer hplace hlane hfree hc =>
      obtain ⟨ho', hl⟩ := laneOffset_claim_of_ok hplace hfree ho
      exact ⟨by rwa [laneOffset_setLaneAt], fun hoff => hset rfl (by rwa [hl])⟩

/-- The readers of created lanes, at every other lane. -/
theorem Effect.readLane_ne (h : Effect b c b') (hne : directed lower' higher' selector' ≠ c.lane) :
    b'.readLaneForSelectorFromData lower' higher' selector'
      = b.readLaneForSelectorFromData lower' higher' selector' := by
  cases h with
  | edited off l ho hi hc hl hw => exact readLane_setLaneAt_ne ho hne
  | opened off signer ho hi hc => exact readLane_setLaneAt_ne ho hne
  | claimed i lower higher selector signer hplace hlane hfree hc =>
      have ho := (laneOffset_claim_own hplace hfree selector).1
      rw [readLane_setLaneAt_ne ho (by rwa [← hlane]), readLane_claim hplace hfree]

/-- The reader of lanes, created or not, at every other lane.  It starts to see the opposite direction when the first lane of a pair is opened. -/
theorem Effect.readCore_ne (h : Effect b c b') (hne : (p, q) ≠ c.lane) :
    b'.readResolvedLaneCoreFromData p q = b.readResolvedLaneCoreFromData p q ∨
      (c.opens = true ∧ (q, p) = c.lane ∧
        b.readResolvedLaneCoreFromData p q = .error (.vault .channelNotInitialized) ∧
        b'.readResolvedLaneCoreFromData p q = .ok .uninitialized) := by
  cases h with
  | edited off l ho hi hc hl hw => exact .inl (readCore_setLaneAt_ne ho hne)
  | opened off signer ho hi hc => exact .inl (readCore_setLaneAt_ne ho hne)
  | claimed i lower higher selector signer hplace hlane hfree hc =>
      have ho := (laneOffset_claim_own hplace hfree selector).1
      rw [hlane] at hne ⊢
      rw [readCore_setLaneAt_ne ho hne]
      cases hcan : canonicalize p q with
      | error e =>
          refine .inl ?_
          simp only [readResolvedLaneCoreFromData, laneOffset, hcan]
          rfl
      | ok x =>
          obtain ⟨lower', higher', selector'⟩ := x
          by_cases hpair : (lower', higher') = (lower, higher)
          · -- The pair itself: (p, q) is its other direction.
            obtain ⟨rfl, rfl⟩ := Prod.mk.inj hpair
            obtain ⟨-, hdir⟩ := directed_of_canonicalize hcan
            obtain ⟨hown, hnone⟩ := laneOffset_claim_own hplace hfree selector'
            rw [hdir] at hown hnone
            refine .inr ⟨hc, ?_, ?_, ?_⟩
            · cases selector <;> cases selector' <;> simp_all [directed]
            · rw [readResolvedLaneCoreFromData, hnone]
              rfl
            · rw [readResolvedLaneCoreFromData, hown, Except.ok_bind, laneAt, slots_setSlot_self,
                claimedSlot_lane]
              rfl
          · exact .inl (readCore_claim_ne hplace hfree hcan hpair)

/-! ### Soundness is kept -/

theorem Effect.headed (h : Effect b c b') (hb : b.Headed) : b'.Headed := by
  have hset : ∀ {b₁ : ChannelBucket} {off : LaneOffset} {l : DirectionalLaneState},
      b₁.Headed → (b₁.setLaneAt off l).Headed := by
    intro b₁ off l hb₁ j hj
    by_cases e : j = off.1
    · subst e
      simp only [setLaneAt, slots_setSlot_self, ChannelBucketSlot.setLane_initialized,
        ChannelBucketSlot.setLane_lower, ChannelBucketSlot.setLane_higher] at hj ⊢
      exact hb₁ _ hj
    · simp only [setLaneAt, slots_setSlot_ne e] at hj ⊢
      exact hb₁ j hj
  cases h with
  | edited off l ho hi hc hl hw => exact hset hb
  | opened off signer ho hi hc => exact hset hb
  | claimed i lower higher selector signer hplace hlane hfree hc =>
      refine hset fun j hj => ?_
      by_cases e : j = i
      · subst e
        rw [slots_setSlot_self]
        exact hplace
      · rw [slots_setSlot_ne e] at hj ⊢
        exact hb j hj

theorem Sound.setLaneAt (hb : b.Sound) (hl : l.initialized = true) (hw : l.WellTyped)
    (hused : (b.slots off.1).initialized = true) (hh : (b.setLaneAt off l).Headed) :
    (b.setLaneAt off l).Sound where
  wellTyped i selector := by
    change ((b.setLaneAt off l).laneAt (i, selector)).WellTyped
    by_cases e : (i, selector) = off
    · rw [e, laneAt_setLaneAt_self]
      exact hw
    · rw [laneAt_setLaneAt_ne e]
      exact hb.wellTyped i selector
  headed := hh
  free i hi := by
    by_cases e : i = off.1
    · subst e
      rw [ChannelBucket.setLaneAt, slots_setSlot_self, ChannelBucketSlot.setLane_initialized,
        hused] at hi
      cases hi
    · rw [ChannelBucket.setLaneAt, slots_setSlot_ne e] at hi ⊢
      exact hb.free i hi
  blank off' hoff := by
    by_cases e : off' = off
    · rw [e, laneAt_setLaneAt_self, hl] at hoff
      cases hoff
    · rw [laneAt_setLaneAt_ne e] at hoff ⊢
      exact hb.blank off' hoff

theorem Sound.claim {i : Fin channelBucketSlotCount} (hb : b.Sound)
    (hh : (b.setSlot i (claimedSlot lower higher)).Headed) :
    (b.setSlot i (claimedSlot lower higher)).Sound where
  wellTyped j selector := by
    by_cases e : j = i
    · rw [e, slots_setSlot_self, claimedSlot_lane]
      exact wellTyped_uninitialized
    · rw [slots_setSlot_ne e]
      exact hb.wellTyped j selector
  headed := hh
  free j hj := by
    by_cases e : j = i
    · rw [e, slots_setSlot_self] at hj
      cases hj
    · rw [slots_setSlot_ne e] at hj ⊢
      exact hb.free j hj
  blank off hoff := by
    rw [laneAt] at hoff ⊢
    by_cases e : off.1 = i
    · rw [e, slots_setSlot_self, claimedSlot_lane]
    · rw [slots_setSlot_ne e] at hoff ⊢
      exact hb.blank off hoff

theorem slot_used (ho : b.laneOffset p q = .ok off) : (b.slots off.1).initialized = true := by
  obtain ⟨lower, higher, -, hs⟩ := laneOffset_eq_ok.mp ho
  exact (slotOffsetForPair_eq_ok.mp hs).2.2.1

theorem Effect.sound (h : Effect b c b') (hb : b.Sound) : b'.Sound := by
  have hh := h.headed hb.headed
  cases h with
  | edited off l ho hi hc hl hw => exact hb.setLaneAt hl hw (slot_used ho) hh
  | opened off signer ho hi hc => exact hb.setLaneAt rfl (wellTyped_fresh signer) (slot_used ho) hh
  | claimed i lower higher selector signer hplace hlane hfree hc =>
      refine Sound.setLaneAt (hb.claim fun j hj => ?_) rfl (wellTyped_fresh signer) ?_ hh
      · by_cases e : j = i
        · subst e
          rw [slots_setSlot_self]
          exact hplace
        · rw [slots_setSlot_ne e] at hj ⊢
          exact hb.headed j hj
      · rw [slots_setSlot_self]
        rfl

end ChannelBucket

end Ryvo
