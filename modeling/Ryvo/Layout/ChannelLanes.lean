import Ryvo.Layout.ChannelAccess
import Ryvo.Layout.LaneCalls
import Ryvo.Support.Runs

/-!
# Layout — Lanes kept apart

The raw data of a channel bucket under any sequence of calls on its lanes, and of reads whose offsets are kept for later.

* `run_image`: on the image of a bucket a call is the call on the bucket.
* `Session` is the data with the offsets that have been read so far, and `Session.Step` one call or read.
* `Apart` is what a call that succeeds leaves of everything but its own lane.
* `lanes_kept_apart` puts this together for the sessions there are.
-/

namespace Ryvo

open Layout InPlace

/-- The raw function a call is of. -/
def LaneCall.run : LaneCall → Edit Unit
  | initializeLane t lower higher selector signer =>
      ChannelBytes.initializeLaneInData t lower higher selector signer
  | addLockedBalance p q amount => do
      let _ ← ChannelBytes.addLaneLockedBalanceInData p q amount.val
      pure ()
  | requestUnlock p q amount requestedAt =>
      ChannelBytes.requestLaneUnlockInData p q amount.val requestedAt
  | executeUnlock p q => do
      let _ ← ChannelBytes.executeLaneUnlockInData p q
      pure ()
  | cooperativeUnlock p q amount => do
      let _ ← ChannelBytes.cooperativeUnlockLaneInData p q amount.val
      pure ()
  | applySettlement p q target used =>
      ChannelBytes.applyLaneSettlementInData p q target.val used.val
  | applySettlementForSelector lower higher selector target used =>
      ChannelBytes.applyLaneSettlementForSelectorInData lower higher selector target.val used.val
  | applySettlementAtOffset _ _ laneOffset target used =>
      ChannelBytes.applyLaneSettlementAtOffsetInData laneOffset target.val used.val
  | requestAuthorizedSignerUpdate p q newSigner requestedAt => do
      let _ ← ChannelBytes.requestAuthorizedSignerUpdateInData p q newSigner requestedAt
      pure ()
  | executeAuthorizedSignerUpdate p q => do
      let _ ← ChannelBytes.executeAuthorizedSignerUpdateInData p q
      pure ()

namespace ChannelBytes

variable {b b' : ChannelBucket} {more data data' : List UInt8} {p q lower higher : U32}
variable {off : LaneOffset} {selector : LaneSelector} {c : LaneCall}

/-- The offset of an at-offset call is its lane's. -/
def Aimed (b : ChannelBucket) : LaneCall → Prop
  | .applySettlementAtOffset p q laneOffset _ _ =>
      ∃ off, b.laneOffset p q = .ok off ∧ laneOffset = offsetOf off
  | _ => True

/-- What is left of a call when its result is left out. -/
theorem outcome_discard {α : Type} {x : Edit α} {r : Result (ChannelBucket × α)}
    (h : x (b.image more) = outcome (ChannelBucket.image more) b r) :
    (do
      let _ ← x
      pure ()) (b.image more)
      = outcome (ChannelBucket.image more) b ((fun b' => (b', ())) <$> (Prod.fst <$> r)) := by
  rw [Functor.map_map]
  exact outcome_map (fun _ => ()) h

/-- The same of a call that has none. -/
theorem outcome_unit {r : Result (ChannelBucket × Unit)} :
    outcome (ChannelBucket.image more) b r
      = outcome (ChannelBucket.image more) b ((fun b' => (b', ())) <$> (Prod.fst <$> r)) := by
  cases r with
  | error e => rfl
  | ok r => rfl

/-- **A call on the data is the call on the bucket**, where the data is a bucket's. -/
theorem run_image (hb : b.WellTyped) (ha : Aimed b c) :
    c.run (b.image more) = outcome (ChannelBucket.image more) b ((fun b' => (b', ())) <$> c.apply b) := by
  cases c with
  | initializeLane t lower higher selector signer => exact initializeLaneInData_image
  | addLockedBalance p q amount => exact outcome_discard (addLaneLockedBalanceInData_image hb)
  | requestUnlock p q amount requestedAt =>
      exact (requestLaneUnlockInData_image hb).trans outcome_unit
  | executeUnlock p q => exact outcome_discard (executeLaneUnlockInData_image hb)
  | cooperativeUnlock p q amount => exact outcome_discard (cooperativeUnlockLaneInData_image hb)
  | applySettlement p q target used => exact (applyLaneSettlementInData_image hb).trans outcome_unit
  | applySettlementForSelector lower higher selector target used =>
      refine (applyLaneSettlementForSelectorInData_image hb).trans (outcome_unit.trans ?_)
      rw [LaneCall.apply, map_bind]
  | applySettlementAtOffset p q laneOffset target used =>
      obtain ⟨off, ho, rfl⟩ := ha
      refine (applyLaneSettlementAtOffsetInData_image hb).trans (outcome_unit.trans ?_)
      rw [LaneCall.apply, ChannelBucket.modifyLane, ho]
      rfl
  | requestAuthorizedSignerUpdate p q newSigner requestedAt =>
      exact outcome_discard requestAuthorizedSignerUpdateInData_image
  | executeAuthorizedSignerUpdate p q =>
      exact outcome_discard (executeAuthorizedSignerUpdateInData_image hb)

/-! ### Which bytes a call changes -/

theorem getElem?_setLaneAt {l : DirectionalLaneState} {i : Nat}
    (hi : i < offsetOf off ∨ offsetOf off + DirectionalLaneState.space ≤ i) :
    ((b.setLaneAt off l).image more)[i]? = (b.image more)[i]? :=
  (partLaneAt more off).getElem?_set (DirectionalLaneState.length_bytes _)
    (DirectionalLaneState.length_bytes _) hi

/-- Claiming a free slot changes its header: the flag and the two ids. -/
theorem getElem?_claim {j : Fin channelBucketSlotCount} {i : Nat} (hfree : b.slots j = .empty)
    (hi : i < slotOffsetAt j ∨ slotOffsetAt j + lowerToHigherLaneOffset ≤ i) :
    ((b.setSlot j (ChannelBucket.claimedSlot lower higher)).image more)[i]? = (b.image more)[i]? := by
  have hslot := ChannelBucket.partSlot more j
  have hflag := hslot.comp ChannelBucketSlot.partInitialized
  have hlower := hslot.comp ChannelBucketSlot.partLowerParticipantId
  have hhigher := hslot.comp ChannelBucketSlot.partHigherParticipantId
  let b₁ := b.setSlot j { b.slots j with initialized := true }
  let b₂ := b₁.setSlot j { b₁.slots j with lowerParticipantId := lower }
  have hb₃ : b.setSlot j (ChannelBucket.claimedSlot lower higher)
      = b₂.setSlot j { b₂.slots j with higherParticipantId := higher } := by
    simp [b₂, b₁, ChannelBucket.setSlot, Function.update_idem, hfree, ChannelBucket.claimedSlot]
  have hstart : slotsOffset + j.val * ChannelBucketSlot.space = slotOffsetAt j := rfl
  simp only [lowerToHigherLaneOffset] at hi
  rw [hb₃]
  refine (hhigher.getElem?_set (s := b₂) (n := 4) (length_u32Bytes _) (length_u32Bytes _) ?_).trans ?_
  · rw [hstart, slotHigherParticipantIdOffset]
    omega
  refine (hlower.getElem?_set (s := b₁) (n := 4) (length_u32Bytes _) (length_u32Bytes _) ?_).trans ?_
  · rw [hstart, slotLowerParticipantIdOffset]
    omega
  refine hflag.getElem?_set (s := b) (n := 1) (length_boolBytes _) (length_boolBytes _) ?_
  rw [hstart, slotInitializedOffset]
  omega

/-- The bytes a call may change: its lane's record, and the header of the pair's slot where the call opens the pair's first lane. -/
def Touches (data : List UInt8) (c : LaneCall) (data' : List UInt8) (i : Nat) : Prop :=
  (∃ laneStart, resolvedLaneOffset data' c.lane.1 c.lane.2 = .ok laneStart ∧
    laneStart ≤ i ∧ i < laneStart + DirectionalLaneState.space) ∨
  (c.opens = true ∧
    resolvedLaneOffset data c.lane.1 c.lane.2 = .error (.vault .channelNotInitialized) ∧
    ∃ lower higher selector slotStart,
      ChannelBucket.canonicalize c.lane.1 c.lane.2 = .ok (lower, higher, selector) ∧
      slotOffsetForPair data' lower higher = .ok slotStart ∧
      slotStart ≤ i ∧ i < slotStart + lowerToHigherLaneOffset)

theorem touches_lane (ho : b'.laneOffset c.lane.1 c.lane.2 = .ok off) {i : Nat}
    (hi : ¬ Touches data c (b'.image more) i) :
    i < offsetOf off ∨ offsetOf off + DirectionalLaneState.space ≤ i := by
  by_contra hin
  refine hi (.inl ⟨offsetOf off, ?_, by omega, by omega⟩)
  rw [resolvedLaneOffset_image, ho]
  rfl

theorem getElem?_of_effect (hb : b.Sound) (h : ChannelBucket.Effect b c b') {i : Nat}
    (hi : ¬ Touches (b.image more) c (b'.image more) i) :
    (b'.image more)[i]? = (b.image more)[i]? := by
  cases h with
  | edited off l ho hi' hc hl hw =>
      exact getElem?_setLaneAt (touches_lane (by rwa [ChannelBucket.laneOffset_setLaneAt]) hi)
  | opened off signer ho hi' hc =>
      exact getElem?_setLaneAt (touches_lane (by rwa [ChannelBucket.laneOffset_setLaneAt]) hi)
  | claimed j lower higher selector signer hplace hlane hfree hc =>
      obtain ⟨hown, hnone⟩ := ChannelBucket.laneOffset_claim_own hplace hfree selector
      rw [← hlane] at hown hnone
      refine (getElem?_setLaneAt
        (touches_lane (by rwa [ChannelBucket.laneOffset_setLaneAt]) hi)).trans ?_
      refine getElem?_claim (hb.free j hfree) ?_
      by_contra hin
      refine hi (.inr ⟨hc, ?_, lower, higher, selector, slotOffsetAt j, ?_, ?_, by omega, by omega⟩)
      · rw [resolvedLaneOffset_image, hnone]
        rfl
      · rw [hlane]
        exact ChannelBucket.canonicalize_directed
          (ChannelBucket.bucketIdForPair_eq_ok.mp hplace.1).1 selector
      · rw [slotOffsetForPair_image, ChannelBucket.slotOffsetForPair_setLaneAt,
          ChannelBucket.slotOffsetForPair_claim hplace]
        rfl

/-! ### What a call leaves -/

/-- What a call that succeeds leaves of the bytes and of every lane but its own. -/
structure Apart (data : List UInt8) (c : LaneCall) (data' : List UInt8) : Prop where
  bytes : ∀ i, data'[i]? ≠ data[i]? → Touches data c data' i
  settlementForSelector : ∀ lower higher selector, directed lower higher selector ≠ c.lane →
    readLaneSettlementForSelectorFromData data' lower higher selector
      = readLaneSettlementForSelectorFromData data lower higher selector
  commitmentForSelector : ∀ lower higher selector, directed lower higher selector ≠ c.lane →
    readLaneCommitmentForSelectorFromData data' lower higher selector
      = readLaneCommitmentForSelectorFromData data lower higher selector
  settlement : ∀ p q, (p, q) ≠ c.lane →
    readResolvedLaneSettlementFromData data' p q = readResolvedLaneSettlementFromData data p q
  commitment : ∀ p q, (p, q) ≠ c.lane →
    readResolvedLaneCommitmentFromData data' p q = readResolvedLaneCommitmentFromData data p q
  core : ∀ p q, (p, q) ≠ c.lane →
    readResolvedLaneCoreFromData data' p q = readResolvedLaneCoreFromData data p q ∨
      (c.opens = true ∧ (q, p) = c.lane ∧
        readResolvedLaneCoreFromData data p q = .error (.vault .channelNotInitialized) ∧
        readResolvedLaneCoreFromData data' p q = .ok .uninitialized)

theorem apart_of_effect (hb : b.Sound) (h : ChannelBucket.Effect b c b') :
    Apart (b.image more) c (b'.image more) := by
  have hw := hb.wellTyped
  have hw' := (h.sound hb).wellTyped
  have hsettlement : ∀ lower higher selector, directed lower higher selector ≠ c.lane →
      readLaneSettlementForSelectorFromData (b'.image more) lower higher selector
        = readLaneSettlementForSelectorFromData (b.image more) lower higher selector := by
    intro lower higher selector hne
    rw [readLaneSettlementForSelectorFromData_image hw',
      readLaneSettlementForSelectorFromData_image hw, h.readLane_ne hne]
  have hcommitment : ∀ lower higher selector, directed lower higher selector ≠ c.lane →
      readLaneCommitmentForSelectorFromData (b'.image more) lower higher selector
        = readLaneCommitmentForSelectorFromData (b.image more) lower higher selector := by
    intro lower higher selector hne
    rw [readLaneCommitmentForSelectorFromData_image hw',
      readLaneCommitmentForSelectorFromData_image hw, h.readLane_ne hne]
  refine ⟨fun i hi => ?_, hsettlement, hcommitment, fun p q hne => ?_, fun p q hne => ?_,
    fun p q hne => ?_⟩
  · by_contra hn
    exact hi (getElem?_of_effect hb h hn)
  · rw [readResolvedLaneSettlementFromData, readResolvedLaneSettlementFromData]
    refine Except.bind_congr_ok fun x hx => ?_
    obtain ⟨-, hdir⟩ := ChannelBucket.directed_of_canonicalize hx
    exact hsettlement _ _ _ (hdir ▸ hne)
  · rw [readResolvedLaneCommitmentFromData, readResolvedLaneCommitmentFromData]
    refine Except.bind_congr_ok fun x hx => ?_
    obtain ⟨-, hdir⟩ := ChannelBucket.directed_of_canonicalize hx
    exact hcommitment _ _ _ (hdir ▸ hne)
  · simp only [readResolvedLaneCoreFromData_image hw', readResolvedLaneCoreFromData_image hw]
    exact h.readCore_ne hne

/-! ### Sessions -/

/-- The readers that hand out an offset, and the lane it is handed out for. -/
inductive Reads (data : List UInt8) : U32 → U32 → Nat → Prop
  | settlement {p q : U32} {x : ChannelLaneSettlementSnapshot} :
      readResolvedLaneSettlementFromData data p q = .ok x → Reads data p q x.laneOffset
  | commitment {p q : U32} {x : ChannelLaneCommitmentSnapshot} :
      readResolvedLaneCommitmentFromData data p q = .ok x → Reads data p q x.laneOffset
  | settlementForSelector {lower higher : U32} {selector : LaneSelector}
      {x : ChannelLaneSettlementSnapshot} :
      readLaneSettlementForSelectorFromData data lower higher selector = .ok x →
        Reads data (directed lower higher selector).1 (directed lower higher selector).2 x.laneOffset
  | commitmentForSelector {lower higher : U32} {selector : LaneSelector}
      {x : ChannelLaneCommitmentSnapshot} :
      readLaneCommitmentForSelectorFromData data lower higher selector = .ok x →
        Reads data (directed lower higher selector).1 (directed lower higher selector).2 x.laneOffset

/-- A created lane is read at its offset. -/
theorem offset_of_readLane {x : LaneOffset × DirectionalLaneState}
    (h : b.readLaneForSelectorFromData lower higher selector = .ok x) :
    b.laneOffset (directed lower higher selector).1 (directed lower higher selector).2
      = .ok x.1 := by
  rw [ChannelBucket.readLaneForSelectorFromData, Except.bind_eq_ok] at h
  obtain ⟨i, hi, h⟩ := h
  simp only [Except.bind_eq_ok, require_eq_ok, exists_const, Except.pure_eq_ok] at h
  obtain ⟨-, rfl⟩ := h
  exact ChannelBucket.laneOffset_directed hi selector

section
variable (hb : b.WellTyped)
include hb

theorem offset_of_settlement {x : ChannelLaneSettlementSnapshot}
    (h : readLaneSettlementForSelectorFromData (b.image more) lower higher selector = .ok x) :
    ∃ off, b.laneOffset (directed lower higher selector).1 (directed lower higher selector).2
      = .ok off ∧ x.laneOffset = offsetOf off := by
  rw [readLaneSettlementForSelectorFromData_image hb, Except.map_eq_ok] at h
  obtain ⟨y, hy, rfl⟩ := h
  exact ⟨y.1, offset_of_readLane hy, rfl⟩

theorem offset_of_commitment {x : ChannelLaneCommitmentSnapshot}
    (h : readLaneCommitmentForSelectorFromData (b.image more) lower higher selector = .ok x) :
    ∃ off, b.laneOffset (directed lower higher selector).1 (directed lower higher selector).2
      = .ok off ∧ x.laneOffset = offsetOf off := by
  rw [readLaneCommitmentForSelectorFromData_image hb, Except.map_eq_ok] at h
  obtain ⟨y, hy, rfl⟩ := h
  exact ⟨y.1, offset_of_readLane hy, rfl⟩

/-- Whichever reader it comes from, an offset is its lane's. -/
theorem Reads.offset {laneOffset : Nat} (h : Reads (b.image more) p q laneOffset) :
    ∃ off, b.laneOffset p q = .ok off ∧ laneOffset = offsetOf off := by
  cases h with
  | settlementForSelector h => exact offset_of_settlement hb h
  | commitmentForSelector h => exact offset_of_commitment hb h
  | settlement h =>
      obtain ⟨⟨lower, higher, selector⟩, hc, h⟩ := Except.bind_eq_ok.mp h
      have ho := offset_of_settlement hb h
      rwa [(ChannelBucket.directed_of_canonicalize hc).2] at ho
  | commitment h =>
      obtain ⟨⟨lower, higher, selector⟩, hc, h⟩ := Except.bind_eq_ok.mp h
      have ho := offset_of_commitment hb h
      rwa [(ChannelBucket.directed_of_canonicalize hc).2] at ho

end

end ChannelBytes

open ChannelBytes

/-- The data, and the offsets that were read so far with the lanes they were read for. -/
structure Session where
  data : List UInt8
  saved : List (U32 × U32 × Nat)

namespace Session

inductive Event where
  | call (c : LaneCall)
  | read (payerId payeeId : U32) (laneOffset : Nat)

/-- An offset a settlement is applied at is one that was read for its lane. -/
def UsesSaved (saved : List (U32 × U32 × Nat)) : LaneCall → Prop
  | .applySettlementAtOffset p q laneOffset _ _ => (p, q, laneOffset) ∈ saved
  | _ => True

/-- The data of an account that has just been initialised. -/
def Started (s : Session) : Prop :=
  s.saved = [] ∧ ∃ (tokenId : U16) (bucketId : U64) (bump : U8) (data : List UInt8),
    initializeAccountData tokenId bucketId bump data = (.ok (), s.data)

inductive Step : Session → Event → Session → Prop
  | call {s : Session} {c : LaneCall} : c.Typed → UsesSaved s.saved c →
      Step s (.call c) { s with data := (c.run s.data).2 }
  | read {s : Session} {p q : U32} {laneOffset : Nat} : Reads s.data p q laneOffset →
      Step s (.read p q laneOffset) { s with saved := (p, q, laneOffset) :: s.saved }

/-- The lane from p to q was opened. -/
def Opened (p q : U32) (x : Session × Event) : Prop :=
  ∃ c, x.2 = .call c ∧ c.opens = true ∧ c.lane = (p, q) ∧ (c.run x.1.data).1 = .ok ()

/-- The data is that of a bucket, and what was read is still where it was. -/
structure Kept (s : Session) (b : ChannelBucket) (more : List UInt8) : Prop where
  data : s.data = b.image more
  sound : b.Sound
  saved : ∀ p q laneOffset, (p, q, laneOffset) ∈ s.saved →
    ∃ off, b.laneOffset p q = .ok off ∧ laneOffset = offsetOf off

variable {s s' : Session} {e : Event} {b b' : ChannelBucket} {more : List UInt8} {p q : U32}
variable {c : LaneCall} {h : List (Session × Event)}

theorem Started.kept (hs : s.Started) : ∃ b more, s.Kept b more := by
  obtain ⟨hsaved, tokenId, bucketId, bump, data, hdata⟩ := hs
  have hlen : ChannelBucket.space ≤ data.length := by
    by_contra hlt
    rw [initializeAccountData, bind_apply_error (e := .vault .bucketAccountMismatch)] at hdata
    · cases hdata
    · exact congrArg (·, data) (if_neg hlt)
  rw [initializeAccountData_apply hlen] at hdata
  refine ⟨_, _, (congrArg Prod.snd hdata).symm, ChannelBucket.sound_initializeAccountData _ _ _, ?_⟩
  rw [hsaved]
  simp

/-- What a call does to the data of a bucket: nothing, with an error, or its effect. -/
theorem Kept.call (hk : s.Kept b more) (hc : c.Typed) (hu : UsesSaved s.saved c) :
    (∃ e, c.run s.data = (.error e, s.data)) ∨
      ∃ b', ChannelBucket.Effect b c b' ∧ c.run s.data = (.ok (), b'.image more) ∧
        Kept { s with data := b'.image more } b' more := by
  have ha : Aimed b c := by
    cases c with
    | applySettlementAtOffset p q laneOffset target used => exact hk.saved p q laneOffset hu
    | _ => trivial
  rw [hk.data, run_image hk.sound.wellTyped ha]
  cases hr : c.apply b with
  | error e => exact .inl ⟨e, rfl⟩
  | ok b' =>
      have he := ChannelBucket.effect_of_apply hk.sound.wellTyped hk.sound.headed hc hr
      refine .inr ⟨b', he, rfl, rfl, he.sound hk.sound, fun p q laneOffset hm => ?_⟩
      obtain ⟨off, ho, hoff⟩ := hk.saved p q laneOffset hm
      exact ⟨off, (he.stays ho).1, hoff⟩

theorem Kept.read (hk : s.Kept b more) {laneOffset : Nat} (hr : Reads s.data p q laneOffset) :
    Kept { s with saved := (p, q, laneOffset) :: s.saved } b more where
  data := hk.data
  sound := hk.sound
  saved p' q' laneOffset' hm := by
    rw [hk.data] at hr
    obtain hm | hm := List.mem_cons.mp hm
    · cases hm
      exact hr.offset hk.sound.wellTyped
    · exact hk.saved p' q' laneOffset' hm

/-- What holds of the lanes after a run: of every call that could be made next, of every offset that was read, and of the openings there were. -/
structure LanesApart (h : List (Session × Event)) (s : Session) : Prop where
  failed : ∀ c e, c.Typed → UsesSaved s.saved c → (c.run s.data).1 = .error e →
    (c.run s.data).2 = s.data
  apart : ∀ c, c.Typed → UsesSaved s.saved c → (c.run s.data).1 = .ok () →
    Apart s.data c (c.run s.data).2
  saved : ∀ p q laneOffset, (p, q, laneOffset) ∈ s.saved → ∀ target used,
    applyLaneSettlementAtOffsetInData laneOffset target used s.data
      = applyLaneSettlementInData p q target used s.data
  once : ∀ p q, h.Pairwise fun x y => ¬ (Opened p q x ∧ Opened p q y)

theorem Kept.apart (hk : s.Kept b more) (hc : c.Typed) (hu : UsesSaved s.saved c)
    (hok : (c.run s.data).1 = .ok ()) : Apart s.data c (c.run s.data).2 := by
  obtain ⟨e, hr⟩ | ⟨b', he, hr, -⟩ := hk.call hc hu
  · rw [hr] at hok
    cases hok
  · rw [hr, hk.data]
    exact apart_of_effect hk.sound he

theorem Kept.settles (hk : s.Kept b more) {laneOffset : Nat} (hm : (p, q, laneOffset) ∈ s.saved)
    (target used : Nat) : applyLaneSettlementAtOffsetInData laneOffset target used s.data
      = applyLaneSettlementInData p q target used s.data := by
  obtain ⟨off, ho, rfl⟩ := hk.saved p q laneOffset hm
  rw [hk.data, applyLaneSettlementAtOffsetInData_image hk.sound.wellTyped,
    applyLaneSettlementInData_image hk.sound.wellTyped, ChannelBucket.modifyLane, ho]
  rfl

/-- The lane from p to q was created. -/
def HasLane (b : ChannelBucket) (p q : U32) : Prop :=
  ∃ off, b.laneOffset p q = .ok off ∧ (b.laneAt off).initialized = true

theorem HasLane.stays (hl : HasLane b p q) (he : ChannelBucket.Effect b c b') : HasLane b' p q := by
  obtain ⟨off, ho, hi⟩ := hl
  obtain ⟨ho', hi'⟩ := he.stays ho
  exact ⟨off, ho', hi' hi⟩

theorem not_hasLane (he : ChannelBucket.Effect b c b') (hc : c.opens = true) :
    ¬ HasLane b c.lane.1 c.lane.2 := by
  rintro ⟨off, ho, hi⟩
  cases he with
  | edited off' l ho' hi' hc' hl hw =>
      rw [hc] at hc'
      cases hc'
  | opened off' signer ho' hi' hc' =>
      cases ho.symm.trans ho'
      rw [hi] at hi'
      cases hi'
  | claimed i lower higher selector signer hplace hlane hfree hc' =>
      rw [hlane, (ChannelBucket.laneOffset_claim_own hplace hfree selector).2] at ho
      cases ho

/-- Every lane that was opened is there, and was opened once. -/
structure Counted (h : List (Session × Event)) (b : ChannelBucket) : Prop where
  lanes : ∀ p q x, x ∈ h → Opened p q x → HasLane b p q
  once : ∀ p q, h.Pairwise fun x y => ¬ (Opened p q x ∧ Opened p q y)

theorem Counted.cons_of_not {x : Session × Event} (hn : Counted h b)
    (hx : ∀ p q, ¬ Opened p q x) : Counted (x :: h) b where
  lanes p q y hy ho := by
    obtain rfl | hy := List.mem_cons.mp hy
    · exact absurd ho (hx p q)
    · exact hn.lanes p q y hy ho
  once p q := List.pairwise_cons.mpr ⟨fun _ _ ho => hx p q ho.1, hn.once p q⟩

theorem Counted.cons_of_effect (hn : Counted h b) (he : ChannelBucket.Effect b c b') :
    Counted ((s, .call c) :: h) b' where
  lanes p q y hy ho := by
    obtain rfl | hy := List.mem_cons.mp hy
    · obtain ⟨c, ⟨⟩, -, hlane, -⟩ := ho
      obtain ⟨off, hown⟩ := he.own
      rw [hlane] at hown
      exact ⟨off, hown⟩
    · exact (hn.lanes p q y hy ho).stays he
  once p q := by
    refine List.pairwise_cons.mpr ⟨fun y hy ho => ?_, hn.once p q⟩
    obtain ⟨⟨c, ⟨⟩, hopens, hlane, -⟩, hbefore⟩ := ho
    have hnone := not_hasLane he hopens
    rw [hlane] at hnone
    exact hnone (hn.lanes p q y hy hbefore)

theorem kept_of_run (r : Run Started Step h s) : ∃ b more, s.Kept b more ∧ Counted h b := by
  refine r.history (P := fun h s => ∃ b more, s.Kept b more ∧ Counted h b) ?_ ?_
  · intro s hs
    obtain ⟨b, more, hk⟩ := hs.kept
    exact ⟨b, more, hk, by simp, by simp⟩
  · intro h s e s' _ ih hstep
    obtain ⟨b, more, hk, hn⟩ := ih
    cases hstep with
    | read hr =>
        refine ⟨b, more, hk.read hr, hn.cons_of_not fun p q ho => ?_⟩
        obtain ⟨c, hc, -⟩ := ho
        cases hc
    | call hc hu =>
        obtain ⟨e, hr⟩ | ⟨b', he, hr, hk'⟩ := hk.call hc hu
        · refine ⟨b, more, by rw [hr]; exact hk, hn.cons_of_not fun p q ho => ?_⟩
          obtain ⟨c, ⟨⟩, -, -, hok⟩ := ho
          rw [hr] at hok
          cases hok
        · exact ⟨b', more, by rw [hr]; exact hk', hn.cons_of_effect he⟩

/-- **Lanes are kept apart**, in every session. -/
theorem lanes_kept_apart (r : Run Started Step h s) : LanesApart h s := by
  obtain ⟨b, more, hk, hn⟩ := kept_of_run r
  refine ⟨fun c e hc hu herr => ?_, fun c hc hu => hk.apart hc hu,
    fun p q laneOffset hm => hk.settles hm, hn.once⟩
  obtain ⟨e', hr⟩ | ⟨b', -, hr, -⟩ := hk.call hc hu
  · rw [hr]
  · rw [hr] at herr
    cases herr

/-! ### The first lane of a pair -/

/-- The account of the first pairs, and the call that opens the lane from 0 to 1. -/
def firstBucket : ChannelBucket := ChannelBucket.initializeAccountData 1 0 255

def firstSession : Session := ⟨firstBucket.image [], []⟩

def firstSigner : Pubkey := ⟨7, by decide⟩

def firstLane : LaneCall := .initializeLane 1 0 1 .lowerToHigher firstSigner

def firstSlot : Fin channelBucketSlotCount := ⟨0, by decide⟩

def laneOpened : ChannelBucket := firstBucket.setSlot firstSlot
  ((ChannelBucket.claimedSlot 0 1).setLane .lowerToHigher (.fresh firstSigner))

theorem firstSession_started : firstSession.Started := by
  refine ⟨rfl, 1, 0, 255, List.replicate ChannelBucket.space 0, ?_⟩
  rw [initializeAccountData_apply (by rw [List.length_replicate]), List.drop_replicate, Nat.sub_self]
  rfl

theorem firstLane_apply : firstLane.apply firstBucket = .ok laneOpened := rfl

theorem firstBucket_sound : firstBucket.Sound := ChannelBucket.sound_initializeAccountData 1 0 255

theorem laneOpened_sound : laneOpened.Sound :=
  (ChannelBucket.effect_of_apply firstBucket_sound.wellTyped firstBucket_sound.headed
    (c := firstLane) trivial firstLane_apply).sound firstBucket_sound

theorem firstLane_run :
    firstLane.run firstSession.data = (.ok (), laneOpened.image []) := by
  refine (run_image (c := firstLane) firstBucket_sound.wellTyped trivial).trans ?_
  rw [firstLane_apply]
  rfl

/-- The opposite direction comes into sight with the first lane of its pair, and the slot's header is written. -/
theorem firstLane_shows_opposite :
    firstSession.Started ∧ (firstLane.run firstSession.data).1 = .ok () ∧
      readResolvedLaneCoreFromData firstSession.data 1 0 = .error (.vault .channelNotInitialized) ∧
      readResolvedLaneCoreFromData (firstLane.run firstSession.data).2 1 0 = .ok .uninitialized ∧
      resolvedLaneOffset (firstLane.run firstSession.data).2 0 1 = .ok (slotOffsetAt firstSlot + 9) ∧
      window firstSession.data (slotOffsetAt firstSlot) 1 = [0] ∧
      window (firstLane.run firstSession.data).2 (slotOffsetAt firstSlot) 1 = [1] := by
  have hflag := (ChannelBucket.partSlot [] firstSlot).comp ChannelBucketSlot.partInitialized
  rw [firstLane_run]
  refine ⟨firstSession_started, rfl, ?_, ?_, ?_, ?_, ?_⟩
  · exact (readResolvedLaneCoreFromData_image firstBucket_sound.wellTyped).trans rfl
  · exact (readResolvedLaneCoreFromData_image laneOpened_sound.wellTyped).trans rfl
  · exact resolvedLaneOffset_image.trans rfl
  · exact (hflag.fits (s := firstBucket) length_boolBytes).2
  · exact (hflag.fits (s := laneOpened) length_boolBytes).2

/-- The first opening, and then a read of the lane that was opened. -/
theorem lanes_kept_apart_firstLane :
    LanesApart
      [(⟨laneOpened.image [], []⟩, .read 0 1 (offsetOf (firstSlot, .lowerToHigher))),
        (firstSession, .call firstLane)]
      ⟨laneOpened.image [], [(0, 1, offsetOf (firstSlot, .lowerToHigher))]⟩ := by
  have hl : laneOpened.readLaneForSelectorFromData 0 1 .lowerToHigher
      = .ok ((firstSlot, .lowerToHigher), .fresh firstSigner) := rfl
  have hread : readLaneSettlementForSelectorFromData (laneOpened.image []) 0 1 .lowerToHigher
      = .ok ⟨offsetOf (firstSlot, .lowerToHigher), 0, 0⟩ := by
    rw [readLaneSettlementForSelectorFromData_image laneOpened_sound.wellTyped, hl]
    rfl
  have hcall : Step firstSession (.call firstLane) ⟨laneOpened.image [], []⟩ := by
    have h := Step.call (s := firstSession) (c := firstLane) trivial trivial
    rwa [firstLane_run] at h
  have hsaved := Step.read (s := ⟨laneOpened.image [], []⟩) (.settlementForSelector hread)
  exact lanes_kept_apart (.next (.next (.start firstSession_started) hcall) hsaved)

end Session

end Ryvo
