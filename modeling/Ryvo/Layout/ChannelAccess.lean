import Ryvo.Layout.ChannelBytes
import Ryvo.State.Slots

/-!
# Layout — Channel access

The raw accesses, on the image of a channel bucket: a reader returns what the function of the record returns, and a mutator is that function's `outcome`.

* `edit_lane` says of what runs once a created lane is found that it may be looked at on its own, with all other bytes around it.
* `…_image` is one lemma for each function of the source.
-/

namespace Ryvo

open Layout InPlace

namespace ChannelBytes

variable {b : ChannelBucket} {more : List UInt8} {p q lower higher : U32} {off : LaneOffset}
variable {selector : LaneSelector} {α σ : Type}

/-! ### Slots and lanes -/

/-- Where a lane is in the data. -/
def offsetOf (off : LaneOffset) : Nat := slotOffsetAt off.1 + laneOffset off.2

/-- A lane is a part of the data. -/
theorem partLaneAt (more : List UInt8) (off : LaneOffset) :
    Part (ChannelBucket.image more) DirectionalLaneState.bytes (fun b => b.laneAt off)
      (fun b l => b.setLaneAt off l) (offsetOf off) :=
  (ChannelBucket.partSlot more off.1).comp (ChannelBucketSlot.partLane off.2)

theorem space_le_image : ChannelBucket.space ≤ (b.image more).length := by
  simp [ChannelBucket.image]

theorem slot_le_image (i : Fin channelBucketSlotCount) :
    slotOffsetAt i + ChannelBucketSlot.space ≤ (b.image more).length :=
  ((ChannelBucket.partSlot more i).fits ChannelBucketSlot.length_bytes).1

/-- The account is a channel bucket. -/
theorem requireValidDiscriminator_image {errorCode : VaultError} :
    requireValidDiscriminator (b.image more) errorCode = .ok () := by
  have hspace : ChannelBucket.space ≤ (b.image more).length := space_le_image
  refine require_of ⟨le_trans (by decide) hspace, ?_⟩
  simp [ChannelBucket.image, ChannelBucket.bytes]

/-- Its header reads back. -/
theorem readTokenBucketAndBump_image :
    readTokenBucketAndBump (b.image more) = .ok (b.tokenId, b.bucketId, b.bump) := by
  have hid : leNat (window (b.image more) bucketIdOffset 8) = b.bucketId.val := by
    rw [((ChannelBucket.partBucketId more).fits ChannelBucket.length_idBytes).2,
      ChannelBucket.idBytes, u64Bytes, leNat_leBytes_of_lt b.bucketId.isLt]
  rw [readTokenBucketAndBump, requireValidDiscriminator_image, Except.ok_bind,
    require_of space_le_image, Except.ok_bind, (ChannelBucket.partTokenId more).readU16At,
    Except.ok_bind, (ChannelBucket.partBump more).readU8At, hid]
  exact congrArg (fun x => Except.ok (b.tokenId, x, b.bump)) (Fin.ofNat_val_eq_self _)

section
variable {enc : σ → List UInt8} {get : σ → ChannelBucketSlot} {set : σ → ChannelBucketSlot → σ}
variable {o : Nat} (h : Part enc ChannelBucketSlot.bytes get set o)
include h

/-- The ids of a slot are checked against the pair. -/
theorem requirePair_part (x : σ) : requirePair (enc x) o lower higher
    = require ((get x).lowerParticipantId = lower ∧ (get x).higherParticipantId = higher)
        (.vault .bucketSlotMismatch) := by
  rw [requirePair, (h.comp ChannelBucketSlot.partLowerParticipantId).readU32At, Except.ok_bind,
    (h.comp ChannelBucketSlot.partHigherParticipantId).readU32At, Except.ok_bind]

end

theorem slotInitialized_image {i : Fin channelBucketSlotCount} {errorCode : VaultError} :
    readBoolAt (b.image more) (slotOffsetAt i + slotInitializedOffset) errorCode
      = .ok (b.slots i).initialized :=
  ((ChannelBucket.partSlot more i).comp ChannelBucketSlot.partInitialized).readBoolAt

theorem requirePair_image {i : Fin channelBucketSlotCount} :
    requirePair (b.image more) (slotOffsetAt i) lower higher
      = require ((b.slots i).lowerParticipantId = lower ∧ (b.slots i).higherParticipantId = higher)
          (.vault .bucketSlotMismatch) :=
  requirePair_part (ChannelBucket.partSlot more i) b

/-- Looking for the pair's slot in the data finds the bucket's. -/
theorem slotOffsetForPair_image : slotOffsetForPair (b.image more) lower higher
    = slotOffsetAt <$> b.slotOffsetForPair lower higher := by
  rw [slotOffsetForPair, readTokenBucketAndBump_image, Except.ok_bind,
    ChannelBucket.slotOffsetForPair, map_bind]
  refine bind_congr fun bucketId => ?_
  rw [map_bind]
  refine bind_congr fun _ => ?_
  rw [require_of space_le_image, Except.ok_bind, map_bind]
  refine bind_congr fun i => ?_
  dsimp only
  rw [require_of (slot_le_image i), Except.ok_bind, slotInitialized_image, Except.ok_bind, map_bind]
  refine bind_congr fun _ => ?_
  rw [requirePair_image, map_bind]
  rfl

/-- With the direction, the lane. -/
theorem laneOffsetForSelector_image : laneOffsetForSelector (b.image more) lower higher selector
    = (fun i => offsetOf (i, selector)) <$> b.slotOffsetForPair lower higher := by
  rw [laneOffsetForSelector, slotOffsetForPair_image, bind_pure_comp, Functor.map_map]
  rfl

theorem resolvedLaneOffset_image :
    resolvedLaneOffset (b.image more) p q = offsetOf <$> b.laneOffset p q := by
  rw [resolvedLaneOffset, ChannelBucket.laneOffset, map_bind]
  refine bind_congr fun x => ?_
  obtain ⟨lower, higher, selector⟩ := x
  dsimp only
  rw [laneOffsetForSelector_image, bind_pure_comp, Functor.map_map]

/-- A lane that was never opened is refused. -/
theorem requireLane_image : requireLane (b.image more) (offsetOf off)
    = require ((b.laneAt off).initialized = true) (.vault .channelNotInitialized) := by
  rw [requireLane,
    ((partLaneAt more off).comp DirectionalLaneState.partInitialized).readBoolAt, Except.ok_bind]

theorem lane_wellTyped (hb : b.WellTyped) (off : LaneOffset) : (b.laneAt off).WellTyped :=
  hb off.1 off.2

/-- What edits a created lane at its offset. -/
theorem edit_laneAt {x : Edit α} {f : DirectionalLaneState → Result (DirectionalLaneState × α)}
    (h : ∀ a c, a.length = offsetOf off →
      x (framed a c DirectionalLaneState.bytes (b.laneAt off))
        = outcome (framed a c DirectionalLaneState.bytes) (b.laneAt off) (f (b.laneAt off))) :
    (do
      read (requireLane · (offsetOf off))
      x) (b.image more) = outcome (ChannelBucket.image more) b (b.modifyLaneAt off f) :=
  read_bind requireLane_image rfl fun _ _ => outcome_part (partLaneAt more off) b h

/-- What edits a created lane once it is found. -/
theorem edit_lane {body : Nat → Edit α}
    {f : DirectionalLaneState → Result (DirectionalLaneState × α)}
    (h : ∀ off a c, body a.length (framed a c DirectionalLaneState.bytes (b.laneAt off))
      = outcome (framed a c DirectionalLaneState.bytes) (b.laneAt off) (f (b.laneAt off))) :
    (do
      let laneOffset ← read (resolvedLaneOffset · p q)
      read (requireLane · laneOffset)
      body laneOffset) (b.image more)
      = outcome (ChannelBucket.image more) b (b.modifyLane p q f) := by
  have hread : resolvedLaneOffset (b.image more) p q = offsetOf <$> b.laneOffset p q :=
    resolvedLaneOffset_image
  rw [ChannelBucket.modifyLane]
  cases ho : b.laneOffset p q with
  | error e =>
      rw [ho] at hread
      exact bind_apply_error (congrArg (·, _) hread)
  | ok off =>
      rw [ho] at hread
      exact read_then hread (edit_laneAt fun a c ha => ha ▸ h off a c)

/-! ### Readers -/

section
variable (hb : b.WellTyped)
include hb

/-- All of a lane reads back. -/
theorem readLaneCoreAt_image : readLaneCoreAt (b.image more) (offsetOf off) = .ok (b.laneAt off) := by
  have hl := lane_wellTyped hb off
  have h := partLaneAt more off
  have hunlock := (h.comp DirectionalLaneState.partUnlockRequestedAt).fits (s := b) length_i64Bytes
  have hupdate := (h.comp DirectionalLaneState.partAuthorizedSignerUpdateRequestedAt).fits (s := b)
    length_i64Bytes
  rw [readLaneCoreAt, (h.comp DirectionalLaneState.partInitialized).readBoolAt, Except.ok_bind,
    (h.comp DirectionalLaneState.partSettledCumulative).readU64At hl.settledCumulative,
    Except.ok_bind, (h.comp DirectionalLaneState.partLockedBalance).readU64At hl.lockedBalance,
    Except.ok_bind, (h.comp DirectionalLaneState.partAuthorizedSigner).readPubkeyAt,
    Except.ok_bind,
    (h.comp DirectionalLaneState.partPendingUnlockAmount).readU64At hl.pendingUnlockAmount,
    Except.ok_bind, (h.comp DirectionalLaneState.partPendingAuthorizedSigner).readPubkeyAt,
    Except.ok_bind, hunlock.2, hupdate.2, i64OfBytes_i64Bytes hl.unlockRequestedAt,
    i64OfBytes_i64Bytes hl.authorizedSignerUpdateRequestedAt]
  rfl

/-- The readers return what the bucket holds; each follows its own path through the data. -/
theorem readResolvedLaneCoreFromData_image :
    readResolvedLaneCoreFromData (b.image more) p q = b.readResolvedLaneCoreFromData p q := by
  rw [readResolvedLaneCoreFromData, resolvedLaneOffset_image, bind_map_left,
    ChannelBucket.readResolvedLaneCoreFromData]
  exact bind_congr fun off => readLaneCoreAt_image hb

theorem readLaneSettlementForSelectorFromData_image :
    readLaneSettlementForSelectorFromData (b.image more) lower higher selector
      = (fun x => ⟨offsetOf x.1, x.2.settledCumulative, x.2.lockedBalance⟩)
          <$> b.readLaneForSelectorFromData lower higher selector := by
  rw [readLaneSettlementForSelectorFromData, laneOffsetForSelector_image, bind_map_left,
    ChannelBucket.readLaneForSelectorFromData, map_bind]
  refine bind_congr fun i => ?_
  have hl := lane_wellTyped hb (i, selector)
  have h := partLaneAt more (i, selector)
  rw [requireLane_image, map_bind]
  refine bind_congr fun _ => ?_
  rw [(h.comp DirectionalLaneState.partSettledCumulative).readU64At hl.settledCumulative,
    Except.ok_bind, (h.comp DirectionalLaneState.partLockedBalance).readU64At hl.lockedBalance]
  rfl

theorem readLaneCommitmentForSelectorFromData_image :
    readLaneCommitmentForSelectorFromData (b.image more) lower higher selector
      = (fun x => ⟨offsetOf x.1, x.2.settledCumulative, x.2.lockedBalance, x.2.authorizedSigner⟩)
          <$> b.readLaneForSelectorFromData lower higher selector := by
  rw [readLaneCommitmentForSelectorFromData, laneOffsetForSelector_image, bind_map_left,
    ChannelBucket.readLaneForSelectorFromData, map_bind]
  refine bind_congr fun i => ?_
  have hl := lane_wellTyped hb (i, selector)
  have h := partLaneAt more (i, selector)
  rw [requireLane_image, map_bind]
  refine bind_congr fun _ => ?_
  rw [(h.comp DirectionalLaneState.partSettledCumulative).readU64At hl.settledCumulative,
    Except.ok_bind, (h.comp DirectionalLaneState.partLockedBalance).readU64At hl.lockedBalance,
    Except.ok_bind, (h.comp DirectionalLaneState.partAuthorizedSigner).readPubkeyAt]
  rfl

end

/-! ### Mutators -/

section
open DirectionalLaneState

variable {l : DirectionalLaneState} {a c : List UInt8}

/-- Capping a pending unlock, within the lane's bytes. -/
theorem capPendingUnlock_inFrame (h : l.pendingUnlockAmount < u64Bound) (cap : Nat) :
    capPendingUnlockAtLaneOffsetInData a.length cap (framed a c DirectionalLaneState.bytes l)
      = (.ok (), framed a c DirectionalLaneState.bytes (l.capPendingUnlock cap)) := by
  refine read_then ((partPendingUnlockAmount.framed a c).readU64At h) ?_
  rw [capPendingUnlock]
  by_cases hzero : l.pendingUnlockAmount = 0
  · rw [if_pos hzero, if_pos hzero]
    exact write_apply ((partUnlockRequestedAt.framed a c).writeI64At 0)
  by_cases hle : l.pendingUnlockAmount ≤ cap
  · rw [if_neg hzero, if_neg hzero, if_pos hle, if_pos hle]
    rfl
  · rw [if_neg hzero, if_neg hzero, if_neg hle, if_neg hle]
    refine (bind_apply (write_apply
      ((partPendingUnlockAmount.framed a c).writeU64At cap))).trans ?_
    by_cases hcap : cap = 0
    · rw [if_pos hcap, if_pos hcap]
      exact write_apply ((partUnlockRequestedAt.framed a c).writeI64At 0)
    · rw [if_neg hcap, if_neg hcap]
      rfl

variable (hb : b.WellTyped)
include hb

/-- Settling through a saved offset is settling the lane there. -/
theorem applyLaneSettlementAtOffsetInData_image {target used : Nat} :
    applyLaneSettlementAtOffsetInData (offsetOf off) target used (b.image more)
      = outcome (ChannelBucket.image more) b
          (b.applyLaneSettlementAtOffsetInData off target used) := by
  have hl := lane_wellTyped hb off
  have hle := (((partLaneAt more off).comp partLockedBalance).fits (s := b) length_u64Bytes).1
  refine read_then (require_of hle) ?_
  refine edit_laneAt fun a c ha => ?_
  rw [← ha]
  refine read_then ((partLockedBalance.framed a c).readU64At hl.lockedBalance) ?_
  refine lift_bind rfl fun next _ => ?_
  refine write_bind ((partLockedBalance.framed a c).writeU64At next) ?_
  have hcap := capPendingUnlock_inFrame (a := a) (c := c)
    (l := { b.laneAt off with lockedBalance := next }) hl.pendingUnlockAmount next
  refine (bind_apply hcap).trans ?_
  exact write_last ((partSettledCumulative.framed a c).writeU64At target)

/-- So is settling by ids and direction, -/
theorem applyLaneSettlementForSelectorInData_image {target used : Nat} :
    applyLaneSettlementForSelectorInData lower higher selector target used (b.image more)
      = outcome (ChannelBucket.image more) b (do
          let i ← b.slotOffsetForPair lower higher
          b.applyLaneSettlementAtOffsetInData (i, selector) target used) := by
  have hread : laneOffsetForSelector (b.image more) lower higher selector
      = (fun i => offsetOf (i, selector)) <$> b.slotOffsetForPair lower higher :=
    laneOffsetForSelector_image
  cases hi : b.slotOffsetForPair lower higher with
  | error e =>
      rw [hi] at hread
      have hstop : read (laneOffsetForSelector · lower higher selector) (b.image more)
          = (.error e, b.image more) := congrArg (·, b.image more) hread
      exact bind_apply_error hstop
  | ok i =>
      rw [hi] at hread
      exact read_then hread (applyLaneSettlementAtOffsetInData_image hb)

/-- and by payer and payee. -/
theorem applyLaneSettlementInData_image {target used : Nat} :
    applyLaneSettlementInData p q target used (b.image more)
      = outcome (ChannelBucket.image more) b (b.modifyLane p q (·.applySettlement target used)) := by
  rw [ChannelBucket.modifyLane, ChannelBucket.laneOffset, bind_assoc]
  refine lift_bind rfl fun x _ => ?_
  obtain ⟨lower, higher, selector⟩ := x
  dsimp only
  rw [bind_assoc]
  exact applyLaneSettlementForSelectorInData_image hb

/-- The lane operations on the data are those on the bucket. -/
theorem addLaneLockedBalanceInData_image {amount : Nat} :
    addLaneLockedBalanceInData p q amount (b.image more)
      = outcome (ChannelBucket.image more) b (b.addLaneLockedBalanceInData p q amount) := by
  refine edit_lane fun off a c => ?_
  have hl := lane_wellTyped hb off
  refine read_then ((partLockedBalance.framed a c).readU64At hl.lockedBalance) ?_
  refine lift_bind rfl fun next _ => ?_
  exact write_bind ((partLockedBalance.framed a c).writeU64At next) rfl

theorem requestLaneUnlockInData_image {amount : Nat} {requestedAt : Int} :
    requestLaneUnlockInData p q amount requestedAt (b.image more)
      = outcome (ChannelBucket.image more) b (b.requestLaneUnlockInData p q amount requestedAt) := by
  refine edit_lane fun off a c => ?_
  have hl := lane_wellTyped hb off
  refine read_then ((partLockedBalance.framed a c).readU64At hl.lockedBalance) ?_
  refine lift_bind rfl fun _ _ => ?_
  refine write_bind ((partPendingUnlockAmount.framed a c).writeU64At amount) ?_
  exact write_last ((partUnlockRequestedAt.framed a c).writeI64At requestedAt)

theorem executeLaneUnlockInData_image :
    executeLaneUnlockInData p q (b.image more)
      = outcome (ChannelBucket.image more) b (b.executeLaneUnlockInData p q) := by
  refine edit_lane fun off a c => ?_
  have hl := lane_wellTyped hb off
  refine read_then ((partPendingUnlockAmount.framed a c).readU64At hl.pendingUnlockAmount) ?_
  refine read_then ((partUnlockRequestedAt.framed a c).readI64At hl.unlockRequestedAt) ?_
  refine lift_bind rfl fun _ _ => ?_
  refine read_then ((partLockedBalance.framed a c).readU64At hl.lockedBalance) ?_
  refine lift_bind rfl fun remaining _ => ?_
  refine write_bind ((partLockedBalance.framed a c).writeU64At remaining) ?_
  refine write_bind ((partPendingUnlockAmount.framed a c).writeU64At 0) ?_
  exact write_bind ((partUnlockRequestedAt.framed a c).writeI64At 0) rfl

theorem cooperativeUnlockLaneInData_image {amount : Nat} :
    cooperativeUnlockLaneInData p q amount (b.image more)
      = outcome (ChannelBucket.image more) b (b.cooperativeUnlockLaneInData p q amount) := by
  refine edit_lane fun off a c => ?_
  have hl := lane_wellTyped hb off
  refine read_then ((partLockedBalance.framed a c).readU64At hl.lockedBalance) ?_
  refine lift_bind rfl fun _ _ => lift_bind rfl fun remaining _ => ?_
  refine write_bind ((partLockedBalance.framed a c).writeU64At remaining) ?_
  have hcap := capPendingUnlock_inFrame (a := a) (c := c)
    (l := { b.laneAt off with lockedBalance := remaining }) hl.pendingUnlockAmount remaining
  exact (bind_apply hcap).trans rfl

omit hb in
theorem requestAuthorizedSignerUpdateInData_image {newSigner : Pubkey} {requestedAt : Int} :
    requestAuthorizedSignerUpdateInData p q newSigner requestedAt (b.image more)
      = outcome (ChannelBucket.image more) b
          (b.requestAuthorizedSignerUpdateInData p q newSigner requestedAt) := by
  refine edit_lane fun off a c => ?_
  refine read_then (partAuthorizedSigner.framed a c).readPubkeyAt ?_
  refine lift_bind rfl fun _ _ => ?_
  refine write_bind ((partPendingAuthorizedSigner.framed a c).writePubkeyAt newSigner) ?_
  exact write_bind ((partAuthorizedSignerUpdateRequestedAt.framed a c).writeI64At requestedAt) rfl

theorem executeAuthorizedSignerUpdateInData_image :
    executeAuthorizedSignerUpdateInData p q (b.image more)
      = outcome (ChannelBucket.image more) b (b.executeAuthorizedSignerUpdateInData p q) := by
  refine edit_lane fun off a c => ?_
  have hl := lane_wellTyped hb off
  refine read_then (partAuthorizedSigner.framed a c).readPubkeyAt ?_
  refine read_then (partPendingAuthorizedSigner.framed a c).readPubkeyAt ?_
  refine read_then ((partAuthorizedSignerUpdateRequestedAt.framed a c).readI64At
    hl.authorizedSignerUpdateRequestedAt) ?_
  refine lift_bind rfl fun _ _ => ?_
  refine write_bind ((partAuthorizedSigner.framed a c).writePubkeyAt _) ?_
  refine write_bind ((partPendingAuthorizedSigner.framed a c).writePubkeyAt Pubkey.default) ?_
  exact write_bind ((partAuthorizedSignerUpdateRequestedAt.framed a c).writeI64At 0) rfl

end

/-! ### Initialisation -/

section
variable {s : ChannelBucketSlot} {a c : List UInt8} {tokenId : U16} {signer : Pubkey}

/-- A slot of the pair's is taken as it is. -/
theorem claimSlot_used (h : s.initialized = true) :
    claimSlotInData a.length lower higher (framed a c ChannelBucketSlot.bytes s)
      = outcome (framed a c ChannelBucketSlot.bytes) s
          ((fun s' => (s', ())) <$> ChannelBucket.claimSlot s lower higher) := by
  refine read_then (ChannelBucketSlot.partInitialized.framed a c).readBoolAt ?_
  rw [ChannelBucket.claimSlot, if_pos h, if_pos h, read_apply, requirePair_part (.inFrame a c _),
    map_bind, require]
  split <;> rfl

/-- A free slot is zeroed, and given its header. -/
theorem claimSlot_free (h : s.initialized = false) :
    claimSlotInData a.length lower higher (framed a c ChannelBucketSlot.bytes s)
      = (.ok (), framed a c ChannelBucketSlot.bytes (ChannelBucket.claimedSlot lower higher)) := by
  refine read_then (ChannelBucketSlot.partInitialized.framed a c).readBoolAt ?_
  rw [h]
  change _ = outcome (framed a c ChannelBucketSlot.bytes) s
    (.ok (ChannelBucket.claimedSlot lower higher, ()))
  let fr := framed a c ChannelBucketSlot.bytes
  have hzero : fillZero (fr s) a.length ChannelBucketSlot.space = fr .empty :=
    (Part.inFrame a c _).fillZero ChannelBucketSlot.length_bytes ChannelBucketSlot.bytes_empty
  refine write_bind (congrArg _ hzero) ?_
  refine write_bind ((ChannelBucketSlot.partInitialized.framed a c).writeBoolAt true) ?_
  refine write_bind ((ChannelBucketSlot.partLowerParticipantId.framed a c).writeU32At lower) ?_
  exact write_last ((ChannelBucketSlot.partHigherParticipantId.framed a c).writeU32At higher)

/-- Opening a lane, within its slot's bytes. -/
theorem openLane_inFrame : openLaneInData (a.length + laneOffset selector) signer
      (framed a c ChannelBucketSlot.bytes s) = outcome (framed a c ChannelBucketSlot.bytes) s (do
        require ((s.lane selector).initialized = false) (.vault .channelAlreadyExists)
        pure (s.setLane selector (.fresh signer), ())) := by
  have hlane := (ChannelBucketSlot.partLane selector).framed a c
  refine read_then (hlane.comp DirectionalLaneState.partInitialized).readBoolAt ?_
  refine lift_bind rfl fun _ _ => ?_
  refine outcome_part hlane s (f := fun _ => .ok (.fresh signer, ())) fun a' c' ha => ?_
  rw [← ha]
  let fr := framed a' c' DirectionalLaneState.bytes
  have hzero : fillZero (fr (s.lane selector)) a'.length DirectionalLaneState.space
      = fr .uninitialized :=
    (Part.inFrame a' c' _).fillZero DirectionalLaneState.length_bytes
      DirectionalLaneState.bytes_uninitialized
  refine write_bind (congrArg _ hzero) ?_
  refine write_bind ((DirectionalLaneState.partInitialized.framed a' c').writeBoolAt true) ?_
  exact write_last ((DirectionalLaneState.partAuthorizedSigner.framed a' c').writePubkeyAt signer)

/-- What `initialize_lane_in_data` makes of the pair's slot. -/
def openedSlot (lower higher : U32) (selector : LaneSelector) (signer : Pubkey)
    (s : ChannelBucketSlot) : Result (ChannelBucketSlot × Unit) := do
  let slot ← ChannelBucket.claimSlot s lower higher
  require ((slot.lane selector).initialized = false) (.vault .channelAlreadyExists)
  pure (slot.setLane selector (.fresh signer), ())

/-- The slot is claimed before the lane is looked at, but a lane in a slot that was free cannot have been created. -/
theorem claimSlot_openLane_inFrame : (do
      claimSlotInData a.length lower higher
      openLaneInData (a.length + laneOffset selector) signer)
        (framed a c ChannelBucketSlot.bytes s) = outcome (framed a c ChannelBucketSlot.bytes) s
          (openedSlot lower higher selector signer s) := by
  rw [openedSlot]
  cases h : s.initialized with
  | true =>
      have hclaim : claimSlotInData a.length lower higher (framed a c ChannelBucketSlot.bytes s)
          = _ := claimSlot_used h
      rw [ChannelBucket.claimSlot, if_pos h] at hclaim ⊢
      by_cases hpair : s.lowerParticipantId = lower ∧ s.higherParticipantId = higher
      · rw [require_of hpair] at hclaim ⊢
        exact (bind_apply hclaim).trans openLane_inFrame
      · rw [require, if_neg hpair] at hclaim ⊢
        exact bind_apply_error hclaim
  | false =>
      refine (bind_apply (claimSlot_free h)).trans ?_
      rw [ChannelBucket.claimSlot, if_neg (by simp [h]), openLane_inFrame, pure_bind,
        ChannelBucket.claimedSlot_lane]
      rfl

/-- A lane is opened on the data as it is on the bucket. -/
theorem initializeLaneInData_image : initializeLaneInData tokenId lower higher selector signer
      (b.image more) = outcome (ChannelBucket.image more) b
        ((fun b' => (b', ())) <$> b.initializeLaneInData tokenId lower higher selector signer) := by
  rw [initializeLaneInData, ChannelBucket.initializeLaneInData, map_bind]
  refine read_then (f := readTokenBucketAndBump) readTokenBucketAndBump_image ?_
  dsimp only
  refine lift_bind rfl fun _ _ => ?_
  rw [map_bind]
  refine lift_bind rfl fun expected _ => ?_
  rw [map_bind]
  refine lift_bind rfl fun _ _ => ?_
  refine read_then (require_of space_le_image) ?_
  rw [map_bind]
  refine lift_bind rfl fun i _ => ?_
  refine read_then (require_of (slot_le_image i)) ?_
  have hslot := outcome_part (ChannelBucket.partSlot more i) b (x := do
      claimSlotInData (slotOffsetAt i) lower higher
      openLaneInData (slotOffsetAt i + laneOffset selector) signer)
    (f := openedSlot lower higher selector signer) fun a c ha => by
      change a.length = slotOffsetAt i at ha
      rw [← ha]
      exact claimSlot_openLane_inFrame
  refine hslot.trans (congrArg (outcome _ b) ?_)
  simp only [openedSlot, map_bind, bind_assoc, map_pure, pure_bind]

/-- The id of a bucket, written to the data. -/
theorem writeBucketId_image (bucketId : U64) {errorCode : VaultError} :
    writeU64At (b.image more) bucketIdOffset errorCode bucketId.val
      = .ok (ChannelBucket.image more { b with bucketId }) := by
  have hpart := ChannelBucket.partBucketId more
  have hover := hpart.overwrites (s := b) ChannelBucket.length_idBytes bucketId
  rw [ChannelBucket.idBytes] at hover
  rw [writeU64At, require_of (hpart.fits ChannelBucket.length_idBytes).1, hover]
  rfl

/-- Whatever the data held, and however long it is. -/
theorem initializeAccountData_apply {data : List UInt8} (h : ChannelBucket.space ≤ data.length)
    (tokenId : U16) (bucketId : U64) (bump : U8) :
    initializeAccountData tokenId bucketId bump data = (.ok (),
      (ChannelBucket.initializeAccountData tokenId bucketId bump).image
        (data.drop ChannelBucket.space)) := by
  let rest := data.drop ChannelBucket.space
  have hzero : fillZero data 0 ChannelBucket.space
      = List.replicate ChannelBucket.space 0 ++ rest := by
    simp [fillZero, overwrite, rest]
  have hdisc : overwrite (List.replicate ChannelBucket.space 0 ++ rest) 0 discriminator
      = (ChannelBucket.initializeAccountData 0 0 0).image rest := by
    rw [ChannelBucket.image, ChannelBucket.bytes_initializeAccountData, overwrite,
      List.drop_append_of_le_length (by rw [List.length_replicate]; decide), List.drop_replicate]
    simp [List.append_assoc]
  refine read_then (require_of h) ?_
  change _ = outcome (ChannelBucket.image rest) (ChannelBucket.initializeAccountData 0 0 0)
    (.ok (ChannelBucket.initializeAccountData tokenId bucketId bump, ()))
  refine write_bind (congrArg _ hzero) (write_bind (congrArg _ hdisc) ?_)
  refine write_bind ((ChannelBucket.partTokenId rest).writeU16At tokenId) ?_
  refine write_bind (writeBucketId_image bucketId) ?_
  exact write_last ((ChannelBucket.partBump rest).writeU8At bump)

end

end ChannelBytes

end Ryvo
