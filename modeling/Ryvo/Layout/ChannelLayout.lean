import Ryvo.Layout.Primitives
import Ryvo.State.ChannelBucket

/-!
# Layout — Channel buckets

The bytes of a channel bucket twice over, as of participant buckets: the serialised account struct, and the offsets of the raw accesses.
-/

namespace Ryvo

open Layout

/-! ### Offsets -/

namespace ChannelBytes

/-- The first eight bytes of SHA-256 of `account:ChannelBucket`, which Anchor puts before the struct. -/
def discriminator : List UInt8 := [171, 219, 130, 228, 148, 242, 103, 148]

/-- Past the discriminator. -/
def tokenIdOffset : Nat := 8
def bucketIdOffset : Nat := 10
def bumpOffset : Nat := 18
def slotsOffset : Nat := 19

/-- The flag comes first: a slot of zeros is a free one. -/
def slotInitializedOffset : Nat := 0
def slotLowerParticipantIdOffset : Nat := 1
def slotHigherParticipantIdOffset : Nat := 5
/-- Past the ids; the lane the other way comes last. -/
def lowerToHigherLaneOffset : Nat := 9

/-- `LOWER_TO_HIGHER_LANE_OFFSET + DirectionalLaneState::SPACE`. -/
def higherToLowerLaneOffset : Nat := lowerToHigherLaneOffset + (1 + 8 + 8 + 32 + 8 + 8 + 32 + 8)

/-- The flag comes first here too: a lane of zeros was never opened. -/
def laneInitializedOffset : Nat := 0
def laneSettledCumulativeOffset : Nat := 1
def laneLockedBalanceOffset : Nat := 9
def laneAuthorizedSignerOffset : Nat := 17
def lanePendingUnlockAmountOffset : Nat := 49
def laneUnlockRequestedAtOffset : Nat := 57
def lanePendingAuthorizedSignerOffset : Nat := 65
def laneAuthorizedSignerUpdateRequestedAtOffset : Nat := 97

end ChannelBytes

open ChannelBytes

/-! ### Lanes -/

namespace DirectionalLaneState

/-- `DirectionalLaneState::SPACE`. -/
def space : Nat := 1 + 8 + 8 + 32 + 8 + 8 + 32 + 8

/-- `DirectionalLaneState`, serialised. -/
def bytes (l : DirectionalLaneState) : List UInt8 :=
  boolBytes l.initialized ++ (u64Bytes l.settledCumulative ++ (u64Bytes l.lockedBalance ++
    (l.authorizedSigner.toBytes ++ (u64Bytes l.pendingUnlockAmount ++
      (i64Bytes l.unlockRequestedAt ++ (l.pendingAuthorizedSigner.toBytes ++
        i64Bytes l.authorizedSignerUpdateRequestedAt))))))

@[simp] theorem length_bytes (l : DirectionalLaneState) : l.bytes.length = space := by
  simp [bytes, space]

/-- A lane that was never opened is all zeros. -/
theorem bytes_uninitialized : uninitialized.bytes = List.replicate space 0 := rfl

/-- The amounts and the times are ones the fields can hold. -/
structure WellTyped (l : DirectionalLaneState) : Prop where
  settledCumulative : l.settledCumulative < u64Bound
  lockedBalance : l.lockedBalance < u64Bound
  pendingUnlockAmount : l.pendingUnlockAmount < u64Bound
  unlockRequestedAt : I64 l.unlockRequestedAt
  authorizedSignerUpdateRequestedAt : I64 l.authorizedSignerUpdateRequestedAt

/-- The flag, at `LANE_INITIALIZED_OFFSET`; the lemmas below say the same of the other fields. -/
theorem partInitialized : Part bytes boolBytes (·.initialized)
    (fun l x => { l with initialized := x }) laneInitializedOffset := .head

theorem partSettledCumulative : Part bytes u64Bytes (·.settledCumulative)
    (fun l x => { l with settledCumulative := x }) laneSettledCumulativeOffset := .tail 1 .head

theorem partLockedBalance : Part bytes u64Bytes (·.lockedBalance)
    (fun l x => { l with lockedBalance := x }) laneLockedBalanceOffset := .tail 1 (.tail 8 .head)

theorem partAuthorizedSigner : Part bytes Pubkey.toBytes (·.authorizedSigner)
    (fun l x => { l with authorizedSigner := x }) laneAuthorizedSignerOffset :=
  .tail 1 (.tail 8 (.tail 8 .head))

theorem partPendingUnlockAmount : Part bytes u64Bytes (·.pendingUnlockAmount)
    (fun l x => { l with pendingUnlockAmount := x }) lanePendingUnlockAmountOffset :=
  .tail 1 (.tail 8 (.tail 8 (.tail 32 .head)))

theorem partUnlockRequestedAt : Part bytes i64Bytes (·.unlockRequestedAt)
    (fun l x => { l with unlockRequestedAt := x }) laneUnlockRequestedAtOffset :=
  .tail 1 (.tail 8 (.tail 8 (.tail 32 (.tail 8 .head))))

theorem partPendingAuthorizedSigner : Part bytes Pubkey.toBytes (·.pendingAuthorizedSigner)
    (fun l x => { l with pendingAuthorizedSigner := x }) lanePendingAuthorizedSignerOffset :=
  .tail 1 (.tail 8 (.tail 8 (.tail 32 (.tail 8 (.tail 8 .head)))))

/-- The last field ends the lane. -/
theorem partAuthorizedSignerUpdateRequestedAt :
    Part bytes i64Bytes (·.authorizedSignerUpdateRequestedAt)
      (fun l x => { l with authorizedSignerUpdateRequestedAt := x })
      laneAuthorizedSignerUpdateRequestedAtOffset :=
  .tail 1 (.tail 8 (.tail 8 (.tail 32 (.tail 8 (.tail 8 (.tail 32 .last))))))

end DirectionalLaneState

/-! ### Slots -/

namespace ChannelBucketSlot

/-- `ChannelBucketSlot::SPACE`. -/
def space : Nat := 1 + 4 + 4 + DirectionalLaneState.space + DirectionalLaneState.space

/-- `ChannelBucketSlot`, serialised: the flag, the two ids, and a lane each way. -/
def bytes (s : ChannelBucketSlot) : List UInt8 :=
  boolBytes s.initialized ++ (u32Bytes s.lowerParticipantId ++ (u32Bytes s.higherParticipantId ++
    (s.lowerToHigher.bytes ++ s.higherToLower.bytes)))

@[simp] theorem length_bytes (s : ChannelBucketSlot) : s.bytes.length = space := by
  simp [bytes, space]
  omega

/-- A free slot is all zeros. -/
theorem bytes_empty : empty.bytes = List.replicate space 0 := by
  rw [bytes, empty, DirectionalLaneState.bytes_uninitialized, List.replicate_append_replicate]
  rfl

/-- Both lanes fit their fields. -/
def WellTyped (s : ChannelBucketSlot) : Prop := ∀ selector, (s.lane selector).WellTyped

/-- The flag, at `SLOT_INITIALIZED_OFFSET`. -/
theorem partInitialized : Part bytes boolBytes (·.initialized)
    (fun s x => { s with initialized := x }) slotInitializedOffset := .head

theorem partLowerParticipantId : Part bytes u32Bytes (·.lowerParticipantId)
    (fun s x => { s with lowerParticipantId := x }) slotLowerParticipantIdOffset := .tail 1 .head

theorem partHigherParticipantId : Part bytes u32Bytes (·.higherParticipantId)
    (fun s x => { s with higherParticipantId := x }) slotHigherParticipantIdOffset :=
  .tail 1 (.tail 4 .head)

end ChannelBucketSlot

/-! ### Buckets -/

namespace ChannelBucket

/-- `ChannelBucket::SPACE`. -/
def space : Nat := 8 + 2 + 8 + 1 + channelBucketSlotCount * ChannelBucketSlot.space

/-- A channel bucket's id is a `u64`. -/
def idBytes (x : U64) : List UInt8 := u64Bytes x.val

@[simp] theorem length_idBytes (x : U64) : (idBytes x).length = 8 := length_u64Bytes _

/-- The discriminator, and the serialised struct. -/
def bytes (b : ChannelBucket) : List UInt8 :=
  discriminator ++ (u16Bytes b.tokenId ++ (idBytes b.bucketId ++ (u8Bytes b.bump ++
    rows ChannelBucketSlot.bytes b.slots)))

/-- An account's data, which may be longer than the struct. -/
def image (more : List UInt8) (b : ChannelBucket) : List UInt8 := b.bytes ++ more

@[simp] theorem length_bytes (b : ChannelBucket) : b.bytes.length = space := by
  simp [bytes, space, discriminator, length_rows ChannelBucketSlot.length_bytes]
  omega

/-- Initialized with token 0, bucket 0 and bump 0, the account is the discriminator and zeros. -/
theorem bytes_initializeAccountData : (initializeAccountData 0 0 0).bytes
    = discriminator ++ List.replicate (space - discriminator.length) 0 := by
  have hrows := rows_replicate (m := channelBucketSlotCount) ChannelBucketSlot.bytes_empty
  rw [bytes, initializeAccountData, hrows]
  refine congrArg (discriminator ++ ·) ?_
  simp only [u16Bytes, idBytes, u64Bytes, u8Bytes]
  rw [show leBytes 2 ((0 : U16) : Nat) = List.replicate 2 0 from rfl,
    show leBytes 8 ((0 : U64) : Nat) = List.replicate 8 0 from rfl,
    show leBytes 1 ((0 : U8) : Nat) = List.replicate 1 0 from rfl,
    List.replicate_append_replicate, List.replicate_append_replicate,
    List.replicate_append_replicate]
  rfl

/-- Every lane fits its fields. -/
def WellTyped (b : ChannelBucket) : Prop := ∀ i, (b.slots i).WellTyped

variable (more : List UInt8)

/-- The token's id, at `TOKEN_ID_OFFSET`. -/
theorem partTokenId : Part (image more) u16Bytes (·.tokenId)
    (fun b x => { b with tokenId := x }) tokenIdOffset := .append (.tail 8 .head fun _ => rfl) more

theorem partBucketId : Part (image more) idBytes (·.bucketId)
    (fun b x => { b with bucketId := x }) bucketIdOffset :=
  .append (.tail 8 (.tail 2 .head) fun _ => rfl) more

theorem partBump : Part (image more) u8Bytes (·.bump)
    (fun b x => { b with bump := x }) bumpOffset :=
  .append (.tail 8 (.tail 2 (.tail 8 .head)) fun _ => rfl) more

theorem partSlots : Part (image more) (rows ChannelBucketSlot.bytes) (·.slots)
    (fun b x => { b with slots := x }) slotsOffset :=
  .append (.tail 8 (.tail 2 (.tail 8 (.tail 1 .last))) fun _ => rfl) more

/-- `slot_offset`: slot `i` of a bucket. -/
theorem partSlot (i : Fin channelBucketSlotCount) : Part (image more) ChannelBucketSlot.bytes
    (fun b => b.slots i) (fun b s => b.setSlot i s)
    (slotsOffset + i.val * ChannelBucketSlot.space) :=
  (partSlots more).comp (.row ChannelBucketSlot.length_bytes i)

end ChannelBucket

/-- Where a lane is in its slot. -/
def ChannelBytes.laneOffset : LaneSelector → Nat
  | .lowerToHigher => lowerToHigherLaneOffset
  | .higherToLower => higherToLowerLaneOffset

/-- A lane of a slot, at its offset. -/
theorem ChannelBucketSlot.partLane (selector : LaneSelector) :
    Part ChannelBucketSlot.bytes DirectionalLaneState.bytes (·.lane selector)
      (fun s l => s.setLane selector l) (ChannelBytes.laneOffset selector) := by
  cases selector with
  | lowerToHigher => exact .tail 1 (.tail 4 (.tail 4 .head))
  | higherToLower => exact .tail 1 (.tail 4 (.tail 4 (.tail DirectionalLaneState.space .last)))

end Ryvo
