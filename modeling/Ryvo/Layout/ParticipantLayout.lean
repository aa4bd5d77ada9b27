import Ryvo.Layout.Primitives
import Ryvo.State.ParticipantBucket

/-!
# Layout — Participant buckets

The bytes of a participant bucket twice over: the serialised account struct, field after field, and the offsets the program's raw accesses use.  Each field is the part at its offset, which is what makes the two one layout.
-/

namespace Ryvo

open Layout

/-! ### Offsets -/

namespace ParticipantBytes

/-- The first eight bytes of SHA-256 of `account:ParticipantBucket`, which Anchor puts before the struct. -/
def discriminator : List UInt8 := [107, 145, 82, 194, 47, 231, 201, 105]

/-- Past the discriminator. -/
def bucketIdOffset : Nat := 8
def bumpOffset : Nat := 12
def slotsOffset : Nat := 13

/-- The flag comes first: a slot of zeros is a free one. -/
def slotInitializedOffset : Nat := 0
def slotOwnerOffset : Nat := 1
def slotParticipantIdOffset : Nat := 33
def slotInboundPolicyOffset : Nat := 37
def slotBlsSchemeVersionOffset : Nat := 38
def slotBlsPubkeyOffset : Nat := 39
/-- Past the owner, the id, the policy and the key. -/
def slotTokenBalancesOffset : Nat := 135

/-- The flag comes first here too. -/
def tokenEntryInitializedOffset : Nat := 0
def tokenEntryTokenIdOffset : Nat := 1
def tokenEntryAvailableOffset : Nat := 3
def tokenEntryWithdrawingOffset : Nat := 11
def tokenEntryUnlockAtOffset : Nat := 19
def tokenEntryDestinationOffset : Nat := 27

end ParticipantBytes

open ParticipantBytes

/-! ### Token balances -/

namespace BucketTokenBalance

/-- `BucketTokenBalance::SPACE`. -/
def space : Nat := 1 + 2 + 8 + 8 + 8 + 32

/-- `BucketTokenBalance`, serialised. -/
def bytes (e : BucketTokenBalance) : List UInt8 :=
  boolBytes e.initialized ++ (u16Bytes e.tokenId ++ (u64Bytes e.availableBalance ++
    (u64Bytes e.withdrawingBalance ++ (i64Bytes e.withdrawalUnlockAt ++
      e.withdrawalDestination.toBytes))))

@[simp] theorem length_bytes (e : BucketTokenBalance) : e.bytes.length = space := by
  simp [bytes, space]

/-- An unused row is all zeros, as the account is allocated. -/
theorem bytes_empty : empty.bytes = List.replicate space 0 := rfl

/-- The amounts and the time are ones the fields can hold. -/
structure WellTyped (e : BucketTokenBalance) : Prop where
  available : e.availableBalance < u64Bound
  withdrawing : e.withdrawingBalance < u64Bound
  unlockAt : I64 e.withdrawalUnlockAt

/-- The flag, at `TOKEN_ENTRY_INITIALIZED_OFFSET`; the lemmas below say the same of the other fields. -/
theorem partInitialized : Part bytes boolBytes (·.initialized)
    (fun e x => { e with initialized := x }) tokenEntryInitializedOffset := .head

theorem partTokenId : Part bytes u16Bytes (·.tokenId)
    (fun e x => { e with tokenId := x }) tokenEntryTokenIdOffset := .tail 1 .head

theorem partAvailable : Part bytes u64Bytes (·.availableBalance)
    (fun e x => { e with availableBalance := x }) tokenEntryAvailableOffset :=
  .tail 1 (.tail 2 .head)

theorem partWithdrawing : Part bytes u64Bytes (·.withdrawingBalance)
    (fun e x => { e with withdrawingBalance := x }) tokenEntryWithdrawingOffset :=
  .tail 1 (.tail 2 (.tail 8 .head))

theorem partUnlockAt : Part bytes i64Bytes (·.withdrawalUnlockAt)
    (fun e x => { e with withdrawalUnlockAt := x }) tokenEntryUnlockAtOffset :=
  .tail 1 (.tail 2 (.tail 8 (.tail 8 .head)))

/-- The last field ends the row. -/
theorem partDestination : Part bytes Pubkey.toBytes (·.withdrawalDestination)
    (fun e x => { e with withdrawalDestination := x }) tokenEntryDestinationOffset :=
  .tail 1 (.tail 2 (.tail 8 (.tail 8 (.tail 8 .last))))

end BucketTokenBalance

/-! ### Slots -/

namespace ParticipantBucketSlot

/-- `ParticipantBucketSlot::SPACE`. -/
def space : Nat :=
  1 + 32 + 4 + 1 + 1 + blsPublicKeyCompressedSize + maxBucketTokenBalances * BucketTokenBalance.space

/-- `ParticipantBucketSlot`, serialised, its rows at the end. -/
def bytes (s : ParticipantBucketSlot) : List UInt8 :=
  boolBytes s.initialized ++ (s.owner.toBytes ++ (u32Bytes s.participantId ++
    (u8Bytes s.inboundChannelPolicy ++ (u8Bytes s.blsSchemeVersion ++
      (arrayBytes blsPublicKeyCompressedSize s.blsPubkeyCompressed ++
        rows BucketTokenBalance.bytes s.tokenBalances)))))

@[simp] theorem length_bytes (s : ParticipantBucketSlot) : s.bytes.length = space := by
  simp [bytes, space, length_rows BucketTokenBalance.length_bytes]
  omega

/-- A free slot is all zeros. -/
theorem bytes_empty : empty.bytes = List.replicate space 0 := by
  have hrows := rows_replicate (m := maxBucketTokenBalances) BucketTokenBalance.bytes_empty
  rw [bytes, empty, hrows]
  rfl

/-- The key fills its field, and every row fits its own. -/
structure WellTyped (s : ParticipantBucketSlot) : Prop where
  blsPubkey : s.blsPubkeyCompressed.length = blsPublicKeyCompressedSize
  tokenBalances : ∀ i, (s.tokenBalances i).WellTyped

/-- The flag, at `SLOT_INITIALIZED_OFFSET`; the lemmas below say the same of the other fields. -/
theorem partInitialized : Part bytes boolBytes (·.initialized)
    (fun s x => { s with initialized := x }) slotInitializedOffset := .head

theorem partOwner : Part bytes Pubkey.toBytes (·.owner)
    (fun s x => { s with owner := x }) slotOwnerOffset := .tail 1 .head

theorem partParticipantId : Part bytes u32Bytes (·.participantId)
    (fun s x => { s with participantId := x }) slotParticipantIdOffset := .tail 1 (.tail 32 .head)

theorem partInboundPolicy : Part bytes u8Bytes (·.inboundChannelPolicy)
    (fun s x => { s with inboundChannelPolicy := x }) slotInboundPolicyOffset :=
  .tail 1 (.tail 32 (.tail 4 .head))

theorem partBlsSchemeVersion : Part bytes u8Bytes (·.blsSchemeVersion)
    (fun s x => { s with blsSchemeVersion := x }) slotBlsSchemeVersionOffset :=
  .tail 1 (.tail 32 (.tail 4 (.tail 1 .head)))

theorem partBlsPubkey : Part bytes (arrayBytes blsPublicKeyCompressedSize) (·.blsPubkeyCompressed)
    (fun s x => { s with blsPubkeyCompressed := x }) slotBlsPubkeyOffset :=
  .tail 1 (.tail 32 (.tail 4 (.tail 1 (.tail 1 .head))))

/-- The rows take up the rest of the slot. -/
theorem partTokenBalances : Part bytes (rows BucketTokenBalance.bytes) (·.tokenBalances)
    (fun s x => { s with tokenBalances := x }) slotTokenBalancesOffset :=
  .tail 1 (.tail 32 (.tail 4 (.tail 1 (.tail 1 (.tail blsPublicKeyCompressedSize .last)))))

/-- `token_entry_offset`: row `i` of a slot. -/
theorem partEntry (i : Fin maxBucketTokenBalances) : Part bytes BucketTokenBalance.bytes
    (fun s => s.tokenBalances i) (fun s e => s.setEntry i e)
    (slotTokenBalancesOffset + i.val * BucketTokenBalance.space) :=
  partTokenBalances.comp (.row BucketTokenBalance.length_bytes i)

end ParticipantBucketSlot

/-! ### Buckets -/

namespace ParticipantBucket

/-- `ParticipantBucket::SPACE`. -/
def space : Nat := 8 + 4 + 1 + participantBucketSlotCount * ParticipantBucketSlot.space

/-- The discriminator, and the serialised struct. -/
def bytes (b : ParticipantBucket) : List UInt8 :=
  discriminator ++ (u32Bytes b.bucketId ++ (u8Bytes b.bump ++ rows ParticipantBucketSlot.bytes b.slots))

/-- An account's data, which may be longer than the struct. -/
def image (more : List UInt8) (b : ParticipantBucket) : List UInt8 := b.bytes ++ more

@[simp] theorem length_bytes (b : ParticipantBucket) : b.bytes.length = space := by
  simp [bytes, space, discriminator, length_rows ParticipantBucketSlot.length_bytes]
  omega

/-- Initialized with bucket 0 and bump 0, the account is the discriminator and zeros. -/
theorem bytes_initializeAccountData : (initializeAccountData 0 0).bytes
    = discriminator ++ List.replicate (space - discriminator.length) 0 := by
  have hrows := rows_replicate (m := participantBucketSlotCount) ParticipantBucketSlot.bytes_empty
  rw [bytes, initializeAccountData, hrows]
  refine congrArg (discriminator ++ ·) ?_
  simp only [u32Bytes, u8Bytes]
  rw [show leBytes 4 ((0 : U32) : Nat) = List.replicate 4 0 from rfl,
    show leBytes 1 ((0 : U8) : Nat) = List.replicate 1 0 from rfl,
    List.replicate_append_replicate, List.replicate_append_replicate]
  rfl

/-- Every slot fits its fields. -/
def WellTyped (b : ParticipantBucket) : Prop := ∀ i, (b.slots i).WellTyped

variable (more : List UInt8)

/-- The bucket's id, at `BUCKET_ID_OFFSET`. -/
theorem partBucketId : Part (image more) u32Bytes (·.bucketId)
    (fun b x => { b with bucketId := x }) bucketIdOffset := .append (.tail 8 .head fun _ => rfl) more

theorem partBump : Part (image more) u8Bytes (·.bump)
    (fun b x => { b with bump := x }) bumpOffset := .append (.tail 8 (.tail 4 .head) fun _ => rfl) more

theorem partSlots : Part (image more) (rows ParticipantBucketSlot.bytes) (·.slots)
    (fun b x => { b with slots := x }) slotsOffset :=
  .append (.tail 8 (.tail 4 (.tail 1 .last)) fun _ => rfl) more

/-- `slot_offset`: slot `i` of a bucket. -/
theorem partSlot (i : Fin participantBucketSlotCount) : Part (image more) ParticipantBucketSlot.bytes
    (fun b => b.slots i) (fun b s => { b with slots := Function.update b.slots i s })
    (slotsOffset + i.val * ParticipantBucketSlot.space) :=
  (partSlots more).comp (.row ParticipantBucketSlot.length_bytes i)

end ParticipantBucket

end Ryvo
