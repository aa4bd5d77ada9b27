import Ryvo.Layout.ChannelLayout
import Ryvo.Layout.ParticipantBytes

/-!
# Layout — Channel bytes

The program's accesses to the raw data of a channel bucket, like those to a participant bucket.  A snapshot of a lane carries the offset it was read at, and a settlement may be applied at that offset later on.
-/

namespace Ryvo

open Layout InPlace

structure ChannelLaneSettlementSnapshot where
  laneOffset : Nat
  settledCumulative : Nat
  lockedBalance : Nat
  deriving DecidableEq

structure ChannelLaneCommitmentSnapshot where
  laneOffset : Nat
  settledCumulative : Nat
  lockedBalance : Nat
  authorizedSigner : Pubkey
  deriving DecidableEq

namespace ChannelBytes

/-! ### Finding a slot and a lane -/

def requireValidDiscriminator (data : List UInt8) (errorCode : VaultError) : Result Unit :=
  require (discriminator.length ≤ data.length ∧ discriminator <+: data) (.vault errorCode)

def readTokenBucketAndBump (data : List UInt8) : Result (U16 × U64 × U8) := do
  requireValidDiscriminator data .bucketAccountMismatch
  require (ChannelBucket.space ≤ data.length) (.vault .bucketAccountMismatch)
  let tokenId ← readU16At data tokenIdOffset .bucketAccountMismatch
  let bucketId : U64 := Fin.ofNat _ (leNat (window data bucketIdOffset 8))
  let bump ← readU8At data bumpOffset .bucketAccountMismatch
  pure (tokenId, bucketId, bump)

/-- `SLOTS_OFFSET + slot_index * ChannelBucketSlot::SPACE`. -/
def slotOffsetAt (slotIndex : Fin channelBucketSlotCount) : Nat :=
  slotsOffset + slotIndex.val * ChannelBucketSlot.space

/-- The slot at the offset carries the pair. -/
def requirePair (data : List UInt8) (slotOffset : Nat) (lower higher : U32) : Result Unit := do
  let actualLower ← readU32At data (slotOffset + slotLowerParticipantIdOffset) .bucketSlotMismatch
  let actualHigher ← readU32At data (slotOffset + slotHigherParticipantIdOffset) .bucketSlotMismatch
  require (actualLower = lower ∧ actualHigher = higher) (.vault .bucketSlotMismatch)

def slotOffsetForPair (data : List UInt8) (lower higher : U32) : Result Nat := do
  let (_, bucketId, _) ← readTokenBucketAndBump data
  let expected ← ChannelBucket.bucketIdForPair lower higher
  require (bucketId = expected) (.vault .bucketAccountMismatch)
  require (ChannelBucket.space ≤ data.length) (.vault .bucketAccountMismatch)
  let slotIndex ← ChannelBucket.slotIndexForPair lower higher
  let slotOffset := slotOffsetAt slotIndex
  require (slotOffset + ChannelBucketSlot.space ≤ data.length) (.vault .bucketAccountMismatch)
  let initialized ← readBoolAt data (slotOffset + slotInitializedOffset) .channelNotInitialized
  require (initialized = true) (.vault .channelNotInitialized)
  requirePair data slotOffset lower higher
  pure slotOffset

def requireLane (data : List UInt8) (laneOffset : Nat) : Result Unit := do
  let initialized ← readBoolAt data (laneOffset + laneInitializedOffset) .channelNotInitialized
  require (initialized = true) (.vault .channelNotInitialized)

/-- The offset of a direction of a pair, whether the lane has been created or not. -/
def laneOffsetForSelector (data : List UInt8) (lower higher : U32) (selector : LaneSelector) :
    Result Nat := do
  let slotOffset ← slotOffsetForPair data lower higher
  pure (slotOffset + laneOffset selector)

/-- `canonicalize` and `slot_offset_for_pair`, with which most functions on a lane begin. -/
def resolvedLaneOffset (data : List UInt8) (payerId payeeId : U32) : Result Nat := do
  let (lower, higher, selector) ← ChannelBucket.canonicalize payerId payeeId
  laneOffsetForSelector data lower higher selector

/-! ### Readers -/

section
variable (data : List UInt8)

/-- The fields of a lane, one after another. -/
def readLaneCoreAt (laneOffset : Nat) : Result LaneCore := do
  let initialized ← readBoolAt data (laneOffset + laneInitializedOffset) .channelNotInitialized
  let settledCumulative ←
    readU64At data (laneOffset + laneSettledCumulativeOffset) .channelNotInitialized
  let lockedBalance ← readU64At data (laneOffset + laneLockedBalanceOffset) .channelNotInitialized
  let authorizedSigner ←
    readPubkeyAt data (laneOffset + laneAuthorizedSignerOffset) .channelNotInitialized
  let pendingUnlockAmount ←
    readU64At data (laneOffset + lanePendingUnlockAmountOffset) .channelNotInitialized
  let unlockRequestedAt := i64OfBytes (window data (laneOffset + laneUnlockRequestedAtOffset) 8)
  let pendingAuthorizedSigner ←
    readPubkeyAt data (laneOffset + lanePendingAuthorizedSignerOffset) .channelNotInitialized
  let authorizedSignerUpdateRequestedAt :=
    i64OfBytes (window data (laneOffset + laneAuthorizedSignerUpdateRequestedAtOffset) 8)
  pure ⟨initialized, settledCumulative, lockedBalance, authorizedSigner, pendingUnlockAmount,
    unlockRequestedAt, pendingAuthorizedSigner, authorizedSignerUpdateRequestedAt⟩

def readResolvedLaneCoreFromData (payerId payeeId : U32) : Result LaneCore := do
  let laneOffset ← resolvedLaneOffset data payerId payeeId
  readLaneCoreAt data laneOffset

def readLaneSettlementForSelectorFromData (lower higher : U32) (selector : LaneSelector) :
    Result ChannelLaneSettlementSnapshot := do
  let laneOffset ← laneOffsetForSelector data lower higher selector
  requireLane data laneOffset
  let settledCumulative ←
    readU64At data (laneOffset + laneSettledCumulativeOffset) .channelNotInitialized
  let lockedBalance ← readU64At data (laneOffset + laneLockedBalanceOffset) .channelNotInitialized
  pure ⟨laneOffset, settledCumulative, lockedBalance⟩

def readResolvedLaneSettlementFromData (payerId payeeId : U32) :
    Result ChannelLaneSettlementSnapshot := do
  let (lower, higher, selector) ← ChannelBucket.canonicalize payerId payeeId
  readLaneSettlementForSelectorFromData data lower higher selector

def readLaneCommitmentForSelectorFromData (lower higher : U32) (selector : LaneSelector) :
    Result ChannelLaneCommitmentSnapshot := do
  let laneOffset ← laneOffsetForSelector data lower higher selector
  requireLane data laneOffset
  let settledCumulative ←
    readU64At data (laneOffset + laneSettledCumulativeOffset) .channelNotInitialized
  let lockedBalance ← readU64At data (laneOffset + laneLockedBalanceOffset) .channelNotInitialized
  let authorizedSigner ←
    readPubkeyAt data (laneOffset + laneAuthorizedSignerOffset) .channelNotInitialized
  pure ⟨laneOffset, settledCumulative, lockedBalance, authorizedSigner⟩

def readResolvedLaneCommitmentFromData (payerId payeeId : U32) :
    Result ChannelLaneCommitmentSnapshot := do
  let (lower, higher, selector) ← ChannelBucket.canonicalize payerId payeeId
  readLaneCommitmentForSelectorFromData data lower higher selector

end

/-! ### Mutators -/

def capPendingUnlockAtLaneOffsetInData (laneOffset maxPendingAmount : Nat) : Edit Unit := do
  let pendingUnlockAmount ←
    read (readU64At · (laneOffset + lanePendingUnlockAmountOffset) .mathOverflow)
  if pendingUnlockAmount = 0 then
    write (writeI64At · (laneOffset + laneUnlockRequestedAtOffset) .mathOverflow 0)
  else if pendingUnlockAmount ≤ maxPendingAmount then pure ()
  else
    write (writeU64At · (laneOffset + lanePendingUnlockAmountOffset) .mathOverflow maxPendingAmount)
    if maxPendingAmount = 0 then
      write (writeI64At · (laneOffset + laneUnlockRequestedAtOffset) .mathOverflow 0)
    else pure ()

def applyLaneSettlementAtOffsetInData (laneOffset targetCumulative lockedConsumed : Nat) :
    Edit Unit := do
  read fun data =>
    require (laneOffset + laneLockedBalanceOffset + 8 ≤ data.length) (.vault .bucketAccountMismatch)
  read (requireLane · laneOffset)
  let lockedBalance ← read (readU64At · (laneOffset + laneLockedBalanceOffset) .mathOverflow)
  let nextLockedBalance ← lift (subU64 lockedBalance lockedConsumed)
  write (writeU64At · (laneOffset + laneLockedBalanceOffset) .mathOverflow nextLockedBalance)
  capPendingUnlockAtLaneOffsetInData laneOffset nextLockedBalance
  write (writeU64At · (laneOffset + laneSettledCumulativeOffset) .mathOverflow targetCumulative)

def applyLaneSettlementForSelectorInData (lower higher : U32) (selector : LaneSelector)
    (targetCumulative lockedConsumed : Nat) : Edit Unit := do
  let laneOffset ← read (laneOffsetForSelector · lower higher selector)
  applyLaneSettlementAtOffsetInData laneOffset targetCumulative lockedConsumed

def initializeAccountData (tokenId : U16) (bucketId : U64) (bump : U8) : Edit Unit := do
  read fun data => require (ChannelBucket.space ≤ data.length) (.vault .bucketAccountMismatch)
  write fun data => .ok (fillZero data 0 ChannelBucket.space)
  write fun data => .ok (overwrite data 0 discriminator)
  write (writeU16At · tokenIdOffset .bucketAccountMismatch tokenId)
  write (writeU64At · bucketIdOffset .bucketAccountMismatch bucketId.val)
  write (writeU8At · bumpOffset .bucketAccountMismatch bump)

/-- The slot of a pair, which is cleared and claimed where it is still free. -/
def claimSlotInData (slotOffset : Nat) (lower higher : U32) : Edit Unit := do
  let slotInitialized ←
    read (readBoolAt · (slotOffset + slotInitializedOffset) .bucketAccountMismatch)
  if slotInitialized then read (requirePair · slotOffset lower higher)
  else
    write fun data => .ok (fillZero data slotOffset ChannelBucketSlot.space)
    write (writeBoolAt · (slotOffset + slotInitializedOffset) .bucketAccountMismatch true)
    write (writeU32At · (slotOffset + slotLowerParticipantIdOffset) .bucketSlotMismatch lower)
    write (writeU32At · (slotOffset + slotHigherParticipantIdOffset) .bucketSlotMismatch higher)

/-- The lane at an offset, which must not have been created. -/
def openLaneInData (laneOffset : Nat) (authorizedSigner : Pubkey) : Edit Unit := do
  let initialized ← read (readBoolAt · (laneOffset + laneInitializedOffset) .channelAlreadyExists)
  lift (require (initialized = false) (.vault .channelAlreadyExists))
  write fun data => .ok (fillZero data laneOffset DirectionalLaneState.space)
  write (writeBoolAt · (laneOffset + laneInitializedOffset) .channelAlreadyExists true)
  write (writePubkeyAt · (laneOffset + laneAuthorizedSignerOffset) .bucketAccountMismatch
    authorizedSigner)

def initializeLaneInData (tokenId : U16) (lower higher : U32) (selector : LaneSelector)
    (authorizedSigner : Pubkey) : Edit Unit := do
  let (actualTokenId, bucketId, _) ← read readTokenBucketAndBump
  lift (require (actualTokenId = tokenId) (.vault .invalidTokenMint))
  let expected ← lift (ChannelBucket.bucketIdForPair lower higher)
  lift (require (bucketId = expected) (.vault .bucketAccountMismatch))
  read fun data => require (ChannelBucket.space ≤ data.length) (.vault .bucketAccountMismatch)
  let slotIndex ← lift (ChannelBucket.slotIndexForPair lower higher)
  let slotOffset := slotOffsetAt slotIndex
  read fun data =>
    require (slotOffset + ChannelBucketSlot.space ≤ data.length) (.vault .bucketAccountMismatch)
  claimSlotInData slotOffset lower higher
  openLaneInData (slotOffset + laneOffset selector) authorizedSigner

section
variable (payerId payeeId : U32)

def applyLaneSettlementInData (targetCumulative lockedConsumed : Nat) : Edit Unit := do
  let (lower, higher, selector) ← lift (ChannelBucket.canonicalize payerId payeeId)
  applyLaneSettlementForSelectorInData lower higher selector targetCumulative lockedConsumed

def addLaneLockedBalanceInData (amount : Nat) : Edit Nat := do
  let laneOffset ← read (resolvedLaneOffset · payerId payeeId)
  read (requireLane · laneOffset)
  let lockedBalance ← read (readU64At · (laneOffset + laneLockedBalanceOffset) .mathOverflow)
  let nextLockedBalance ← lift (addU64 lockedBalance amount)
  write (writeU64At · (laneOffset + laneLockedBalanceOffset) .mathOverflow nextLockedBalance)
  pure nextLockedBalance

def requestLaneUnlockInData (amount : Nat) (requestedAt : Int) : Edit Unit := do
  let laneOffset ← read (resolvedLaneOffset · payerId payeeId)
  read (requireLane · laneOffset)
  let lockedBalance ←
    read (readU64At · (laneOffset + laneLockedBalanceOffset) .insufficientLockedBalance)
  lift (require (amount ≤ lockedBalance) (.vault .insufficientLockedBalance))
  write (writeU64At · (laneOffset + lanePendingUnlockAmountOffset) .mathOverflow amount)
  write (writeI64At · (laneOffset + laneUnlockRequestedAtOffset) .mathOverflow requestedAt)

def executeLaneUnlockInData : Edit (Nat × Nat) := do
  let laneOffset ← read (resolvedLaneOffset · payerId payeeId)
  read (requireLane · laneOffset)
  let pendingUnlockAmount ←
    read (readU64At · (laneOffset + lanePendingUnlockAmountOffset) .noChannelUnlockPending)
  let unlockRequestedAt ←
    read (readI64At · (laneOffset + laneUnlockRequestedAtOffset) .noChannelUnlockPending)
  lift (require (0 < pendingUnlockAmount ∧ unlockRequestedAt ≠ 0) (.vault .noChannelUnlockPending))
  let lockedBalance ← read (readU64At · (laneOffset + laneLockedBalanceOffset) .mathOverflow)
  let releasedAmount := min pendingUnlockAmount lockedBalance
  let remainingLocked ← lift (subU64 lockedBalance releasedAmount)
  write (writeU64At · (laneOffset + laneLockedBalanceOffset) .mathOverflow remainingLocked)
  write (writeU64At · (laneOffset + lanePendingUnlockAmountOffset) .mathOverflow 0)
  write (writeI64At · (laneOffset + laneUnlockRequestedAtOffset) .mathOverflow 0)
  pure (releasedAmount, remainingLocked)

def cooperativeUnlockLaneInData (amount : Nat) : Edit (Nat × Nat) := do
  let laneOffset ← read (resolvedLaneOffset · payerId payeeId)
  read (requireLane · laneOffset)
  let lockedBalance ←
    read (readU64At · (laneOffset + laneLockedBalanceOffset) .insufficientLockedBalance)
  lift (require (amount ≤ lockedBalance) (.vault .insufficientLockedBalance))
  let remainingLocked ← lift (subU64 lockedBalance amount)
  write (writeU64At · (laneOffset + laneLockedBalanceOffset) .mathOverflow remainingLocked)
  capPendingUnlockAtLaneOffsetInData laneOffset remainingLocked
  pure (amount, remainingLocked)

def requestAuthorizedSignerUpdateInData (newSigner : Pubkey) (requestedAt : Int) :
    Edit Pubkey := do
  let laneOffset ← read (resolvedLaneOffset · payerId payeeId)
  read (requireLane · laneOffset)
  let currentAuthorizedSigner ←
    read (readPubkeyAt · (laneOffset + laneAuthorizedSignerOffset) .channelNotInitialized)
  lift (require (newSigner ≠ Pubkey.default ∧ newSigner ≠ currentAuthorizedSigner)
    (.vault .invalidAuthorizedSigner))
  write (writePubkeyAt · (laneOffset + lanePendingAuthorizedSignerOffset) .invalidAuthorizedSigner
    newSigner)
  write (writeI64At · (laneOffset + laneAuthorizedSignerUpdateRequestedAtOffset) .mathOverflow
    requestedAt)
  pure currentAuthorizedSigner

def executeAuthorizedSignerUpdateInData : Edit (Pubkey × Pubkey) := do
  let laneOffset ← read (resolvedLaneOffset · payerId payeeId)
  read (requireLane · laneOffset)
  let previousAuthorizedSigner ←
    read (readPubkeyAt · (laneOffset + laneAuthorizedSignerOffset) .channelNotInitialized)
  let newAuthorizedSigner ← read (readPubkeyAt · (laneOffset + lanePendingAuthorizedSignerOffset)
    .noAuthorizedSignerUpdatePending)
  let updateRequestedAt ← read (readI64At ·
    (laneOffset + laneAuthorizedSignerUpdateRequestedAtOffset) .noAuthorizedSignerUpdatePending)
  lift (require (newAuthorizedSigner ≠ Pubkey.default ∧ updateRequestedAt ≠ 0)
    (.vault .noAuthorizedSignerUpdatePending))
  write (writePubkeyAt · (laneOffset + laneAuthorizedSignerOffset) .invalidAuthorizedSigner
    newAuthorizedSigner)
  write (writePubkeyAt · (laneOffset + lanePendingAuthorizedSignerOffset) .invalidAuthorizedSigner
    Pubkey.default)
  write (writeI64At · (laneOffset + laneAuthorizedSignerUpdateRequestedAtOffset) .mathOverflow 0)
  pure (previousAuthorizedSigner, newAuthorizedSigner)

end

end ChannelBytes

end Ryvo
