import Ryvo.State.Errors
import Ryvo.State.Chain
import Mathlib.Logic.Function.Basic

/-!
# State — Channel buckets

A channel bucket holds forty-six slots of one token.  A slot belongs to an unordered pair of participants and holds the two lanes between them, one in each direction.  As with participant buckets, an account is the record its bytes decode to.

Every edit but `initialize_lane_in_data` goes through `modifyLaneAt`, which requires that the lane at an offset has been created; `laneOffset` finds the offset of a pair and a direction.
-/

namespace Ryvo

structure DirectionalLaneState where
  initialized : Bool
  settledCumulative : Nat
  lockedBalance : Nat
  authorizedSigner : Pubkey
  pendingUnlockAmount : Nat
  unlockRequestedAt : Int
  pendingAuthorizedSigner : Pubkey
  authorizedSignerUpdateRequestedAt : Int
  deriving DecidableEq

/-- `LaneCore` is a copy of the lane's fields. -/
abbrev LaneCore := DirectionalLaneState

namespace DirectionalLaneState

def uninitialized : DirectionalLaneState :=
  ⟨false, 0, 0, Pubkey.default, 0, 0, Pubkey.default, 0⟩

/-- What `initialize_lane_in_data` writes. -/
def fresh (authorizedSigner : Pubkey) : DirectionalLaneState :=
  { uninitialized with initialized := true, authorizedSigner }

variable (lane : DirectionalLaneState)

def hasPendingUnlock : Bool :=
  decide (0 < lane.pendingUnlockAmount) && decide (lane.unlockRequestedAt ≠ 0)

def hasPendingAuthorizedSignerUpdate : Bool :=
  decide (lane.pendingAuthorizedSigner ≠ Pubkey.default)
    && decide (lane.authorizedSignerUpdateRequestedAt ≠ 0)

/-! ### The operations on one lane -/

/-- `cap_pending_unlock_at_lane_offset_in_data`. -/
def capPendingUnlock (maxPendingAmount : Nat) : DirectionalLaneState :=
  if lane.pendingUnlockAmount = 0 then { lane with unlockRequestedAt := 0 }
  else if lane.pendingUnlockAmount ≤ maxPendingAmount then lane
  else if maxPendingAmount = 0 then
    { lane with pendingUnlockAmount := maxPendingAmount, unlockRequestedAt := 0 }
  else { lane with pendingUnlockAmount := maxPendingAmount }

/-- `apply_lane_settlement_at_offset_in_data`. -/
def applySettlement (targetCumulative lockedConsumed : Nat) :
    Result (DirectionalLaneState × Unit) := do
  let nextLockedBalance ← subU64 lane.lockedBalance lockedConsumed
  let lane := { lane with lockedBalance := nextLockedBalance }.capPendingUnlock nextLockedBalance
  pure ({ lane with settledCumulative := targetCumulative }, ())

def addLockedBalance (amount : Nat) : Result (DirectionalLaneState × Nat) := do
  let nextLockedBalance ← addU64 lane.lockedBalance amount
  pure ({ lane with lockedBalance := nextLockedBalance }, nextLockedBalance)

def requestUnlock (amount : Nat) (requestedAt : Int) : Result (DirectionalLaneState × Unit) := do
  require (amount ≤ lane.lockedBalance) (.vault .insufficientLockedBalance)
  pure ({ lane with pendingUnlockAmount := amount, unlockRequestedAt := requestedAt }, ())

/-- The released amount and what stays locked. -/
def executeUnlock : Result (DirectionalLaneState × Nat × Nat) := do
  require (0 < lane.pendingUnlockAmount ∧ lane.unlockRequestedAt ≠ 0)
    (.vault .noChannelUnlockPending)
  let releasedAmount := min lane.pendingUnlockAmount lane.lockedBalance
  let remainingLocked ← subU64 lane.lockedBalance releasedAmount
  pure ({ lane with lockedBalance := remainingLocked, pendingUnlockAmount := 0,
                    unlockRequestedAt := 0 }, releasedAmount, remainingLocked)

def cooperativeUnlock (amount : Nat) : Result (DirectionalLaneState × Nat × Nat) := do
  require (amount ≤ lane.lockedBalance) (.vault .insufficientLockedBalance)
  let remainingLocked ← subU64 lane.lockedBalance amount
  let lane := { lane with lockedBalance := remainingLocked }.capPendingUnlock remainingLocked
  pure (lane, amount, remainingLocked)

def requestAuthorizedSignerUpdate (newSigner : Pubkey) (requestedAt : Int) :
    Result (DirectionalLaneState × Pubkey) := do
  require (newSigner ≠ Pubkey.default ∧ newSigner ≠ lane.authorizedSigner)
    (.vault .invalidAuthorizedSigner)
  pure ({ lane with pendingAuthorizedSigner := newSigner,
                    authorizedSignerUpdateRequestedAt := requestedAt }, lane.authorizedSigner)

def executeAuthorizedSignerUpdate : Result (DirectionalLaneState × Pubkey × Pubkey) := do
  require (lane.pendingAuthorizedSigner ≠ Pubkey.default
    ∧ lane.authorizedSignerUpdateRequestedAt ≠ 0) (.vault .noAuthorizedSignerUpdatePending)
  pure ({ lane with authorizedSigner := lane.pendingAuthorizedSigner,
                    pendingAuthorizedSigner := Pubkey.default,
                    authorizedSignerUpdateRequestedAt := 0 },
    lane.authorizedSigner, lane.pendingAuthorizedSigner)

end DirectionalLaneState

inductive LaneSelector where
  | lowerToHigher
  | higherToLower
  deriving DecidableEq

structure ChannelBucketSlot where
  initialized : Bool
  lowerParticipantId : U32
  higherParticipantId : U32
  lowerToHigher : DirectionalLaneState
  higherToLower : DirectionalLaneState
  deriving DecidableEq

namespace ChannelBucketSlot

def empty : ChannelBucketSlot := ⟨false, 0, 0, .uninitialized, .uninitialized⟩

def lane (slot : ChannelBucketSlot) : LaneSelector → DirectionalLaneState
  | .lowerToHigher => slot.lowerToHigher
  | .higherToLower => slot.higherToLower

def setLane (slot : ChannelBucketSlot) (selector : LaneSelector) (lane : DirectionalLaneState) :
    ChannelBucketSlot :=
  match selector with
  | .lowerToHigher => { slot with lowerToHigher := lane }
  | .higherToLower => { slot with higherToLower := lane }

end ChannelBucketSlot

def channelBucketSlotCount : Nat := 46

structure ChannelBucket where
  tokenId : U16
  bucketId : U64
  bump : U8
  slots : Fin channelBucketSlotCount → ChannelBucketSlot

/-- `lane_offset`: a slot of the bucket and a direction. -/
abbrev LaneOffset := Fin channelBucketSlotCount × LaneSelector

namespace ChannelBucket

/-- The pair in order, and which of its lanes runs from `payer_id` to `payee_id`. -/
def canonicalize (payerId payeeId : U32) : Result (U32 × U32 × LaneSelector) := do
  require (payerId ≠ payeeId) (.vault .selfChannelNotAllowed)
  if payerId < payeeId then pure (payerId, payeeId, .lowerToHigher)
  else pure (payeeId, payerId, .higherToLower)

/-- The position of the pair among all pairs, in `u64`. -/
def pairOrdinal (lower higher : U32) : Result Nat := do
  require (lower < higher) (.vault .selfChannelNotAllowed)
  let less ← subU64 higher.val 1
  let product ← checkedMul u64Bound higher.val less (Error.vault .mathOverflow)
  addU64 (product / 2) lower.val

def bucketIdForPair (lower higher : U32) : Result U64 := do
  let ordinal ← pairOrdinal lower higher
  pure (Fin.ofNat _ (ordinal / channelBucketSlotCount))

def slotIndexForPair (lower higher : U32) : Result (Fin channelBucketSlotCount) := do
  let ordinal ← pairOrdinal lower higher
  pure ⟨ordinal % channelBucketSlotCount, Nat.mod_lt _ (by decide)⟩

/-- `initialize_account_data`: every byte zero but the header. -/
def initializeAccountData (tokenId : U16) (bucketId : U64) (bump : U8) : ChannelBucket :=
  ⟨tokenId, bucketId, bump, fun _ => .empty⟩

variable (data : ChannelBucket)

def setSlot (i : Fin channelBucketSlotCount) (slot : ChannelBucketSlot) : ChannelBucket :=
  { data with slots := Function.update data.slots i slot }

/-- `slot_offset_for_pair`. -/
def slotOffsetForPair (lower higher : U32) : Result (Fin channelBucketSlotCount) := do
  let bucketId ← bucketIdForPair lower higher
  require (data.bucketId = bucketId) (.vault .bucketAccountMismatch)
  let offset ← slotIndexForPair lower higher
  require ((data.slots offset).initialized = true) (.vault .channelNotInitialized)
  require ((data.slots offset).lowerParticipantId = lower
    ∧ (data.slots offset).higherParticipantId = higher) (.vault .bucketSlotMismatch)
  pure offset

def laneAt (offset : LaneOffset) : DirectionalLaneState := (data.slots offset.1).lane offset.2

def setLaneAt (offset : LaneOffset) (lane : DirectionalLaneState) : ChannelBucket :=
  data.setSlot offset.1 ((data.slots offset.1).setLane offset.2 lane)

/-- Take the lane at the offset, which must have been created, and write back what `f` makes of it. -/
def modifyLaneAt {α : Type} (offset : LaneOffset)
    (f : DirectionalLaneState → Result (DirectionalLaneState × α)) :
    Result (ChannelBucket × α) := do
  require ((data.laneAt offset).initialized = true) (.vault .channelNotInitialized)
  let (lane, a) ← f (data.laneAt offset)
  pure (data.setLaneAt offset lane, a)

/-- The offset of the lane from `payer_id` to `payee_id`. -/
def laneOffset (payerId payeeId : U32) : Result LaneOffset := do
  let (lower, higher, selector) ← canonicalize payerId payeeId
  let slotOffset ← data.slotOffsetForPair lower higher
  pure (slotOffset, selector)

def modifyLane {α : Type} (payerId payeeId : U32)
    (f : DirectionalLaneState → Result (DirectionalLaneState × α)) :
    Result (ChannelBucket × α) := do
  let offset ← data.laneOffset payerId payeeId
  data.modifyLaneAt offset f

/-! ### The functions of the source -/

/-- Reads an uncreated lane as well; callers check `initialized`. -/
def readResolvedLaneCoreFromData (payerId payeeId : U32) : Result LaneCore := do
  let offset ← data.laneOffset payerId payeeId
  pure (data.laneAt offset)

/-- `read_lane_settlement_for_selector_from_data` and `read_lane_commitment_for_selector_from_data`:
both snapshots are the lane and its offset, the first without the signer. -/
def readLaneForSelectorFromData (lower higher : U32) (selector : LaneSelector) :
    Result (LaneOffset × DirectionalLaneState) := do
  let slotOffset ← data.slotOffsetForPair lower higher
  require ((data.laneAt (slotOffset, selector)).initialized = true) (.vault .channelNotInitialized)
  pure ((slotOffset, selector), data.laneAt (slotOffset, selector))

def applyLaneSettlementAtOffsetInData (offset : LaneOffset)
    (targetCumulative lockedConsumed : Nat) : Result (ChannelBucket × Unit) :=
  data.modifyLaneAt offset (·.applySettlement targetCumulative lockedConsumed)

def addLaneLockedBalanceInData (payerId payeeId : U32) (amount : Nat) :
    Result (ChannelBucket × Nat) :=
  data.modifyLane payerId payeeId (·.addLockedBalance amount)

def requestLaneUnlockInData (payerId payeeId : U32) (amount : Nat) (requestedAt : Int) :
    Result (ChannelBucket × Unit) :=
  data.modifyLane payerId payeeId (·.requestUnlock amount requestedAt)

def executeLaneUnlockInData (payerId payeeId : U32) : Result (ChannelBucket × Nat × Nat) :=
  data.modifyLane payerId payeeId (·.executeUnlock)

def cooperativeUnlockLaneInData (payerId payeeId : U32) (amount : Nat) :
    Result (ChannelBucket × Nat × Nat) :=
  data.modifyLane payerId payeeId (·.cooperativeUnlock amount)

def requestAuthorizedSignerUpdateInData (payerId payeeId : U32) (newSigner : Pubkey)
    (requestedAt : Int) : Result (ChannelBucket × Pubkey) :=
  data.modifyLane payerId payeeId (·.requestAuthorizedSignerUpdate newSigner requestedAt)

def executeAuthorizedSignerUpdateInData (payerId payeeId : U32) :
    Result (ChannelBucket × Pubkey × Pubkey) :=
  data.modifyLane payerId payeeId (·.executeAuthorizedSignerUpdate)

/-- A slot with its pair written and no lane created. -/
def claimedSlot (lower higher : U32) : ChannelBucketSlot :=
  { ChannelBucketSlot.empty with
    initialized := true, lowerParticipantId := lower, higherParticipantId := higher }

/-- The pair's slot, claimed if it is still free. -/
def claimSlot (slot : ChannelBucketSlot) (lower higher : U32) : Result ChannelBucketSlot :=
  if slot.initialized = true then do
    require (slot.lowerParticipantId = lower ∧ slot.higherParticipantId = higher)
      (.vault .bucketSlotMismatch)
    pure slot
  else pure (claimedSlot lower higher)

/-- The lane must not have been created. -/
def initializeLaneInData (tokenId : U16) (lower higher : U32) (selector : LaneSelector)
    (authorizedSigner : Pubkey) : Result ChannelBucket := do
  require (data.tokenId = tokenId) (.vault .invalidTokenMint)
  let bucketId ← bucketIdForPair lower higher
  require (data.bucketId = bucketId) (.vault .bucketAccountMismatch)
  let offset ← slotIndexForPair lower higher
  let slot ← claimSlot (data.slots offset) lower higher
  require ((slot.lane selector).initialized = false) (.vault .channelAlreadyExists)
  pure (data.setSlot offset (slot.setLane selector (.fresh authorizedSigner)))

def verifyExpectedPda (env : Env) (accountKey : Pubkey) (tokenId : U16) (bucketId : U64)
    (bump : U8) : Result Unit := do
  let expectedPda ←
    okOr (env.createProgramAddress (.channelBucket tokenId bucketId) bump)
      (.vault .bucketAccountMismatch)
  require (accountKey = expectedPda) (.vault .bucketAccountMismatch)

end ChannelBucket

end Ryvo
