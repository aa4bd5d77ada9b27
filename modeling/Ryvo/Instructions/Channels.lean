import Ryvo.Instructions.Participants

/-!
# Instructions — Channels

`create_channel`, locking collateral, the two ways of unlocking it, and the update of a lane's authorised signer.  Every one but `cooperative_unlock_channel_funds` and a consented `create_channel` is signed by the payer alone.
-/

namespace Ryvo

variable (env : Env) (w : World)

/-- The registry knows the token. -/
def World.requireToken (tokenId : U16) : Result Unit := do
  let registry ← w.getTokenRegistry
  let _ ← okOr (registry.findToken tokenId) (.vault .tokenNotFound)

/-- Verify the passed channel bucket against the pair's. -/
def World.verifyLaneBucket (channelBucket : Pubkey) (tokenId : U16) (payerId payeeId : U32) :
    Result Unit := do
  let (lower, higher, _) ← ChannelBucket.canonicalize payerId payeeId
  let bucketId ← ChannelBucket.bucketIdForPair lower higher
  ChannelBucket.verifyAccountInfo env w channelBucket tokenId bucketId

namespace CreateChannel

def payeeOf (payerId lower higher : U32) : Result U32 :=
  if payerId = lower then .ok higher
  else if payerId = higher then .ok lower
  else .error (.vault .accountIdMismatch)

/-- A payee that signs must be the payee; whether it has to sign is its policy. -/
def checkConsent (policy : InboundChannelPolicy) (payeeOwnerKey : Pubkey)
    (payeeOwner : Option Pubkey) : Result Unit := do
  require (∀ k, payeeOwner = some k → k = payeeOwnerKey) (.vault .inboundChannelConsentRequired)
  match policy with
  | .permissionless => pure ()
  | .consentRequired =>
      require (payeeOwner = some payeeOwnerKey) (.vault .inboundChannelConsentRequired)
  | .disabled => .error (.vault .inboundChannelsDisabled)

/-- Create the bucket at its address, or verify the one that is there. -/
def createOrVerifyBucket (tokenId : U16) (bucketId : U64) : Result World :=
  match w.channelBuckets (env.address (.channelBucket tokenId bucketId)) with
  | none => .ok (w.setChannelBucket (env.address (.channelBucket tokenId bucketId))
      (ChannelBucket.initializeAccountData tokenId bucketId
        (env.bump (.channelBucket tokenId bucketId))))
  | some _ => do
      ChannelBucket.verifyAccountInfo env w (env.address (.channelBucket tokenId bucketId)) tokenId
        bucketId
      pure w

def handler (owner ownerIndexBucket payerBucket payeeBucket : Pubkey) (payeeOwner : Option Pubkey)
    (tokenId : U16) (lowerParticipantId higherParticipantId : U32) (channelBucketId : U64)
    (authorizedSigner : Option Pubkey) : Result World := do
  w.requireToken tokenId
  let payerId ← w.authenticated env ownerIndexBucket payerBucket owner
  let payerData ← w.getParticipantBucket payerBucket
  let payerOwner ← payerData.readSlotOwnerFromData payerId
  let payeeId ← payeeOf payerId lowerParticipantId higherParticipantId
  let (lower, higher, selector) ← ChannelBucket.canonicalize payerId payeeId
  require (lowerParticipantId = lower ∧ higherParticipantId = higher) (.vault .accountIdMismatch)
  ParticipantBucket.verifyAccountInfo env w payeeBucket
    (ParticipantBucket.bucketIdForParticipantId payeeId)
  let payeeData ← w.getParticipantBucket payeeBucket
  let payeeOwnerKey ← payeeData.readSlotOwnerFromData payeeId
  let payeePolicy ← payeeData.readInboundChannelPolicyFromData payeeId
  checkConsent payeePolicy payeeOwnerKey payeeOwner
  let expectedChannelBucketId ← ChannelBucket.bucketIdForPair lowerParticipantId higherParticipantId
  require (channelBucketId = expectedChannelBucketId) (.vault .bucketAccountMismatch)
  let w ← createOrVerifyBucket env w tokenId channelBucketId
  let (w, _) ← w.editChannelBucket (env.address (.channelBucket tokenId channelBucketId))
    fun data => do
      let data ← data.initializeLaneInData tokenId lowerParticipantId higherParticipantId selector
        (authorizedSigner.getD payerOwner)
      pure (data, ())
  pure w

end CreateChannel

namespace LockChannelFunds

def handler (owner ownerIndexBucket payerBucket channelBucket : Pubkey) (tokenId : U16)
    (payeeParticipantId : U32) (amount : Nat) : Result World := do
  require (0 < amount) (.vault .amountMustBePositive)
  w.requireToken tokenId
  let payerId ← w.authenticated env ownerIndexBucket payerBucket owner
  w.verifyLaneBucket env channelBucket tokenId payerId payeeParticipantId
  let (w, _) ← w.editParticipantBucket payerBucket
    (·.debitTokenAvailableInData payerId tokenId amount)
  let (w, _) ← w.editChannelBucket channelBucket
    (·.addLaneLockedBalanceInData payerId payeeParticipantId amount)
  pure w

end LockChannelFunds

namespace RequestUnlockChannelFunds

def handler (owner ownerIndexBucket channelBucket : Pubkey) (tokenId : U16)
    (payeeParticipantId : U32) (amount : Nat) : Result World := do
  let config ← w.getGlobalConfig
  require (0 < amount) (.vault .amountMustBePositive)
  let payerId ← w.participantIdForOwner env ownerIndexBucket owner
  w.verifyLaneBucket env channelBucket tokenId payerId payeeParticipantId
  let timelock ← config.effectiveChannelUnlockTimelockSeconds
  let _ ← addI64 w.clock timelock
  let (w, _) ← w.editChannelBucket channelBucket
    (·.requestLaneUnlockInData payerId payeeParticipantId amount w.clock)
  pure w

end RequestUnlockChannelFunds

namespace ExecuteUnlockChannelFunds

/-- The payer's bucket is only looked at where something is released. -/
def verifyIfReleased (payerBucket : Pubkey) (payerId : U32) (releasedAmount : Nat) : Result Unit :=
  if 0 < releasedAmount then
    ParticipantBucket.verifyAccountInfo env w payerBucket
      (ParticipantBucket.bucketIdForParticipantId payerId)
  else .ok ()

def creditIfReleased (payerBucket : Pubkey) (payerId : U32) (tokenId : U16)
    (releasedAmount : Nat) : Result World :=
  if 0 < releasedAmount then do
    let (w, _) ← w.editParticipantBucket payerBucket
      (·.applyTokenDeltaInData payerId tokenId releasedAmount)
    pure w
  else .ok w

def handler (owner ownerIndexBucket payerBucket channelBucket : Pubkey) (tokenId : U16)
    (payeeParticipantId : U32) : Result World := do
  let config ← w.getGlobalConfig
  let payerId ← w.participantIdForOwner env ownerIndexBucket owner
  w.verifyLaneBucket env channelBucket tokenId payerId payeeParticipantId
  let data ← w.getChannelBucket channelBucket
  let lane ← data.readResolvedLaneCoreFromData payerId payeeParticipantId
  require (lane.initialized = true) (.vault .channelNotInitialized)
  require (lane.hasPendingUnlock = true) (.vault .noChannelUnlockPending)
  let timelock ← config.effectiveChannelUnlockTimelockSeconds
  let unlockAt ← addI64 lane.unlockRequestedAt timelock
  require (unlockAt ≤ w.clock) (.vault .withdrawalLocked)
  verifyIfReleased env w payerBucket payerId (min lane.pendingUnlockAmount lane.lockedBalance)
  let (w, releasedAmount, _) ← w.editChannelBucket channelBucket
    (·.executeLaneUnlockInData payerId payeeParticipantId)
  creditIfReleased w payerBucket payerId tokenId releasedAmount

end ExecuteUnlockChannelFunds

namespace CooperativeUnlockChannelFunds

def handler (owner payeeOwner ownerIndexBucket payerBucket payeeBucket channelBucket : Pubkey)
    (tokenId : U16) (payeeParticipantId : U32) (amount : Nat) : Result World := do
  require (0 < amount) (.vault .amountMustBePositive)
  w.requireToken tokenId
  let payerId ← w.authenticated env ownerIndexBucket payerBucket owner
  ParticipantBucket.verifyAccountInfo env w payeeBucket
    (ParticipantBucket.bucketIdForParticipantId payeeParticipantId)
  let payeeData ← w.getParticipantBucket payeeBucket
  let payeeOwnerKey ← payeeData.readSlotOwnerFromData payeeParticipantId
  require (payeeOwner = payeeOwnerKey) (.vault .counterpartyConsentRequired)
  w.verifyLaneBucket env channelBucket tokenId payerId payeeParticipantId
  let (w, releasedAmount, _) ← w.editChannelBucket channelBucket
    (·.cooperativeUnlockLaneInData payerId payeeParticipantId amount)
  let (w, _) ← w.editParticipantBucket payerBucket
    (·.applyTokenDeltaInData payerId tokenId releasedAmount)
  pure w

end CooperativeUnlockChannelFunds

namespace RequestUpdateChannelAuthorizedSigner

def handler (owner ownerIndexBucket channelBucket : Pubkey) (tokenId : U16)
    (payeeParticipantId : U32) (newSigner : Pubkey) : Result World := do
  let config ← w.getGlobalConfig
  let payerId ← w.participantIdForOwner env ownerIndexBucket owner
  w.verifyLaneBucket env channelBucket tokenId payerId payeeParticipantId
  let timelock ← config.effectiveChannelUnlockTimelockSeconds
  let _ ← addI64 w.clock timelock
  let (w, _) ← w.editChannelBucket channelBucket
    (·.requestAuthorizedSignerUpdateInData payerId payeeParticipantId newSigner w.clock)
  pure w

end RequestUpdateChannelAuthorizedSigner

namespace ExecuteUpdateChannelAuthorizedSigner

def handler (owner ownerIndexBucket channelBucket : Pubkey) (tokenId : U16)
    (payeeParticipantId : U32) : Result World := do
  let config ← w.getGlobalConfig
  let payerId ← w.participantIdForOwner env ownerIndexBucket owner
  w.verifyLaneBucket env channelBucket tokenId payerId payeeParticipantId
  let data ← w.getChannelBucket channelBucket
  let lane ← data.readResolvedLaneCoreFromData payerId payeeParticipantId
  require (lane.initialized = true) (.vault .channelNotInitialized)
  require (lane.hasPendingAuthorizedSignerUpdate = true) (.vault .noAuthorizedSignerUpdatePending)
  let timelock ← config.effectiveChannelUnlockTimelockSeconds
  let activateAt ← addI64 lane.authorizedSignerUpdateRequestedAt timelock
  require (activateAt ≤ w.clock) (.vault .withdrawalLocked)
  let (w, _) ← w.editChannelBucket channelBucket
    (·.executeAuthorizedSignerUpdateInData payerId payeeParticipantId)
  pure w

end ExecuteUpdateChannelAuthorizedSigner

end Ryvo
