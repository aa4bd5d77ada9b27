import Ryvo.Machine.World

/-!
# Instructions — Participants

`initialize_participant`, `update_inbound_channel_policy` and the shared start of every instruction a participant signs: `authenticated` looks the signer up in the owner index and checks the bucket that was passed for it.
-/

namespace Ryvo

variable (env : Env) (w : World)

/-- `participant_id_for_verified_owner` on the passed owner index bucket. -/
def World.participantIdForOwner (ownerIndexBucket owner : Pubkey) : Result U32 := do
  let index ← w.getOwnerIndexBucket ownerIndexBucket
  index.participantIdForVerifiedOwner env ownerIndexBucket owner

/-- The signer's participant id, with its participant bucket verified. -/
def World.authenticated (ownerIndexBucket participantBucket owner : Pubkey) : Result U32 := do
  let participantId ← w.participantIdForOwner env ownerIndexBucket owner
  ParticipantBucket.verifyAccountInfo env w participantBucket
    (ParticipantBucket.bucketIdForParticipantId participantId)
  pure participantId

namespace InitializeParticipant

/-- Create the bucket at its address, or verify the one that is there. -/
def createOrVerifyBucket (bucketId : U32) : Result World :=
  match w.participantBuckets (env.address (.participantBucket bucketId)) with
  | none => .ok (w.setParticipantBucket (env.address (.participantBucket bucketId))
      (ParticipantBucket.initializeAccountData bucketId (env.bump (.participantBucket bucketId))))
  | some _ => do
      ParticipantBucket.verifyAccountInfo env w (env.address (.participantBucket bucketId)) bucketId
      pure w

/-- `init_if_needed` followed by `initialize_if_needed`. -/
def initializeOwnerIndex (bucketId : U32) : Result OwnerIndexBucket :=
  ((w.ownerIndexBuckets (env.address (.ownerIndexBucket bucketId))).getD
    OwnerIndexBucket.zeroed).initializeIfNeeded bucketId (env.bump (.ownerIndexBucket bucketId))

def handler (owner feeRecipient : Pubkey) (participantBucketId ownerIndexBucketId : U32) :
    Result World := do
  let config ← w.getGlobalConfig
  require (feeRecipient = config.feeRecipient) (.vault .invalidFeeRecipient)
  let participantId := config.nextParticipantId
  require (participantBucketId = ParticipantBucket.bucketIdForParticipantId participantId)
    (.vault .bucketAccountMismatch)
  require (ownerIndexBucketId = OwnerIndexBucket.bucketIdForOwner env owner)
    (.vault .bucketAccountMismatch)
  let w ← createOrVerifyBucket env w participantBucketId
  let index ← initializeOwnerIndex env w ownerIndexBucketId
  let (w, _) ← w.editParticipantBucket (env.address (.participantBucket participantBucketId))
    fun data => do
      let data ← data.initializeSlotInData participantId owner
      pure (data, ())
  let index ← index.insertOwner owner participantId
  let w := w.setOwnerIndexBucket (env.address (.ownerIndexBucket ownerIndexBucketId)) index
  let next ← checkedAdd (2 ^ 32) participantId.val 1 (Error.vault .mathOverflow)
  pure (w.setGlobalConfig { config with nextParticipantId := Fin.ofNat _ next })

end InitializeParticipant

namespace UpdateInboundChannelPolicy

def handler (owner ownerIndexBucket participantBucket : Pubkey) (inboundChannelPolicy : U8) :
    Result World := do
  let policy ← InboundChannelPolicy.tryFrom inboundChannelPolicy
  let participantId ← w.authenticated env ownerIndexBucket participantBucket owner
  let (w, _) ← w.editParticipantBucket participantBucket
    (·.writeInboundChannelPolicyInData participantId policy)
  pure w

end UpdateInboundChannelPolicy

end Ryvo
