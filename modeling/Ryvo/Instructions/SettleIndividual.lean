import Ryvo.Instructions.Channels
import Ryvo.Messages.Commitment
import Ryvo.Messages.Ed25519
import Ryvo.Machine.Bindings

/-!
# Instructions — Individual settlement

`settle_individual`: one commitment, signed in the Ed25519 instruction at index 0, moves what it adds to the lane's cumulative amount from the payer to the payee, the lane's collateral first.

The handler is the reading of the signed message followed by `settle`, which takes the two authorisation checks as predicates: on the lane's signer and on the payee's owner.
-/

namespace Ryvo

variable (env : Env) (w : World)

namespace SettleIndividual

/-- Who may sign and who may submit. -/
structure Authority where
  signer : Pubkey → Bool
  submitter : Pubkey → Bool

/-- The lane's signer signed, and the payee's owner or the named settler submits. -/
def authority (submitter signer : Pubkey) (parsed : ParsedCommitmentMessage) : Authority where
  signer authorizedSigner := signer == authorizedSigner
  submitter payeeOwner := submitter == payeeOwner || parsed.authorizedSettler == some submitter

/-- The buckets of the payer and the payee, each once. -/
def participantBucketIds (payerBucketId payeeBucketId : U32) : List U32 :=
  if payeeBucketId ≠ payerBucketId then [payerBucketId, payeeBucketId] else [payerBucketId]

/-- Apply a delta where the bucket is the participant's. -/
def applyIn (bucketId : U32) (data : ParticipantBucket) (participantId : U32) (tokenId : U16)
    (delta : Int) : Result ParticipantBucket :=
  if bucketId = ParticipantBucket.bucketIdForParticipantId participantId then do
    let (data, _) ← data.applyTokenDeltaInData participantId tokenId delta
    pure data
  else .ok data

/-- One bucket of the last loop: the payer's debit, then the payee's credit. -/
def applyBucket (parsed : ParsedCommitmentMessage) (payerDelta payeeDelta : Int) (w : World)
    (bucket : U32 × Pubkey) : Result World := do
  let (w, _) ← w.editParticipantBucket bucket.2 fun data => do
    let data ← applyIn bucket.1 data parsed.payerId parsed.tokenId payerDelta
    let data ← applyIn bucket.1 data parsed.payeeId parsed.tokenId payeeDelta
    pure (data, ())
  pure w

def verifyBucket (bucket : U32 × Pubkey) : Result Unit :=
  ParticipantBucket.verifyAccountInfo env w bucket.2 bucket.1

/-- The account supplied for a bucket. -/
def accountOf (buckets : List (U32 × Pubkey)) (bucketId : U32) : Result Pubkey :=
  okOr (Bindings.lookup buckets bucketId) (.vault .participantNotFound)

/-- Everything after the message is parsed and its token found. -/
def settle (auth : Authority) (remaining : List Pubkey) (parsed : ParsedCommitmentMessage) :
    Result World := do
  let payerBucketId := ParticipantBucket.bucketIdForParticipantId parsed.payerId
  let payeeBucketId := ParticipantBucket.bucketIdForParticipantId parsed.payeeId
  let ids := participantBucketIds payerBucketId payeeBucketId
  let (lower, higher, selector) ← ChannelBucket.canonicalize parsed.payerId parsed.payeeId
  let channelBucketId ← ChannelBucket.bucketIdForPair lower higher
  require (remaining.length = ids.length + 1) (.vault .invalidCommitmentMessage)
  let buckets := ids.zip remaining
  let _ ← buckets.mapM (verifyBucket env w)
  let channel ← okOr remaining[ids.length]? (.vault .invalidCommitmentMessage)
  ChannelBucket.verifyAccountInfo env w channel parsed.tokenId channelBucketId
  let channelData ← w.getChannelBucket channel
  let (laneOffset, lane) ← channelData.readLaneForSelectorFromData lower higher selector
  require (auth.signer lane.authorizedSigner = true) (.vault .invalidSignature)
  let payeeBucket ← accountOf buckets payeeBucketId
  let payeeData ← w.getParticipantBucket payeeBucket
  let payeeOwner ← payeeData.readSlotOwnerFromData parsed.payeeId
  require (auth.submitter payeeOwner = true) (.vault .unauthorizedSettler)
  require (lane.settledCumulative < parsed.committedAmount) (.vault .commitmentAmountMustIncrease)
  let amount ← subU64 parsed.committedAmount lane.settledCumulative
  let payerBucket ← accountOf buckets payerBucketId
  let payerData ← w.getParticipantBucket payerBucket
  let payerTokenBalance ← payerData.readTokenTotalBalanceFromData parsed.payerId parsed.tokenId
  let totalAvailable ← addU64 lane.lockedBalance payerTokenBalance
  require (amount ≤ totalAvailable) (.vault .insufficientBalance)
  let lockedConsumed := min lane.lockedBalance amount
  let sharedDebit ← subU64 amount lockedConsumed
  let (w, _) ← w.editChannelBucket channel
    (·.applyLaneSettlementAtOffsetInData laneOffset parsed.committedAmount lockedConsumed)
  buckets.foldlM (applyBucket parsed (-sharedDebit) amount) w

/-- The one commitment of the transaction, and who signed it. -/
def readCommitment (sysvar : InstructionsSysvar) (config : GlobalConfig) :
    Result (Pubkey × ParsedCommitmentMessage) := do
  let ixData ← Ed25519.verifyEd25519Ix sysvar 0
  require (ixData.head? = some 1) (.vault .invalidEd25519Data)
  let signed ← Ed25519.signedMessage ixData 0
  let parsed ← parseCommitmentMessage signed.message config
  pure (signed.signer, parsed)

def handler (submitter : Pubkey) (sysvar : InstructionsSysvar) (remaining : List Pubkey) :
    Result World := do
  let config ← w.getGlobalConfig
  Ed25519.assertNoCpi env sysvar
  let (signer, parsed) ← readCommitment sysvar config
  w.requireToken parsed.tokenId
  settle env w (authority submitter signer parsed) remaining parsed

end SettleIndividual

end Ryvo
