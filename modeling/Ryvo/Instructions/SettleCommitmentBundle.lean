import Ryvo.Instructions.SettleIndividual
import Ryvo.Machine.Bindings

/-!
# Instructions — Bundle settlement

`settle_commitment_bundle`: the commitments of one Ed25519 instruction, all to one payee and in one token.  The lanes are settled one after another; the balances are checked as they stood before the instruction, and changed at the end by one delta for each participant.
-/

namespace Ryvo

variable (env : Env) (w : World)

/-- The deltas collected so far, each participant once. -/
abbrev BalanceDeltas := List (U32 × Int)

/-- `add_balance_delta`: a zero delta is not recorded. -/
def addBalanceDelta : BalanceDeltas → U32 → Int → Result BalanceDeltas
  | [], participantId, delta => .ok (if delta = 0 then [] else [(participantId, delta)])
  | (p, existing) :: deltas, participantId, delta =>
      if delta = 0 then .ok ((p, existing) :: deltas)
      else if p = participantId then do
        let sum ← signed 127 (existing + delta) (Error.vault .netPositionOverflow)
        pure ((p, sum) :: deltas)
      else do
        let deltas ← addBalanceDelta deltas participantId delta
        pure ((p, existing) :: deltas)

namespace SettleCommitmentBundle

structure ParsedBundleCommitment where
  parsed : ParsedCommitmentMessage
  signerPubkey : Pubkey
  deriving DecidableEq

def laneKey (payerId payeeId : U32) : Nat := payerId.val * 2 ^ 32 + payeeId.val

/-- The first loop: parse each signed message, all for one token and one payee. -/
def parseCommitments (ixData : List UInt8) (config : GlobalConfig) (batch : Option (U16 × U32)) :
    List Nat → Result (List ParsedBundleCommitment)
  | [] => .ok []
  | i :: indices => do
      let signed ← Ed25519.signedMessage ixData i
      let parsed ← parseCommitmentMessage signed.message config
      require (batch.all (·.1 == parsed.tokenId) = true) (.vault .invalidCommitmentMessage)
      require (batch.all (·.2 == parsed.payeeId) = true) (.vault .accountIdMismatch)
      let commitments ← parseCommitments ixData config (some (parsed.tokenId, parsed.payeeId)) indices
      pure (⟨parsed, signed.signer⟩ :: commitments)

/-- `insert_seen_sorted_u32` and `push`: ids in the order in which they first come up. -/
def pushUnseen (ids : List U32) (id : U32) : List U32 := if id ∈ ids then ids else ids ++ [id]

/-- The payee's bucket, then the payers'. -/
def participantBucketIds (payeeId : U32) (payerIds : List U32) : List U32 :=
  (payerIds.map ParticipantBucket.bucketIdForParticipantId).foldl pushUnseen
    [ParticipantBucket.bucketIdForParticipantId payeeId]

/-- The state of the second loop. -/
structure Progress where
  world : World
  channels : Bindings U64
  seenLaneKeys : List Nat
  deltas : BalanceDeltas
  total : Nat

/-- The authorisation of each commitment. -/
abbrev Authorities := ParsedBundleCommitment → SettleIndividual.Authority

/-- The lane's signer signed, and the payee's owner or the named settler submits. -/
def authorities (submitter : Pubkey) : Authorities := fun commitment =>
  SettleIndividual.authority submitter commitment.signerPubkey commitment.parsed

/-- One commitment of the second loop. -/
def settleCommitment (auth : Authorities) (buckets : List (U32 × Pubkey)) (payeeOwner : Pubkey)
    (p : Progress) (commitment : ParsedBundleCommitment) : Result Progress := do
  let parsed := commitment.parsed
  require ((auth commitment).submitter payeeOwner = true) (.vault .unauthorizedSettler)
  let seenLaneKeys ← insertUniqueSorted .invalidCommitmentMessage p.seenLaneKeys
    (laneKey parsed.payerId parsed.payeeId)
  let (lower, higher, selector) ← ChannelBucket.canonicalize parsed.payerId parsed.payeeId
  let channelBucketId ← ChannelBucket.bucketIdForPair lower higher
  let (channels, channel) ← p.channels.bind Bindings.insertSorted .invalidCommitmentMessage
    (fun k id => ChannelBucket.verifyAccountInfo env p.world k parsed.tokenId id) channelBucketId
  let channelData ← p.world.getChannelBucket channel
  let (laneOffset, lane) ← channelData.readLaneForSelectorFromData lower higher selector
  require ((auth commitment).signer lane.authorizedSigner = true) (.vault .invalidSignature)
  require (lane.settledCumulative < parsed.committedAmount) (.vault .commitmentAmountMustIncrease)
  let amount ← subU64 parsed.committedAmount lane.settledCumulative
  let lockedConsumed := min lane.lockedBalance amount
  let payerBucket ← SettleIndividual.accountOf buckets
    (ParticipantBucket.bucketIdForParticipantId parsed.payerId)
  let payerData ← p.world.getParticipantBucket payerBucket
  let payerTokenBalance ← payerData.readTokenTotalBalanceFromData parsed.payerId parsed.tokenId
  let totalAvailable ← addU64 lane.lockedBalance payerTokenBalance
  require (amount ≤ totalAvailable) (.vault .insufficientBalance)
  let sharedDebit ← subU64 amount lockedConsumed
  let total ← addU64 p.total amount
  let deltas ← addBalanceDelta p.deltas parsed.payerId (-sharedDebit)
  let deltas ← addBalanceDelta deltas parsed.payeeId amount
  let (world, _) ← p.world.editChannelBucket channel
    (·.applyLaneSettlementAtOffsetInData laneOffset parsed.committedAmount lockedConsumed)
  pure ⟨world, channels, seenLaneKeys, deltas, total⟩

/-- One bucket of the last loop: the deltas of its participants, in the order collected. -/
def applyBucket (tokenId : U16) (deltas : BalanceDeltas) (w : World) (bucket : U32 × Pubkey) :
    Result World := do
  let (w, _) ← w.editParticipantBucket bucket.2 fun data => do
    let data ← deltas.foldlM (fun data delta =>
      SettleIndividual.applyIn bucket.1 data delta.1 tokenId delta.2) data
    pure (data, ())
  pure w

/-- Everything after the commitments are parsed and their token found. -/
def settle (auth : Authorities) (remaining : List Pubkey) (tokenId : U16) (payeeId : U32)
    (commitments : List ParsedBundleCommitment) : Result World := do
  let ids := participantBucketIds payeeId (commitments.map (·.parsed.payerId))
  require (ids.length ≤ remaining.length) (.vault .invalidCommitmentMessage)
  let buckets := ids.zip remaining
  let _ ← buckets.mapM (SettleIndividual.verifyBucket env w)
  let payeeBucket ← SettleIndividual.accountOf buckets
    (ParticipantBucket.bucketIdForParticipantId payeeId)
  let payeeData ← w.getParticipantBucket payeeBucket
  let payeeOwner ← payeeData.readSlotOwnerFromData payeeId
  let p ← commitments.foldlM (settleCommitment env auth buckets payeeOwner)
    ⟨w, ⟨[], remaining.drop ids.length⟩, [], [], 0⟩
  require (p.channels.rest = []) (.vault .invalidCommitmentMessage)
  buckets.foldlM (applyBucket tokenId p.deltas) p.world

/-- The commitments of the transaction. -/
def readCommitments (sysvar : InstructionsSysvar) (config : GlobalConfig) (count : Nat) :
    Result (List ParsedBundleCommitment) := do
  let ixData ← Ed25519.verifyEd25519Ix sysvar 0
  require (ixData.head?.map (·.toNat) = some count) (.vault .invalidCommitmentMessage)
  parseCommitments ixData config none (List.range count)

def handler (submitter : Pubkey) (sysvar : InstructionsSysvar) (remaining : List Pubkey)
    (count : U8) : Result World := do
  let config ← w.getGlobalConfig
  Ed25519.assertNoCpi env sysvar
  require (0 < count.val) (.vault .invalidCommitmentMessage)
  let commitments ← readCommitments sysvar config count.val
  let first ← okOr commitments.head? (.vault .invalidCommitmentMessage)
  w.requireToken first.parsed.tokenId
  settle env w (authorities submitter) remaining first.parsed.tokenId first.parsed.payeeId commitments

end SettleCommitmentBundle

end Ryvo
