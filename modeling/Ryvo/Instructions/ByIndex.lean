import Ryvo.Instructions.Deposits
import Ryvo.Instructions.SettleClearingRound
import Ryvo.Instructions.SettleCommitmentBundle
import Ryvo.Machine.AccountIndices

/-!
# Instructions — Remaining accounts by index

`settle_clearing_round`, `settle_commitment_bundle` and `deposit_for` with the bookkeeping of the source: what is bound to a bucket id, kept with a participant and read from or written to is the index of an account among the remaining accounts.  The handlers of the other modules keep the account itself.
-/

namespace Ryvo

variable (env : Env) (w : World)

/-- `&remaining[index]`. -/
def remainingAccount (remaining : List Pubkey) (index : Nat) : Result Pubkey :=
  okOr remaining[index]? (.account .notEnoughAccountKeys)

namespace SettleClearingRound.ByIndex

/-- The bucket's account is kept as its index. -/
abbrev ParticipantRoundState := RoundState Nat

/-- The state of the first loop. -/
structure Roster (α : Type) where
  seenParticipantIds : List U32
  participantBucketBindings : IndexBindings U32
  nextParticipantBucketAccountIndex : Nat
  states : List ParticipantRoundState
  aggregate : Option α

variable {α : Type} (auth : Authentication α) (remaining : List Pubkey)

def openBlock (tokenId : U16) (r : Roster α) (block : ParticipantBlockMeta) :
    Result (Roster α) := do
  let seenParticipantIds ←
    insertUnique .invalidClearingRoundMessage r.seenParticipantIds block.participantId
  let (bindings, next, index) ← IndexBindings.bind IndexBindings.searchSorted
    .invalidClearingRoundMessage (ParticipantBucket.verifyAccountInfo env w) remaining
    r.participantBucketBindings r.nextParticipantBucketAccountIndex
    (ParticipantBucket.bucketIdForParticipantId block.participantId)
  let account ← remainingAccount remaining index
  let data ← w.getParticipantBucket account
  let snapshot ← data.readClearingSnapshotFromData block.participantId tokenId
  require (snapshot.owner ≠ Pubkey.default) (.vault .participantNotFound)
  let aggregate ← foldIfPaying auth r.aggregate snapshot block.entryCount
  pure { seenParticipantIds
         participantBucketBindings := bindings
         nextParticipantBucketAccountIndex := next
         aggregate
         states := r.states ++ [⟨block.participantId, index, snapshot.tokenTotalBalance, 0⟩] }

/-- The state of the second loop. -/
structure Progress where
  world : World
  channelBucketBindings : IndexBindings U64
  states : List ParticipantRoundState
  totalGross : Nat


/-- One entry, past the check of its payee reference.  The channel accounts come after the `nextParticipant` participant accounts. -/
def settleLane (nextParticipant : Nat) (tokenId : U16) (blockIndex : Nat) (p : Progress)
    (entry : ChannelEntry) : Result Progress := do
  let payer ← okOr p.states[blockIndex]? (.vault .invalidClearingRoundMessage)
  let payee ← okOr p.states[entry.payeeRef]? (.vault .invalidClearingRoundMessage)
  let (lower, higher, selector) ←
    ChannelBucket.canonicalize payer.participantId payee.participantId
  let channelBucketId ← ChannelBucket.bucketIdForPair lower higher
  let (bindings, _, index) ← IndexBindings.bind IndexBindings.searchSorted
    .invalidClearingRoundMessage
    (fun k id => ChannelBucket.verifyAccountInfo env p.world k tokenId id) remaining
    p.channelBucketBindings (nextParticipant + p.channelBucketBindings.length) channelBucketId
  let channel ← remainingAccount remaining index
  let channelData ← p.world.getChannelBucket channel
  let (laneOffset, lane) ← channelData.readLaneForSelectorFromData lower higher selector
  require (lane.settledCumulative < entry.targetCumulative) (.vault .commitmentAmountMustIncrease)
  let delta ← subU64 entry.targetCumulative lane.settledCumulative
  let totalGross ← addU64 p.totalGross delta
  let lockedConsumed := min lane.lockedBalance delta
  let uncoveredDelta ← subU64 delta lockedConsumed
  let states ← addPosition p.states blockIndex (-uncoveredDelta)
  let states ← addPosition states entry.payeeRef delta
  let (world, _) ← p.world.editChannelBucket channel
    (·.applyLaneSettlementAtOffsetInData laneOffset entry.targetCumulative lockedConsumed)
  pure ⟨world, bindings, states, totalGross⟩

def settleEntries (nextParticipant : Nat) (tokenId : U16) (blockIndex : Nat) :
    Nat → List UInt8 → Nat → Progress → Result Progress
  | 0, _, _, p => .ok p
  | n + 1, msg, seen, p => do
      let (entry, rest) ← parseChannelEntry msg
      require (entry.payeeRef < p.states.length) (.vault .invalidClearingRoundMessage)
      require (seen.testBit entry.payeeRef = false) (.vault .invalidClearingRoundMessage)
      let p ← settleLane env remaining nextParticipant tokenId blockIndex p entry
      settleEntries nextParticipant tokenId blockIndex n rest (seen ||| 1 <<< entry.payeeRef) p

def settleBlock (nextParticipant : Nat) (tokenId : U16) (p : Progress)
    (block : ParticipantBlockMeta × Nat) : Result Progress :=
  settleEntries env remaining nextParticipant tokenId block.2 block.1.entryCount block.1.entries 0 p


def applyPosition (tokenId : U16) (w : World) (participant : ParticipantRoundState) :
    Result World :=
  if participant.netPosition = 0 then .ok w
  else do
    let account ← remainingAccount remaining participant.bucketAccount
    let (w, _) ← w.editParticipantBucket account
      (·.applyTokenDeltaInData participant.participantId tokenId participant.netPosition)
    pure w

def openBlocks (layout : ParsedClearingRoundLayout) : Result (Roster α) :=
  layout.blocks.foldlM (openBlock env w auth remaining layout.tokenId) ⟨[], [], 0, [], none⟩

def settleBlocks (layout : ParsedClearingRoundLayout) (roster : Roster α) : Result Progress :=
  layout.blocks.zipIdx.foldlM
    (settleBlock env remaining roster.nextParticipantBucketAccountIndex layout.tokenId)
    ⟨w, [], roster.states, 0⟩

def settle (layout : ParsedClearingRoundLayout) : Result World := do
  let roster ← openBlocks env w auth remaining layout
  auth.verify roster.aggregate
  let p ← settleBlocks env w remaining layout roster
  require (roster.nextParticipantBucketAccountIndex + p.channelBucketBindings.length
    = remaining.length) (.vault .invalidClearingRoundMessage)
  let _ ← p.states.foldlM checkPosition 0
  let w ← p.states.foldlM (applyPosition remaining layout.tokenId) p.world
  let _ ← tryFrom (2 ^ 16) layout.blocks.length (Error.vault .mathOverflow)
  let _ ← tryFrom (2 ^ 16) layout.channelCount (Error.vault .mathOverflow)
  pure w

def handler (sysvar : InstructionsSysvar) (message : List UInt8)
    (aggregateSignatureCompressed : Bytes 48) : Result World := do
  let config ← w.getGlobalConfig
  Ed25519.assertNoCpi env sysvar
  let layout ← parseClearingRoundLayoutWithVersion message config Bls.clearingRoundMessageVersion
  w.requireToken layout.tokenId
  settle env w (blsAuthentication env message aggregateSignatureCompressed.val) remaining layout

end SettleClearingRound.ByIndex

namespace SettleCommitmentBundle.ByIndex

/-- `insert_seen_sorted_u32` and `push`: the sorted ids, and the ids in the order in which they first come up. -/
def addUnseen (state : List U32 × List U32) (bucketId : U32) : List U32 × List U32 :=
  match binarySearchByKey id state.1 bucketId with
  | .ok _ => state
  | .error position => (state.1.insertIdx position bucketId, state.2 ++ [bucketId])

/-- The payee's bucket, then the payers'. -/
def participantBucketIds (payeeId : U32) (payerIds : List U32) : List U32 :=
  ((ParticipantBucket.bucketIdForParticipantId payeeId ::
    payerIds.map ParticipantBucket.bucketIdForParticipantId).foldl addUnseen ([], [])).2

variable (remaining : List Pubkey)

/-- One round of the loop that verifies and binds the participant buckets. -/
def bindBucket (bound : IndexBindings U32) (bucket : U32 × Nat) : Result (IndexBindings U32) := do
  let account ← remainingAccount remaining bucket.2
  ParticipantBucket.verifyAccountInfo env w account bucket.1
  match IndexBindings.searchSorted bound bucket.1 with
  | .error position => .ok (bound.insertIdx position bucket)
  | .ok _ => .error (.vault .invalidCommitmentMessage) -- `unwrap_err` does not get here: the ids are distinct.

def findBucketAccountIndex (bound : IndexBindings U32) (bucketId : U32) : Result Nat :=
  match IndexBindings.searchSorted bound bucketId with
  | .ok position => do
      let (_, index) ← okOr bound[position]? (.account .notEnoughAccountKeys)
      pure index
  | .error _ => .error (.vault .participantNotFound)

/-- The state of the second loop. -/
structure Progress where
  world : World
  channelBucketBindings : IndexBindings U64
  nextChannelBucketAccountIndex : Nat
  seenLaneKeys : List Nat
  deltas : BalanceDeltas
  total : Nat

def settleCommitment (auth : Authorities) (buckets : IndexBindings U32) (payeeOwner : Pubkey)
    (p : Progress) (commitment : ParsedBundleCommitment) : Result Progress := do
  let parsed := commitment.parsed
  require ((auth commitment).submitter payeeOwner = true) (.vault .unauthorizedSettler)
  let seenLaneKeys ← insertUnique .invalidCommitmentMessage p.seenLaneKeys
    (laneKey parsed.payerId parsed.payeeId)
  let (lower, higher, selector) ← ChannelBucket.canonicalize parsed.payerId parsed.payeeId
  let channelBucketId ← ChannelBucket.bucketIdForPair lower higher
  let (bindings, next, index) ← IndexBindings.bind IndexBindings.searchSorted
    .invalidCommitmentMessage
    (fun k id => ChannelBucket.verifyAccountInfo env p.world k parsed.tokenId id) remaining
    p.channelBucketBindings p.nextChannelBucketAccountIndex channelBucketId
  let channel ← remainingAccount remaining index
  let channelData ← p.world.getChannelBucket channel
  let (laneOffset, lane) ← channelData.readLaneForSelectorFromData lower higher selector
  require ((auth commitment).signer lane.authorizedSigner = true) (.vault .invalidSignature)
  require (lane.settledCumulative < parsed.committedAmount) (.vault .commitmentAmountMustIncrease)
  let amount ← subU64 parsed.committedAmount lane.settledCumulative
  let lockedConsumed := min lane.lockedBalance amount
  let payerIndex ← findBucketAccountIndex buckets
    (ParticipantBucket.bucketIdForParticipantId parsed.payerId)
  let payerBucket ← remainingAccount remaining payerIndex
  let payerData ← p.world.getParticipantBucket payerBucket
  let payerTokenBalance ← payerData.readTokenTotalBalanceFromData parsed.payerId parsed.tokenId
  let totalAvailable ← addU64 lane.lockedBalance payerTokenBalance
  require (amount ≤ totalAvailable) (.vault .insufficientBalance)
  let sharedDebit ← subU64 amount lockedConsumed
  let total ← addU64 p.total amount
  let deltas ← addBalanceDelta p.deltas parsed.payerId (-sharedDebit)
  let deltas ← addBalanceDelta deltas parsed.payeeId amount
  let (world, _) ← p.world.editChannelBucket channel
    (·.applyLaneSettlementAtOffsetInData laneOffset parsed.committedAmount lockedConsumed)
  pure ⟨world, bindings, next, seenLaneKeys, deltas, total⟩

/-- One bucket of the last loop. -/
def applyBucket (tokenId : U16) (deltas : BalanceDeltas) (w : World) (bucket : U32 × Nat) :
    Result World := do
  let account ← remainingAccount remaining bucket.2
  let (w, _) ← w.editParticipantBucket account fun data => do
    let data ← deltas.foldlM (fun data delta =>
      SettleIndividual.applyIn bucket.1 data delta.1 tokenId delta.2) data
    pure (data, ())
  pure w

def settle (auth : Authorities) (tokenId : U16) (payeeId : U32)
    (commitments : List ParsedBundleCommitment) : Result World := do
  let ids := participantBucketIds payeeId (commitments.map (·.parsed.payerId))
  require (ids.length ≤ remaining.length) (.vault .invalidCommitmentMessage)
  let buckets ← ids.zipIdx.foldlM (bindBucket env w remaining) []
  let payeeIndex ← findBucketAccountIndex buckets
    (ParticipantBucket.bucketIdForParticipantId payeeId)
  let payeeBucket ← remainingAccount remaining payeeIndex
  let payeeData ← w.getParticipantBucket payeeBucket
  let payeeOwner ← payeeData.readSlotOwnerFromData payeeId
  let p ← commitments.foldlM (settleCommitment env remaining auth buckets payeeOwner)
    ⟨w, [], ids.length, [], [], 0⟩
  require (p.nextChannelBucketAccountIndex = remaining.length) (.vault .invalidCommitmentMessage)
  ids.zipIdx.foldlM (applyBucket remaining tokenId p.deltas) p.world

def handler (submitter : Pubkey) (sysvar : InstructionsSysvar) (count : U8) : Result World := do
  let config ← w.getGlobalConfig
  Ed25519.assertNoCpi env sysvar
  require (0 < count.val) (.vault .invalidCommitmentMessage)
  let commitments ← readCommitments sysvar config count.val
  let first ← okOr commitments.head? (.vault .invalidCommitmentMessage)
  w.requireToken first.parsed.tokenId
  settle env w remaining (authorities submitter) first.parsed.tokenId first.parsed.payeeId commitments

end SettleCommitmentBundle.ByIndex

namespace DepositFor.ByIndex

variable (remaining : List Pubkey)

/-- The state of the loop. -/
structure Progress where
  world : World
  bucketBindings : IndexBindings U32
  nextBucketAccountIndex : Nat

def creditOne (tokenId : U16) (p : Progress) (recipient : U32 × Nat) : Result Progress := do
  let (participantId, amount) := recipient
  require (0 < amount) (.vault .amountMustBePositive)
  let (bindings, next, index) ← IndexBindings.bind IndexBindings.searchFront .invalidDepositFor
    (ParticipantBucket.verifyAccountInfo env p.world) remaining p.bucketBindings
    p.nextBucketAccountIndex (ParticipantBucket.bucketIdForParticipantId participantId)
  let account ← remainingAccount remaining index
  let (w, _) ← p.world.editParticipantBucket account
    (·.applyTokenDeltaInData participantId tokenId amount)
  pure ⟨w, bindings, next⟩

def handler (funder funderTokenAccount : Pubkey) (tokenId : U16) (participantIds : List U32)
    (amounts : List Nat) : Result World := do
  let source ← w.getTokenAccount funderTokenAccount
  require (source.owner = funder) (.account .constraintRaw)
  let vault ← w.getTokenAccount (env.address (.vaultTokenAccount tokenId))
  require (amounts ≠ [] ∧ amounts.length = participantIds.length) (.vault .invalidDepositFor)
  require (amounts.length ≤ maxDepositForRecipients) (.vault .invalidDepositFor)
  let entry ← w.plainToken tokenId
  require (source.mint = entry.mint) (.vault .invalidTokenMint)
  require (vault.mint = entry.mint) (.vault .invalidTokenMint)
  let total ← sumAmounts amounts
  require (0 < total) (.vault .amountMustBePositive)
  let w ← w.tokenTransfer env funderTokenAccount (env.address (.vaultTokenAccount tokenId)) funder
    total
  let p ← (participantIds.zip amounts).foldlM (creditOne env remaining tokenId) ⟨w, [], 0⟩
  require (p.nextBucketAccountIndex = remaining.length) (.vault .invalidDepositFor)
  pure p.world

end DepositFor.ByIndex

end Ryvo
