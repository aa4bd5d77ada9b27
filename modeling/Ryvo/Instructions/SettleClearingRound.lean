import Ryvo.Bls.Signature
import Ryvo.Instructions.Channels
import Ryvo.Machine.Bindings
import Ryvo.Messages.ClearingRound
import Ryvo.Messages.Ed25519

/-!
# Instructions — Clearing rounds

`settle_clearing_round`: one message, signed by the aggregate of the keys of everyone who pays in it.  Every lane is settled, what it costs its payer beyond the lane's collateral and what it brings its payee go into one net position for each participant, and only the net positions touch balances.

The aggregation of keys and the check of the signature are the two fields of `Authentication`; the handler runs with `blsAuthentication`.
-/

namespace Ryvo

variable (env : Env) (w : World)

namespace SettleClearingRound

/-- What the loops keep of a participant.  `bucketAccount` is the account at `bucket_account_index`, or that index. -/
structure RoundState (κ : Type) where
  participantId : U32
  bucketAccount : κ
  tokenTotalBalance : Nat
  netPosition : Int

abbrev ParticipantRoundState := RoundState Pubkey

/-- How the keys of the paying blocks are folded into one, and how that one is checked. -/
structure Authentication (α : Type) where
  fold : Option α → ParticipantClearingSnapshot → Result α
  verify : Option α → Result Unit

/-- The key of a block that pays, which must be registered. -/
def foldBlsKey (aggregate : Option (List UInt8)) (snapshot : ParticipantClearingSnapshot) :
    Result (List UInt8) := do
  require (snapshot.blsSchemeVersion ≠ ParticipantBucketSlot.blsSchemeVersionUnregistered)
    (.vault .participantBlsKeyNotFound)
  require (snapshot.blsSchemeVersion = Bls.schemeVersionV1) (.vault .accountBlsKeyMismatch)
  Bls.aggregatePubkeyWithCompressedBe env aggregate snapshot.blsPubkeyCompressed

def blsAuthentication (message aggregateSignatureCompressed : List UInt8) :
    Authentication (List UInt8) where
  fold := foldBlsKey env
  verify aggregate := do
    let aggregatePubkey ← okOr aggregate (.vault .participantBlsKeyNotFound)
    Bls.verifySameMessageAggregateSignature env message aggregateSignatureCompressed aggregatePubkey

/-! ### The first loop: the roster -/

/-- The state of the first loop. -/
structure Roster (α : Type) where
  seenParticipantIds : List U32
  participants : Bindings U32
  states : List ParticipantRoundState
  aggregate : Option α

variable {α : Type} (auth : Authentication α)

/-- Only the keys of blocks with entries are aggregated. -/
def foldIfPaying (aggregate : Option α) (snapshot : ParticipantClearingSnapshot)
    (entryCount : Nat) : Result (Option α) :=
  if 0 < entryCount then do
    let aggregate ← auth.fold aggregate snapshot
    pure (some aggregate)
  else .ok aggregate

def openBlock (tokenId : U16) (r : Roster α) (block : ParticipantBlockMeta) :
    Result (Roster α) := do
  let seenParticipantIds ←
    insertUniqueSorted .invalidClearingRoundMessage r.seenParticipantIds block.participantId
  let (participants, account) ← r.participants.bind Bindings.insertSorted
    .invalidClearingRoundMessage (ParticipantBucket.verifyAccountInfo env w)
    (ParticipantBucket.bucketIdForParticipantId block.participantId)
  let data ← w.getParticipantBucket account
  let snapshot ← data.readClearingSnapshotFromData block.participantId tokenId
  require (snapshot.owner ≠ Pubkey.default) (.vault .participantNotFound)
  let aggregate ← foldIfPaying auth r.aggregate snapshot block.entryCount
  pure { seenParticipantIds, participants, aggregate
         states := r.states ++ [⟨block.participantId, account, snapshot.tokenTotalBalance, 0⟩] }

/-! ### The second loop: the lanes -/

/-- The state of the second loop. -/
structure Progress where
  world : World
  channels : Bindings U64
  states : List ParticipantRoundState
  totalGross : Nat

/-- `position.checked_add(delta)` at one participant. -/
def addPosition {κ : Type} (states : List (RoundState κ)) (index : Nat) (delta : Int) :
    Result (List (RoundState κ)) := do
  let state ← okOr states[index]? (.vault .invalidClearingRoundMessage)
  let netPosition ← signed 127 (state.netPosition + delta) (Error.vault .mathOverflow)
  pure (states.set index { state with netPosition })

/-- One entry, past the check of its payee reference. -/
def settleLane (tokenId : U16) (blockIndex : Nat) (p : Progress) (entry : ChannelEntry) :
    Result Progress := do
  let payer ← okOr p.states[blockIndex]? (.vault .invalidClearingRoundMessage)
  let payee ← okOr p.states[entry.payeeRef]? (.vault .invalidClearingRoundMessage)
  let (lower, higher, selector) ←
    ChannelBucket.canonicalize payer.participantId payee.participantId
  let channelBucketId ← ChannelBucket.bucketIdForPair lower higher
  let (channels, channel) ← p.channels.bind Bindings.insertSorted .invalidClearingRoundMessage
    (fun k id => ChannelBucket.verifyAccountInfo env p.world k tokenId id) channelBucketId
  let channelData ← p.world.getChannelBucket channel
  let (laneOffset, lane) ← channelData.readLaneForSelectorFromData lower higher selector
  require (lane.settledCumulative < entry.targetCumulative) (.vault .commitmentAmountMustIncrease)
  let delta ← subU64 entry.targetCumulative lane.settledCumulative
  let totalGross ← addU64 p.totalGross delta
  let lockedConsumed := min lane.lockedBalance delta
  let uncoveredDelta ← subU64 delta lockedConsumed
  let states ← addPosition p.states blockIndex (-uncoveredDelta)
  let states ← addPosition states entry.payeeRef delta
  let (world, _) ← p.world.editChannelBucket channel
    (·.applyLaneSettlementAtOffsetInData laneOffset entry.targetCumulative lockedConsumed)
  pure ⟨world, channels, states, totalGross⟩

/-- The entries of a block, read again from the message.  `seen` is `seen_payee_ref_words`, the four
words as one number. -/
def settleEntries (tokenId : U16) (blockIndex : Nat) :
    Nat → List UInt8 → Nat → Progress → Result Progress
  | 0, _, _, p => .ok p
  | n + 1, msg, seen, p => do
      let (entry, rest) ← parseChannelEntry msg
      require (entry.payeeRef < p.states.length) (.vault .invalidClearingRoundMessage)
      require (seen.testBit entry.payeeRef = false) (.vault .invalidClearingRoundMessage)
      let p ← settleLane env tokenId blockIndex p entry
      settleEntries tokenId blockIndex n rest (seen ||| 1 <<< entry.payeeRef) p

def settleBlock (tokenId : U16) (p : Progress) (block : ParticipantBlockMeta × Nat) :
    Result Progress :=
  settleEntries env tokenId block.2 block.1.entryCount block.1.entries 0 p

/-! ### The last two loops: the net positions -/

def checkPosition {κ : Type} (totalNetAdjusted : Nat) (participant : RoundState κ) : Result Nat :=
  if participant.netPosition < 0 then do
    let absPosition ← tryFrom u64Bound participant.netPosition.natAbs (Error.vault .mathOverflow)
    require (absPosition ≤ participant.tokenTotalBalance) (.vault .insufficientBalance)
    pure totalNetAdjusted
  else do
    let position ← tryFrom u64Bound participant.netPosition.natAbs (Error.vault .mathOverflow)
    addU64 totalNetAdjusted position

def applyPosition (tokenId : U16) (w : World) (participant : ParticipantRoundState) :
    Result World :=
  if participant.netPosition = 0 then .ok w
  else do
    let (w, _) ← w.editParticipantBucket participant.bucketAccount
      (·.applyTokenDeltaInData participant.participantId tokenId participant.netPosition)
    pure w

/-- Everything after the message is parsed and its token found. -/
def settle (remaining : List Pubkey) (layout : ParsedClearingRoundLayout) : Result World := do
  let roster ← layout.blocks.foldlM (openBlock env w auth layout.tokenId)
    ⟨[], ⟨[], remaining⟩, [], none⟩
  auth.verify roster.aggregate
  let p ← layout.blocks.zipIdx.foldlM (settleBlock env layout.tokenId)
    ⟨w, ⟨[], roster.participants.rest⟩, roster.states, 0⟩
  require (p.channels.rest = []) (.vault .invalidClearingRoundMessage)
  let _ ← p.states.foldlM checkPosition 0
  let w ← p.states.foldlM (applyPosition layout.tokenId) p.world
  let _ ← tryFrom (2 ^ 16) layout.blocks.length (Error.vault .mathOverflow)
  let _ ← tryFrom (2 ^ 16) layout.channelCount (Error.vault .mathOverflow)
  pure w

def handler (sysvar : InstructionsSysvar) (remaining : List Pubkey)
    (message : List UInt8) (aggregateSignatureCompressed : Bytes 48) : Result World := do
  let config ← w.getGlobalConfig
  Ed25519.assertNoCpi env sysvar
  let layout ← parseClearingRoundLayoutWithVersion message config Bls.clearingRoundMessageVersion
  w.requireToken layout.tokenId
  settle env w (blsAuthentication env message aggregateSignatureCompressed.val) remaining layout

end SettleClearingRound

namespace RegisterParticipantBlsKey

def handler (owner ownerIndexBucket participantBucket : Pubkey)
    (blsPubkeyCompressed : Bytes 96) (popSignatureCompressed : Bytes 48) : Result World := do
  let config ← w.getGlobalConfig
  let participantId ← w.authenticated env ownerIndexBucket participantBucket owner
  Bls.verifyPop env config.messageDomain participantId owner blsPubkeyCompressed.val
    popSignatureCompressed.val
  let data ← w.getParticipantBucket participantBucket
  let (_, blsSchemeVersion, _) ← data.readSlotOwnerAndBlsRegistrationFromData participantId
  require (blsSchemeVersion = ParticipantBucketSlot.blsSchemeVersionUnregistered)
    (.vault .participantBlsKeyAlreadyRegistered)
  let (w, _) ← w.editParticipantBucket participantBucket
    (·.writeBlsRegistrationInData participantId ParticipantBucketSlot.blsSchemeVersionV1
      blsPubkeyCompressed.val)
  pure w

end RegisterParticipantBlsKey

end Ryvo
