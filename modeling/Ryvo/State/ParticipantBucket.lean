import Ryvo.State.Errors
import Ryvo.State.Chain
import Ryvo.Support.Tables

/-!
# State — Participant buckets

A participant bucket holds nine participant slots, and a slot sixteen token balances.  The program edits the account's bytes in place; here an account is the record those bytes decode to, and each `…_in_data` function of the source is a function of the record that returns the edited one.

Every one of them is an edit of one slot (`modifySlot`), and all but three an edit of one token balance in it (`withTokenEntry`).  What such an edit leaves alone is said once, at those two.
-/

namespace Ryvo

inductive InboundChannelPolicy where
  | permissionless
  | consentRequired
  | disabled
  deriving DecidableEq

/-- `InboundChannelPolicy::try_from(u8)`. -/
def InboundChannelPolicy.tryFrom (value : U8) : Result InboundChannelPolicy :=
  if value = 0 then .ok .permissionless
  else if value = 1 then .ok .consentRequired
  else if value = 2 then .ok .disabled
  else .error (.vault .invalidInboundChannelPolicy)

/-- `policy as u8`. -/
def InboundChannelPolicy.toU8 : InboundChannelPolicy → U8
  | .permissionless => 0
  | .consentRequired => 1
  | .disabled => 2

theorem InboundChannelPolicy.tryFrom_toU8 (p : InboundChannelPolicy) : tryFrom p.toU8 = .ok p := by
  cases p <;> rfl

structure BucketTokenBalance where
  initialized : Bool
  tokenId : U16
  availableBalance : Nat
  withdrawingBalance : Nat
  withdrawalUnlockAt : Int
  withdrawalDestination : Pubkey
  deriving DecidableEq

namespace BucketTokenBalance

def empty : BucketTokenBalance := ⟨false, 0, 0, 0, 0, Pubkey.default⟩

/-- The row a token gets on its first credit. -/
def fresh (tokenId : U16) : BucketTokenBalance := { empty with initialized := true, tokenId }

/-- Two rows of the same token, both in use or both free. -/
def SameKey (e e' : BucketTokenBalance) : Prop :=
  e'.initialized = e.initialized ∧ e'.tokenId = e.tokenId

end BucketTokenBalance

def maxBucketTokenBalances : Nat := 16
def blsPublicKeyCompressedSize : Nat := 96

structure ParticipantBucketSlot where
  initialized : Bool
  owner : Pubkey
  participantId : U32
  inboundChannelPolicy : U8
  blsSchemeVersion : U8
  blsPubkeyCompressed : List UInt8
  tokenBalances : Fin maxBucketTokenBalances → BucketTokenBalance

namespace ParticipantBucketSlot

def blsSchemeVersionUnregistered : U8 := 0
def blsSchemeVersionV1 : U8 := 1

/-- All bytes zero. -/
def empty : ParticipantBucketSlot where
  initialized := false
  owner := Pubkey.default
  participantId := 0
  inboundChannelPolicy := 0
  blsSchemeVersion := 0
  blsPubkeyCompressed := List.replicate blsPublicKeyCompressedSize 0
  tokenBalances := fun _ => .empty

/-- What `initialize_slot_in_data` writes. -/
def fresh (participantId : U32) (owner : Pubkey) : ParticipantBucketSlot :=
  { empty with
    initialized := true
    owner
    participantId
    inboundChannelPolicy := InboundChannelPolicy.consentRequired.toU8
    blsSchemeVersion := blsSchemeVersionUnregistered }

variable (s : ParticipantBucketSlot) (tokenId : U16)

/-- `token_entry_offset`. -/
def tokenEntryOffset : Option (Fin maxBucketTokenBalances) :=
  Table.find (·.initialized) (·.tokenId) s.tokenBalances tokenId

/-- The token's balance row, if it has one. -/
def tokenEntry : Option BucketTokenBalance :=
  Table.lookup (·.initialized) (·.tokenId) s.tokenBalances tokenId

def setEntry (i : Fin maxBucketTokenBalances) (e : BucketTokenBalance) : ParticipantBucketSlot :=
  { s with tokenBalances := Function.update s.tokenBalances i e }

/-- `find_or_create_token_entry_offset`. -/
def findOrCreateTokenEntryOffset : Result (ParticipantBucketSlot × Fin maxBucketTokenBalances) :=
  match s.tokenEntryOffset tokenId with
  | some offset => .ok (s, offset)
  | none =>
      match Table.free (·.initialized) s.tokenBalances with
      | some offset => .ok (s.setEntry offset (.fresh tokenId), offset)
      | none => .error (.vault .tooManyTokenBalances)

/-- Read the token's row, fail with `missing` where there is none, and write back what `f` makes of it. -/
def withTokenEntry {α : Type} (missing : VaultError)
    (f : BucketTokenBalance → Result (BucketTokenBalance × α)) :
    Result (ParticipantBucketSlot × α) := do
  let offset ← okOr (s.tokenEntryOffset tokenId) (.vault missing)
  let (e, a) ← f (s.tokenBalances offset)
  pure (s.setEntry offset e, a)

/-! ### The operations on one token balance -/

def readTokenTotalBalance : Result Nat := do
  let e ← okOr (s.tokenEntry tokenId) (.vault .tokenNotFound)
  addU64 e.availableBalance e.withdrawingBalance

def readTokenTotalBalanceOrZero : Result Nat :=
  match s.tokenEntry tokenId with
  | none => .ok 0
  | some e => addU64 e.availableBalance e.withdrawingBalance

/-- `TokenWithdrawalSnapshot`, as the row it is read from. -/
def readTokenWithdrawal : Result BucketTokenBalance :=
  okOr (s.tokenEntry tokenId) (.vault .tokenNotFound)

def debitTokenAvailable (amount : Nat) : Result (ParticipantBucketSlot × Nat) :=
  s.withTokenEntry tokenId .tokenNotFound fun e => do
    require (amount ≤ e.availableBalance) (.vault .insufficientBalance)
    let nextAvailable ← subU64 e.availableBalance amount
    pure ({ e with availableBalance := nextAvailable }, nextAvailable)

def initiateTokenWithdrawal (amount : Nat) (destination : Pubkey) (unlockAt : Int) :
    Result (ParticipantBucketSlot × Unit) :=
  s.withTokenEntry tokenId .tokenNotFound fun e => do
    require (e.withdrawalUnlockAt = 0) (.vault .withdrawalAlreadyPending)
    require (amount ≤ e.availableBalance) (.vault .insufficientBalance)
    let available ← subU64 e.availableBalance amount
    let withdrawing ← addU64 e.withdrawingBalance amount
    pure ({ e with availableBalance := available, withdrawingBalance := withdrawing,
                   withdrawalUnlockAt := unlockAt, withdrawalDestination := destination }, ())

/-- `clear_token_withdrawal_in_data`, on the row. -/
def cleared (e : BucketTokenBalance) : BucketTokenBalance :=
  { e with withdrawingBalance := 0, withdrawalUnlockAt := 0,
           withdrawalDestination := Pubkey.default }

def clearTokenWithdrawal : Result (ParticipantBucketSlot × Unit) :=
  s.withTokenEntry tokenId .tokenNotFound fun e => .ok (cleared e, ())

def cancelTokenWithdrawal : Result (ParticipantBucketSlot × Nat) :=
  s.withTokenEntry tokenId .noWithdrawalPending fun e => do
    require (e.withdrawalUnlockAt ≠ 0) (.vault .noWithdrawalPending)
    let available ← addU64 e.availableBalance e.withdrawingBalance
    pure (cleared { e with availableBalance := available }, e.withdrawingBalance)

/-- The positive branch of `apply_token_delta_in_data`. -/
def creditToken (amount : Nat) : Result (ParticipantBucketSlot × Unit) := do
  let (s, offset) ← s.findOrCreateTokenEntryOffset tokenId
  let nextAvailable ← addU64 (s.tokenBalances offset).availableBalance amount
  pure (s.setEntry offset { s.tokenBalances offset with availableBalance := nextAvailable }, ())

/-- A debit drains `available` before it touches `withdrawing`. -/
def drained (e : BucketTokenBalance) (amount : Nat) : Result BucketTokenBalance := do
  let total ← addU64 e.availableBalance e.withdrawingBalance
  require (amount ≤ total) (.vault .insufficientBalance)
  if amount ≤ e.availableBalance then
    pure { e with availableBalance := e.availableBalance - amount }
  else
    let withdrawing ← subU64 e.withdrawingBalance (amount - e.availableBalance)
    pure { e with availableBalance := 0, withdrawingBalance := withdrawing }

/-- The negative branch of `apply_token_delta_in_data`. -/
def debitToken (amount : Nat) : Result (ParticipantBucketSlot × Unit) :=
  s.withTokenEntry tokenId .insufficientBalance fun e => do
    let e ← drained e amount
    pure (e, ())

/-- `checked_positive_delta_to_u64` and `checked_negative_delta_to_u64`. -/
def deltaToU64 (delta : Int) : Result Nat := tryFrom u64Bound delta.natAbs (Error.vault .mathOverflow)

/-- `apply_token_delta_in_data` past the zero check and the slot lookup. -/
def applyTokenDelta (delta : Int) : Result (ParticipantBucketSlot × Unit) := do
  let amount ← deltaToU64 delta
  if 0 < delta then s.creditToken tokenId amount else s.debitToken tokenId amount

end ParticipantBucketSlot

def participantBucketSlotCount : Nat := 9

structure ParticipantBucket where
  bucketId : U32
  bump : U8
  slots : Fin participantBucketSlotCount → ParticipantBucketSlot

/-- `ParticipantClearingSnapshot`. -/
structure ParticipantClearingSnapshot where
  owner : Pubkey
  blsSchemeVersion : U8
  blsPubkeyCompressed : List UInt8
  tokenTotalBalance : Nat

namespace ParticipantBucket

def bucketIdForParticipantId (participantId : U32) : U32 :=
  ⟨participantId.val / 9, by omega⟩

def slotIndexForParticipantId (participantId : U32) : Fin participantBucketSlotCount :=
  ⟨participantId.val % 9, Nat.mod_lt _ (by decide)⟩

/-- `initialize_account_data`: every byte zero but the id and the bump. -/
def initializeAccountData (bucketId : U32) (bump : U8) : ParticipantBucket :=
  ⟨bucketId, bump, fun _ => .empty⟩

variable (data : ParticipantBucket) (participantId : U32)

/-- `slot_offset_for_participant_index`. -/
def slotForParticipantIndex : Result ParticipantBucketSlot := do
  require (data.bucketId = bucketIdForParticipantId participantId) (.vault .bucketAccountMismatch)
  pure (data.slots (slotIndexForParticipantId participantId))

/-- `slot_offset_for_participant`. -/
def slotForParticipant : Result ParticipantBucketSlot := do
  let slot ← data.slotForParticipantIndex participantId
  require (slot.initialized = true) (.vault .participantNotFound)
  require (slot.participantId = participantId) (.vault .bucketSlotMismatch)
  pure slot

def setSlot (slot : ParticipantBucketSlot) : ParticipantBucket :=
  { data with
    slots := Function.update data.slots (slotIndexForParticipantId participantId) slot }

/-- Read the participant's slot and write back what `f` makes of it. -/
def modifySlot {α : Type} (f : ParticipantBucketSlot → Result (ParticipantBucketSlot × α)) :
    Result (ParticipantBucket × α) := do
  let slot ← data.slotForParticipant participantId
  let (slot, a) ← f slot
  pure (data.setSlot participantId slot, a)

/-! ### The functions of the source -/

def readSlotOwnerAndBlsRegistrationFromData : Result (Pubkey × U8 × List UInt8) := do
  let slot ← data.slotForParticipant participantId
  pure (slot.owner, slot.blsSchemeVersion, slot.blsPubkeyCompressed)

def readSlotOwnerFromData : Result Pubkey := do
  let (owner, _, _) ← data.readSlotOwnerAndBlsRegistrationFromData participantId
  pure owner

def readClearingSnapshotFromData (tokenId : U16) : Result ParticipantClearingSnapshot := do
  let slot ← data.slotForParticipant participantId
  let tokenTotalBalance ← slot.readTokenTotalBalanceOrZero tokenId
  pure ⟨slot.owner, slot.blsSchemeVersion, slot.blsPubkeyCompressed, tokenTotalBalance⟩

def readInboundChannelPolicyFromData : Result InboundChannelPolicy := do
  let slot ← data.slotForParticipant participantId
  InboundChannelPolicy.tryFrom slot.inboundChannelPolicy

def writeInboundChannelPolicyInData (policy : InboundChannelPolicy) :
    Result (ParticipantBucket × Unit) :=
  data.modifySlot participantId fun slot => .ok ({ slot with inboundChannelPolicy := policy.toU8 }, ())

def writeBlsRegistrationInData (blsSchemeVersion : U8) (blsPubkeyCompressed : List UInt8) :
    Result (ParticipantBucket × Unit) :=
  data.modifySlot participantId fun slot => .ok ({ slot with blsSchemeVersion, blsPubkeyCompressed }, ())

def readTokenTotalBalanceFromData (tokenId : U16) : Result Nat := do
  let slot ← data.slotForParticipant participantId
  slot.readTokenTotalBalance tokenId

def readTokenWithdrawalFromData (tokenId : U16) : Result BucketTokenBalance := do
  let slot ← data.slotForParticipant participantId
  slot.readTokenWithdrawal tokenId

def debitTokenAvailableInData (tokenId : U16) (amount : Nat) : Result (ParticipantBucket × Nat) :=
  data.modifySlot participantId (·.debitTokenAvailable tokenId amount)

def initiateTokenWithdrawalInData (tokenId : U16) (amount : Nat) (destination : Pubkey)
    (unlockAt : Int) : Result (ParticipantBucket × Unit) :=
  data.modifySlot participantId (·.initiateTokenWithdrawal tokenId amount destination unlockAt)

def cancelTokenWithdrawalInData (tokenId : U16) : Result (ParticipantBucket × Nat) :=
  data.modifySlot participantId (·.cancelTokenWithdrawal tokenId)

def clearTokenWithdrawalInData (tokenId : U16) : Result (ParticipantBucket × Unit) :=
  data.modifySlot participantId (·.clearTokenWithdrawal tokenId)

/-- A zero delta returns before the slot is looked up. -/
def applyTokenDeltaInData (tokenId : U16) (delta : Int) : Result (ParticipantBucket × Unit) :=
  if delta = 0 then .ok (data, ())
  else data.modifySlot participantId (·.applyTokenDelta tokenId delta)

def initializeSlotInData (owner : Pubkey) : Result ParticipantBucket := do
  let slot ← data.slotForParticipantIndex participantId
  require (slot.initialized = false) (.vault .bucketSlotAlreadyInitialized)
  pure (data.setSlot participantId (.fresh participantId owner))

def verifyExpectedPda (env : Env) (accountKey : Pubkey) (bucketId : U32) (bump : U8) :
    Result Unit := do
  let expectedPda ←
    okOr (env.createProgramAddress (.participantBucket bucketId) bump) (.vault .bucketAccountMismatch)
  require (accountKey = expectedPda) (.vault .bucketAccountMismatch)

end ParticipantBucket

end Ryvo
