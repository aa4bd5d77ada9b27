import Ryvo.Layout.ParticipantLayout

/-!
# Layout — Participant bytes

The program's accesses to the raw data of a participant bucket.  A reader is a function of the data; a mutator edits the data in place, write by write, and what it wrote before an error stays written.

Amounts, times and identifiers are the numbers the instructions pass, and every offset is computed as the source computes it.
-/

namespace Ryvo

open Layout InPlace

/-- Code that edits an account's data. -/
abbrev Edit (α : Type) : Type := InPlace Error (List UInt8) α

/-- `TokenWithdrawalSnapshot`. -/
structure TokenWithdrawalSnapshot where
  withdrawingBalance : Nat
  withdrawalUnlockAt : Int
  withdrawalDestination : Pubkey
  deriving DecidableEq

namespace ParticipantBytes

/-! ### Finding a slot and a token entry -/

def requireValidDiscriminator (data : List UInt8) (errorCode : VaultError) : Result Unit :=
  require (discriminator.length ≤ data.length ∧ discriminator <+: data) (.vault errorCode)

def readBucketIdAndBump (data : List UInt8) : Result (U32 × U8) := do
  requireValidDiscriminator data .bucketAccountMismatch
  require (ParticipantBucket.space ≤ data.length) (.vault .bucketAccountMismatch)
  let bucketId ← readU32At data bucketIdOffset .bucketAccountMismatch
  let bump ← readU8At data bumpOffset .bucketAccountMismatch
  pure (bucketId, bump)

def slotOffsetForParticipantIndex (data : List UInt8) (participantId : U32) : Result Nat := do
  let (bucketId, _) ← readBucketIdAndBump data
  require (bucketId = ParticipantBucket.bucketIdForParticipantId participantId)
    (.vault .bucketAccountMismatch)
  require (ParticipantBucket.space ≤ data.length) (.vault .bucketAccountMismatch)
  let slotIndex := ParticipantBucket.slotIndexForParticipantId participantId
  let slotOffset := slotsOffset + slotIndex.val * ParticipantBucketSlot.space
  require (slotOffset + ParticipantBucketSlot.space ≤ data.length) (.vault .bucketAccountMismatch)
  pure slotOffset

def slotOffsetForParticipant (data : List UInt8) (participantId : U32) : Result Nat := do
  let slotOffset ← slotOffsetForParticipantIndex data participantId
  let initialized ← readBoolAt data (slotOffset + slotInitializedOffset) .participantNotFound
  require (initialized = true) (.vault .participantNotFound)
  let id ← readU32At data (slotOffset + slotParticipantIdOffset) .bucketSlotMismatch
  require (id = participantId) (.vault .bucketSlotMismatch)
  pure slotOffset

/-- The offset of the entry with index `index`. -/
def entryOffsetAt (slotOffset : Nat) (index : Fin maxBucketTokenBalances) : Nat :=
  slotOffset + slotTokenBalancesOffset + index.val * BucketTokenBalance.space

def tokenEntryOffset (data : List UInt8) (slotOffset : Nat) (tokenId : U16) :
    Result (Option Nat) :=
  (List.finRange maxBucketTokenBalances).findSomeM? fun index => do
    let offset := entryOffsetAt slotOffset index
    let initialized ← readBoolAt data (offset + tokenEntryInitializedOffset) .bucketAccountMismatch
    if initialized = false then pure none
    else
      let id ← readU16At data (offset + tokenEntryTokenIdOffset) .bucketAccountMismatch
      pure (if id = tokenId then some offset else none)

/-- `token_entry_offset(…)?.ok_or(missing)?`. -/
def tokenEntryOffsetOr (data : List UInt8) (slotOffset : Nat) (tokenId : U16)
    (missing : VaultError) : Result Nat := do
  let entryOffset ← tokenEntryOffset data slotOffset tokenId
  okOr entryOffset (.vault missing)

def findOrCreateTokenEntryOffset (slotOffset : Nat) (tokenId : U16) : Edit Nat := do
  let found ← read (tokenEntryOffset · slotOffset tokenId)
  match found with
  | some offset => pure offset
  | none =>
      let created ← (List.finRange maxBucketTokenBalances).findSomeM? fun index => do
        let offset := entryOffsetAt slotOffset index
        let initialized ←
          read (readBoolAt · (offset + tokenEntryInitializedOffset) .tooManyTokenBalances)
        if initialized then pure none
        else
          write fun data => .ok (fillZero data offset BucketTokenBalance.space)
          write (writeBoolAt · (offset + tokenEntryInitializedOffset) .tooManyTokenBalances true)
          write (writeU16At · (offset + tokenEntryTokenIdOffset) .tooManyTokenBalances tokenId)
          pure (some offset)
      lift (okOr created (.vault .tooManyTokenBalances))

/-! ### Readers -/

section
variable (data : List UInt8) (participantId : U32)

def readSlotOwnerAndBlsRegistrationFromData : Result (Pubkey × U8 × List UInt8) := do
  let slotOffset ← slotOffsetForParticipant data participantId
  let owner ← readPubkeyAt data (slotOffset + slotOwnerOffset) .participantNotFound
  let blsSchemeVersion ←
    readU8At data (slotOffset + slotBlsSchemeVersionOffset) .participantNotFound
  let blsPubkeyCompressed :=
    window data (slotOffset + slotBlsPubkeyOffset) blsPublicKeyCompressedSize
  pure (owner, blsSchemeVersion, blsPubkeyCompressed)

def readSlotOwnerFromData : Result Pubkey := do
  let (owner, _, _) ← readSlotOwnerAndBlsRegistrationFromData data participantId
  pure owner

/-- The two balances of an entry, added up. -/
def readEntryTotal (entryOffset : Nat) : Result Nat := do
  let available ← readU64At data (entryOffset + tokenEntryAvailableOffset) .tokenNotFound
  let withdrawing ← readU64At data (entryOffset + tokenEntryWithdrawingOffset) .tokenNotFound
  addU64 available withdrawing

/-- The total of the token's entry in a slot, and zero where it has none. -/
def readSlotTotalOrZero (slotOffset : Nat) (tokenId : U16) : Result Nat := do
  let entryOffset ← tokenEntryOffset data slotOffset tokenId
  match entryOffset with
  | some entryOffset => readEntryTotal data entryOffset
  | none => pure 0

def readClearingSnapshotFromData (tokenId : U16) : Result ParticipantClearingSnapshot := do
  let slotOffset ← slotOffsetForParticipant data participantId
  let owner ← readPubkeyAt data (slotOffset + slotOwnerOffset) .participantNotFound
  let blsSchemeVersion ←
    readU8At data (slotOffset + slotBlsSchemeVersionOffset) .participantNotFound
  let blsPubkeyCompressed :=
    window data (slotOffset + slotBlsPubkeyOffset) blsPublicKeyCompressedSize
  let tokenTotalBalance ← readSlotTotalOrZero data slotOffset tokenId
  pure ⟨owner, blsSchemeVersion, blsPubkeyCompressed, tokenTotalBalance⟩

def readInboundChannelPolicyFromData : Result InboundChannelPolicy := do
  let slotOffset ← slotOffsetForParticipant data participantId
  let policy ← readU8At data (slotOffset + slotInboundPolicyOffset) .invalidInboundChannelPolicy
  InboundChannelPolicy.tryFrom policy

def readTokenTotalBalanceFromData (tokenId : U16) : Result Nat := do
  let slotOffset ← slotOffsetForParticipant data participantId
  let entryOffset ← tokenEntryOffsetOr data slotOffset tokenId .tokenNotFound
  readEntryTotal data entryOffset

def readTokenAvailableBalanceFromData (tokenId : U16) : Result Nat := do
  let slotOffset ← slotOffsetForParticipant data participantId
  let entryOffset ← tokenEntryOffsetOr data slotOffset tokenId .tokenNotFound
  readU64At data (entryOffset + tokenEntryAvailableOffset) .tokenNotFound

def readTokenWithdrawalFromData (tokenId : U16) : Result TokenWithdrawalSnapshot := do
  let slotOffset ← slotOffsetForParticipant data participantId
  let entryOffset ← tokenEntryOffsetOr data slotOffset tokenId .tokenNotFound
  let withdrawingBalance ←
    readU64At data (entryOffset + tokenEntryWithdrawingOffset) .tokenNotFound
  let withdrawalUnlockAt ← readI64At data (entryOffset + tokenEntryUnlockAtOffset) .tokenNotFound
  let withdrawalDestination ←
    readPubkeyAt data (entryOffset + tokenEntryDestinationOffset) .tokenNotFound
  pure ⟨withdrawingBalance, withdrawalUnlockAt, withdrawalDestination⟩

def readTokenTotalBalanceOrZeroFromData (tokenId : U16) : Result Nat := do
  let slotOffset ← slotOffsetForParticipant data participantId
  readSlotTotalOrZero data slotOffset tokenId

end

/-! ### Mutators -/

/-- The positive branch of `apply_token_delta_in_data`. -/
def creditEntry (slotOffset : Nat) (tokenId : U16) (amount : Nat) : Edit Unit := do
  let entryOffset ← findOrCreateTokenEntryOffset slotOffset tokenId
  let available ← read (readU64At · (entryOffset + tokenEntryAvailableOffset) .mathOverflow)
  let nextAvailable ← lift (addU64 available amount)
  write (writeU64At · (entryOffset + tokenEntryAvailableOffset) .mathOverflow nextAvailable)

/-- The negative branch of `apply_token_delta_in_data`. -/
def debitEntry (slotOffset : Nat) (tokenId : U16) (amount : Nat) : Edit Unit := do
  let entryOffset ← read (tokenEntryOffsetOr · slotOffset tokenId .insufficientBalance)
  let available ← read (readU64At · (entryOffset + tokenEntryAvailableOffset) .insufficientBalance)
  let withdrawing ←
    read (readU64At · (entryOffset + tokenEntryWithdrawingOffset) .insufficientBalance)
  let total ← lift (addU64 available withdrawing)
  lift (require (amount ≤ total) (.vault .insufficientBalance))
  if amount ≤ available then
    write (writeU64At · (entryOffset + tokenEntryAvailableOffset) .mathOverflow
      (available - amount))
  else
    let remainder := amount - available
    write (writeU64At · (entryOffset + tokenEntryAvailableOffset) .mathOverflow 0)
    let nextWithdrawing ← lift (subU64 withdrawing remainder)
    write (writeU64At · (entryOffset + tokenEntryWithdrawingOffset) .mathOverflow nextWithdrawing)

section
variable (participantId : U32)

def writeInboundChannelPolicyInData (policy : InboundChannelPolicy) : Edit Unit := do
  let slotOffset ← read (slotOffsetForParticipant · participantId)
  write (writeU8At · (slotOffset + slotInboundPolicyOffset) .invalidInboundChannelPolicy policy.toU8)

def writeBlsRegistrationInData (blsSchemeVersion : U8) (blsPubkeyCompressed : List UInt8) :
    Edit Unit := do
  let slotOffset ← read (slotOffsetForParticipant · participantId)
  write (writeU8At · (slotOffset + slotBlsSchemeVersionOffset) .accountBlsKeyMismatch
    blsSchemeVersion)
  write (writeBytesAt · (slotOffset + slotBlsPubkeyOffset) .accountBlsKeyMismatch
    blsPubkeyCompressed)

def debitTokenAvailableInData (tokenId : U16) (amount : Nat) : Edit Nat := do
  let slotOffset ← read (slotOffsetForParticipant · participantId)
  let entryOffset ← read (tokenEntryOffsetOr · slotOffset tokenId .tokenNotFound)
  let available ← read (readU64At · (entryOffset + tokenEntryAvailableOffset) .tokenNotFound)
  lift (require (amount ≤ available) (.vault .insufficientBalance))
  let nextAvailable ← lift (subU64 available amount)
  write (writeU64At · (entryOffset + tokenEntryAvailableOffset) .mathOverflow nextAvailable)
  pure nextAvailable

def initiateTokenWithdrawalInData (tokenId : U16) (amount : Nat) (destination : Pubkey)
    (unlockAt : Int) : Edit Unit := do
  let slotOffset ← read (slotOffsetForParticipant · participantId)
  let entryOffset ← read (tokenEntryOffsetOr · slotOffset tokenId .tokenNotFound)
  let available ← read (readU64At · (entryOffset + tokenEntryAvailableOffset) .tokenNotFound)
  let withdrawing ← read (readU64At · (entryOffset + tokenEntryWithdrawingOffset) .tokenNotFound)
  let withdrawalUnlockAt ←
    read (readI64At · (entryOffset + tokenEntryUnlockAtOffset) .tokenNotFound)
  lift (require (withdrawalUnlockAt = 0) (.vault .withdrawalAlreadyPending))
  lift (require (amount ≤ available) (.vault .insufficientBalance))
  let nextAvailable ← lift (subU64 available amount)
  write (writeU64At · (entryOffset + tokenEntryAvailableOffset) .mathOverflow nextAvailable)
  -- The sum is checked with the debit already written.
  let nextWithdrawing ← lift (addU64 withdrawing amount)
  write (writeU64At · (entryOffset + tokenEntryWithdrawingOffset) .mathOverflow nextWithdrawing)
  write (writeI64At · (entryOffset + tokenEntryUnlockAtOffset) .mathOverflow unlockAt)
  write (writePubkeyAt · (entryOffset + tokenEntryDestinationOffset) .invalidWithdrawalDestination
    destination)

def clearTokenWithdrawalInData (tokenId : U16) : Edit Unit := do
  let slotOffset ← read (slotOffsetForParticipant · participantId)
  let entryOffset ← read (tokenEntryOffsetOr · slotOffset tokenId .tokenNotFound)
  write (writeU64At · (entryOffset + tokenEntryWithdrawingOffset) .mathOverflow 0)
  write (writeI64At · (entryOffset + tokenEntryUnlockAtOffset) .mathOverflow 0)
  write (writePubkeyAt · (entryOffset + tokenEntryDestinationOffset) .mathOverflow Pubkey.default)

/-- `cancel_token_withdrawal_in_data` up to its call of `clear_token_withdrawal_in_data`. -/
def returnWithdrawingInData (tokenId : U16) : Edit Nat := do
  let slotOffset ← read (slotOffsetForParticipant · participantId)
  let entryOffset ← read (tokenEntryOffsetOr · slotOffset tokenId .noWithdrawalPending)
  let withdrawalUnlockAt ←
    read (readI64At · (entryOffset + tokenEntryUnlockAtOffset) .noWithdrawalPending)
  lift (require (withdrawalUnlockAt ≠ 0) (.vault .noWithdrawalPending))
  let available ← read (readU64At · (entryOffset + tokenEntryAvailableOffset) .noWithdrawalPending)
  let withdrawing ←
    read (readU64At · (entryOffset + tokenEntryWithdrawingOffset) .noWithdrawalPending)
  let nextAvailable ← lift (addU64 available withdrawing)
  write (writeU64At · (entryOffset + tokenEntryAvailableOffset) .mathOverflow nextAvailable)
  pure withdrawing

def cancelTokenWithdrawalInData (tokenId : U16) : Edit Nat := do
  let withdrawing ← returnWithdrawingInData participantId tokenId
  -- It looks the slot and the entry up again.
  clearTokenWithdrawalInData participantId tokenId
  pure withdrawing

def applyTokenDeltaInData (tokenId : U16) (delta : Int) : Edit Unit := do
  if delta = 0 then pure ()
  else
    let slotOffset ← read (slotOffsetForParticipant · participantId)
    let amount ← lift (ParticipantBucketSlot.deltaToU64 delta)
    if 0 < delta then creditEntry slotOffset tokenId amount
    else debitEntry slotOffset tokenId amount

def initializeAccountData (bucketId : U32) (bump : U8) : Edit Unit := do
  read fun data =>
    require (ParticipantBucket.space ≤ data.length) (.vault .bucketAccountMismatch)
  write fun data => .ok (fillZero data 0 ParticipantBucket.space)
  write fun data => .ok (overwrite data 0 discriminator)
  write (writeU32At · bucketIdOffset .bucketAccountMismatch bucketId)
  write (writeU8At · bumpOffset .bucketAccountMismatch bump)

def initializeSlotInData (owner : Pubkey) : Edit Unit := do
  let slotOffset ← read (slotOffsetForParticipantIndex · participantId)
  let initialized ←
    read (readBoolAt · (slotOffset + slotInitializedOffset) .bucketSlotAlreadyInitialized)
  lift (require (initialized = false) (.vault .bucketSlotAlreadyInitialized))
  write fun data => .ok (fillZero data slotOffset ParticipantBucketSlot.space)
  write (writeBoolAt · (slotOffset + slotInitializedOffset) .bucketSlotAlreadyInitialized true)
  write (writePubkeyAt · (slotOffset + slotOwnerOffset) .bucketAccountMismatch owner)
  write (writeU32At · (slotOffset + slotParticipantIdOffset) .bucketSlotMismatch participantId)
  write (writeU8At · (slotOffset + slotInboundPolicyOffset) .invalidInboundChannelPolicy
    InboundChannelPolicy.consentRequired.toU8)
  write (writeU8At · (slotOffset + slotBlsSchemeVersionOffset) .accountBlsKeyMismatch
    ParticipantBucketSlot.blsSchemeVersionUnregistered)

end

end ParticipantBytes

end Ryvo
