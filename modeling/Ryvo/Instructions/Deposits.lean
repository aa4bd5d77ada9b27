import Ryvo.Machine.TokenProgram
import Ryvo.Machine.Bindings
import Ryvo.Instructions.Participants

/-!
# Instructions — Deposits

`deposit` and `deposit_for`: tokens move into the token's vault, and participants are credited what moved.
-/

namespace Ryvo

variable (env : Env) (w : World)

/-- The registry's entry for a token, which must be plain. -/
def World.plainToken (tokenId : U16) : Result TokenEntry := do
  let registry ← w.getTokenRegistry
  let entry ← okOr (registry.findToken tokenId) (.vault .tokenNotFound)
  require (entry.isYieldBearing = false) (.vault .tokenIsYieldBearing)
  pure entry

namespace Deposit

def handler (owner ownerIndexBucket participantBucket ownerTokenAccount : Pubkey) (tokenId : U16)
    (amount : Nat) : Result World := do
  let source ← w.getTokenAccount ownerTokenAccount
  require (source.owner = owner) (.account .constraintRaw)
  let vault ← w.getTokenAccount (env.address (.vaultTokenAccount tokenId))
  require (0 < amount) (.vault .amountMustBePositive)
  let entry ← w.plainToken tokenId
  require (source.mint = entry.mint) (.vault .invalidTokenMint)
  require (vault.mint = entry.mint) (.vault .invalidTokenMint)
  let w ← w.tokenTransfer env ownerTokenAccount (env.address (.vaultTokenAccount tokenId)) owner
    amount
  let participantId ← w.authenticated env ownerIndexBucket participantBucket owner
  let (w, _) ← w.editParticipantBucket participantBucket
    (·.applyTokenDeltaInData participantId tokenId amount)
  pure w

end Deposit

namespace DepositFor

def maxDepositForRecipients : Nat := 16

/-- One iteration: bind the recipient's bucket and credit its slot. -/
def creditOne (tokenId : U16) (state : World × Bindings U32) (recipient : U32 × Nat) :
    Result (World × Bindings U32) := do
  let (w, bindings) := state
  let (participantId, amount) := recipient
  require (0 < amount) (.vault .amountMustBePositive)
  let (bindings, account) ← bindings.bind Bindings.push .invalidDepositFor
    (ParticipantBucket.verifyAccountInfo env w)
    (ParticipantBucket.bucketIdForParticipantId participantId)
  let (w, _) ← w.editParticipantBucket account
    (·.applyTokenDeltaInData participantId tokenId amount)
  pure (w, bindings)

/-- `amounts.iter().try_fold(0, checked_add)`. -/
def sumAmounts (amounts : List Nat) : Result Nat := amounts.foldlM addU64 0

def handler (funder funderTokenAccount : Pubkey) (remaining : List Pubkey) (tokenId : U16)
    (participantIds : List U32) (amounts : List Nat) : Result World := do
  let source ← w.getTokenAccount funderTokenAccount
  require (source.owner = funder) (.account .constraintRaw)
  let vault ← w.getTokenAccount (env.address (.vaultTokenAccount tokenId))
  require (amounts ≠ [] ∧ amounts.length = participantIds.length) (.vault .invalidDepositFor)
  require (amounts.length ≤ maxDepositForRecipients) (.vault .invalidDepositFor)
  let entry ← w.plainToken tokenId
  require (source.mint = entry.mint) (.vault .invalidTokenMint)
  require (vault.mint = entry.mint) (.vault .invalidTokenMint)
  let total ← sumAmounts amounts
  require (0 < total) (.vault .amountMustBePositive)
  let w ← w.tokenTransfer env funderTokenAccount (env.address (.vaultTokenAccount tokenId)) funder
    total
  let (w, bindings) ← (participantIds.zip amounts).foldlM (creditOne env tokenId) (w, ⟨[], remaining⟩)
  require (bindings.rest = []) (.vault .invalidDepositFor)
  pure w

end DepositFor

end Ryvo
