import Ryvo.Instructions.Deposits

/-!
# Instructions — Withdrawals

`request_withdrawal`, `cancel_withdrawal` and `execute_withdrawal_timelocked`.  Execution is permissionless: it pays the destination the request recorded, less the fee.
-/

namespace Ryvo

variable (env : Env) (w : World)

/-- The six-decimal fee floor in the token's own units, at least one. -/
def scaledMinFee (decimals : Nat) : Result Nat :=
  if 6 ≤ decimals then do
    let scale ← tryFrom u64Bound (10 ^ (decimals - 6)) (Error.vault .mathOverflow)
    checkedMul u64Bound GlobalConfig.minWithdrawalFee6dp scale (Error.vault .mathOverflow)
  else do
    let divisor ← tryFrom u64Bound (10 ^ (6 - decimals)) (Error.vault .mathOverflow)
    pure (max (GlobalConfig.minWithdrawalFee6dp / divisor) 1)

/-- `max(scaled_min, percentage)`, capped at the amount. -/
def withdrawalFee (feePercentage scaledMin amount : Nat) : Nat :=
  min (max feePercentage scaledMin) amount

theorem withdrawalFee_le (feePercentage scaledMin amount : Nat) :
    withdrawalFee feePercentage scaledMin amount ≤ amount := min_le_right _ _

namespace RequestWithdrawal

def handler (owner ownerIndexBucket participantBucket withdrawalDestination : Pubkey)
    (tokenId : U16) (amount : Nat) (destination : Pubkey) : Result World := do
  let destinationAccount ← w.getTokenAccount withdrawalDestination
  require (destinationAccount.owner ≠ Pubkey.default) (.account .constraintRaw)
  let config ← w.getGlobalConfig
  let participantId ← w.authenticated env ownerIndexBucket participantBucket owner
  let entry ← w.plainToken tokenId
  require (0 < amount) (.vault .amountMustBePositive)
  require (destination ≠ Pubkey.default) (.vault .invalidWithdrawalDestination)
  require (destination = withdrawalDestination) (.vault .invalidWithdrawalDestination)
  require (destinationAccount.mint = entry.mint) (.vault .invalidTokenMint)
  let unlockAt ← addI64 w.clock config.withdrawalTimelockSeconds
  let (w, _) ← w.editParticipantBucket participantBucket
    (·.initiateTokenWithdrawalInData participantId tokenId amount destination unlockAt)
  pure w

end RequestWithdrawal

namespace CancelWithdrawal

def handler (owner ownerIndexBucket participantBucket : Pubkey) (tokenId : U16) : Result World := do
  let participantId ← w.authenticated env ownerIndexBucket participantBucket owner
  let (w, _) ← w.editParticipantBucket participantBucket
    (·.cancelTokenWithdrawalInData participantId tokenId)
  pure w

end CancelWithdrawal

/-- A CPI transfer the handler only makes for a positive amount. -/
def World.transferPositive (source destination authority : Pubkey) (amount : Nat) : Result World :=
  if 0 < amount then w.tokenTransfer env source destination authority amount else .ok w

namespace ExecuteWithdrawalTimelocked

/-- Pay the destination and the fee recipient out of the vault, in the config's name. -/
def payOut (tokenId : U16) (withdrawalDestination feeRecipientTokenAccount : Pubkey)
    (netAmount feeAmount : Nat) : Result World := do
  let w ← w.transferPositive env (env.address (.vaultTokenAccount tokenId)) withdrawalDestination
    (env.address .globalConfig) netAmount
  w.transferPositive env (env.address (.vaultTokenAccount tokenId)) feeRecipientTokenAccount
    (env.address .globalConfig) feeAmount

/-- The fee on a withdrawal of `withdrawing`, the percentage cast to `u64`. -/
def feeAmount (feeBps decimals withdrawing : Nat) : Result Nat := do
  let scaledMin ← scaledMinFee decimals
  let product ← checkedMul u128Bound withdrawing feeBps (Error.vault .mathOverflow)
  pure (withdrawalFee (product / 10000 % u64Bound) scaledMin withdrawing)

/-- The payment, or nothing where settlements drained the whole pending amount. -/
def settlePending (config : GlobalConfig) (entry : TokenEntry) (tokenId : U16)
    (withdrawalDestination feeRecipientTokenAccount : Pubkey) (withdrawing : Nat) : Result World :=
  if withdrawing = 0 then .ok w
  else do
    let fee ← feeAmount config.feeBps entry.decimals withdrawing
    payOut env w tokenId withdrawalDestination feeRecipientTokenAccount (withdrawing - fee) fee

def handler (participantBucket withdrawalDestination feeRecipientTokenAccount : Pubkey)
    (tokenId : U16) (participantId : U32) : Result World := do
  let config ← w.getGlobalConfig
  let vault ← w.getTokenAccount (env.address (.vaultTokenAccount tokenId))
  let destination ← w.getTokenAccount withdrawalDestination
  require (destination.mint = vault.mint) (.vault .invalidTokenMint)
  let feeAccount ← w.getTokenAccount feeRecipientTokenAccount
  require (feeAccount.owner = config.feeRecipient) (.vault .invalidFeeRecipient)
  require (feeAccount.mint = vault.mint) (.vault .invalidTokenMint)
  ParticipantBucket.verifyAccountInfo env w participantBucket
    (ParticipantBucket.bucketIdForParticipantId participantId)
  let registry ← w.getTokenRegistry
  let entry ← okOr (registry.findToken tokenId) (.vault .tokenNotFound)
  require (entry.decimals ≤ TokenRegistry.maxTokenDecimals) (.vault .invalidTokenDecimals)
  require (entry.isYieldBearing = false) (.vault .tokenIsYieldBearing)
  let data ← w.getParticipantBucket participantBucket
  let tokenBalance ← data.readTokenWithdrawalFromData participantId tokenId
  require (tokenBalance.withdrawalUnlockAt ≠ 0) (.vault .noWithdrawalPending)
  require (withdrawalDestination = tokenBalance.withdrawalDestination)
    (.vault .invalidWithdrawalDestination)
  require (destination.mint = entry.mint) (.vault .invalidTokenMint)
  require (tokenBalance.withdrawalUnlockAt ≤ w.clock) (.vault .withdrawalLocked)
  let w ← settlePending env w config entry tokenId withdrawalDestination feeRecipientTokenAccount
    tokenBalance.withdrawingBalance
  let (w, _) ← w.editParticipantBucket participantBucket
    (·.clearTokenWithdrawalInData participantId tokenId)
  pure w

end ExecuteWithdrawalTimelocked

end Ryvo
