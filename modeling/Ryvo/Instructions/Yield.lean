import Ryvo.Instructions.Admin
import Ryvo.Instructions.Withdrawals
import Ryvo.Machine.Lending

/-!
# Instructions — Yield

The instructions of yield-bearing tokens.  Users hold shares, which the strategy's index turns into underlying; the underlying sits in the lending program, as shares of its own in the strategy's share vault.

Every one of them starts with `accrueStrategy`, which books the vault's new value and attributes what it has grown, and ends with the solvency check.
-/

namespace Ryvo

variable (env : Env) (w : World)

structure ReserveSnapshot where
  totalUnderlying : Nat
  shareSupply : Nat
  deriving DecidableEq

/-- The value of a number of the reserve's shares, rounded down. -/
def cusdcToUsdc (cusdcAmount : Nat) (snap : ReserveSnapshot) : Result Nat :=
  if snap.shareSupply = 0 ∨ cusdcAmount = 0 then .ok 0
  else do
    let product ← checkedMul u128Bound cusdcAmount snap.totalUnderlying (Error.vault .mathOverflow)
    tryFrom u64Bound (product / snap.shareSupply) (Error.vault .mathOverflow)

/-- The number of the reserve's shares worth at most an amount. -/
def usdcToCusdcRoundDown (usdcAmount : Nat) (snap : ReserveSnapshot) : Result Nat :=
  if usdcAmount = 0 then .ok 0
  else do
    require (0 < snap.totalUnderlying) (.vault .invalidYieldStrategy)
    let product ← checkedMul u128Bound usdcAmount snap.shareSupply (Error.vault .mathOverflow)
    tryFrom u64Bound (product / snap.totalUnderlying) (Error.vault .mathOverflow)

namespace YieldStrategy

variable (strategy : YieldStrategy)

/-- Attribute what the vault's value has grown since it was last booked, and book it. -/
def bookValue (currentUnderlying : Nat) : Result YieldStrategy := do
  let strategy ←
    if strategy.lastSettledUnderlying < currentUnderlying then
      strategy.applyYieldDelta (currentUnderlying - strategy.lastSettledUnderlying)
    else .ok strategy
  pure { strategy with lastSettledUnderlying := currentUnderlying }

/-- The counters after `amount` has come in for `shares`. -/
def addUserShares (shares amount : Nat) : Result YieldStrategy := do
  let totalUserShares ← addU64 strategy.totalUserShares shares
  let lastSettledUnderlying ← addU64 strategy.lastSettledUnderlying amount
  pure { strategy with totalUserShares, lastSettledUnderlying }

/-- The counters after `amount` has gone out for `shares`. -/
def removeUserShares (shares amount : Nat) : Result YieldStrategy := do
  let totalUserShares ← subU64 strategy.totalUserShares shares
  pure { strategy with
    totalUserShares, lastSettledUnderlying := strategy.lastSettledUnderlying - amount }

/-- The counters after the protocol has taken `amount`. -/
def takeProtocolOwed (amount : Nat) : Result YieldStrategy := do
  let protocolOwedUnderlying ← subU64 strategy.protocolOwedUnderlying amount
  pure { strategy with
    protocolOwedUnderlying, lastSettledUnderlying := strategy.lastSettledUnderlying - amount }

end YieldStrategy

/-- `accrue_strategy`.  Its accounts are the strategy's own: with any others it fails. -/
def accrueStrategy (strategy : YieldStrategy) : Result (World × YieldStrategy × ReserveSnapshot) := do
  let shareVault ← w.getTokenAccount strategy.shareVault
  let (w, totalUnderlying, shareSupply) ← Lending.invoke env strategy.yieldProgram
    (Lending.accrue w strategy.reserve strategy.shareMint)
  let snap : ReserveSnapshot := ⟨totalUnderlying, shareSupply⟩
  let currentUnderlying ← cusdcToUsdc shareVault.amount snap
  let strategy ← strategy.bookValue currentUnderlying
  pure (w, strategy, snap)

/-- The strategy's accounts must be the reserve's. -/
def checkReserveAccounts (strategy : YieldStrategy) : Result Unit := do
  let r ← w.getReserve strategy.reserve
  require (strategy.shareMint = r.shareMint) (.mockYield .shareMintMismatch)
  require (strategy.liquidityVault = r.liquidityVault) (.mockYield .liquidityVaultMismatch)

/-- `cpi_deposit_reserve_liquidity`, into the strategy's share vault. -/
def cpiDepositReserveLiquidity (strategy : YieldStrategy) (depositorUnderlying depositor : Pubkey)
    (amount : Nat) : Result World := do
  checkReserveAccounts w strategy
  Lending.invoke env strategy.yieldProgram
    (Lending.depositReserveLiquidity env w strategy.reserve strategy.underlyingMint
      depositorUnderlying strategy.shareVault depositor amount)

/-- `cpi_redeem_reserve_collateral`, out of the strategy's share vault in the config's name. -/
def cpiRedeemReserveCollateral (strategy : YieldStrategy) (redeemerUnderlying : Pubkey)
    (shares : Nat) : Result World := do
  checkReserveAccounts w strategy
  Lending.invoke env strategy.yieldProgram
    (Lending.redeemReserveCollateral env w strategy.reserve strategy.underlyingMint
      strategy.shareVault redeemerUnderlying (env.address .globalConfig) shares)

/-- The registry's entry for a token, which must be yield-bearing. -/
def World.yieldToken (tokenId : U16) : Result TokenEntry := do
  let registry ← w.getTokenRegistry
  let entry ← okOr (registry.findToken tokenId) (.vault .tokenNotFound)
  require (entry.isYieldBearing = true) (.vault .tokenIsNotYieldBearing)
  pure entry

/-- The strategy at the token's address, which must be the token's. -/
def World.strategyOf (tokenId : U16) : Result YieldStrategy := do
  let strategy ← w.getYieldStrategy tokenId
  require (strategy.tokenId = tokenId) (.vault .invalidYieldStrategy)
  pure strategy

namespace RegisterYieldBearingToken

def protocolYieldShare (protocolYieldShareBps : Nat) : Result Nat := do
  let bps := if protocolYieldShareBps = 0 then defaultProtocolYieldShareBps else protocolYieldShareBps
  require (bps ≤ maxProtocolYieldShareBps) (.vault .invalidProtocolYieldShareBps)
  pure bps

def handler (authority underlyingMint yieldProgram reserve shareMint liquidityVault : Pubkey)
    (tokenId : U16) (symbolBytes : List UInt8) (protocolYieldShareBps : Nat) : Result World := do
  let registry ← w.getTokenRegistry
  let _ ← w.getGlobalConfig
  require (w.yieldStrategies tokenId = none) (.account .accountAlreadyInUse)
  let underlying ← w.getMint underlyingMint
  let r ← w.getReserve reserve
  let _ ← w.getTokenAccount liquidityVault
  let w ← w.createTokenAccount env (env.address (.yieldShareVault tokenId)) shareMint
    (env.address .globalConfig)
  require (authority = registry.authority) (.vault .unauthorizedTokenRegistration)
  require (0 < tokenId) (.vault .invalidTokenId)
  require (registry.isTokenRegistered tokenId = false) (.vault .tokenIdAlreadyInUse)
  TokenRegistry.checkSymbol symbolBytes
  require (underlying.decimals ≤ TokenRegistry.maxTokenDecimals) (.vault .invalidTokenDecimals)
  let bps ← protocolYieldShare protocolYieldShareBps
  require (r.underlyingMint = underlyingMint) (.vault .yieldUnderlyingMismatch)
  require (r.shareMint = shareMint) (.vault .invalidYieldStrategy)
  require (r.liquidityVault = liquidityVault) (.vault .invalidYieldStrategy)
  require (registry.tokens.length + 1 ≤ TokenRegistry.maxTokens) (.vault .tokenRegistryFull)
  let w := w.setTokenRegistry (registry.push
    { id := tokenId, mint := underlyingMint, decimals := underlying.decimals, symbol := symbolBytes,
      registeredAt := w.clock, kind := .yieldBearing })
  pure (w.setYieldStrategy tokenId
    { tokenId
      protocolYieldShareBps := bps
      underlyingMint
      yieldProgram
      reserve
      shareMint
      shareVault := env.address (.yieldShareVault tokenId)
      liquidityVault
      userIndexQ64 := q64One
      lastSettledUnderlying := 0
      totalUserShares := 0
      protocolOwedUnderlying := 0 })

end RegisterYieldBearingToken

namespace AccrueYield

def handler (tokenId : U16) : Result World := do
  let strategy ← w.getYieldStrategy tokenId
  let (w, strategy, _) ← accrueStrategy env w strategy
  strategy.requireSolvent strategy.lastSettledUnderlying
  pure (w.setYieldStrategy tokenId strategy)

end AccrueYield

namespace DepositYieldBearing

/-- Shares for the amount at the index, and the counters with both. -/
def mintShares (strategy : YieldStrategy) (amount : Nat) : Result (YieldStrategy × Nat) := do
  let sharesMinted ← strategy.usdcToShares amount
  require (0 < sharesMinted) (.vault .amountMustBePositive)
  let strategy ← strategy.addUserShares sharesMinted amount
  pure (strategy, sharesMinted)

def handler (depositor ownerIndexBucket participantBucket depositorUnderlying : Pubkey)
    (tokenId : U16) (amount : Nat) : Result World := do
  let _ ← w.getGlobalConfig
  let strategy ← w.getYieldStrategy tokenId
  let source ← w.getTokenAccount depositorUnderlying
  require (source.mint = strategy.underlyingMint) (.vault .invalidTokenMint)
  require (source.owner = depositor) (.vault .unauthorizedTokenRegistration)
  require (0 < amount) (.vault .amountMustBePositive)
  require (strategy.tokenId = tokenId) (.vault .invalidYieldStrategy)
  let _ ← w.yieldToken tokenId
  let (w, strategy, _) ← accrueStrategy env w strategy
  let w ← cpiDepositReserveLiquidity env w strategy depositorUnderlying depositor amount
  let (strategy, sharesMinted) ← mintShares strategy amount
  let participantId ← w.authenticated env ownerIndexBucket participantBucket depositor
  let (w, _) ← w.editParticipantBucket participantBucket
    (·.applyTokenDeltaInData participantId tokenId sharesMinted)
  strategy.requireSolvent strategy.lastSettledUnderlying
  pure (w.setYieldStrategy tokenId strategy)

end DepositYieldBearing

namespace RequestWithdrawalYieldBearing

def handler (owner ownerIndexBucket participantBucket withdrawalDestination : Pubkey)
    (tokenId : U16) (shares : Nat) (destination : Pubkey) : Result World := do
  let config ← w.getGlobalConfig
  let destinationAccount ← w.getTokenAccount withdrawalDestination
  require (0 < shares) (.vault .amountMustBePositive)
  require (destination ≠ Pubkey.default) (.vault .invalidWithdrawalDestination)
  let _ ← w.yieldToken tokenId
  let strategy ← w.strategyOf tokenId
  require (withdrawalDestination = destination) (.vault .invalidWithdrawalDestination)
  require (destinationAccount.mint = strategy.underlyingMint) (.vault .invalidTokenMint)
  let participantId ← w.authenticated env ownerIndexBucket participantBucket owner
  let unlockAt ← addI64 w.clock config.withdrawalTimelockSeconds
  let (w, _) ← w.editParticipantBucket participantBucket
    (·.initiateTokenWithdrawalInData participantId tokenId shares destination unlockAt)
  pure w

end RequestWithdrawalYieldBearing

/-- A redeem the handler only makes for a positive amount worth a positive number of shares. -/
def redeemPositive (strategy : YieldStrategy) (redeemerUnderlying : Pubkey) (usdc cusdc : Nat) :
    Result World :=
  if 0 < usdc ∧ 0 < cusdc then cpiRedeemReserveCollateral env w strategy redeemerUnderlying cusdc
  else .ok w

namespace ExecuteWithdrawalYieldBearing

/-- The fee on `usdcGross`, the percentage narrowed to `u64`. -/
def feeAmount (feeBps decimals usdcGross : Nat) : Result Nat := do
  let scaledMin ← scaledMinFee decimals
  let product ← checkedMul u128Bound usdcGross feeBps (Error.vault .mathOverflow)
  let feePercentage ← tryFrom u64Bound (product / 10000) (Error.vault .mathOverflow)
  pure (withdrawalFee feePercentage scaledMin usdcGross)

/-- Redeem what the shares are worth for the destination and the fee recipient. -/
def payOut (config : GlobalConfig) (entry : TokenEntry) (strategy : YieldStrategy)
    (snap : ReserveSnapshot) (withdrawalDestination feeRecipientTokenAccount : Pubkey)
    (withdrawingShares : Nat) : Result (World × YieldStrategy) := do
  let usdcGross ← strategy.sharesToUsdc withdrawingShares
  let usdcFee ← feeAmount config.feeBps entry.decimals usdcGross
  let cusdcForNet ← usdcToCusdcRoundDown (usdcGross - usdcFee) snap
  let cusdcForFee ← usdcToCusdcRoundDown usdcFee snap
  let w ← redeemPositive env w strategy withdrawalDestination (usdcGross - usdcFee) cusdcForNet
  let w ← redeemPositive env w strategy feeRecipientTokenAccount usdcFee cusdcForFee
  let strategy ← strategy.removeUserShares withdrawingShares usdcGross
  pure (w, strategy)

/-- Pay out and check the booked value; where settlements drained the whole pending amount, check
the vault's value instead. -/
def settlePending (config : GlobalConfig) (entry : TokenEntry) (strategy : YieldStrategy)
    (snap : ReserveSnapshot) (participantBucket withdrawalDestination feeRecipientTokenAccount : Pubkey)
    (tokenId : U16) (participantId : U32) (withdrawingShares : Nat) :
    Result (World × YieldStrategy) :=
  if withdrawingShares = 0 then do
    let (w, _) ← w.editParticipantBucket participantBucket
      (·.clearTokenWithdrawalInData participantId tokenId)
    let shareVault ← w.getTokenAccount strategy.shareVault
    let shareVaultUnderlying ← cusdcToUsdc shareVault.amount snap
    strategy.requireSolvent shareVaultUnderlying
    pure (w, strategy)
  else do
    let (w, strategy) ← payOut env w config entry strategy snap withdrawalDestination
      feeRecipientTokenAccount withdrawingShares
    let (w, _) ← w.editParticipantBucket participantBucket
      (·.clearTokenWithdrawalInData participantId tokenId)
    strategy.requireSolvent strategy.lastSettledUnderlying
    pure (w, strategy)

def handler (participantBucket withdrawalDestination feeRecipientTokenAccount : Pubkey)
    (tokenId : U16) (participantId : U32) : Result World := do
  let config ← w.getGlobalConfig
  let strategy ← w.getYieldStrategy tokenId
  let destination ← w.getTokenAccount withdrawalDestination
  require (destination.mint = strategy.underlyingMint) (.vault .invalidTokenMint)
  let feeAccount ← w.getTokenAccount feeRecipientTokenAccount
  require (feeAccount.owner = config.feeRecipient) (.vault .invalidFeeRecipient)
  require (feeAccount.mint = strategy.underlyingMint) (.vault .invalidTokenMint)
  let entry ← w.yieldToken tokenId
  require (entry.decimals ≤ TokenRegistry.maxTokenDecimals) (.vault .invalidTokenDecimals)
  require (strategy.tokenId = tokenId) (.vault .invalidYieldStrategy)
  ParticipantBucket.verifyAccountInfo env w participantBucket
    (ParticipantBucket.bucketIdForParticipantId participantId)
  let (w, strategy, snap) ← accrueStrategy env w strategy
  let data ← w.getParticipantBucket participantBucket
  let snapshot ← data.readTokenWithdrawalFromData participantId tokenId
  require (snapshot.withdrawalUnlockAt ≠ 0) (.vault .noWithdrawalPending)
  require (withdrawalDestination = snapshot.withdrawalDestination)
    (.vault .invalidWithdrawalDestination)
  require (destination.mint = strategy.underlyingMint) (.vault .invalidTokenMint)
  require (snapshot.withdrawalUnlockAt ≤ w.clock) (.vault .withdrawalLocked)
  let (w, strategy) ← settlePending env w config entry strategy snap participantBucket
    withdrawalDestination feeRecipientTokenAccount tokenId participantId snapshot.withdrawingBalance
  pure (w.setYieldStrategy tokenId strategy)

end ExecuteWithdrawalYieldBearing

namespace ClaimProtocolYieldFee

def handler (feeRecipient feeRecipientTokenAccount : Pubkey) (tokenId : U16) (amount : Nat) :
    Result World := do
  let config ← w.getGlobalConfig
  let strategy ← w.getYieldStrategy tokenId
  let feeAccount ← w.getTokenAccount feeRecipientTokenAccount
  require (feeAccount.owner = config.feeRecipient) (.vault .invalidFeeRecipient)
  require (feeAccount.mint = strategy.underlyingMint) (.vault .invalidTokenMint)
  require (0 < amount) (.vault .amountMustBePositive)
  require (strategy.tokenId = tokenId) (.vault .invalidYieldStrategy)
  require (feeRecipient = config.feeRecipient) (.vault .invalidFeeRecipient)
  let (w, strategy, snap) ← accrueStrategy env w strategy
  require (amount ≤ strategy.protocolOwedUnderlying) (.vault .insufficientProtocolYield)
  let cusdcToBurn ← usdcToCusdcRoundDown amount snap
  let w ← cpiRedeemReserveCollateral env w strategy feeRecipientTokenAccount cusdcToBurn
  let strategy ← strategy.takeProtocolOwed amount
  strategy.requireSolvent strategy.lastSettledUnderlying
  pure (w.setYieldStrategy tokenId strategy)

end ClaimProtocolYieldFee

/-- The checks `opt_in_yield` and `opt_out_yield` share: two tokens over the strategy's underlying,
one of each kind. -/
def World.optTokens (plainTokenId yieldTokenId : U16) : Result YieldStrategy := do
  require (plainTokenId ≠ yieldTokenId) (.vault .invalidYieldStrategy)
  let strategy ← w.strategyOf yieldTokenId
  let plainVault ← w.getTokenAccount (env.address (.vaultTokenAccount plainTokenId))
  require (plainVault.mint = strategy.underlyingMint) (.vault .mismatchedYieldUnderlying)
  let plainEntry ← w.plainToken plainTokenId
  require (plainEntry.mint = strategy.underlyingMint) (.vault .mismatchedYieldUnderlying)
  let _ ← w.yieldToken yieldTokenId
  pure strategy

namespace OptInYield

def handler (owner ownerIndexBucket participantBucket : Pubkey) (plainTokenId yieldTokenId : U16)
    (amountUsdc : Nat) : Result World := do
  let _ ← w.getGlobalConfig
  require (0 < amountUsdc) (.vault .amountMustBePositive)
  let strategy ← w.optTokens env plainTokenId yieldTokenId
  let participantId ← w.authenticated env ownerIndexBucket participantBucket owner
  let (w, strategy, _) ← accrueStrategy env w strategy
  let (w, _) ← w.editParticipantBucket participantBucket
    (·.debitTokenAvailableInData participantId plainTokenId amountUsdc)
  let w ← cpiDepositReserveLiquidity env w strategy (env.address (.vaultTokenAccount plainTokenId))
    (env.address .globalConfig) amountUsdc
  let (strategy, sharesMinted) ← DepositYieldBearing.mintShares strategy amountUsdc
  let (w, _) ← w.editParticipantBucket participantBucket
    (·.applyTokenDeltaInData participantId yieldTokenId sharesMinted)
  strategy.requireSolvent strategy.lastSettledUnderlying
  pure (w.setYieldStrategy yieldTokenId strategy)

end OptInYield

namespace OptOutYield

/-- What the shares are owed, the reserve's shares that covers, and what those pay. -/
def redemption (strategy : YieldStrategy) (snap : ReserveSnapshot) (shares : Nat) :
    Result (Nat × Nat) := do
  let usdcOwed ← strategy.sharesToUsdc shares
  require (0 < usdcOwed) (.vault .amountMustBePositive)
  let cusdcToBurn ← usdcToCusdcRoundDown usdcOwed snap
  require (0 < cusdcToBurn) (.vault .amountMustBePositive)
  let usdcActuallyReceived ← cusdcToUsdc cusdcToBurn snap
  require (0 < usdcActuallyReceived) (.vault .amountMustBePositive)
  pure (cusdcToBurn, usdcActuallyReceived)

def handler (owner ownerIndexBucket participantBucket : Pubkey) (yieldTokenId plainTokenId : U16)
    (shares : Nat) : Result World := do
  let _ ← w.getGlobalConfig
  require (0 < shares) (.vault .amountMustBePositive)
  let strategy ← w.optTokens env plainTokenId yieldTokenId
  let participantId ← w.authenticated env ownerIndexBucket participantBucket owner
  let (w, strategy, snap) ← accrueStrategy env w strategy
  let (w, _) ← w.editParticipantBucket participantBucket
    (·.debitTokenAvailableInData participantId yieldTokenId shares)
  let (cusdcToBurn, usdcActuallyReceived) ← redemption strategy snap shares
  let w ← cpiRedeemReserveCollateral env w strategy (env.address (.vaultTokenAccount plainTokenId))
    cusdcToBurn
  let strategy ← strategy.removeUserShares shares usdcActuallyReceived
  let (w, _) ← w.editParticipantBucket participantBucket
    (·.applyTokenDeltaInData participantId plainTokenId usdcActuallyReceived)
  strategy.requireSolvent strategy.lastSettledUnderlying
  pure (w.setYieldStrategy yieldTokenId strategy)

end OptOutYield

end Ryvo
