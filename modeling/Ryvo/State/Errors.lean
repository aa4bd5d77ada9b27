import Ryvo.Support.Outcome

/-!
# State — Errors

The errors a transaction fails with: the program's own `VaultError`, the lending program's `MockYieldError`, the token program's, and the account checks the framework makes before a handler runs.  A failed transaction leaves no trace, so a `Result` carries the next state only on success.
-/

namespace Ryvo

/-- The program's error codes. -/
inductive VaultError where
  | insufficientBalance
  | withdrawalAlreadyPending
  | noWithdrawalPending
  | withdrawalLocked
  | invalidWithdrawalDestination
  | invalidAuthority
  | invalidFeeRecipient
  | invalidInboundChannelPolicy
  | unauthorizedInitializer
  | invalidFeeBps
  | invalidRegistrationFee
  | invalidDepositFor
  | amountMustBePositive
  | commitmentAmountMustIncrease
  | invalidAuthoritySignature
  | signatureAlreadyUsed
  | participantNotFound
  | accountIdMismatch
  | invalidCommitmentMessage
  | invalidClearingRoundMessage
  | netFlowImbalance
  | netPositionOverflow
  | mathOverflow
  | invalidChainId
  | invalidMessageDomain
  | invalidSignature
  | invalidBlsPublicKey
  | invalidBlsSignature
  | invalidBlsProofOfPossession
  | participantBlsKeyNotFound
  | participantBlsKeyAlreadyRegistered
  | accountBlsKeyMismatch
  | blsSyscallFailed
  | cpiNotAllowed
  | invalidEd25519Data
  | channelNotInitialized
  | channelAlreadyExists
  | unauthorizedSettler
  | inboundChannelConsentRequired
  | counterpartyConsentRequired
  | inboundChannelsDisabled
  | selfChannelNotAllowed
  | noPendingAuthorityTransfer
  | unauthorizedPendingAuthority
  | tooManyTokenBalances
  | tokenNotFound
  | tokenAlreadyRegistered
  | tokenIdAlreadyInUse
  | unauthorizedTokenRegistration
  | invalidTokenId
  | invalidTokenSymbol
  | invalidTokenDecimals
  | tokenRegistryFull
  | invalidTokenMint
  | insufficientLockedBalance
  | noChannelUnlockPending
  | invalidAuthorizedSigner
  | noAuthorizedSignerUpdatePending
  | bucketAccountMismatch
  | bucketSlotMismatch
  | bucketSlotAlreadyInitialized
  | bucketFull
  | ownerAlreadyRegistered
  | tokenIsYieldBearing
  | tokenIsNotYieldBearing
  | invalidYieldStrategy
  | insufficientProtocolYield
  | yieldUnderlyingMismatch
  | solvencyInvariantBroken
  | invalidYieldProgram
  | invalidProtocolYieldShareBps
  | mismatchedYieldUnderlying
  deriving DecidableEq

/-- The lending program's error codes. -/
inductive MockYieldError where
  | apyTooHigh
  | amountMustBePositive
  | mathOverflow
  | zeroShareConversion
  | insufficientShareSupply
  | shareMintMismatch
  | liquidityVaultMismatch
  | underlyingMintMismatch
  | unauthorized
  deriving DecidableEq

/-- The token program's error codes. -/
inductive TokenError where
  | insufficientFunds
  | mintMismatch
  | ownerMismatch
  | overflow
  | fixedSupply
  | accountFrozen
  | mintCannotFreeze
  | invalidState
  | nonNativeHasBalance
  deriving DecidableEq

/-- Account checks made before a handler runs. -/
inductive AccountError where
  | accountNotInitialized
  | accountAlreadyInUse
  | accountOwnedByWrongProgram
  | constraintSeeds
  | constraintRaw
  | constraintTokenMint
  | constraintTokenOwner
  | constraintAddress
  | accountNotSystemOwned
  | notEnoughAccountKeys
  | instructionFallback
  deriving DecidableEq

inductive Error where
  | vault (e : VaultError)
  | mockYield (e : MockYieldError)
  | token (e : TokenError)
  | account (e : AccountError)
  deriving DecidableEq

instance : Coe VaultError Error := ⟨.vault⟩
instance : Coe MockYieldError Error := ⟨.mockYield⟩
instance : Coe TokenError Error := ⟨.token⟩
instance : Coe AccountError Error := ⟨.account⟩

/-- `anchor_lang::Result`. -/
abbrev Result (α : Type) := Except Error α

/-- `a.checked_add(b).ok_or(MathOverflow)` on `u64`. -/
abbrev addU64 (a b : Nat) : Result Nat := checkedAdd u64Bound a b (Error.vault .mathOverflow)

/-- `a.checked_sub(b).ok_or(MathOverflow)` on `u64`. -/
abbrev subU64 (a b : Nat) : Result Nat := checkedSub a b (Error.vault .mathOverflow)

/-- `i64` timestamps. -/
abbrev addI64 (a b : Int) : Result Int := signed 63 (a + b) (Error.vault .mathOverflow)

end Ryvo
