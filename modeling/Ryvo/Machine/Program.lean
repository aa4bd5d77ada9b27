import Ryvo.Instructions.Admin
import Ryvo.Instructions.SettleClearingRound
import Ryvo.Instructions.SettleCommitmentBundle
import Ryvo.Instructions.Yield
import Ryvo.Support.Runs

/-!
# Machine — Program

The instructions of the program, and what everybody else can do: use the token program and the lending program, and let time pass.  An action runs in a world when everyone who has to sign it can sign, and the handler succeeds; a failed one changes nothing and is no step.

A run starts on an empty chain with a positive clock.
-/

namespace Ryvo

/-- The program's entry points, with the accounts and arguments each is given.  `initializeProgram` is the entry point `initialize`. -/
inductive Instruction where
  | initializeProgram (upgradeAuthority feeRecipient : Pubkey) (chainId feeBps : U16)
      (registrationFeeLamports : U64) (initialAuthority : Option Pubkey)
  | updateConfig (authority : Pubkey) (remaining : List Pubkey)
      (newAuthority newFeeRecipient : Option Pubkey) (newFeeBps : Option U16)
      (newRegistrationFeeLamports : Option U64)
  | acceptConfigAuthority (pendingAuthority : Pubkey)
  | initializeParticipant (owner feeRecipient : Pubkey)
      (participantBucketId ownerIndexBucketId : U32)
  | registerParticipantBlsKey (owner ownerIndexBucket participantBucket : Pubkey)
      (blsPubkeyCompressed : Bytes 96) (popSignatureCompressed : Bytes 48)
  | updateInboundChannelPolicy (owner ownerIndexBucket participantBucket : Pubkey)
      (inboundChannelPolicy : U8)
  | deposit (owner ownerIndexBucket participantBucket ownerTokenAccount : Pubkey) (tokenId : U16)
      (amount : U64)
  | depositFor (funder funderTokenAccount : Pubkey) (remaining : List Pubkey) (tokenId : U16)
      (participantIds : List U32) (amounts : List U64)
  | requestWithdrawal (owner ownerIndexBucket participantBucket withdrawalDestination : Pubkey)
      (tokenId : U16) (amount : U64) (destination : Pubkey)
  | cancelWithdrawal (owner ownerIndexBucket participantBucket : Pubkey) (tokenId : U16)
  | executeWithdrawalTimelocked
      (participantBucket withdrawalDestination feeRecipientTokenAccount : Pubkey) (tokenId : U16)
      (participantId : U32)
  | createChannel (owner ownerIndexBucket payerBucket payeeBucket : Pubkey)
      (payeeOwner : Option Pubkey) (tokenId : U16) (lowerParticipantId higherParticipantId : U32)
      (channelBucketId : U64) (authorizedSigner : Option Pubkey)
  | lockChannelFunds (owner ownerIndexBucket payerBucket channelBucket : Pubkey) (tokenId : U16)
      (payeeParticipantId : U32) (amount : U64)
  | requestUnlockChannelFunds (owner ownerIndexBucket channelBucket : Pubkey) (tokenId : U16)
      (payeeParticipantId : U32) (amount : U64)
  | executeUnlockChannelFunds (owner ownerIndexBucket payerBucket channelBucket : Pubkey)
      (tokenId : U16) (payeeParticipantId : U32)
  | cooperativeUnlockChannelFunds
      (owner payeeOwner ownerIndexBucket payerBucket payeeBucket channelBucket : Pubkey)
      (tokenId : U16) (payeeParticipantId : U32) (amount : U64)
  | requestUpdateChannelAuthorizedSigner (owner ownerIndexBucket channelBucket : Pubkey)
      (tokenId : U16) (payeeParticipantId : U32) (newSigner : Pubkey)
  | executeUpdateChannelAuthorizedSigner (owner ownerIndexBucket channelBucket : Pubkey)
      (tokenId : U16) (payeeParticipantId : U32)
  | settleIndividual (submitter : Pubkey) (sysvar : InstructionsSysvar) (remaining : List Pubkey)
  | settleCommitmentBundle (submitter : Pubkey) (sysvar : InstructionsSysvar)
      (remaining : List Pubkey) (count : U8)
  | settleClearingRound (submitter : Pubkey) (sysvar : InstructionsSysvar)
      (remaining : List Pubkey) (message : List UInt8) (aggregateSignatureCompressed : Bytes 48)
  | initializeTokenRegistry (authority : Pubkey)
  | registerToken (authority mint : Pubkey) (tokenId : U16) (symbolBytes : Bytes 8)
  | updateRegistryAuthority (currentAuthority newAuthority : Pubkey)
  | acceptRegistryAuthority (pendingAuthority : Pubkey)
  | registerYieldBearingToken
      (authority underlyingMint yieldProgram reserve shareMint liquidityVault : Pubkey)
      (tokenId : U16) (symbolBytes : Bytes 8) (protocolYieldShareBps : U16)
  | accrueYield (tokenId : U16)
  | depositYieldBearing (depositor ownerIndexBucket participantBucket depositorUnderlying : Pubkey)
      (tokenId : U16) (amount : U64)
  | requestWithdrawalYieldBearing
      (owner ownerIndexBucket participantBucket withdrawalDestination : Pubkey) (tokenId : U16)
      (shares : U64) (destination : Pubkey)
  | executeWithdrawalYieldBearing
      (participantBucket withdrawalDestination feeRecipientTokenAccount : Pubkey) (tokenId : U16)
      (participantId : U32)
  | claimProtocolYieldFee (feeRecipient feeRecipientTokenAccount : Pubkey) (tokenId : U16)
      (amount : U64)
  | optInYield (owner ownerIndexBucket participantBucket : Pubkey)
      (plainTokenId yieldTokenId : U16) (amountUsdc : U64)
  | optOutYield (owner ownerIndexBucket participantBucket : Pubkey)
      (yieldTokenId plainTokenId : U16) (shares : U64)

namespace Instruction

/-- The `Signer` accounts of the instruction. -/
def signers : Instruction → List Pubkey
  | initializeProgram upgradeAuthority .. => [upgradeAuthority]
  | updateConfig authority .. => [authority]
  | acceptConfigAuthority pendingAuthority => [pendingAuthority]
  | initializeParticipant owner .. => [owner]
  | registerParticipantBlsKey owner .. => [owner]
  | updateInboundChannelPolicy owner .. => [owner]
  | deposit owner .. => [owner]
  | depositFor funder .. => [funder]
  | requestWithdrawal owner .. => [owner]
  | cancelWithdrawal owner .. => [owner]
  | executeWithdrawalTimelocked .. => []
  | createChannel owner _ _ _ payeeOwner .. => owner :: payeeOwner.toList
  | lockChannelFunds owner .. => [owner]
  | requestUnlockChannelFunds owner .. => [owner]
  | executeUnlockChannelFunds owner .. => [owner]
  | cooperativeUnlockChannelFunds owner payeeOwner .. => [owner, payeeOwner]
  | requestUpdateChannelAuthorizedSigner owner .. => [owner]
  | executeUpdateChannelAuthorizedSigner owner .. => [owner]
  | settleIndividual submitter .. => [submitter]
  | settleCommitmentBundle submitter .. => [submitter]
  | settleClearingRound submitter .. => [submitter]
  | initializeTokenRegistry authority => [authority]
  | registerToken authority .. => [authority]
  | updateRegistryAuthority currentAuthority _ => [currentAuthority]
  | acceptRegistryAuthority pendingAuthority => [pendingAuthority]
  | registerYieldBearingToken authority .. => [authority]
  | accrueYield .. => []
  | depositYieldBearing depositor .. => [depositor]
  | requestWithdrawalYieldBearing owner .. => [owner]
  | executeWithdrawalYieldBearing .. => []
  | claimProtocolYieldFee feeRecipient .. => [feeRecipient]
  | optInYield owner .. => [owner]
  | optOutYield owner .. => [owner]

variable (env : Env) (w : World)

/-- The handler the entry point calls. -/
def run : Instruction → Result World
  | initializeProgram upgradeAuthority feeRecipient chainId feeBps fee initialAuthority =>
      Initialize.handler env w upgradeAuthority feeRecipient chainId feeBps.val fee.val
        initialAuthority
  | updateConfig authority remaining newAuthority newFeeRecipient newFeeBps newFee =>
      UpdateConfig.handler w authority remaining newAuthority newFeeRecipient
        (newFeeBps.map (·.val)) (newFee.map (·.val))
  | acceptConfigAuthority pendingAuthority => UpdateConfig.acceptConfigAuthority w pendingAuthority
  | initializeParticipant owner feeRecipient participantBucketId ownerIndexBucketId =>
      InitializeParticipant.handler env w owner feeRecipient participantBucketId ownerIndexBucketId
  | registerParticipantBlsKey owner ownerIndexBucket participantBucket key pop =>
      RegisterParticipantBlsKey.handler env w owner ownerIndexBucket participantBucket key pop
  | updateInboundChannelPolicy owner ownerIndexBucket participantBucket policy =>
      UpdateInboundChannelPolicy.handler env w owner ownerIndexBucket participantBucket policy
  | deposit owner ownerIndexBucket participantBucket ownerTokenAccount tokenId amount =>
      Deposit.handler env w owner ownerIndexBucket participantBucket ownerTokenAccount tokenId
        amount.val
  | depositFor funder funderTokenAccount remaining tokenId participantIds amounts =>
      DepositFor.handler env w funder funderTokenAccount remaining tokenId participantIds
        (amounts.map (·.val))
  | requestWithdrawal owner ownerIndexBucket participantBucket withdrawalDestination tokenId amount
        destination =>
      RequestWithdrawal.handler env w owner ownerIndexBucket participantBucket
        withdrawalDestination tokenId amount.val destination
  | cancelWithdrawal owner ownerIndexBucket participantBucket tokenId =>
      CancelWithdrawal.handler env w owner ownerIndexBucket participantBucket tokenId
  | executeWithdrawalTimelocked participantBucket withdrawalDestination feeAccount tokenId
        participantId =>
      ExecuteWithdrawalTimelocked.handler env w participantBucket withdrawalDestination feeAccount
        tokenId participantId
  | createChannel owner ownerIndexBucket payerBucket payeeBucket payeeOwner tokenId lower higher
        channelBucketId authorizedSigner =>
      CreateChannel.handler env w owner ownerIndexBucket payerBucket payeeBucket payeeOwner tokenId
        lower higher channelBucketId authorizedSigner
  | lockChannelFunds owner ownerIndexBucket payerBucket channelBucket tokenId payeeId amount =>
      LockChannelFunds.handler env w owner ownerIndexBucket payerBucket channelBucket tokenId payeeId
        amount.val
  | requestUnlockChannelFunds owner ownerIndexBucket channelBucket tokenId payeeId amount =>
      RequestUnlockChannelFunds.handler env w owner ownerIndexBucket channelBucket tokenId payeeId
        amount.val
  | executeUnlockChannelFunds owner ownerIndexBucket payerBucket channelBucket tokenId payeeId =>
      ExecuteUnlockChannelFunds.handler env w owner ownerIndexBucket payerBucket channelBucket
        tokenId payeeId
  | cooperativeUnlockChannelFunds owner payeeOwner ownerIndexBucket payerBucket payeeBucket
        channelBucket tokenId payeeId amount =>
      CooperativeUnlockChannelFunds.handler env w owner payeeOwner ownerIndexBucket payerBucket
        payeeBucket channelBucket tokenId payeeId amount.val
  | requestUpdateChannelAuthorizedSigner owner ownerIndexBucket channelBucket tokenId payeeId
        newSigner =>
      RequestUpdateChannelAuthorizedSigner.handler env w owner ownerIndexBucket channelBucket tokenId
        payeeId newSigner
  | executeUpdateChannelAuthorizedSigner owner ownerIndexBucket channelBucket tokenId payeeId =>
      ExecuteUpdateChannelAuthorizedSigner.handler env w owner ownerIndexBucket channelBucket tokenId
        payeeId
  | settleIndividual submitter sysvar remaining =>
      SettleIndividual.handler env w submitter sysvar remaining
  | settleCommitmentBundle submitter sysvar remaining count =>
      SettleCommitmentBundle.handler env w submitter sysvar remaining count
  | settleClearingRound _ sysvar remaining message signature =>
      SettleClearingRound.handler env w sysvar remaining message signature
  | initializeTokenRegistry authority => TokenRegistry.initializeTokenRegistry w authority
  | registerToken authority mint tokenId symbolBytes =>
      TokenRegistry.registerToken env w authority mint tokenId symbolBytes.val
  | updateRegistryAuthority currentAuthority newAuthority =>
      TokenRegistry.updateRegistryAuthority w currentAuthority newAuthority
  | acceptRegistryAuthority pendingAuthority =>
      TokenRegistry.acceptRegistryAuthority w pendingAuthority
  | registerYieldBearingToken authority underlyingMint yieldProgram reserve shareMint
        liquidityVault tokenId symbolBytes bps =>
      RegisterYieldBearingToken.handler env w authority underlyingMint yieldProgram reserve shareMint
        liquidityVault tokenId symbolBytes.val bps.val
  | accrueYield tokenId => AccrueYield.handler env w tokenId
  | depositYieldBearing depositor ownerIndexBucket participantBucket source tokenId amount =>
      DepositYieldBearing.handler env w depositor ownerIndexBucket participantBucket source tokenId
        amount.val
  | requestWithdrawalYieldBearing owner ownerIndexBucket participantBucket withdrawalDestination
        tokenId shares destination =>
      RequestWithdrawalYieldBearing.handler env w owner ownerIndexBucket participantBucket
        withdrawalDestination tokenId shares.val destination
  | executeWithdrawalYieldBearing participantBucket withdrawalDestination feeAccount tokenId
        participantId =>
      ExecuteWithdrawalYieldBearing.handler env w participantBucket withdrawalDestination feeAccount
        tokenId participantId
  | claimProtocolYieldFee feeRecipient feeAccount tokenId amount =>
      ClaimProtocolYieldFee.handler env w feeRecipient feeAccount tokenId amount.val
  | optInYield owner ownerIndexBucket participantBucket plainTokenId yieldTokenId amountUsdc =>
      OptInYield.handler env w owner ownerIndexBucket participantBucket plainTokenId yieldTokenId
        amountUsdc.val
  | optOutYield owner ownerIndexBucket participantBucket yieldTokenId plainTokenId shares =>
      OptOutYield.handler env w owner ownerIndexBucket participantBucket yieldTokenId plainTokenId
        shares.val

end Instruction

/-- What happens outside the program. -/
inductive Outside where
  | tick (seconds : Nat)
  | transfer (source destination authority : Pubkey) (amount : U64)
  | mintTo (mint destination authority : Pubkey) (amount : U64)
  | burn (mint source authority : Pubkey) (amount : U64)
  | freezeAccount (account mint authority : Pubkey)
  | thawAccount (account mint authority : Pubkey)
  | closeAccount (account authority : Pubkey)
  | createMint (mint mintAuthority : Pubkey) (freezeAuthority : Option Pubkey) (decimals : U8)
  | createTokenAccount (account mint owner : Pubkey)
  | initializeReserve (underlyingMint authority : Pubkey) (apyBps : U16)
  | accrueReserve (reserve shareMint : Pubkey)
  | updateApyBps (reserve authority : Pubkey) (newApyBps : U16)
  | depositReserveLiquidity
      (reserve underlyingMint depositorUnderlying depositorShares depositor : Pubkey) (amount : U64)
  | redeemReserveCollateral
      (reserve underlyingMint redeemerShares redeemerUnderlying shareAuthority : Pubkey)
      (shares : U64)

namespace Outside

/-- Who has to sign, the address of a new account among them. -/
def signers : Outside → List Pubkey
  | tick _ => []
  | transfer _ _ authority _ => [authority]
  | mintTo _ _ authority _ => [authority]
  | burn _ _ authority _ => [authority]
  | freezeAccount _ _ authority => [authority]
  | thawAccount _ _ authority => [authority]
  | closeAccount _ authority => [authority]
  | createMint mint .. => [mint]
  | createTokenAccount account .. => [account]
  | initializeReserve _ authority _ => [authority]
  | accrueReserve .. => []
  | updateApyBps _ authority _ => [authority]
  | depositReserveLiquidity _ _ _ _ depositor _ => [depositor]
  | redeemReserveCollateral _ _ _ _ shareAuthority _ => [shareAuthority]

variable (env : Env) (w : World)

def run : Outside → Result World
  | tick seconds => .ok { w with clock := w.clock + seconds }
  | transfer source destination authority amount =>
      w.tokenTransfer env source destination authority amount.val
  | mintTo mint destination authority amount =>
      w.tokenMintTo env mint destination authority amount.val
  | burn mint source authority amount => w.tokenBurn env mint source authority amount.val
  | freezeAccount account mint authority => w.tokenToggleFreeze env true account mint authority
  | thawAccount account mint authority => w.tokenToggleFreeze env false account mint authority
  | closeAccount account authority => w.tokenClose env account authority
  | createMint mint mintAuthority freezeAuthority decimals =>
      w.createMint env mint mintAuthority freezeAuthority decimals.val
  | createTokenAccount account mint owner => w.createTokenAccount env account mint owner
  | initializeReserve underlyingMint authority apyBps =>
      Lending.initializeReserve env w underlyingMint authority apyBps.val
  | accrueReserve reserve shareMint => do
      let (w, _, _) ← Lending.accrue w reserve shareMint
      pure w
  | updateApyBps reserve authority newApyBps =>
      Lending.updateApyBps w reserve authority newApyBps.val
  | depositReserveLiquidity reserve underlyingMint source shares depositor amount =>
      Lending.depositReserveLiquidity env w reserve underlyingMint source shares depositor amount.val
  | redeemReserveCollateral reserve underlyingMint redeemerShares redeemerUnderlying authority
        shares =>
      Lending.redeemReserveCollateral env w reserve underlyingMint redeemerShares redeemerUnderlying
        authority shares.val

end Outside

inductive Action where
  | call (ix : Instruction)
  | outside (o : Outside)

namespace Action

def signers : Action → List Pubkey
  | call ix => ix.signers
  | outside o => o.signers

def run (env : Env) (w : World) : Action → Result World
  | call ix => ix.run env w
  | outside o => o.run env w

end Action

/-- One step of the chain. -/
structure Step (env : Env) (w : World) (a : Action) (w' : World) : Prop where
  signed : ∀ k ∈ a.signers, env.canSign k = true
  ran : a.run env w = .ok w'

/-- An empty chain with a positive clock. -/
def Genesis (w : World) : Prop := ∃ clock : Int, 0 < clock ∧ w = .genesis clock

/-- The runs of the program among everything else that happens on its chain. -/
abbrev History (env : Env) : List (World × Action) → World → Prop := Run Genesis (Step env)

/-- The worlds some run leads to. -/
abbrev Reached (env : Env) : World → Prop := Reachable Genesis (Step env)

/-- Run a list of actions, signatures checked. -/
def World.perform (env : Env) (w : World) (actions : List Action) : Result World :=
  actions.foldlM (fun w a => do
    require (a.signers.all env.canSign = true) (Error.account .constraintRaw)
    a.run env w) w

/-- What a list of actions leads to is reached. -/
theorem Reached.perform {env : Env} {w w' : World} {actions : List Action} (h : Reached env w)
    (hp : w.perform env actions = .ok w') : Reached env w' :=
  foldlM_inv h (fun _ _ _ _ hb hs => by
    simp only [Except.bind_eq_ok, require_eq_ok, exists_const, List.all_eq_true] at hs
    exact hb.next ⟨hs.1, hs.2⟩) hp

end Ryvo
