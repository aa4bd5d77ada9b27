import Ryvo.Machine.TokenProgram

/-!
# Instructions — Admin

`initialize`, `update_config`, `accept_config_authority` and the token registry's instructions.  Accounts that a `seeds` or `address` constraint fixes are not parameters: any other account fails the constraint.
-/

namespace Ryvo

variable (env : Env) (w : World)

/-- `SystemAccount`: owned by no program modelled here. -/
def World.systemOwned (k : Pubkey) : Bool :=
  (w.participantBuckets k).isNone && (w.ownerIndexBuckets k).isNone && (w.channelBuckets k).isNone
    && (w.mints k).isNone && (w.tokenAccounts k).isNone && (w.reserves k).isNone

namespace Initialize

/-- The current and the pending authority. -/
def resolveBootstrapAuthorities (upgradeAuthority : Pubkey) (initialAuthority : Option Pubkey) :
    Result (Pubkey × Pubkey) := do
  require (upgradeAuthority ≠ Pubkey.default) (.vault .invalidAuthority)
  let nominatedAuthority := initialAuthority.getD upgradeAuthority
  require (nominatedAuthority ≠ Pubkey.default) (.vault .invalidAuthority)
  pure (upgradeAuthority,
    if nominatedAuthority = upgradeAuthority then Pubkey.default else nominatedAuthority)

def validFeeBps (feeBps : Nat) : Prop :=
  GlobalConfig.minFeeBps ≤ feeBps ∧ feeBps ≤ GlobalConfig.maxFeeBps

instance (feeBps : Nat) : Decidable (validFeeBps feeBps) := inferInstanceAs (Decidable (_ ∧ _))

def validRegistrationFee (lamports : Nat) : Prop :=
  lamports = 0 ∨ (GlobalConfig.minRegistrationFeeLamports ≤ lamports
    ∧ lamports ≤ GlobalConfig.maxRegistrationFeeLamports)

instance (lamports : Nat) : Decidable (validRegistrationFee lamports) :=
  inferInstanceAs (Decidable (_ ∨ _))

/-- `initialize`, once: the config account is created here. -/
def handler (upgradeAuthority feeRecipient : Pubkey) (chainId : U16)
    (feeBps registrationFeeLamports : Nat) (initialAuthority : Option Pubkey) : Result World := do
  require (w.globalConfig = none) (.account .accountAlreadyInUse)
  require (w.systemOwned feeRecipient = true) (.account .accountNotSystemOwned)
  require (env.upgradeAuthority = some upgradeAuthority) (.vault .unauthorizedInitializer)
  require (validFeeBps feeBps) (.vault .invalidFeeBps)
  require (feeRecipient ≠ Pubkey.default) (.vault .invalidFeeRecipient)
  require (validRegistrationFee registrationFeeLamports) (.vault .invalidRegistrationFee)
  let (authority, pendingAuthority) ← resolveBootstrapAuthorities upgradeAuthority initialAuthority
  let withdrawalTimelockSeconds ← GlobalConfig.withdrawalTimelockForChainId chainId
  let channelUnlockTimelockSeconds ← GlobalConfig.channelUnlockTimelockForChainId chainId
  pure (w.setGlobalConfig
    { authority
      feeRecipient
      feeBps
      withdrawalTimelockSeconds
      registrationFeeLamports
      nextParticipantId := 0
      chainId
      messageDomain := GlobalConfig.deriveMessageDomain env chainId
      pendingAuthority
      channelUnlockTimelockSeconds })

end Initialize

namespace UpdateConfig

def setPendingAuthority (config : GlobalConfig) : Option Pubkey → Result GlobalConfig
  | none => .ok config
  | some a => do
      require (a ≠ Pubkey.default) (.vault .invalidAuthority)
      pure { config with pendingAuthority := a }

/-- The new recipient is passed as the first remaining account. -/
def setFeeRecipient (remaining : List Pubkey) (config : GlobalConfig) :
    Option Pubkey → Result GlobalConfig
  | none => .ok config
  | some f => do
      require (f ≠ Pubkey.default) (.vault .invalidFeeRecipient)
      let account ← okOr remaining.head? (.vault .invalidFeeRecipient)
      require (account = f) (.vault .invalidFeeRecipient)
      require (w.systemOwned account = true) (.vault .invalidFeeRecipient)
      pure { config with feeRecipient := f }

def setFeeBps (config : GlobalConfig) : Option Nat → Result GlobalConfig
  | none => .ok config
  | some bps => do
      require (Initialize.validFeeBps bps) (.vault .invalidFeeBps)
      pure { config with feeBps := bps }

def setRegistrationFee (config : GlobalConfig) : Option Nat → Result GlobalConfig
  | none => .ok config
  | some r => do
      require (Initialize.validRegistrationFee r) (.vault .invalidRegistrationFee)
      pure { config with registrationFeeLamports := r }

def handler (authority : Pubkey) (remaining : List Pubkey)
    (newAuthority newFeeRecipient : Option Pubkey)
    (newFeeBps newRegistrationFeeLamports : Option Nat) : Result World := do
  let config ← w.getGlobalConfig
  require (config.authority = authority) (.account .constraintRaw)
  let config ← setPendingAuthority config newAuthority
  let config ← setFeeRecipient w remaining config newFeeRecipient
  let config ← setFeeBps config newFeeBps
  let config ← setRegistrationFee config newRegistrationFeeLamports
  pure (w.setGlobalConfig config)

def acceptConfigAuthority (pendingAuthority : Pubkey) : Result World := do
  let config ← w.getGlobalConfig
  require (config.hasPendingAuthority = true) (.vault .noPendingAuthorityTransfer)
  require (config.pendingAuthority = pendingAuthority) (.vault .unauthorizedPendingAuthority)
  pure (w.setGlobalConfig
    { config with authority := pendingAuthority, pendingAuthority := Pubkey.default })

end UpdateConfig

namespace TokenRegistry

def initializeTokenRegistry (authority : Pubkey) : Result World := do
  require (w.tokenRegistry = none) (.account .accountAlreadyInUse)
  let config ← w.getGlobalConfig
  require (config.authority = authority) (.vault .unauthorizedTokenRegistration)
  pure (w.setTokenRegistry { authority, tokens := [], pendingAuthority := Pubkey.default })

/-- ASCII, and not all padding. -/
def checkSymbol (symbolBytes : List UInt8) : Result Unit := do
  require (symbolBytes.all (· < 128) = true) (.vault .invalidTokenSymbol)
  require (symbolBytes.any (· ≠ 0) = true) (.vault .invalidTokenSymbol)

/-- `register_token`: the token's vault is created with it, owned by the config's address. -/
def registerToken (authority mint : Pubkey) (tokenId : U16) (symbolBytes : List UInt8) :
    Result World := do
  let registry ← w.getTokenRegistry
  let _ ← w.getGlobalConfig
  let m ← w.getMint mint
  let w ← w.createTokenAccount env (env.address (.vaultTokenAccount tokenId)) mint
    (env.address .globalConfig)
  require (authority = registry.authority) (.vault .unauthorizedTokenRegistration)
  require (0 < tokenId) (.vault .invalidTokenId)
  require (registry.isTokenRegistered tokenId = false) (.vault .tokenIdAlreadyInUse)
  require (registry.isMintRegistered mint = false) (.vault .tokenAlreadyRegistered)
  require (m.decimals ≤ maxTokenDecimals) (.vault .invalidTokenDecimals)
  checkSymbol symbolBytes
  require (registry.tokens.length + 1 ≤ maxTokens) (.vault .tokenRegistryFull)
  pure (w.setTokenRegistry (registry.push
    { id := tokenId, mint, decimals := m.decimals, symbol := symbolBytes, registeredAt := w.clock,
      kind := .plain }))

def updateRegistryAuthority (currentAuthority newAuthority : Pubkey) : Result World := do
  let registry ← w.getTokenRegistry
  require (currentAuthority = registry.authority) (.vault .unauthorizedTokenRegistration)
  require (newAuthority ≠ Pubkey.default) (.vault .invalidAuthority)
  pure (w.setTokenRegistry { registry with pendingAuthority := newAuthority })

def acceptRegistryAuthority (pendingAuthority : Pubkey) : Result World := do
  let registry ← w.getTokenRegistry
  require (registry.hasPendingAuthority = true) (.vault .noPendingAuthorityTransfer)
  require (registry.pendingAuthority = pendingAuthority) (.vault .unauthorizedPendingAuthority)
  pure (w.setTokenRegistry
    { registry with authority := pendingAuthority, pendingAuthority := Pubkey.default })

end TokenRegistry

end Ryvo
