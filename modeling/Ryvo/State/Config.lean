import Ryvo.State.Errors
import Ryvo.State.Chain

/-!
# State — Config

The two singleton accounts: `GlobalConfig`, with the fee, the participant counter, the message domain and the unlock timelock, and `TokenRegistry`, the append-only list of tokens.
-/

namespace Ryvo

/-- Stored without its PDA bump, which nothing reads back. -/
structure GlobalConfig where
  authority : Pubkey
  feeRecipient : Pubkey
  feeBps : Nat
  withdrawalTimelockSeconds : Int
  registrationFeeLamports : Nat
  nextParticipantId : U32
  chainId : U16
  messageDomain : List UInt8
  pendingAuthority : Pubkey
  channelUnlockTimelockSeconds : Int
  deriving DecidableEq

namespace GlobalConfig

def minFeeBps : Nat := 3
def maxFeeBps : Nat := 30
def minWithdrawalFee6dp : Nat := 50000
def minRegistrationFeeLamports : Nat := 1000000
def maxRegistrationFeeLamports : Nat := 10000000

def mainnetChainId : U16 := 0
def devnetChainId : U16 := 1
def testnetChainId : U16 := 2
def localnetChainId : U16 := 3

def instantWithdrawalTimelockSeconds : Int := 0
/-- 72 hours. -/
def channelUnlockTimelockSecondsDefault : Int := 259200
def localnetChannelUnlockTimelockSeconds : Int := 2

/-- `b"ryvo-message-domain-v1"`. -/
def messageDomainTag : List UInt8 :=
  [114, 121, 118, 111, 45, 109, 101, 115, 115, 97, 103, 101, 45, 100, 111, 109, 97, 105, 110,
    45, 118, 49]

/-- No supported chain has a withdrawal timelock. -/
def withdrawalTimelockForChainId (chainId : U16) : Result Int :=
  if chainId = mainnetChainId ∨ chainId = devnetChainId ∨ chainId = testnetChainId
      ∨ chainId = localnetChainId then
    .ok instantWithdrawalTimelockSeconds
  else .error (.vault .invalidChainId)

/-- Short on a local chain, so that tests need not wait. -/
def channelUnlockTimelockForChainId (chainId : U16) : Result Int :=
  if chainId = localnetChainId then .ok localnetChannelUnlockTimelockSeconds
  else if chainId = mainnetChainId ∨ chainId = devnetChainId ∨ chainId = testnetChainId then
    .ok channelUnlockTimelockSecondsDefault
  else .error (.vault .invalidChainId)

/-- The stored timelock, or the chain's where an old config holds zero. -/
def effectiveChannelUnlockTimelockSeconds (c : GlobalConfig) : Result Int :=
  if 0 < c.channelUnlockTimelockSeconds then .ok c.channelUnlockTimelockSeconds
  else channelUnlockTimelockForChainId c.chainId

/-- A message is for one program on one chain. -/
def deriveMessageDomain (env : Env) (chainId : U16) : List UInt8 :=
  (env.sha256 (messageDomainTag ++ env.programId.toBytes ++ leBytes 2 chainId.val)).take 16

def hasPendingAuthority (c : GlobalConfig) : Bool := c.pendingAuthority != Pubkey.default

/-- Every supported chain has a positive unlock timelock. -/
theorem channelUnlockTimelockForChainId_pos {chainId : U16} {T : Int}
    (h : channelUnlockTimelockForChainId chainId = .ok T) : 0 < T := by
  unfold channelUnlockTimelockForChainId at h
  split at h
  · cases h; decide
  · split at h
    · cases h; decide
    · cases h

/-- So has every config that has one. -/
theorem effectiveChannelUnlockTimelockSeconds_pos {c : GlobalConfig} {T : Int}
    (h : c.effectiveChannelUnlockTimelockSeconds = .ok T) : 0 < T := by
  unfold effectiveChannelUnlockTimelockSeconds at h
  split at h
  · cases h; assumption
  · exact channelUnlockTimelockForChainId_pos h

end GlobalConfig

/-- `TOKEN_KIND_PLAIN` and `TOKEN_KIND_YIELD_BEARING`, the two kinds that are ever written. -/
inductive TokenKind where
  | plain
  | yieldBearing
  deriving DecidableEq

/-- A registered token: its mint, or the mint a yield-bearing token is a claim on. -/
structure TokenEntry where
  id : U16
  mint : Pubkey
  decimals : Nat
  symbol : List UInt8
  registeredAt : Int
  kind : TokenKind
  deriving DecidableEq

namespace TokenEntry

def isYieldBearing (e : TokenEntry) : Bool := e.kind == .yieldBearing
def isPlain (e : TokenEntry) : Bool := e.kind == .plain

end TokenEntry

structure TokenRegistry where
  authority : Pubkey
  tokens : List TokenEntry
  pendingAuthority : Pubkey
  deriving DecidableEq

namespace TokenRegistry

def maxTokenDecimals : Nat := 20
def maxTokens : Nat := 181

def findToken (r : TokenRegistry) (tokenId : U16) : Option TokenEntry :=
  r.tokens.find? (fun token => token.id = tokenId)

def isTokenRegistered (r : TokenRegistry) (tokenId : U16) : Bool := (r.findToken tokenId).isSome

def isMintRegistered (r : TokenRegistry) (mint : Pubkey) : Bool :=
  r.tokens.any (fun token => token.mint = mint)

def hasPendingAuthority (r : TokenRegistry) : Bool := r.pendingAuthority != Pubkey.default

/-- `registry.tokens.push(entry)`. -/
def push (r : TokenRegistry) (entry : TokenEntry) : TokenRegistry :=
  { r with tokens := r.tokens ++ [entry] }

/-- The entry found is the one asked for. -/
theorem findToken_id {r : TokenRegistry} {t : U16} {e : TokenEntry} (h : r.findToken t = some e) :
    e.id = t := by
  simpa using List.find?_some h

/-- A registration changes no entry that is there. -/
theorem findToken_push_of_some {r : TokenRegistry} {t : U16} {e entry : TokenEntry}
    (h : r.findToken t = some e) : (r.push entry).findToken t = some e := by
  simp only [findToken] at h
  simp [findToken, push, List.find?_append, h]

theorem findToken_push_of_ne {r : TokenRegistry} {t : U16} {entry : TokenEntry}
    (h : entry.id ≠ t) : (r.push entry).findToken t = r.findToken t := by
  simp [findToken, push, List.find?_append, h]

theorem findToken_push_self {r : TokenRegistry} {entry : TokenEntry}
    (h : r.findToken entry.id = none) : (r.push entry).findToken entry.id = some entry := by
  simp only [findToken] at h
  simp [findToken, push, List.find?_append, h]

end TokenRegistry

end Ryvo
