import Ryvo.State.Config
import Ryvo.State.ParticipantBucket
import Ryvo.State.ChannelBucket
import Ryvo.State.OwnerIndex
import Ryvo.State.YieldStrategy
import Mathlib.Tactic.Simps.Basic

/-!
# Machine — World

The accounts a transaction can touch, and the clock.  There is one map for each account type, which stands for the owner-program and discriminator checks: an address holds an account of at most one type, and reading it as another fails.

Lamports, rent and events are left out: no handler's outcome for the state modelled here depends on them.
-/

namespace Ryvo

/-- The lending program's `Reserve`. -/
structure Reserve where
  underlyingMint : Pubkey
  shareMint : Pubkey
  liquidityVault : Pubkey
  authority : Pubkey
  apyBps : Nat
  lastAccrualTs : Int
  totalUnderlying : Nat
  deriving DecidableEq

structure World where
  /-- `Clock::get()?.unix_timestamp`. -/
  clock : Int
  globalConfig : Option GlobalConfig
  tokenRegistry : Option TokenRegistry
  participantBuckets : Pubkey → Option ParticipantBucket
  ownerIndexBuckets : Pubkey → Option OwnerIndexBucket
  channelBuckets : Pubkey → Option ChannelBucket
  /-- The strategy at the address of the token's strategy seeds. -/
  yieldStrategies : U16 → Option YieldStrategy
  mints : Pubkey → Option Mint
  tokenAccounts : Pubkey → Option TokenAccount
  reserves : Pubkey → Option Reserve

namespace World

/-- Before the program is deployed. -/
def genesis (clock : Int) : World :=
  ⟨clock, none, none, fun _ => none, fun _ => none, fun _ => none, fun _ => none, fun _ => none,
    fun _ => none, fun _ => none⟩

variable (w : World)

@[simps] def setGlobalConfig (c : GlobalConfig) : World := { w with globalConfig := some c }

@[simps] def setTokenRegistry (r : TokenRegistry) : World := { w with tokenRegistry := some r }

@[simps] def setParticipantBucket (k : Pubkey) (b : ParticipantBucket) : World :=
  { w with participantBuckets := Function.update w.participantBuckets k (some b) }

@[simps] def setOwnerIndexBucket (k : Pubkey) (b : OwnerIndexBucket) : World :=
  { w with ownerIndexBuckets := Function.update w.ownerIndexBuckets k (some b) }

@[simps] def setChannelBucket (k : Pubkey) (b : ChannelBucket) : World :=
  { w with channelBuckets := Function.update w.channelBuckets k (some b) }

@[simps] def setYieldStrategy (t : U16) (s : YieldStrategy) : World :=
  { w with yieldStrategies := Function.update w.yieldStrategies t (some s) }

@[simps] def setMint (k : Pubkey) (m : Mint) : World :=
  { w with mints := Function.update w.mints k (some m) }

@[simps] def setTokenAccount (k : Pubkey) (a : TokenAccount) : World :=
  { w with tokenAccounts := Function.update w.tokenAccounts k (some a) }

@[simps] def setReserve (k : Pubkey) (r : Reserve) : World :=
  { w with reserves := Function.update w.reserves k (some r) }

/-- The accounts of the token program. -/
def tokens : Tokens := ⟨w.mints, w.tokenAccounts⟩

/-- The token program leaves its own accounts. -/
@[simps] def withTokens (T : Tokens) : World := { w with mints := T.mints, tokenAccounts := T.accounts }

/-! ### Loading accounts -/

def getGlobalConfig : Result GlobalConfig := okOr w.globalConfig (.account .accountNotInitialized)

def getTokenRegistry : Result TokenRegistry := okOr w.tokenRegistry (.account .accountNotInitialized)

def getOwnerIndexBucket (k : Pubkey) : Result OwnerIndexBucket :=
  okOr (w.ownerIndexBuckets k) (.account .accountNotInitialized)

def getYieldStrategy (t : U16) : Result YieldStrategy :=
  okOr (w.yieldStrategies t) (.account .accountNotInitialized)

def getMint (k : Pubkey) : Result Mint := okOr (w.mints k) (.account .accountNotInitialized)

def getTokenAccount (k : Pubkey) : Result TokenAccount :=
  okOr (w.tokenAccounts k) (.account .accountNotInitialized)

def getReserve (k : Pubkey) : Result Reserve :=
  okOr (w.reserves k) (.account .accountNotInitialized)

/-- Borrow the data of an account some check has already found to be a participant bucket. -/
def getParticipantBucket (k : Pubkey) : Result ParticipantBucket :=
  okOr (w.participantBuckets k) (.vault .bucketAccountMismatch)

def getChannelBucket (k : Pubkey) : Result ChannelBucket :=
  okOr (w.channelBuckets k) (.vault .bucketAccountMismatch)

end World

namespace ParticipantBucket

/-- `verify_account_info`. -/
def verifyAccountInfo (env : Env) (w : World) (k : Pubkey) (bucketId : U32) : Result Unit := do
  let data ← w.getParticipantBucket k
  require (data.bucketId = bucketId) (.vault .bucketAccountMismatch)
  verifyExpectedPda env k data.bucketId data.bump

end ParticipantBucket

namespace ChannelBucket

/-- `verify_account_info`. -/
def verifyAccountInfo (env : Env) (w : World) (k : Pubkey) (tokenId : U16) (bucketId : U64) :
    Result Unit := do
  let data ← w.getChannelBucket k
  require (data.tokenId = tokenId) (.vault .invalidTokenMint)
  require (data.bucketId = bucketId) (.vault .bucketAccountMismatch)
  verifyExpectedPda env k data.tokenId data.bucketId data.bump

end ChannelBucket

namespace World

/-- Borrow the bucket's data, edit it, and keep the edit. -/
def editParticipantBucket {α : Type} (w : World) (k : Pubkey)
    (f : ParticipantBucket → Result (ParticipantBucket × α)) : Result (World × α) := do
  let data ← w.getParticipantBucket k
  let (data, a) ← f data
  pure (w.setParticipantBucket k data, a)

def editChannelBucket {α : Type} (w : World) (k : Pubkey)
    (f : ChannelBucket → Result (ChannelBucket × α)) : Result (World × α) := do
  let data ← w.getChannelBucket k
  let (data, a) ← f data
  pure (w.setChannelBucket k data, a)

end World

end Ryvo
