import Ryvo.Machine.TokenProgram

/-!
# Machine — Lending program

The yield source the repository ships, `mock-yield`.  A reserve holds one underlying; depositors get its share mint's tokens at `total_underlying / supply`, rounded down, and redeem them at the same rate, rounded down.  Interest is linear in the elapsed time and is booked before any conversion.

`invoke` is a call to the program a strategy names.  The only yield program here is the one above; a transaction that would call another fails.
-/

namespace Ryvo

namespace Lending

def secondsPerYear : Nat := 31536000
def bpsDenom : Nat := 10000
def maxApyBps : Nat := 5000

/-- `accrue_inner`. -/
def accrueInner (r : Reserve) (nowTs : Int) : Result Reserve :=
  if nowTs ≤ r.lastAccrualTs then .ok r
  else if r.totalUnderlying = 0 ∨ r.apyBps = 0 then .ok { r with lastAccrualTs := nowTs }
  else do
    let dt := (nowTs - r.lastAccrualTs).toNat
    let perYear ← checkedMul u128Bound r.totalUnderlying r.apyBps (Error.mockYield .mathOverflow)
    let scaled ← checkedMul u128Bound perYear dt (Error.mockYield .mathOverflow)
    let interest := scaled / (bpsDenom * secondsPerYear)
    let newTotal ← checkedAdd u128Bound r.totalUnderlying interest (Error.mockYield .mathOverflow)
    let total ← tryFrom u64Bound newTotal (Error.mockYield .mathOverflow)
    pure { r with totalUnderlying := total, lastAccrualTs := nowTs }

/-- `a * b / c` through `u128`. -/
def mulDiv (a b c : Nat) (e : Error) : Result Nat := do
  let product ← checkedMul u128Bound a b e
  tryFrom u64Bound (product / c) e

variable (env : Env) (w : World)

def initializeReserve (underlyingMint authority : Pubkey) (apyBps : Nat) : Result World := do
  require (w.reserves (env.lendingAddress (.reserve underlyingMint)) = none)
    (.account .accountAlreadyInUse)
  let underlying ← w.getMint underlyingMint
  let w ← w.createMint env (env.lendingAddress (.shareMint underlyingMint))
    (env.lendingAddress (.reserve underlyingMint)) none underlying.decimals
  let w ← w.createTokenAccount env (env.lendingAddress (.liquidityVault underlyingMint)) underlyingMint
    (env.lendingAddress (.reserve underlyingMint))
  require (apyBps ≤ maxApyBps) (.mockYield .apyTooHigh)
  pure (w.setReserve (env.lendingAddress (.reserve underlyingMint))
    { underlyingMint
      shareMint := env.lendingAddress (.shareMint underlyingMint)
      liquidityVault := env.lendingAddress (.liquidityVault underlyingMint)
      authority
      apyBps
      lastAccrualTs := w.clock
      totalUnderlying := 0 })

/-- `accrue`, with its return data: the total and the share supply. -/
def accrue (reserve shareMint : Pubkey) : Result (World × Nat × Nat) := do
  let r ← w.getReserve reserve
  require (shareMint = r.shareMint) (.mockYield .shareMintMismatch)
  let m ← w.getMint shareMint
  let r ← accrueInner r w.clock
  pure (w.setReserve reserve r, r.totalUnderlying, m.supply)

def updateApyBps (reserve authority : Pubkey) (newApyBps : Nat) : Result World := do
  let r ← w.getReserve reserve
  require (newApyBps ≤ maxApyBps) (.mockYield .apyTooHigh)
  require (r.authority = authority) (.mockYield .unauthorized)
  let r ← accrueInner r w.clock
  pure (w.setReserve reserve { r with apyBps := newApyBps })

/-- The shares a deposit is worth at `supply` shares over `total` underlying. -/
def sharesToMint (amount supply total : Nat) : Result Nat :=
  if supply = 0 ∨ total = 0 then .ok amount else mulDiv amount supply total (.mockYield .mathOverflow)

def depositReserveLiquidity (reserve underlyingMint depositorUnderlying depositorShares
    depositor : Pubkey) (amount : Nat) : Result World := do
  let r ← w.getReserve reserve
  require (reserve = env.lendingAddress (.reserve underlyingMint)) (.account .constraintSeeds)
  let m ← w.getMint r.shareMint
  let source ← w.getTokenAccount depositorUnderlying
  require (source.mint = underlyingMint) (.mockYield .underlyingMintMismatch)
  require (source.owner = depositor) (.mockYield .unauthorized)
  let shares ← w.getTokenAccount depositorShares
  require (shares.mint = r.shareMint) (.mockYield .shareMintMismatch)
  require (0 < amount) (.mockYield .amountMustBePositive)
  require (r.underlyingMint = underlyingMint) (.mockYield .underlyingMintMismatch)
  let r ← accrueInner r w.clock
  let minted ← sharesToMint amount m.supply r.totalUnderlying
  require (0 < minted) (.mockYield .zeroShareConversion)
  let total ← checkedAdd u64Bound r.totalUnderlying amount (Error.mockYield .mathOverflow)
  let w := w.setReserve reserve { r with totalUnderlying := total }
  let w ← w.tokenTransfer env depositorUnderlying r.liquidityVault depositor amount
  w.tokenMintTo env r.shareMint depositorShares reserve minted

def redeemReserveCollateral (reserve underlyingMint redeemerShares redeemerUnderlying
    shareAuthority : Pubkey) (shares : Nat) : Result World := do
  let r ← w.getReserve reserve
  require (reserve = env.lendingAddress (.reserve underlyingMint)) (.account .constraintSeeds)
  let m ← w.getMint r.shareMint
  let source ← w.getTokenAccount redeemerShares
  require (source.mint = r.shareMint) (.mockYield .shareMintMismatch)
  let destination ← w.getTokenAccount redeemerUnderlying
  require (destination.mint = underlyingMint) (.mockYield .underlyingMintMismatch)
  require (0 < shares) (.mockYield .amountMustBePositive)
  require (r.underlyingMint = underlyingMint) (.mockYield .underlyingMintMismatch)
  let r ← accrueInner r w.clock
  require (0 < m.supply) (.mockYield .zeroShareConversion)
  require (shares ≤ m.supply) (.mockYield .insufficientShareSupply)
  let paid ← mulDiv shares r.totalUnderlying m.supply (.mockYield .mathOverflow)
  let total ← checkedSub r.totalUnderlying paid (Error.mockYield .mathOverflow)
  let w := w.setReserve reserve { r with totalUnderlying := total }
  let w ← w.tokenBurn env r.shareMint redeemerShares shareAuthority shares
  if 0 < paid then w.tokenTransfer env r.liquidityVault redeemerUnderlying reserve paid else pure w

/-- Calls reach the lending program only under its own id. -/
def invoke {α : Type} (yieldProgram : Pubkey) (call : Result α) : Result α := do
  require (yieldProgram = env.yieldProgramId) (.account .instructionFallback)
  call

end Lending

end Ryvo
