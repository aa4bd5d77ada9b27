import Ryvo.State.Errors
import Ryvo.State.Keys

/-!
# State — Yield strategy

Per yield-bearing token: the index that turns shares into underlying (Q64.64, one is `2 ^ 64`), the tracked value of the share vault, the shares outstanding and the protocol's claim.

`require_solvent` compares a value of the vault with what is owed.
-/

namespace Ryvo

def defaultProtocolYieldShareBps : Nat := 3333
def maxProtocolYieldShareBps : Nat := 5000
def q64One : Nat := 2 ^ 64

/-- Stored without its two PDA bumps. -/
structure YieldStrategy where
  tokenId : U16
  protocolYieldShareBps : Nat
  underlyingMint : Pubkey
  yieldProgram : Pubkey
  reserve : Pubkey
  shareMint : Pubkey
  shareVault : Pubkey
  liquidityVault : Pubkey
  userIndexQ64 : Nat
  lastSettledUnderlying : Nat
  totalUserShares : Nat
  protocolOwedUnderlying : Nat
  deriving DecidableEq

namespace YieldStrategy

variable (strategy : YieldStrategy)

/-- `u128` multiplication by the index, shifted back and narrowed to `u64`. -/
def sharesToUsdc (shares : Nat) : Result Nat := do
  let usdcQ64 ← checkedMul u128Bound shares strategy.userIndexQ64 (Error.vault .mathOverflow)
  tryFrom u64Bound (usdcQ64 / 2 ^ 64) (Error.vault .mathOverflow)

def userUnderlyingOwed : Result Nat := strategy.sharesToUsdc strategy.totalUserShares

/-- A `u64` shifted by 64 fits in `u128`. -/
def usdcToShares (usdc : Nat) : Result Nat :=
  tryFrom u64Bound (usdc * 2 ^ 64 / strategy.userIndexQ64) (Error.vault .mathOverflow)

/-- The users' part of the yield raises the index. -/
def raiseIndex (userCut : Nat) : Result YieldStrategy :=
  if 0 < userCut then do
    let index ← checkedAdd u128Bound strategy.userIndexQ64
      (userCut * 2 ^ 64 / strategy.totalUserShares) (Error.vault .mathOverflow)
    pure { strategy with userIndexQ64 := index }
  else pure strategy

/-- The protocol's part is added to its claim. -/
def addProtocolOwed (amount : Nat) : Result YieldStrategy := do
  let owed ← addU64 strategy.protocolOwedUnderlying amount
  pure { strategy with protocolOwedUnderlying := owed }

/-- `apply_yield_delta`: with no shares outstanding the whole yield goes to the protocol. -/
def applyYieldDelta (deltaUnderlying : Nat) : Result YieldStrategy :=
  if deltaUnderlying = 0 then .ok strategy
  else if strategy.totalUserShares = 0 then strategy.addProtocolOwed deltaUnderlying
  else do
    let product ← checkedMul u128Bound deltaUnderlying strategy.protocolYieldShareBps
      (Error.vault .mathOverflow)
    let protocolCut ← tryFrom u64Bound (product / 10000) (Error.vault .mathOverflow)
    let userCut ← subU64 deltaUnderlying protocolCut
    let strategy ← strategy.raiseIndex userCut
    if 0 < protocolCut then strategy.addProtocolOwed protocolCut else pure strategy

/-- `require_solvent`. -/
def requireSolvent (shareVaultUnderlying : Nat) : Result Unit := do
  let userOwed ← strategy.userUnderlyingOwed
  let totalOwed ← addU64 userOwed strategy.protocolOwedUnderlying
  require (totalOwed ≤ shareVaultUnderlying) (.vault .solvencyInvariantBroken)

end YieldStrategy

end Ryvo
