import Ryvo.State.Errors
import Ryvo.State.Keys

/-!
# Messages — Varint

The variable-length integers of the settlement messages: seven bits a byte, the least significant group first, at most ten bytes.  The source reads at an offset into the message; here a reader consumes a list of bytes and returns what is left.

The two copies of the reader in the source differ in the error they raise, which is the parameter `e`.
-/

namespace Ryvo

/-- The first `n` bytes and the rest. -/
def takeBytes (e : VaultError) (n : Nat) (msg : List UInt8) : Result (List UInt8 × List UInt8) := do
  require (n ≤ msg.length) (Error.vault e)
  pure (msg.take n, msg.drop n)

/-- `msg[*offset]`, then `*offset += 1`. -/
def takeByte (e : VaultError) : List UInt8 → Result (UInt8 × List UInt8)
  | [] => .error (.vault e)
  | byte :: rest => .ok (byte, rest)

/-- The loop of `read_varint_u64`, from the shift and the value read so far. -/
def readVarintFrom (e : VaultError) (shift value : Nat) : List UInt8 → Result (Nat × List UInt8)
  | [] => .error (.vault e)
  | byte :: rest =>
      let chunk := (byte &&& 0x7f).toNat
      if shift = 63 ∧ 1 < chunk then .error (.vault e)
      else
        let value := value ||| (chunk <<< shift) % u64Bound
        if byte &&& 0x80 = 0 then .ok (value, rest)
        else if shift + 7 < 64 then readVarintFrom e (shift + 7) value rest
        else .error (.vault e)

def readVarintU64 (e : VaultError) (msg : List UInt8) : Result (Nat × List UInt8) :=
  readVarintFrom e 0 0 msg

def readVarintU32 (e : VaultError) (msg : List UInt8) : Result (U32 × List UInt8) := do
  let (value, rest) ← readVarintU64 e msg
  if h : value < 2 ^ 32 then pure (⟨value, h⟩, rest) else .error (.vault e)

/-- What is read fits in `u64`. -/
theorem readVarintFrom_lt {e : VaultError} {shift value v : Nat} {msg rest : List UInt8}
    (hv : value < u64Bound) (h : readVarintFrom e shift value msg = .ok (v, rest)) :
    v < u64Bound := by
  induction msg generalizing shift value with
  | nil => cases h
  | cons byte msg ih =>
      have hor : value ||| ((byte &&& 0x7f).toNat <<< shift) % u64Bound < u64Bound :=
        Nat.or_lt_two_pow hv (Nat.mod_lt _ (by decide))
      simp only [readVarintFrom] at h
      split at h
      · cases h
      split at h
      · cases h; exact hor
      split at h
      · exact ih hor h
      · cases h

theorem readVarintU64_lt {e : VaultError} {v : Nat} {msg rest : List UInt8}
    (h : readVarintU64 e msg = .ok (v, rest)) : v < u64Bound :=
  readVarintFrom_lt (by decide) h

end Ryvo
