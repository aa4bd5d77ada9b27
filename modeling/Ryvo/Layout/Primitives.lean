import Ryvo.State.Errors
import Ryvo.State.Keys
import Ryvo.Support.InPlace
import Ryvo.Support.Layout

/-!
# Layout — Primitives

The bytes of the field types, as the account structs are serialised, and the functions that read and write them at an offset of an account's data.  Each checks the length of the data first.

A read of a part gives the part back (`Part.readBoolAt` and the lemmas after it), wherever its value is one the field can hold, and a write of a part is the encoding of the value with the part replaced (`Part.writeBoolAt` and so on).
-/

namespace Ryvo

open Layout

/-! ### Fields -/

def boolBytes (b : Bool) : List UInt8 := [if b then 1 else 0]
def u8Bytes (x : U8) : List UInt8 := leBytes 1 x.val
def u16Bytes (x : U16) : List UInt8 := leBytes 2 x.val
def u32Bytes (x : U32) : List UInt8 := leBytes 4 x.val
def u64Bytes (x : Nat) : List UInt8 := leBytes 8 x

/-- Two's complement. -/
def i64Bytes (x : Int) : List UInt8 := leBytes 8 (x % 2 ^ 64).toNat

/-- `[u8; n]`: a list of another length is cut or padded. -/
def arrayBytes (n : Nat) (xs : List UInt8) : List UInt8 := (xs ++ List.replicate n 0).take n

def i64OfBytes (bs : List UInt8) : Int :=
  if leNat bs < 2 ^ 63 then leNat bs else (leNat bs : Int) - 2 ^ 64

/-- The values of an `i64`. -/
def I64 (x : Int) : Prop := -2 ^ 63 ≤ x ∧ x < 2 ^ 63

theorem i64_zero : I64 0 := by constructor <;> decide

theorem u64_zero : 0 < u64Bound := by decide

@[simp] theorem length_boolBytes (b : Bool) : (boolBytes b).length = 1 := rfl
@[simp] theorem length_u8Bytes (x : U8) : (u8Bytes x).length = 1 := length_leBytes _ _
@[simp] theorem length_u16Bytes (x : U16) : (u16Bytes x).length = 2 := length_leBytes _ _
@[simp] theorem length_u32Bytes (x : U32) : (u32Bytes x).length = 4 := length_leBytes _ _
@[simp] theorem length_u64Bytes (x : Nat) : (u64Bytes x).length = 8 := length_leBytes _ _
@[simp] theorem length_i64Bytes (x : Int) : (i64Bytes x).length = 8 := length_leBytes _ _

@[simp] theorem length_arrayBytes (n : Nat) (xs : List UInt8) : (arrayBytes n xs).length = n := by
  simp [arrayBytes]

theorem arrayBytes_of_length {n : Nat} {xs : List UInt8} (h : xs.length = n) :
    arrayBytes n xs = xs := by
  rw [arrayBytes, List.take_left' h]

theorem i64OfBytes_i64Bytes {x : Int} (h : I64 x) : i64OfBytes (i64Bytes x) = x := by
  obtain ⟨hlo, hhi⟩ := h
  have hlt : (x % 2 ^ 64).toNat < 256 ^ 8 := by omega
  rw [i64OfBytes, i64Bytes, leNat_leBytes_of_lt hlt]
  split <;> omega

/-! ### Reading -/

section
variable (data : List UInt8) (offset : Nat) (errorCode : VaultError)

/-- `data[offset] != 0`. -/
def readBoolAt : Result Bool := do
  require (offset < data.length) (.vault errorCode)
  pure (data.getD offset 0 != 0)

def readU8At : Result U8 := do
  require (offset < data.length) (.vault errorCode)
  pure (Fin.ofNat _ (data.getD offset 0).toNat)

def readU16At : Result U16 := do
  require (offset + 2 ≤ data.length) (.vault errorCode)
  pure (Fin.ofNat _ (leNat (window data offset 2)))

def readU32At : Result U32 := do
  require (offset + 4 ≤ data.length) (.vault errorCode)
  pure (Fin.ofNat _ (leNat (window data offset 4)))

def readU64At : Result Nat := do
  require (offset + 8 ≤ data.length) (.vault errorCode)
  pure (leNat (window data offset 8))

def readI64At : Result Int := do
  require (offset + 8 ≤ data.length) (.vault errorCode)
  pure (i64OfBytes (window data offset 8))

def readPubkeyAt : Result Pubkey := do
  require (offset + 32 ≤ data.length) (.vault errorCode)
  pure (.ofBytes (window data offset 32))

/-! ### Writing -/

def writeBytesAt (value : List UInt8) : Result (List UInt8) := do
  require (offset + value.length ≤ data.length) (.vault errorCode)
  pure (overwrite data offset value)

def writeBoolAt (value : Bool) : Result (List UInt8) := do
  require (offset < data.length) (.vault errorCode)
  pure (overwrite data offset (boolBytes value))

def writeU8At (value : U8) : Result (List UInt8) := do
  require (offset < data.length) (.vault errorCode)
  pure (overwrite data offset (u8Bytes value))

def writeU16At (value : U16) : Result (List UInt8) := do
  require (offset + 2 ≤ data.length) (.vault errorCode)
  pure (overwrite data offset (u16Bytes value))

def writeU32At (value : U32) : Result (List UInt8) := do
  require (offset + 4 ≤ data.length) (.vault errorCode)
  pure (overwrite data offset (u32Bytes value))

def writeU64At (value : Nat) : Result (List UInt8) := do
  require (offset + 8 ≤ data.length) (.vault errorCode)
  pure (overwrite data offset (u64Bytes value))

def writeI64At (value : Int) : Result (List UInt8) := do
  require (offset + 8 ≤ data.length) (.vault errorCode)
  pure (overwrite data offset (i64Bytes value))

def writePubkeyAt (value : Pubkey) : Result (List UInt8) :=
  writeBytesAt data offset errorCode value.toBytes

end

/-- `data[from..to].fill(0)`, which callers only do within the data. -/
def fillZero (data : List UInt8) (offset n : Nat) : List UInt8 :=
  overwrite data offset (List.replicate n 0)

/-! ### Parts -/

namespace Layout.Part

variable {σ φ : Type} {enc : σ → List UInt8} {sub : φ → List UInt8} {o n : Nat} {s : σ}
variable {errorCode : VaultError}

/-- A part of a fixed size is within the data, and can be read. -/
theorem fits {get : σ → φ} {set : σ → φ → σ} (h : Part enc sub get set o)
    (hn : ∀ x, (sub x).length = n) : o + n ≤ (enc s).length ∧ window (enc s) o n = sub (get s) := by
  have hle := h.le_length s
  rw [hn] at hle
  exact ⟨hle, h.window_eq (hn _)⟩

theorem overwrites {get : σ → φ} {set : σ → φ → σ} (h : Part enc sub get set o)
    (hn : ∀ x, (sub x).length = n) (x : φ) : overwrite (enc s) o (sub x) = enc (set s x) :=
  h.overwrite_eq ((hn _).trans (hn _).symm)

/-- Zeroing a part writes the value that is all zero bytes. -/
theorem fillZero {get : σ → φ} {set : σ → φ → σ} (h : Part enc sub get set o)
    (hn : ∀ x, (sub x).length = n) {z : φ} (hz : sub z = List.replicate n 0) :
    fillZero (enc s) o n = enc (set s z) := by
  rw [Ryvo.fillZero, ← hz, h.overwrites hn]

/-- The byte at the offset of a part of one byte. -/
theorem getD {get : σ → φ} {set : σ → φ → σ} (h : Part enc sub get set o) {x : UInt8}
    (hn : ∀ x, (sub x).length = 1) (hx : sub (get s) = [x]) :
    o < (enc s).length ∧ (enc s).getD o 0 = x := by
  obtain ⟨hlt, hwin⟩ := h.fits (s := s) hn
  rw [hx, window, List.take_one, List.head?_drop] at hwin
  refine ⟨hlt, ?_⟩
  rw [List.getD_eq_getElem?_getD]
  cases he : (enc s)[o]? with
  | none => simp [he] at hwin
  | some y => simpa [he] using hwin

section
variable {get : σ → Bool} {set : σ → Bool → σ} (h : Part enc boolBytes get set o)
include h

theorem readBoolAt : readBoolAt (enc s) o errorCode = .ok (get s) := by
  obtain ⟨hlt, hx⟩ := h.getD (s := s) length_boolBytes rfl
  rw [Ryvo.readBoolAt, require_of hlt, Except.ok_bind, hx]
  cases get s <;> rfl

theorem writeBoolAt (x : Bool) : writeBoolAt (enc s) o errorCode x = .ok (enc (set s x)) := by
  have hlt : o < (enc s).length := (h.fits length_boolBytes).1
  rw [Ryvo.writeBoolAt, require_of hlt, h.overwrites length_boolBytes]
  rfl

end

section
variable {get : σ → U8} {set : σ → U8 → σ} (h : Part enc u8Bytes get set o)
include h

theorem readU8At : readU8At (enc s) o errorCode = .ok (get s) := by
  obtain ⟨hlt, hx⟩ := h.getD (s := s) length_u8Bytes rfl
  rw [Ryvo.readU8At, require_of hlt, Except.ok_bind, hx]
  refine congrArg _ (Fin.ext ?_)
  have := (get s).isLt
  simp

theorem writeU8At (x : U8) : writeU8At (enc s) o errorCode x = .ok (enc (set s x)) := by
  have hlt : o < (enc s).length := (h.fits length_u8Bytes).1
  rw [Ryvo.writeU8At, require_of hlt, h.overwrites length_u8Bytes]
  rfl

end

section
variable {get : σ → U16} {set : σ → U16 → σ} (h : Part enc u16Bytes get set o)
include h

theorem readU16At : readU16At (enc s) o errorCode = .ok (get s) := by
  obtain ⟨hle, hx⟩ := h.fits (s := s) length_u16Bytes
  rw [Ryvo.readU16At, require_of hle, Except.ok_bind, hx, u16Bytes,
    leNat_leBytes_of_lt (get s).isLt]
  exact congrArg _ (Fin.ofNat_val_eq_self _)

theorem writeU16At (x : U16) : writeU16At (enc s) o errorCode x = .ok (enc (set s x)) := by
  rw [Ryvo.writeU16At, require_of (h.fits length_u16Bytes).1, h.overwrites length_u16Bytes]
  rfl

end

section
variable {get : σ → U32} {set : σ → U32 → σ} (h : Part enc u32Bytes get set o)
include h

theorem readU32At : readU32At (enc s) o errorCode = .ok (get s) := by
  obtain ⟨hle, hx⟩ := h.fits (s := s) length_u32Bytes
  rw [Ryvo.readU32At, require_of hle, Except.ok_bind, hx, u32Bytes,
    leNat_leBytes_of_lt (get s).isLt]
  exact congrArg _ (Fin.ofNat_val_eq_self _)

theorem writeU32At (x : U32) : writeU32At (enc s) o errorCode x = .ok (enc (set s x)) := by
  rw [Ryvo.writeU32At, require_of (h.fits length_u32Bytes).1, h.overwrites length_u32Bytes]
  rfl

end

section
variable {get : σ → Nat} {set : σ → Nat → σ} (h : Part enc u64Bytes get set o)
include h

theorem readU64At (hs : get s < u64Bound) : readU64At (enc s) o errorCode = .ok (get s) := by
  obtain ⟨hle, hx⟩ := h.fits (s := s) length_u64Bytes
  rw [Ryvo.readU64At, require_of hle, Except.ok_bind, hx, u64Bytes, leNat_leBytes_of_lt hs]
  rfl

theorem writeU64At (x : Nat) : writeU64At (enc s) o errorCode x = .ok (enc (set s x)) := by
  rw [Ryvo.writeU64At, require_of (h.fits length_u64Bytes).1, h.overwrites length_u64Bytes]
  rfl

end

section
variable {get : σ → Int} {set : σ → Int → σ} (h : Part enc i64Bytes get set o)
include h

theorem readI64At (hs : I64 (get s)) : readI64At (enc s) o errorCode = .ok (get s) := by
  obtain ⟨hle, hx⟩ := h.fits (s := s) length_i64Bytes
  rw [Ryvo.readI64At, require_of hle, Except.ok_bind, hx, i64OfBytes_i64Bytes hs]
  rfl

theorem writeI64At (x : Int) : writeI64At (enc s) o errorCode x = .ok (enc (set s x)) := by
  rw [Ryvo.writeI64At, require_of (h.fits length_i64Bytes).1, h.overwrites length_i64Bytes]
  rfl

end

section
variable {get : σ → Pubkey} {set : σ → Pubkey → σ} (h : Part enc Pubkey.toBytes get set o)
include h

theorem readPubkeyAt : readPubkeyAt (enc s) o errorCode = .ok (get s) := by
  obtain ⟨hle, hx⟩ := h.fits (s := s) Pubkey.length_toBytes
  rw [Ryvo.readPubkeyAt, require_of hle, Except.ok_bind, hx, Pubkey.ofBytes_toBytes]
  rfl

theorem writePubkeyAt (x : Pubkey) : writePubkeyAt (enc s) o errorCode x = .ok (enc (set s x)) := by
  have hle := (h.fits (s := s) Pubkey.length_toBytes).1
  rw [Ryvo.writePubkeyAt, writeBytesAt, Pubkey.length_toBytes, require_of hle,
    h.overwrites Pubkey.length_toBytes]
  rfl

end

section
variable {get : σ → List UInt8} {set : σ → List UInt8 → σ} (h : Part enc (arrayBytes n) get set o)
include h

theorem readBytes (hs : (get s).length = n) : window (enc s) o n = get s := by
  rw [(h.fits (length_arrayBytes n)).2, arrayBytes_of_length hs]

theorem writeBytesAt {xs : List UInt8} (hx : xs.length = n) :
    writeBytesAt (enc s) o errorCode xs = .ok (enc (set s xs)) := by
  have hle := (h.fits (s := s) (length_arrayBytes n)).1
  have hover := h.overwrites (s := s) (length_arrayBytes n) xs
  rw [arrayBytes_of_length hx] at hover
  rw [Ryvo.writeBytesAt, hx, require_of hle, hover]
  rfl

end

end Layout.Part

end Ryvo
