import Ryvo.Support.Bytes

/-!
# BLS — Message scalars

`hash_message_to_scalar_be` turns a message into a scalar: SHA-256 under a tag, reduced modulo the group order by repeated subtraction on the big-endian bytes, and never zero.

* `beNat_subtractModulusBe`: byte by byte with a borrow, the subtraction is the subtraction of the numbers.
* `beNat_reduceToScalarBe`: the reduction is the remainder, and two subtractions are always enough.
* `hashMessageToScalarBe_range`: the scalar of a message is between `1` and the order less one.
-/

namespace Ryvo.Bls

/-- `BLS_SCALAR_MODULUS_BE`. -/
def scalarModulusBe : List UInt8 :=
  [0x73, 0xed, 0xa7, 0x53, 0x29, 0x9d, 0x7d, 0x48, 0x33, 0x39, 0xd8, 0x08, 0x09, 0xa1, 0xd8,
    0x05, 0x53, 0xbd, 0xa4, 0x02, 0xff, 0xfe, 0x5b, 0xfe, 0xff, 0xff, 0xff, 0xff, 0x00, 0x00,
    0x00, 0x01]

/-- The order of the BLS12-381 groups. -/
def order : Nat := 0x73eda753299d7d483339d80809a1d80553bda402fffe5bfeffffffff00000001

/-- `b"ryvo-bls-signing-point-v1"`. -/
def hashToSigningPointTag : List UInt8 :=
  [0x72, 0x79, 0x76, 0x6f, 0x2d, 0x62, 0x6c, 0x73, 0x2d, 0x73, 0x69, 0x67, 0x6e, 0x69, 0x6e,
    0x67, 0x2d, 0x70, 0x6f, 0x69, 0x6e, 0x74, 0x2d, 0x76, 0x31]

def isZeroScalar (bytes : List UInt8) : Bool := bytes.all (· == 0)

def compareBe32 : List UInt8 → List UInt8 → Ordering
  | left :: ls, right :: rs =>
      if left < right then .lt else if right < left then .gt else compareBe32 ls rs
  | _, _ => .eq

/-- The loop of `subtract_modulus_be`, which runs from the last byte to the first. -/
def subtractBorrow : List UInt8 → List UInt8 → Nat → List UInt8
  | byte :: bytes, modulusByte :: modulus, borrow =>
      let left := byte.toNat
      let right := modulusByte.toNat + borrow
      if right ≤ left then UInt8.ofNat (left - right) :: subtractBorrow bytes modulus 0
      else UInt8.ofNat (left + 256 - right) :: subtractBorrow bytes modulus 1
  | _, _, _ => []

def subtractModulusBe (bytes : List UInt8) : List UInt8 :=
  (subtractBorrow bytes.reverse scalarModulusBe.reverse 0).reverse

/-- The `while` loop of `reduce_to_scalar_be`, for at most `n` rounds. -/
def reduceRounds : Nat → List UInt8 → List UInt8
  | 0, bytes => bytes
  | n + 1, bytes =>
      if compareBe32 bytes scalarModulusBe ≠ .lt then reduceRounds n (subtractModulusBe bytes)
      else bytes

/-- Thirty-two bytes hold less than three times the modulus, so three rounds reach the exit. -/
def reduceToScalarBe (bytes : List UInt8) : List UInt8 := reduceRounds 3 bytes

/-- The second attempt, with a final byte in place of a zero scalar. -/
def nonzeroScalar (scalar : List UInt8) : List UInt8 :=
  if isZeroScalar scalar then scalar.set 31 1 else scalar

def hashMessageToScalarBe (sha256 : List UInt8 → List UInt8) (message : List UInt8) : List UInt8 :=
  let scalar := reduceToScalarBe (sha256 (hashToSigningPointTag ++ message))
  if isZeroScalar scalar then
    nonzeroScalar (reduceToScalarBe (sha256 (hashToSigningPointTag ++ message ++ [1])))
  else scalar

/-! ### The byte operations, as numbers -/

theorem beNat_scalarModulusBe : beNat scalarModulusBe = order := by decide

theorem compareBe32_eq_lt {a b : List UInt8} (h : a.length = b.length) :
    compareBe32 a b = .lt ↔ beNat a < beNat b := by
  induction a generalizing b with
  | nil =>
      obtain rfl : b = [] := by simpa using h.symm
      simp [compareBe32]
  | cons x a ih =>
      obtain _ | ⟨y, b⟩ := b
      · simp at h
      have hl : a.length = b.length := by simpa using h
      have ha := beNat_lt a
      have hb := beNat_lt b
      rw [beNat_cons, beNat_cons, hl]
      rw [hl] at ha
      simp only [compareBe32]
      by_cases hxy : x < y
      · have hn : x.toNat + 1 ≤ y.toNat := UInt8.lt_iff_toNat_lt.mp hxy
        have hm := Nat.mul_le_mul_right (256 ^ b.length) hn
        have : x.toNat * 256 ^ b.length + beNat a < y.toNat * 256 ^ b.length + beNat b := by
          rw [Nat.add_mul] at hm
          omega
        simp [hxy, this]
      by_cases hyx : y < x
      · have hn : y.toNat + 1 ≤ x.toNat := UInt8.lt_iff_toNat_lt.mp hyx
        have hm := Nat.mul_le_mul_right (256 ^ b.length) hn
        have : ¬ x.toNat * 256 ^ b.length + beNat a < y.toNat * 256 ^ b.length + beNat b := by
          rw [Nat.add_mul] at hm
          omega
        simp [hxy, hyx, this]
      · have e : x = y := UInt8.le_antisymm (UInt8.not_lt.mp hyx) (UInt8.not_lt.mp hxy)
        subst e
        simp [ih hl]

theorem length_subtractBorrow {bs ms : List UInt8} (h : bs.length = ms.length) (borrow : Nat) :
    (subtractBorrow bs ms borrow).length = bs.length := by
  induction bs generalizing ms borrow with
  | nil => cases ms <;> rfl
  | cons b bs ih =>
      obtain _ | ⟨m, ms⟩ := ms
      · simp at h
      have hl : bs.length = ms.length := by simpa using h
      simp only [subtractBorrow]
      split <;> simp [ih hl]

/-- Subtraction with a borrow, up to the borrow out of the last byte. -/
theorem leNat_subtractBorrow {bs ms : List UInt8} (h : bs.length = ms.length) {borrow : Nat}
    (hb : borrow ≤ 1) : leNat (subtractBorrow bs ms borrow) + leNat ms + borrow
      = leNat bs + (if leNat ms + borrow ≤ leNat bs then 0 else 256 ^ bs.length) := by
  induction bs generalizing ms borrow with
  | nil =>
      obtain rfl : ms = [] := by simpa using h.symm
      rcases Nat.le_one_iff_eq_zero_or_eq_one.mp hb with rfl | rfl <;> rfl
  | cons b bs ih =>
      obtain _ | ⟨m, ms⟩ := ms
      · simp at h
      have hl : bs.length = ms.length := by simpa using h
      have hb' : b.toNat < 256 := b.toNat_lt
      have hm' : m.toNat < 256 := m.toNat_lt
      simp only [subtractBorrow, leNat, List.length_cons, pow_succ]
      -- The byte written is below 256, and the borrow it passes on enters the induction.
      by_cases hle : m.toNat + borrow ≤ b.toNat
      · have hbyte : (UInt8.ofNat (b.toNat - (m.toNat + borrow))).toNat
            = b.toNat - (m.toNat + borrow) := by
          rw [UInt8.toNat_ofNat']
          exact Nat.mod_eq_of_lt (by omega)
        have := ih hl (Nat.zero_le 1)
        rw [if_pos hle, leNat, hbyte]
        split at this <;> split <;> omega
      · have hbyte : (UInt8.ofNat (b.toNat + 256 - (m.toNat + borrow))).toNat
            = b.toNat + 256 - (m.toNat + borrow) := by
          rw [UInt8.toNat_ofNat']
          exact Nat.mod_eq_of_lt (by omega)
        have := ih hl le_rfl
        rw [if_neg hle, leNat, hbyte]
        split at this <;> split <;> omega

theorem length_subtractModulusBe {bytes : List UInt8} (h : bytes.length = 32) :
    (subtractModulusBe bytes).length = 32 := by
  rw [subtractModulusBe, List.length_reverse, length_subtractBorrow (by simp [h, scalarModulusBe]),
    List.length_reverse, h]

/-- From the modulus on, the subtraction of the bytes is that of the numbers. -/
theorem beNat_subtractModulusBe {bytes : List UInt8} (h : bytes.length = 32)
    (hle : order ≤ beNat bytes) : beNat (subtractModulusBe bytes) = beNat bytes - order := by
  have hl : bytes.reverse.length = scalarModulusBe.reverse.length := by simp [h, scalarModulusBe]
  have hm : leNat scalarModulusBe.reverse = order := beNat_scalarModulusBe
  have hb : leNat bytes.reverse = beNat bytes := rfl
  have := leNat_subtractBorrow hl (Nat.zero_le 1)
  rw [hm, hb, if_pos (by omega)] at this
  rw [subtractModulusBe, beNat, List.reverse_reverse]
  omega

theorem length_reduceRounds {n : Nat} {bytes : List UInt8} (h : bytes.length = 32) :
    (reduceRounds n bytes).length = 32 := by
  induction n generalizing bytes with
  | zero => exact h
  | succ n ih =>
      simp only [reduceRounds]
      split
      · exact ih (length_subtractModulusBe h)
      · exact h

/-- Enough rounds compute the remainder. -/
theorem beNat_reduceRounds {n : Nat} {bytes : List UInt8} (h : bytes.length = 32)
    (hn : beNat bytes < n * order) : beNat (reduceRounds n bytes) = beNat bytes % order := by
  induction n generalizing bytes with
  | zero => omega
  | succ n ih =>
      have hcmp := compareBe32_eq_lt (a := bytes) (b := scalarModulusBe) (by simp [h, scalarModulusBe])
      rw [beNat_scalarModulusBe] at hcmp
      simp only [reduceRounds, ne_eq, hcmp]
      by_cases hlt : beNat bytes < order
      · rw [if_neg (by simpa using hlt), Nat.mod_eq_of_lt hlt]
      · have hle : order ≤ beNat bytes := Nat.not_lt.mp hlt
        have hsub := beNat_subtractModulusBe h hle
        rw [if_pos hlt, ih (length_subtractModulusBe h) (by rw [hsub]; rw [Nat.succ_mul] at hn; omega),
          hsub, Nat.mod_eq_sub_mod hle]

/-- `reduce_to_scalar_be` is the remainder modulo the order. -/
theorem beNat_reduceToScalarBe {bytes : List UInt8} (h : bytes.length = 32) :
    beNat (reduceToScalarBe bytes) = beNat bytes % order := by
  refine beNat_reduceRounds h ((beNat_lt bytes).trans_le ?_)
  rw [h]
  decide

theorem length_reduceToScalarBe {bytes : List UInt8} (h : bytes.length = 32) :
    (reduceToScalarBe bytes).length = 32 := length_reduceRounds h

theorem isZeroScalar_iff {bytes : List UInt8} : isZeroScalar bytes = true ↔ beNat bytes = 0 := by
  have key : ∀ l : List UInt8, leNat l = 0 ↔ ∀ b ∈ l, b = 0 := fun l => by
    induction l with
    | nil => simp [leNat]
    | cons b l ih =>
        simp only [leNat, Nat.add_eq_zero_iff, Nat.mul_eq_zero, ih, List.mem_cons, forall_eq_or_imp]
        simp [← UInt8.toNat_inj]
  rw [beNat, key]
  simp [isZeroScalar]

theorem nonzeroScalar_range {s : List UInt8} (hl : s.length = 32) (hlt : beNat s < order) :
    (nonzeroScalar s).length = 32 ∧ 0 < beNat (nonzeroScalar s) ∧ beNat (nonzeroScalar s) < order := by
  unfold nonzeroScalar
  split
  · rename_i hz
    have hzero : s = List.replicate 32 0 := by
      rw [List.eq_replicate_iff]
      exact ⟨hl, by simpa [isZeroScalar] using hz⟩
    rw [hzero]
    decide
  · rename_i hz
    exact ⟨hl, Nat.pos_of_ne_zero fun e => hz (isZeroScalar_iff.mpr e), hlt⟩

/-- A message's scalar is thirty-two bytes and lies between `1` and `order - 1`. -/
theorem hashMessageToScalarBe_range {sha256 : List UInt8 → List UInt8}
    (hlen : ∀ bs, (sha256 bs).length = 32) (message : List UInt8) :
    (hashMessageToScalarBe sha256 message).length = 32 ∧
      0 < beNat (hashMessageToScalarBe sha256 message) ∧
      beNat (hashMessageToScalarBe sha256 message) < order := by
  have hred : ∀ bs, beNat (reduceToScalarBe (sha256 bs)) < order := fun bs => by
    rw [beNat_reduceToScalarBe (hlen bs)]
    exact Nat.mod_lt _ (by decide)
  have hl : ∀ bs, (reduceToScalarBe (sha256 bs)).length = 32 := fun bs =>
    length_reduceToScalarBe (hlen bs)
  by_cases hz : isZeroScalar (reduceToScalarBe (sha256 (hashToSigningPointTag ++ message))) = true
  · rw [hashMessageToScalarBe, if_pos hz]
    exact nonzeroScalar_range (hl _) (hred _)
  · rw [hashMessageToScalarBe, if_neg hz]
    exact ⟨hl _, Nat.pos_of_ne_zero fun e => hz (isZeroScalar_iff.mpr e), hred _⟩

end Ryvo.Bls
