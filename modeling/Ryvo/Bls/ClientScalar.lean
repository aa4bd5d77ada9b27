import Mathlib.Data.Nat.Digits.Lemmas
import Ryvo.Bls.Scalar

/-!
# BLS — Scalars, on both sides

The program reduces a hash byte by byte; the client reduces it as a big integer, which it reads from and prints in hexadecimal.

* `ReduceLoop` is the `while` loop of `reduce_to_scalar_be` as a relation, so that `reduceLoop_reduceToScalarBe` says that it ends.
* `reduceBlsScalarBytes_eq`: the client's reduction returns the same bytes.
* `scalars_exact`: the reduction is the remainder, and both sides find the same scalar of a message.
-/

namespace Ryvo.Bls

/-- The `n`-byte big-endian encoding. -/
def beBytes (n v : Nat) : List UInt8 := (leBytes n v).reverse

/-! ### The loop of the program -/

/-- `while compare_be_32(bytes, modulus) != Less { subtract_modulus_be(bytes) }`: what the loop leaves. -/
inductive ReduceLoop : List UInt8 → List UInt8 → Prop
  | exit {bytes : List UInt8} : compareBe32 bytes scalarModulusBe = .lt → ReduceLoop bytes bytes
  | round {bytes out : List UInt8} : compareBe32 bytes scalarModulusBe ≠ .lt →
      ReduceLoop (subtractModulusBe bytes) out → ReduceLoop bytes out

/-- `left` and `right` in each round of the loop of `subtract_modulus_be`. -/
def borrowSteps : List UInt8 → List UInt8 → Nat → List (Nat × Nat)
  | byte :: bytes, modulusByte :: modulus, borrow =>
      let left := byte.toNat
      let right := modulusByte.toNat + borrow
      (left, right) :: borrowSteps bytes modulus (if right ≤ left then 0 else 1)
  | _, _, _ => []

/-- The byte a round writes. -/
def stepByte (x : Nat × Nat) : UInt8 :=
  if x.2 ≤ x.1 then UInt8.ofNat (x.1 - x.2) else UInt8.ofNat (x.1 + 256 - x.2)

/-- The sums and differences of a round fit in a `u16`, and what is written in a byte. -/
structure StepFits (left right : Nat) : Prop where
  right_lt : right < 2 ^ 16
  sum_lt : left + 256 < 2 ^ 16
  noBorrow : right ≤ left → left - right < 2 ^ 8
  borrow : left < right → right ≤ left + 256 ∧ left + 256 - right < 2 ^ 8

/-! ### The client -/

/-- `bytes.toString("hex")`, as digits. -/
def toHex (bytes : List UInt8) : List Nat := bytes.flatMap fun b => [b.toNat / 16, b.toNat % 16]

/-- `BigInt("0x…")`. -/
def bigIntOfHex (digits : List Nat) : Nat := Nat.ofDigits 16 digits.reverse

/-- `value.toString(16)`. -/
def hexOfBigInt (value : Nat) : List Nat :=
  if value = 0 then [0] else (Nat.digits 16 value).reverse

def padStart (n : Nat) (digits : List Nat) : List Nat :=
  List.replicate (n - digits.length) 0 ++ digits

/-- `Buffer.from(digits, "hex")`, which drops a digit without a partner. -/
def bufferOfHex : List Nat → List UInt8
  | high :: low :: rest => UInt8.ofNat (16 * high + low) :: bufferOfHex rest
  | _ => []

/-- The `while` loop of `reduceBlsScalarBytes`. -/
def subtractWhile (value : Nat) : Nat :=
  if order ≤ value then subtractWhile (value - order) else value
termination_by value
decreasing_by
  have hpos : 0 < order := by decide
  omega

def reduceBlsScalarBytes (bytes : List UInt8) : List UInt8 :=
  bufferOfHex (padStart 64 (hexOfBigInt (subtractWhile (bigIntOfHex (toHex bytes)))))

/-- `Buffer.alloc(32)`. -/
def zeroScalar : List UInt8 := List.replicate 32 0

def normalizeZeroScalar (scalarBytes : List UInt8) : List UInt8 :=
  if scalarBytes ≠ zeroScalar then scalarBytes else zeroScalar.set 31 1

def hashMessageToBlsScalar (sha256 : List UInt8 → List UInt8) (message : List UInt8) : Nat :=
  let scalarBytes := reduceBlsScalarBytes (sha256 (hashToSigningPointTag ++ message))
  let scalarBytes :=
    if scalarBytes = zeroScalar then
      normalizeZeroScalar
        (reduceBlsScalarBytes (sha256 (hashToSigningPointTag ++ message ++ [1])))
    else scalarBytes
  bigIntOfHex (toHex scalarBytes)

variable {a b bytes out out' : List UInt8} {n v borrow : Nat} {digits : List Nat}

/-! ### Big-endian bytes -/

@[simp] theorem length_beBytes : (beBytes n v).length = n := by simp [beBytes]

/-- The bytes of a length are the encoding of their number. -/
theorem eq_beBytes (h : bytes.length = n) : bytes = beBytes n (beNat bytes) := by
  have hrev : leBytes bytes.reverse.length (leNat bytes.reverse) = bytes.reverse :=
    leBytes_leNat bytes.reverse
  rw [List.length_reverse, h] at hrev
  rw [beBytes, beNat, hrev, List.reverse_reverse]

theorem compareBe32_swap (a b : List UInt8) : compareBe32 b a = (compareBe32 a b).swap := by
  induction a generalizing b with
  | nil => cases b <;> rfl
  | cons x a ih =>
      cases b with
      | nil => rfl
      | cons y b =>
          rw [compareBe32, compareBe32]
          by_cases hxy : x < y
          · rw [if_pos hxy, if_neg (UInt8.lt_asymm hxy), if_pos hxy]
            rfl
          by_cases hyx : y < x
          · rw [if_pos hyx, if_neg hxy, if_pos hyx]
            rfl
          · rw [if_neg hxy, if_neg hyx, if_neg hyx, if_neg hxy]
            exact ih b

/-- `compare_be_32` is the numeric order. -/
theorem compareBe32_eq (h : a.length = b.length) : compareBe32 a b = compare (beNat a) (beNat b) := by
  have hlt := compareBe32_eq_lt h
  have hgt := compareBe32_eq_lt h.symm
  rw [compareBe32_swap a b] at hgt
  cases hcmp : compareBe32 a b with
  | lt => exact (Nat.compare_eq_lt.mpr (hlt.mp hcmp)).symm
  | gt => exact (Nat.compare_eq_gt.mpr (hgt.mp (by rw [hcmp]; rfl))).symm
  | eq =>
      rw [hcmp] at hlt hgt
      have hle : beNat b ≤ beNat a := Nat.not_lt.mp (mt hlt.mpr (by decide))
      have hge : beNat a ≤ beNat b := Nat.not_lt.mp (mt hgt.mpr (by decide))
      exact (Nat.compare_eq_eq.mpr (le_antisymm hge hle)).symm

/-! ### The reduction -/

theorem ReduceLoop.unique (h : ReduceLoop bytes out) (h' : ReduceLoop bytes out') : out = out' := by
  induction h with
  | exit hlt =>
      cases h' with
      | exit => rfl
      | round hge => exact absurd hlt hge
  | round hge _ ih =>
      cases h' with
      | exit hlt => exact absurd hlt hge
      | round _ h' => exact ih h'

/-- Rounds that are enough leave what the loop leaves. -/
theorem reduceLoop_reduceRounds (h : bytes.length = 32) (hn : beNat bytes < n * order) :
    ReduceLoop bytes (reduceRounds n bytes) := by
  induction n generalizing bytes with
  | zero => omega
  | succ n ih =>
      have hcmp := compareBe32_eq_lt (a := bytes) (b := scalarModulusBe) (by simp [h, scalarModulusBe])
      rw [beNat_scalarModulusBe] at hcmp
      rw [reduceRounds]
      by_cases hlt : compareBe32 bytes scalarModulusBe = .lt
      · rw [if_neg (not_not.mpr hlt)]
        exact .exit hlt
      · have hle : order ≤ beNat bytes := Nat.not_lt.mp (mt hcmp.mpr hlt)
        have hsub := beNat_subtractModulusBe h hle
        rw [if_pos hlt]
        refine .round hlt (ih (length_subtractModulusBe h) ?_)
        rw [hsub]
        rw [Nat.succ_mul] at hn
        omega

theorem reduceLoop_reduceToScalarBe (h : bytes.length = 32) :
    ReduceLoop bytes (reduceToScalarBe bytes) := by
  refine reduceLoop_reduceRounds h ((beNat_lt bytes).trans_le ?_)
  rw [h]
  decide

theorem reduceToScalarBe_eq (h : bytes.length = 32) :
    reduceToScalarBe bytes = beBytes 32 (beNat bytes % order) := by
  rw [← beNat_reduceToScalarBe h]
  exact eq_beBytes (length_reduceToScalarBe h)

theorem subtractBorrow_eq (a b : List UInt8) (borrow : Nat) :
    subtractBorrow a b borrow = (borrowSteps a b borrow).map stepByte := by
  induction a generalizing b borrow with
  | nil => rfl
  | cons byte a ih =>
      cases b with
      | nil => rfl
      | cons modulusByte b =>
          rw [subtractBorrow, borrowSteps, List.map_cons, stepByte, ← ih]
          by_cases hle : modulusByte.toNat + borrow ≤ byte.toNat
          · simp only [if_pos hle]
          · simp only [if_neg hle]

theorem stepFits_of_mem (hb : borrow ≤ 1) {x : Nat × Nat} (hx : x ∈ borrowSteps a b borrow) :
    StepFits x.1 x.2 := by
  induction a generalizing b borrow with
  | nil => cases hx
  | cons byte a ih =>
      cases b with
      | nil => cases hx
      | cons modulusByte b =>
          have hleft := byte.toNat_lt
          have hright := modulusByte.toNat_lt
          rw [borrowSteps, List.mem_cons] at hx
          rcases hx with rfl | hx
          · exact ⟨by omega, by omega, fun _ => by omega, fun _ => by omega⟩
          · exact ih (by split <;> decide) hx

/-! ### The client's bytes -/

theorem bigIntOfHex_append {as bs : List Nat} :
    bigIntOfHex (as ++ bs) = bigIntOfHex as * 16 ^ bs.length + bigIntOfHex bs := by
  rw [bigIntOfHex, List.reverse_append, Nat.ofDigits_append, List.length_reverse]
  simp only [bigIntOfHex]
  ring

theorem length_toHex (bytes : List UInt8) : (toHex bytes).length = 2 * bytes.length := by
  induction bytes with
  | nil => rfl
  | cons b bytes ih =>
      rw [toHex, List.flatMap_cons, List.length_append, ← toHex, ih]
      simp only [List.length_cons, List.length_nil]
      omega

/-- The digits of bytes are read as the number of the bytes. -/
theorem bigIntOfHex_toHex (bytes : List UInt8) : bigIntOfHex (toHex bytes) = beNat bytes := by
  induction bytes with
  | nil => rfl
  | cons b bytes ih =>
      have hbyte : bigIntOfHex [b.toNat / 16, b.toNat % 16] = b.toNat := by
        simp only [bigIntOfHex, List.reverse_cons, List.reverse_nil, List.nil_append,
          List.cons_append, Nat.ofDigits_cons, Nat.ofDigits_nil]
        push_cast
        omega
      have hpow : (16 : Nat) ^ (2 * bytes.length) = 256 ^ bytes.length := pow_mul 16 2 _
      rw [toHex, List.flatMap_cons, ← toHex, bigIntOfHex_append, hbyte, ih, length_toHex, hpow,
        beNat_cons]

theorem bufferOfHex_spec (hd : ∀ d ∈ digits, d < 16) (hn : digits.length = 2 * n) :
    (bufferOfHex digits).length = n ∧ beNat (bufferOfHex digits) = bigIntOfHex digits := by
  induction n generalizing digits with
  | zero =>
      obtain rfl : digits = [] := List.length_eq_zero_iff.mp hn
      exact ⟨rfl, rfl⟩
  | succ n ih =>
      obtain _ | ⟨high, _ | ⟨low, rest⟩⟩ := digits
      · simp at hn
      · simp at hn; omega
      have hrest : rest.length = 2 * n := by simp only [List.length_cons] at hn; omega
      obtain ⟨hlen, hval⟩ := ih (fun d hmem => hd d (by simp [hmem])) hrest
      have hhigh := hd high (by simp)
      have hlow := hd low (by simp)
      have hbyte : (UInt8.ofNat (16 * high + low)).toNat = 16 * high + low := by
        rw [UInt8.toNat_ofNat']
        exact Nat.mod_eq_of_lt (by omega)
      have hpair : bigIntOfHex [high, low] = 16 * high + low := by
        simp only [bigIntOfHex, List.reverse_cons, List.reverse_nil, List.nil_append,
          List.cons_append, Nat.ofDigits_cons, Nat.ofDigits_nil]
        push_cast
        omega
      have hpow : (16 : Nat) ^ (2 * n) = 256 ^ n := pow_mul 16 2 n
      refine ⟨by simp [bufferOfHex, hlen], ?_⟩
      have happ := @bigIntOfHex_append [high, low] rest
      rw [List.cons_append, List.cons_append, List.nil_append, hpair, hrest, hpow] at happ
      rw [bufferOfHex, beNat_cons, hbyte, hlen, hval, happ]

theorem hexOfBigInt_spec (hv : v < 16 ^ n) (hn : 0 < n) : (∀ d ∈ hexOfBigInt v, d < 16) ∧
    (hexOfBigInt v).length ≤ n ∧ bigIntOfHex (hexOfBigInt v) = v := by
  rw [hexOfBigInt]
  by_cases hzero : v = 0
  · rw [if_pos hzero, hzero]
    exact ⟨by simp, hn, rfl⟩
  · rw [if_neg hzero]
    refine ⟨fun d hd => Nat.digits_lt_base (by decide) (List.mem_reverse.mp hd), ?_, ?_⟩
    · rw [List.length_reverse]
      exact (Nat.digits_length_le_iff (by decide) v).mpr hv
    · rw [bigIntOfHex, List.reverse_reverse, Nat.ofDigits_digits]

/-- Printed in hexadecimal, padded and read back, a number is its encoding. -/
theorem bufferOfHex_padStart (hv : v < 256 ^ n) (hn : 0 < n) :
    bufferOfHex (padStart (2 * n) (hexOfBigInt v)) = beBytes n v := by
  obtain ⟨hd, hlen, hval⟩ := hexOfBigInt_spec (v := v) (n := 2 * n) (by rwa [pow_mul]) (by omega)
  have hlength : (padStart (2 * n) (hexOfBigInt v)).length = 2 * n := by
    rw [padStart, List.length_append, List.length_replicate]
    omega
  have hdigits : ∀ d ∈ padStart (2 * n) (hexOfBigInt v), d < 16 := by
    intro d hmem
    rcases List.mem_append.mp hmem with hzero | hmem
    · rw [List.eq_of_mem_replicate hzero]
      decide
    · exact hd d hmem
  have hpad : bigIntOfHex (padStart (2 * n) (hexOfBigInt v)) = v := by
    rw [padStart, bigIntOfHex_append, hval, bigIntOfHex, List.reverse_replicate,
      Nat.ofDigits_replicate_zero, Nat.zero_mul, Nat.zero_add]
  obtain ⟨hbytes, hnat⟩ := bufferOfHex_spec hdigits hlength
  rw [eq_beBytes hbytes, hnat, hpad]

theorem subtractWhile_eq (v : Nat) : subtractWhile v = v % order := by
  induction v using subtractWhile.induct with
  | case1 v hle ih => rw [subtractWhile, if_pos hle, ih, ← Nat.mod_eq_sub_mod hle]
  | case2 v hlt => rw [subtractWhile, if_neg hlt, Nat.mod_eq_of_lt (Nat.not_le.mp hlt)]

/-- The client reduces to the same bytes. -/
theorem reduceBlsScalarBytes_eq (h : bytes.length = 32) :
    reduceBlsScalarBytes bytes = reduceToScalarBe bytes := by
  have hlt : beNat bytes % order < 256 ^ 32 :=
    (Nat.mod_lt _ (by decide)).trans (by decide)
  rw [reduceBlsScalarBytes, bigIntOfHex_toHex, subtractWhile_eq, reduceToScalarBe_eq h]
  exact bufferOfHex_padStart hlt (by decide)

theorem isZeroScalar_iff_eq (h : bytes.length = 32) :
    isZeroScalar bytes = true ↔ bytes = zeroScalar := by
  rw [zeroScalar, List.eq_replicate_iff, isZeroScalar, List.all_eq_true]
  simp only [beq_iff_eq, h, true_and]

theorem normalizeZeroScalar_eq (h : bytes.length = 32) :
    normalizeZeroScalar bytes = nonzeroScalar bytes := by
  rw [normalizeZeroScalar, nonzeroScalar]
  by_cases hzero : bytes = zeroScalar
  · rw [if_neg (not_not.mpr hzero), if_pos ((isZeroScalar_iff_eq h).mpr hzero), hzero]
  · rw [if_pos hzero, if_neg (mt (isZeroScalar_iff_eq h).mp hzero)]

/-- The client's scalar of a message is the program's. -/
theorem hashMessageToBlsScalar_eq (sha256 : List UInt8 → Bytes 32) (message : List UInt8) :
    hashMessageToBlsScalar (fun m => (sha256 m).val) message
      = beNat (hashMessageToScalarBe (fun m => (sha256 m).val) message) := by
  have hred : ∀ m, reduceBlsScalarBytes (sha256 m).val = reduceToScalarBe (sha256 m).val :=
    fun m => reduceBlsScalarBytes_eq (sha256 m).property
  have hlen : ∀ m, (reduceToScalarBe (sha256 m).val).length = 32 :=
    fun m => length_reduceToScalarBe (sha256 m).property
  have hzero := isZeroScalar_iff_eq (hlen (hashToSigningPointTag ++ message))
  rw [hashMessageToBlsScalar, hashMessageToScalarBe, bigIntOfHex_toHex]
  simp only [hred, normalizeZeroScalar_eq (hlen _)]
  by_cases h : reduceToScalarBe (sha256 (hashToSigningPointTag ++ message)).val = zeroScalar
  · rw [if_pos h, if_pos (hzero.mpr h)]
  · rw [if_neg h, if_neg (mt hzero.mp h)]

/-- **The scalars are exact**: the reduction ends with the encoding of the remainder, each of its parts computes what it stands for on numbers, and the scalar of a message is between one and the order less one and the one the client computes, whatever the hash function. -/
theorem scalars_exact :
    (∀ bytes : Bytes 32, ∀ out, ReduceLoop bytes.val out ↔
      out = beBytes 32 (beNat bytes.val % order)) ∧
    (∀ bytes : Bytes 32, order ≤ beNat bytes.val →
      subtractModulusBe bytes.val = beBytes 32 (beNat bytes.val - order)) ∧
    (∀ a b : Bytes 32, compareBe32 a.val b.val = compare (beNat a.val) (beNat b.val)) ∧
    (∀ bytes : Bytes 32, ∃ steps,
      subtractModulusBe bytes.val = (steps.map stepByte).reverse ∧
        steps = borrowSteps bytes.val.reverse scalarModulusBe.reverse 0 ∧
        ∀ x ∈ steps, StepFits x.1 x.2) ∧
    ∀ (sha256 : List UInt8 → Bytes 32) (message : List UInt8),
      ∃ scalar, 1 ≤ scalar ∧ scalar ≤ order - 1 ∧
        hashMessageToScalarBe (fun m => (sha256 m).val) message = beBytes 32 scalar ∧
        hashMessageToBlsScalar (fun m => (sha256 m).val) message = scalar := by
  refine ⟨fun bytes out => ?_, fun bytes hle => ?_, fun a b => ?_, fun bytes => ?_,
    fun sha256 message => ?_⟩
  · have hloop := reduceLoop_reduceToScalarBe bytes.property
    rw [reduceToScalarBe_eq bytes.property] at hloop
    constructor
    · intro h
      exact h.unique hloop
    · rintro rfl
      exact hloop
  · rw [← beNat_subtractModulusBe bytes.property hle]
    exact eq_beBytes (length_subtractModulusBe bytes.property)
  · exact compareBe32_eq (a.property.trans b.property.symm)
  · refine ⟨_, ?_, rfl, fun x hx => stepFits_of_mem (Nat.zero_le 1) hx⟩
    rw [subtractModulusBe, subtractBorrow_eq]
  · obtain ⟨hlen, hpos, hlt⟩ :=
      hashMessageToScalarBe_range (fun m => (sha256 m).property) message
    exact ⟨_, hpos, Nat.le_sub_one_of_lt hlt, eq_beBytes hlen, hashMessageToBlsScalar_eq ..⟩

end Ryvo.Bls
