import Ryvo.Messages.Varint

/-!
# Messages — What the readers accept

Which bytes a reader consumes, and that what it consumes decides what it returns.  `IsVarint` says which number a string of seven-bit groups spells, padded or not; `readVarintU64_eq_ok` says that the reader accepts exactly the strings of at most ten groups that spell a `u64`.

`encodeVarintU64` is the shortest such string, the one the clients write.
-/

namespace Ryvo

/-- `encode_varint_u64`. -/
def encodeVarintU64 (value : Nat) : List UInt8 :=
  if value < 128 then [UInt8.ofNat value]
  else UInt8.ofNat (value % 128 + 128) :: encodeVarintU64 (value / 128)
termination_by value
decreasing_by omega

/-- The bytes spell the number: seven bits a byte, the high bit set on all but the last. -/
inductive IsVarint : List UInt8 → Nat → Prop
  | last (b : UInt8) : b.toNat < 128 → IsVarint [b] b.toNat
  | more (b : UInt8) {bs : List UInt8} {v : Nat} : 128 ≤ b.toNat → IsVarint bs v →
      IsVarint (b :: bs) (b.toNat - 128 + 128 * v)

/-- The bytes `read_varint_u64` takes for a number. -/
structure IsVarintU64 (bs : List UInt8) (v : Nat) : Prop where
  spells : IsVarint bs v
  lt : v < u64Bound
  length_le : bs.length ≤ 10

variable {e : VaultError} {b : UInt8} {bs bs' msg rest rest' : List UInt8} {v v' k value : Nat}

theorem IsVarint.ne_nil (h : IsVarint bs v) : bs ≠ [] := by
  cases h <;> simp

theorem IsVarint.length_pos (h : IsVarint bs v) : 0 < bs.length :=
  List.length_pos_iff.mpr h.ne_nil

/-! ### One group -/

theorem toNat_and_0x7f (b : UInt8) : (b &&& 0x7f).toNat = b.toNat % 128 := by
  rw [UInt8.toNat_and]
  exact Nat.and_two_pow_sub_one_eq_mod b.toNat 7

theorem and_0x80_eq_zero (b : UInt8) : b &&& 0x80 = 0 ↔ b.toNat < 128 := by
  have h : ∀ n : Fin 256, (n.val &&& 128 = 0 ↔ n.val < 128) := by decide +kernel
  rw [← UInt8.toNat_inj, UInt8.toNat_and]
  exact h ⟨b.toNat, b.toNat_lt⟩

/-- A group above what has been read so far. -/
theorem or_shiftLeft {value k chunk : Nat} (h : value < 2 ^ k) :
    value ||| chunk <<< k = value + chunk * 2 ^ k := by
  rw [Nat.or_comm, ← Nat.shiftLeft_add_eq_or_of_lt h, Nat.shiftLeft_eq, Nat.add_comm]

/-- The last of ten groups has one bit. -/
theorem chunk_bound {k chunk : Nat} (hk : k ≤ 9) (hc : chunk < 128) :
    ¬ (7 * k = 63 ∧ 1 < chunk) ↔ chunk * 2 ^ (7 * k) < u64Bound := by
  rcases Nat.lt_or_ge k 9 with h | h
  · have hp : (2 : Nat) ^ (7 * k) ≤ 2 ^ 56 := Nat.pow_le_pow_right (by decide) (by omega)
    have : chunk * 2 ^ (7 * k) ≤ 127 * 2 ^ 56 := Nat.mul_le_mul (by omega) hp
    simp only [u64Bound]
    omega
  · obtain rfl : k = 9 := by omega
    change ¬ (63 = 63 ∧ 1 < chunk) ↔ chunk * 2 ^ 63 < 2 ^ 64
    omega

/-! ### The reader -/

/-- The loop, from group `k` on. -/
theorem readVarintFrom_eq_ok (hk : k ≤ 9) (hv : value < 2 ^ (7 * k)) :
    readVarintFrom e (7 * k) value msg = .ok (v, rest) ↔ ∃ bs u, msg = bs ++ rest ∧ IsVarint bs u ∧
      v = value + u * 2 ^ (7 * k) ∧ u * 2 ^ (7 * k) < u64Bound ∧ bs.length + k ≤ 10 := by
  induction msg generalizing k value with
  | nil =>
      simp only [readVarintFrom, reduceCtorEq, false_iff]
      rintro ⟨bs, u, hmsg, hu, -⟩
      exact hu.ne_nil (List.append_eq_nil_iff.mp hmsg.symm).1
  | cons b msg ih =>
      have hc : b.toNat % 128 < 128 := Nat.mod_lt _ (by decide)
      have hbound := chunk_bound hk hc
      simp only [readVarintFrom, toNat_and_0x7f, and_0x80_eq_zero]
      by_cases hover : 7 * k = 63 ∧ 1 < b.toNat % 128
      · -- A tenth group of more than one bit does not fit, whatever follows.
        rw [if_pos hover]
        simp only [reduceCtorEq, false_iff]
        rintro ⟨bs, u, hmsg, hu, -, hlt, -⟩
        have hle : b.toNat % 128 ≤ u := by
          cases hu with
          | last b' h => cases hmsg; omega
          | more b' h hu' => cases hmsg; omega
        exact (mt hbound.mpr (not_not.mpr hover))
          ((Nat.mul_le_mul_right _ hle).trans_lt hlt)
      · have hlt := hbound.mp hover
        have hval : value ||| (b.toNat % 128) <<< (7 * k) % u64Bound
            = value + b.toNat % 128 * 2 ^ (7 * k) := by
          rw [Nat.mod_eq_of_lt (by rwa [Nat.shiftLeft_eq]), or_shiftLeft hv]
        rw [if_neg hover, hval]
        by_cases hlast : b.toNat < 128
        · rw [if_pos hlast, Nat.mod_eq_of_lt hlast] at *
          constructor
          · intro h
            cases h
            exact ⟨[b], b.toNat, rfl, .last b hlast, rfl, hlt, by simp; omega⟩
          · rintro ⟨bs, u, hmsg, hu, rfl, -, -⟩
            cases hu with
            | last b' h => cases hmsg; rfl
            | more b' h hu' => cases hmsg; omega
        · have hmod : b.toNat % 128 = b.toNat - 128 := by
            have := b.toNat_lt
            omega
          rw [if_neg hlast, hmod] at *
          have hsucc : (2 : Nat) ^ (7 * (k + 1)) = 128 * 2 ^ (7 * k) := by
            rw [Nat.mul_add, pow_add, Nat.mul_comm]
            rfl
          by_cases hshift : 7 * k + 7 < 64
          · have hnext : value + (b.toNat - 128) * 2 ^ (7 * k) < 2 ^ (7 * (k + 1)) := by
              have h127 : (b.toNat - 128) * 2 ^ (7 * k) ≤ 127 * 2 ^ (7 * k) :=
                Nat.mul_le_mul_right _ (by have := b.toNat_lt; omega)
              rw [hsucc]
              omega
            rw [if_pos hshift, show 7 * k + 7 = 7 * (k + 1) by ring, ih (by omega) hnext]
            constructor
            · rintro ⟨bs, u, rfl, hu, rfl, hult, hlen⟩
              refine ⟨b :: bs, b.toNat - 128 + 128 * u, rfl, .more b (by omega) hu, ?_, ?_, ?_⟩
              · rw [hsucc]; ring
              · -- The groups fill disjoint bits, so nothing carries out of sixty-four.
                have hu64 : u * 128 * 2 ^ (7 * k) < 2 ^ (64 - 7 * (k + 1)) * (128 * 2 ^ (7 * k)) := by
                  rw [← hsucc, ← pow_add, show 64 - 7 * (k + 1) + 7 * (k + 1) = 64 by omega]
                  calc u * 128 * 2 ^ (7 * k) = u * 2 ^ (7 * (k + 1)) := by rw [hsucc]; ring
                    _ < 2 ^ 64 := hult
                have hule : u < 2 ^ (64 - 7 * (k + 1)) := by
                  rw [Nat.mul_assoc] at hu64
                  exact Nat.lt_of_mul_lt_mul_right hu64
                have hall : b.toNat - 128 + 128 * u < 128 * 2 ^ (64 - 7 * (k + 1)) := by
                  have := b.toNat_lt
                  omega
                have hpos : 0 < (2 : Nat) ^ (7 * k) := Nat.two_pow_pos _
                calc (b.toNat - 128 + 128 * u) * 2 ^ (7 * k)
                    < 128 * 2 ^ (64 - 7 * (k + 1)) * 2 ^ (7 * k) := Nat.mul_lt_mul_of_pos_right hall hpos
                  _ = 2 ^ (64 - 7 * (k + 1)) * 2 ^ (7 * (k + 1)) := by rw [hsucc]; ring
                  _ = u64Bound := by
                      rw [← pow_add, show 64 - 7 * (k + 1) + 7 * (k + 1) = 64 by omega]
              · simp only [List.length_cons]; omega
            · rintro ⟨bs, u, hmsg, hu, rfl, hult, hlen⟩
              cases hu with
              | last b' h => cases hmsg; omega
              | more b' h hu' =>
                  cases hmsg
                  rename_i bs v
                  refine ⟨bs, v, rfl, hu', ?_, ?_, ?_⟩
                  · rw [hsucc]; ring
                  · refine lt_of_le_of_lt ?_ hult
                    rw [hsucc, ← Nat.mul_assoc]
                    exact Nat.mul_le_mul_right _ (by omega)
                  · simp only [List.length_cons] at hlen; omega
          · rw [if_neg hshift]
            simp only [reduceCtorEq, false_iff]
            rintro ⟨bs, u, hmsg, hu, -, -, hlen⟩
            cases hu with
            | last b' h => cases hmsg; omega
            | more b' h hu' =>
                have := hu'.length_pos
                simp only [List.length_cons] at hlen
                omega

/-- The reader takes the groups of a `u64`, at most ten, and leaves the rest. -/
theorem readVarintU64_eq_ok : readVarintU64 e msg = .ok (v, rest) ↔
    ∃ bs, msg = bs ++ rest ∧ IsVarintU64 bs v := by
  have h : readVarintFrom e (7 * 0) 0 msg = .ok (v, rest) ↔ _ :=
    readVarintFrom_eq_ok (by decide) (by decide)
  simp only [Nat.mul_zero, pow_zero, Nat.mul_one, Nat.zero_add, Nat.add_zero] at h
  rw [readVarintU64, h]
  constructor
  · rintro ⟨bs, u, hmsg, hu, rfl, hlt, hlen⟩
    exact ⟨bs, hmsg, hu, hlt, hlen⟩
  · rintro ⟨bs, hmsg, hu, hlt, hlen⟩
    exact ⟨bs, v, hmsg, hu, rfl, hlt, hlen⟩

/-- No number's bytes are the start of another's. -/
theorem IsVarintU64.unique (h : IsVarintU64 bs v) (h' : IsVarintU64 bs' v')
    (hb : bs ++ rest = bs' ++ rest') : bs = bs' ∧ v = v' ∧ rest = rest' := by
  have h₁ : readVarintU64 .invalidCommitmentMessage (bs ++ rest) = .ok (v, rest) :=
    readVarintU64_eq_ok.mpr ⟨bs, rfl, h⟩
  have h₂ : readVarintU64 .invalidCommitmentMessage (bs ++ rest) = .ok (v', rest') :=
    readVarintU64_eq_ok.mpr ⟨bs', hb, h'⟩
  obtain ⟨rfl, rfl⟩ := Prod.mk.inj (Except.ok.inj (h₁.symm.trans h₂))
  exact ⟨List.append_cancel_right hb, rfl, rfl⟩

/-- The bytes decide the number. -/
theorem IsVarintU64.value_eq (h : IsVarintU64 bs v) (h' : IsVarintU64 bs v') : v = v' := by
  have hb : bs ++ [] = bs ++ [] := rfl
  exact (h.unique h' hb).2.1

theorem readVarintU32_eq_ok {id : U32} : readVarintU32 e msg = .ok (id, rest) ↔
    ∃ bs, msg = bs ++ rest ∧ IsVarintU64 bs id.val := by
  simp only [readVarintU32, Except.bind_eq_ok, Prod.exists]
  constructor
  · rintro ⟨v, r, h, hid⟩
    split at hid
    · simp only [Except.pure_eq_ok, Prod.mk.injEq] at hid
      obtain ⟨rfl, rfl⟩ := hid
      exact readVarintU64_eq_ok.mp h
    · cases hid
  · intro h
    refine ⟨id.val, rest, readVarintU64_eq_ok.mpr h, ?_⟩
    rw [dif_pos id.isLt]
    rfl

/-! ### The writer -/

theorem isVarint_encode (v : Nat) : IsVarint (encodeVarintU64 v) v := by
  induction v using encodeVarintU64.induct with
  | case1 v h =>
      have hb : (UInt8.ofNat v).toNat = v := by simp; omega
      rw [encodeVarintU64, if_pos h]
      simpa only [hb] using IsVarint.last (UInt8.ofNat v) (by omega)
  | case2 v h ih =>
      have hb : (UInt8.ofNat (v % 128 + 128)).toNat = v % 128 + 128 := by simp; omega
      have hv : v % 128 + 128 - 128 + 128 * (v / 128) = v := by omega
      rw [encodeVarintU64, if_neg h]
      simpa only [hb, hv] using IsVarint.more (UInt8.ofNat (v % 128 + 128)) (by omega) ih

theorem length_encode_le (n : Nat) (h : v < 128 ^ (n + 1)) : (encodeVarintU64 v).length ≤ n + 1 := by
  induction n generalizing v with
  | zero =>
      rw [encodeVarintU64, if_pos (by simpa using h)]
      simp
  | succ n ih =>
      rw [encodeVarintU64]
      split
      · simp
      · have : v / 128 < 128 ^ (n + 1) := Nat.div_lt_of_lt_mul (by rwa [pow_succ'] at h)
        simpa using ih this

theorem isVarintU64_encode (v : U64) : IsVarintU64 (encodeVarintU64 v.val) v.val :=
  ⟨isVarint_encode _, v.isLt, length_encode_le 9 (v.isLt.trans (by decide))⟩

theorem isVarintU64_encode_u32 (v : U32) : IsVarintU64 (encodeVarintU64 v.val) v.val :=
  isVarintU64_encode ⟨v.val, v.isLt.trans (by decide)⟩

/-! ### Bytes -/

theorem takeBytes_eq_ok {n : Nat} : takeBytes e n msg = .ok (bs, rest) ↔
    msg = bs ++ rest ∧ bs.length = n := by
  simp only [takeBytes, Except.bind_eq_ok, require_eq_ok, exists_const, Except.pure_eq_ok,
    Prod.mk.injEq]
  constructor
  · rintro ⟨h, rfl, rfl⟩
    exact ⟨(List.take_append_drop n msg).symm, List.length_take_of_le h⟩
  · rintro ⟨rfl, rfl⟩
    exact ⟨by simp, by simp, by simp⟩

theorem takeByte_eq_ok : takeByte e msg = .ok (b, rest) ↔ msg = b :: rest := by
  cases msg <;> simp [takeByte]

end Ryvo
