import Mathlib.NumberTheory.LucasPrimality
import Mathlib.Tactic.NormNum.Prime
import Ryvo.Bls.Scalar

/-!
# BLS — The group order

The order of the BLS12-381 groups is prime, by Lucas's test: seven generates its residues, and its predecessor has small factors only.

* `powMod`: powers by squaring, small enough to be evaluated.
* `order_prime`: so every scalar but zero can be inverted.
-/

namespace Ryvo.Bls

/-- `acc * base ^ n` modulo `m`, by squaring, over that many bits of `n`. -/
def powMod (m : Nat) : Nat → Nat → Nat → Nat → Nat
  | 0, acc, _, _ => acc
  | bits + 1, acc, base, n =>
      powMod m bits (if n % 2 = 1 then acc * base % m else acc) (base * base % m) (n / 2)

theorem powMod_modEq {m bits acc base n : Nat} (h : n < 2 ^ bits) :
    powMod m bits acc base n ≡ acc * base ^ n [MOD m] := by
  induction bits generalizing acc base n with
  | zero =>
      obtain rfl : n = 0 := by simpa using h
      rw [powMod, pow_zero, mul_one]
  | succ bits ih =>
      have hhalf : n / 2 < 2 ^ bits := by
        rw [pow_succ] at h
        omega
      have hsquare : (base * base % m) ^ (n / 2) ≡ base ^ (2 * (n / 2)) [MOD m] := by
        rw [pow_mul, sq]
        exact (Nat.mod_modEq _ _).pow _
      rw [powMod]
      refine (ih hhalf).trans ?_
      -- The lowest bit goes into the accumulator, the others into the square.
      split
      · rename_i hodd
        have hsplit : acc * base ^ n = acc * base * base ^ (2 * (n / 2)) := by
          conv_lhs => rw [show n = 2 * (n / 2) + 1 by omega, pow_succ]
          ring
        rw [hsplit]
        exact (Nat.mod_modEq _ _).mul hsquare
      · rename_i heven
        have hsplit : base ^ n = base ^ (2 * (n / 2)) := by
          conv_lhs => rw [show n = 2 * (n / 2) by omega]
        rw [hsplit]
        exact hsquare.mul_left acc

/-- The prime factors of the order's predecessor, and how often they divide it. -/
def orderFactors : List (Nat × Nat) :=
  [(2, 32), (3, 1), (11, 1), (19, 1), (10177, 1), (125527, 1), (859267, 1), (906349, 2),
    (2508409, 1), (2529403, 1), (52437899, 1), (254760293, 2)]

theorem prod_orderFactors : (orderFactors.map fun f => f.1 ^ f.2).prod = order - 1 := by
  decide +kernel

theorem prime_of_orderFactors : ∀ f ∈ orderFactors, f.1.Prime := by
  simp only [orderFactors, List.forall_mem_cons]
  norm_num

/-- Seven to the order's predecessor is one, and to no proper part of it. -/
theorem powMod_seven : powMod order 255 1 7 (order - 1) = 1 ∧
    ∀ f ∈ orderFactors, powMod order 255 1 7 ((order - 1) / f.1) % order ≠ 1 := by
  decide +kernel

theorem pow_seven {n : Nat} (hn : n < 2 ^ 255) :
    (7 : ZMod order) ^ n = 1 ↔ powMod order 255 1 7 n % order = 1 := by
  have hmod : powMod order 255 1 7 n ≡ 1 * 7 ^ n [MOD order] := powMod_modEq hn
  rw [one_mul] at hmod
  rw [← Nat.cast_ofNat, ← Nat.cast_pow, ← Nat.cast_one, ZMod.natCast_eq_natCast_iff']
  exact ⟨fun h => hmod.trans h, fun h => hmod.symm.trans h⟩

/-- **The order is prime.** -/
theorem order_prime : order.Prime := by
  obtain ⟨hone, hpart⟩ := powMod_seven
  have hlt : ∀ n ≤ order - 1, n < 2 ^ 255 := fun n hn => hn.trans_lt (by decide +kernel)
  refine lucas_primality order 7 ((pow_seven (hlt _ le_rfl)).mpr (by rw [hone]; rfl)) ?_
  intro q hq hdvd
  rw [← prod_orderFactors, hq.prime.dvd_prod_iff] at hdvd
  obtain ⟨_, hmem, hdvd⟩ := hdvd
  obtain ⟨f, hf, rfl⟩ := List.mem_map.mp hmem
  obtain rfl : q = f.1 :=
    (Nat.prime_dvd_prime_iff_eq hq (prime_of_orderFactors f hf)).mp (hq.dvd_of_dvd_pow hdvd)
  rw [Ne, pow_seven (hlt _ (Nat.div_le_self _ _))]
  exact hpart f hf

instance factOrderPrime : Fact order.Prime := ⟨order_prime⟩

end Ryvo.Bls
