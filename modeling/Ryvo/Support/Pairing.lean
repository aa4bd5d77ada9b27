import Mathlib.Data.ZMod.Basic
import Mathlib.Algebra.Field.ZMod
import Mathlib.GroupTheory.OrderOfElement
import Mathlib.Algebra.BigOperators.Group.List.Basic

/-!
# Support — Pairings

Two groups generated by one element each, of the same prime order, and a pairing between them.  A point of the first group signs a scalar under a point of the second, the key, when it pairs with the second generator as the scalar's multiple of the first generator does with the key.  Who knows the secret of the key can sign; and who has a signature on one scalar has the signatures on all of them.

* `pair_eq_zero`: only zero pairs to zero.
* `signs_iff`: under the key of a secret there is exactly one signature on a scalar.
* `Signs.transfer`: a signature, multiplied by a quotient of scalars, signs the other scalar under the same key.
* `Signs.sum`: signatures on one scalar add up to one under the sum of the keys.
-/

namespace Ryvo

/-- Groups with one generator each, whose order divides `r`, and a bilinear map that does not vanish on the generators. -/
structure PairedGroups (r : Nat) (G₁ G₂ Gₜ : Type) [AddCommGroup G₁] [AddCommGroup G₂]
    [AddCommGroup Gₜ] where
  gen₁ : G₁
  gen₂ : G₂
  pair : G₁ →+ G₂ →+ Gₜ
  generates₁ : ∀ x, ∃ n : Nat, x = n • gen₁
  generates₂ : ∀ y, ∃ n : Nat, y = n • gen₂
  order₁ : r • gen₁ = 0
  order₂ : r • gen₂ = 0
  pair_gen : pair gen₁ gen₂ ≠ 0

/-- The residue that takes `a` to `b`. -/
def transferScalar (r a b : Nat) : Nat := ((b : ZMod r) * (a : ZMod r)⁻¹).val

theorem transferScalar_mul {r a b : Nat} [Fact r.Prime] (ha : ¬ r ∣ a) :
    transferScalar r a b * a ≡ b [MOD r] := by
  have hne : (a : ZMod r) ≠ 0 := by rwa [Ne, ZMod.natCast_eq_zero_iff]
  rw [← ZMod.natCast_eq_natCast_iff, transferScalar, Nat.cast_mul, ZMod.natCast_zmod_val,
    mul_assoc, inv_mul_cancel₀ hne, mul_one]

namespace PairedGroups

variable {r : Nat} {G₁ G₂ Gₜ : Type} [AddCommGroup G₁] [AddCommGroup G₂] [AddCommGroup Gₜ]
variable (P : PairedGroups r G₁ G₂ Gₜ) {x x' : G₁} {y y' : G₂} {a b k n : Nat}

/-- The point signs the scalar, under the key. -/
def Signs (y : G₂) (a : Nat) (x : G₁) : Prop := P.pair x P.gen₂ = P.pair (a • P.gen₁) y

variable {P}

/-! ### The groups -/

/-- Multiples of the generator only depend on the residue. -/
theorem nsmul_congr (h : a ≡ b [MOD r]) : a • P.gen₁ = b • P.gen₁ := by
  have hdvd : addOrderOf P.gen₁ ∣ r := addOrderOf_dvd_of_nsmul_eq_zero P.order₁
  exact nsmul_eq_nsmul_iff_modEq.mpr (h.of_dvd hdvd)

/-- The generators pair to an element of order `r`. -/
theorem addOrderOf_pair [hr : Fact r.Prime] : addOrderOf (P.pair P.gen₁ P.gen₂) = r := by
  refine addOrderOf_eq_prime ?_ P.pair_gen
  rw [← AddMonoidHom.nsmul_apply, ← map_nsmul, P.order₁, map_zero, AddMonoidHom.zero_apply]

/-- Only zero pairs to zero. -/
theorem pair_eq_zero [hr : Fact r.Prime] (h : P.pair x y = 0) : x = 0 ∨ y = 0 := by
  obtain ⟨m, rfl⟩ := P.generates₁ x
  obtain ⟨n, rfl⟩ := P.generates₂ y
  have hmul : (m * n) • P.pair P.gen₁ P.gen₂ = 0 := by
    rw [mul_nsmul, ← h, map_nsmul, map_nsmul, AddMonoidHom.nsmul_apply]
  have hdvd : r ∣ m * n := by
    rw [← addOrderOf_pair (P := P)]
    exact addOrderOf_dvd_of_nsmul_eq_zero hmul
  rcases hr.out.dvd_mul.mp hdvd with ⟨c, rfl⟩ | ⟨c, rfl⟩
  · left
    rw [mul_nsmul, P.order₁, nsmul_zero]
  · right
    rw [mul_nsmul, P.order₂, nsmul_zero]

/-! ### Signatures -/

/-- Who knows the secret signs. -/
theorem signs_secret (s a : Nat) : P.Signs (s • P.gen₂) a ((s * a) • P.gen₁) := by
  rw [Signs, map_nsmul, AddMonoidHom.nsmul_apply, map_nsmul, map_nsmul, AddMonoidHom.nsmul_apply,
    mul_nsmul']

/-- There is one signature on a scalar. -/
theorem Signs.unique [Fact r.Prime] (h : P.Signs y a x) (h' : P.Signs y a x') : x = x' := by
  have hpair : P.pair (x - x') P.gen₂ = 0 := by
    rw [map_sub, AddMonoidHom.sub_apply, sub_eq_zero]
    exact h.trans h'.symm
  rcases pair_eq_zero hpair with h₀ | h₀
  · exact sub_eq_zero.mp h₀
  · have hgen := P.pair_gen
    rw [h₀, map_zero] at hgen
    exact absurd rfl hgen

theorem signs_iff [Fact r.Prime] {s : Nat} : P.Signs (s • P.gen₂) a x ↔ x = (s * a) • P.gen₁ :=
  ⟨fun h => h.unique (signs_secret s a), fun h => h ▸ signs_secret s a⟩

/-- A multiple of a signature signs the multiple. -/
theorem Signs.nsmul (h : P.Signs y a x) (k : Nat) : P.Signs y (k * a) (k • x) := by
  rw [Signs, map_nsmul, AddMonoidHom.nsmul_apply, h, mul_nsmul', map_nsmul P.pair k,
    AddMonoidHom.nsmul_apply]

/-- Scalars are signed as residues. -/
theorem Signs.congr (h : P.Signs y a x) (hab : a ≡ b [MOD r]) : P.Signs y b x := by
  rw [Signs, ← nsmul_congr hab]
  exact h

/-- **Signatures transfer**: times the quotient of two scalars, a signature on the one is a signature on the other, whoever's key it is. -/
theorem Signs.transfer [Fact r.Prime] (h : P.Signs y a x) (ha : ¬ r ∣ a) (b : Nat) :
    P.Signs y b (transferScalar r a b • x) := (h.nsmul _).congr (transferScalar_mul ha)

theorem signs_zero (a : Nat) : P.Signs 0 a 0 := by
  rw [Signs, map_zero, map_zero, AddMonoidHom.zero_apply]

theorem Signs.add (h : P.Signs y a x) (h' : P.Signs y' a x') : P.Signs (y + y') a (x + x') := by
  rw [Signs, map_add, map_add, AddMonoidHom.add_apply, h, h']

/-- Signatures on one scalar, added up. -/
theorem Signs.sum {l : List (G₂ × G₁)} (h : ∀ e ∈ l, P.Signs e.1 a e.2) :
    P.Signs (l.map Prod.fst).sum a (l.map Prod.snd).sum := by
  induction l with
  | nil => exact signs_zero a
  | cons e l ih =>
      obtain ⟨he, hl⟩ := List.forall_mem_cons.mp h
      exact he.add (ih hl)

/-- Under a key that is not zero, nothing but a scalar of zero is signed by zero. -/
theorem Signs.ne_zero [hr : Fact r.Prime] (h : P.Signs y a x) (ha : ¬ r ∣ a) (hy : y ≠ 0) : x ≠ 0 := by
  rintro rfl
  rw [Signs, map_zero, AddMonoidHom.zero_apply] at h
  rcases pair_eq_zero h.symm with h₀ | h₀
  · refine ha ?_
    have hne : P.gen₁ ≠ 0 := by
      intro h₁
      have hgen := P.pair_gen
      rw [h₁, map_zero, AddMonoidHom.zero_apply] at hgen
      exact hgen rfl
    rw [← addOrderOf_eq_prime P.order₁ hne]
    exact addOrderOf_dvd_of_nsmul_eq_zero h₀
  · exact hy h₀

end PairedGroups

end Ryvo
