import Mathlib.Data.Nat.Choose.Basic
import Mathlib.Data.Set.Function
import Mathlib.Order.Interval.Set.Defs

/-!
# Support — Pairs

Pairs of distinct numbers in one row: those with the higher member `1`, then those with `2`, and so on, each by the lower member.  `rank` is the place of a pair in it.

* `rank_lt_iff`: the pairs below `n` fill the places below `triangle n`.
* `rank_injOn`, `exists_rank`: every place is one pair's.
* `rank_bijOn`, `rank_bijOn_below`: the two together, for all pairs and for those below a bound.

Nothing here names a program.
-/

namespace Ryvo.Pairs

variable {n l h l' h' : ℕ}

/-- The number of pairs below `n`. -/
def triangle (n : ℕ) : ℕ := n * (n - 1) / 2

def rank (p : ℕ × ℕ) : ℕ := triangle p.2 + p.1

theorem triangle_succ (n : ℕ) : triangle (n + 1) = triangle n + n := Nat.triangle_succ n

theorem triangle_mono : Monotone triangle :=
  monotone_nat_of_le_succ fun n => by
    rw [triangle_succ]
    exact Nat.le_add_right _ _

/-- The pairs below `n` come before all others. -/
theorem rank_lt_iff (hl : l < h) : rank (l, h) < triangle n ↔ h < n := by
  constructor
  · intro hlt
    by_contra hn
    have := triangle_mono (Nat.le_of_not_lt hn)
    simp only [rank] at hlt
    omega
  · intro hn
    have := triangle_mono (Nat.succ_le_of_lt hn)
    simp only [Nat.succ_eq_add_one, triangle_succ] at this
    simp only [rank]
    omega

theorem rank_injOn : Set.InjOn rank {p | p.1 < p.2} := by
  intro p hp p' hp' he
  obtain ⟨l, h⟩ := p
  obtain ⟨l', h'⟩ := p'
  simp only [Set.mem_ofPred_eq] at hp hp'
  -- With different higher members one of the two comes before the other.
  have hh : h = h' := by
    refine le_antisymm ?_ ?_
    · by_contra hlt
      have h₁ := (rank_lt_iff (n := h) hp').mpr (by omega)
      have : triangle h ≤ rank (l, h) := Nat.le_add_right _ _
      omega
    · by_contra hlt
      have h₁ := (rank_lt_iff (n := h') hp).mpr (by omega)
      have : triangle h' ≤ rank (l', h') := Nat.le_add_right _ _
      omega
  subst hh
  simp only [rank] at he
  exact Prod.ext (by simp only; omega) rfl

/-- The pair after `(l, h)` is `(l + 1, h)`, or `(0, h + 1)` after the last one with `h`. -/
theorem exists_rank (n : ℕ) : ∃ p : ℕ × ℕ, p.1 < p.2 ∧ rank p = n := by
  induction n with
  | zero => exact ⟨(0, 1), Nat.one_pos, rfl⟩
  | succ n ih =>
      obtain ⟨⟨l, h⟩, hl, hn⟩ := ih
      simp only [rank] at hl hn
      by_cases hlast : l + 1 < h
      · exact ⟨(l + 1, h), hlast, by simp only [rank]; omega⟩
      · refine ⟨(0, h + 1), Nat.succ_pos h, ?_⟩
        simp only [rank, triangle_succ]
        omega

theorem rank_bijOn : Set.BijOn rank {p | p.1 < p.2} Set.univ := by
  refine ⟨fun p _ => trivial, rank_injOn, ?_⟩
  intro n _
  obtain ⟨p, hp, hn⟩ := exists_rank n
  exact ⟨p, hp, hn⟩

theorem rank_bijOn_below (n : ℕ) :
    Set.BijOn rank {p | p.1 < p.2 ∧ p.2 < n} (Set.Iio (triangle n)) := by
  refine ⟨fun p hp => (rank_lt_iff hp.1).mpr hp.2, rank_injOn.mono fun p hp => hp.1, ?_⟩
  intro i hi
  obtain ⟨p, hp, rfl⟩ := exists_rank i
  exact ⟨p, ⟨hp, (rank_lt_iff hp).mp hi⟩, rfl⟩

end Ryvo.Pairs
