import Mathlib.Data.Fin.Tuple.Basic
import Mathlib.Data.Set.Card
import Mathlib.Logic.Function.Basic

/-!
# Support — Tables

Fixed-size tables searched from the front.  A row is in use or free, a row in use has a key, and the row of a key is the first in use that carries it.  A row is overwritten in place, or a new key takes the first free row.

The two facts everything else rests on are `Table.lookup_write` and `Table.lookup_write_ne`: a write at the row of `k`, or at the free row a new `k` takes, is read back at `k` and nowhere else.  Such writes also keep the keys of the rows in use distinct (`Distinct.write`).

Nothing here names a program.
-/

namespace Ryvo.Table

variable {ρ κ : Type} [DecidableEq κ] {n : Nat} {used : ρ → Bool} {key : ρ → κ}
variable {t : Fin n → ρ} {r : ρ} {k k' : κ} {i : Fin n}

/-- The first row in use that carries `k`. -/
def find (used : ρ → Bool) (key : ρ → κ) (t : Fin n → ρ) (k : κ) : Option (Fin n) :=
  Fin.find? fun i => used (t i) && decide (key (t i) = k)

/-- The first row not in use. -/
def free (used : ρ → Bool) (t : Fin n → ρ) : Option (Fin n) :=
  Fin.find? fun i => !used (t i)

/-- The row of `k`. -/
def lookup (used : ρ → Bool) (key : ρ → κ) (t : Fin n → ρ) (k : κ) : Option ρ :=
  (find used key t k).map t

/-- `i` is where `k` lives, or the free row it takes. -/
def Holds (used : ρ → Bool) (key : ρ → κ) (t : Fin n → ρ) (k : κ) (i : Fin n) : Prop :=
  find used key t k = some i ∨ (find used key t k = none ∧ free used t = some i)

theorem find_eq_some : find used key t k = some i ↔
    (used (t i) = true ∧ key (t i) = k) ∧ ∀ j < i, ¬ (used (t j) = true ∧ key (t j) = k) := by
  simp only [find, Fin.find?_eq_some_iff, Bool.and_eq_true, decide_eq_true_eq,
    ← Bool.not_eq_true]

theorem find_eq_none : find used key t k = none ↔
    ∀ i, ¬ (used (t i) = true ∧ key (t i) = k) := by
  simp only [find, Fin.find?_eq_none_iff, ← Bool.not_eq_true, Bool.and_eq_true, decide_eq_true_eq]

theorem free_eq_some : free used t = some i ↔ used (t i) = false ∧ ∀ j < i, used (t j) = true := by
  simp [free]

theorem exists_free (h : used (t i) = false) : ∃ j, free used t = some j := by
  rw [← Option.isSome_iff_exists, free, Fin.isSome_find?_iff]
  exact ⟨i, by simp [h]⟩

/-- A search from the front, as a loop over the indices does it. -/
theorem find_eq_finRange : find used key t k
    = (List.finRange n).find? fun i => used (t i) && decide (key (t i) = k) :=
  Fin.find?_eq_find?_finRange

theorem free_eq_finRange : free used t = (List.finRange n).find? fun i => !used (t i) :=
  Fin.find?_eq_find?_finRange

theorem find_used (h : find used key t k = some i) : used (t i) = true := (find_eq_some.mp h).1.1

theorem find_key (h : find used key t k = some i) : key (t i) = k := (find_eq_some.mp h).1.2

theorem lookup_eq_some : lookup used key t k = some r ↔ ∃ i, find used key t k = some i ∧ t i = r := by
  simp [lookup]

theorem lookup_used (h : lookup used key t k = some r) : used r = true := by
  obtain ⟨i, hi, rfl⟩ := lookup_eq_some.mp h
  exact find_used hi

theorem lookup_key (h : lookup used key t k = some r) : key r = k := by
  obtain ⟨i, hi, rfl⟩ := lookup_eq_some.mp h
  exact find_key hi

theorem lookup_of_find (h : find used key t k = some i) : lookup used key t k = some (t i) := by
  simp [lookup, h]

theorem lookup_eq_none : lookup used key t k = none ↔ find used key t k = none := by
  simp [lookup]

/-- A row carries one key, and a free row none. -/
theorem Holds.not_carries (h : Holds used key t k i) (hne : k' ≠ k) :
    ¬ (used (t i) = true ∧ key (t i) = k') := by
  rintro ⟨hu, hk⟩
  rcases h with h | ⟨-, h⟩
  · exact hne (hk.symm.trans (find_key h))
  · exact Bool.false_ne_true ((free_eq_some.mp h).1.symm.trans hu)

theorem Holds.not_before (h : Holds used key t k i) {j : Fin n} (hj : j < i) :
    ¬ (used (t j) = true ∧ key (t j) = k) := by
  rcases h with h | ⟨h, -⟩
  · exact (find_eq_some.mp h).2 j hj
  · exact find_eq_none.mp h j

theorem find_write (h : Holds used key t k i) (hu : used r = true) (hk : key r = k) :
    find used key (Function.update t i r) k = some i := by
  refine find_eq_some.mpr ⟨by simp [hu, hk], fun j hj => ?_⟩
  rw [Function.update_of_ne hj.ne]
  exact h.not_before hj

theorem find_write_ne (h : Holds used key t k i) (hk : key r = k) (hne : k' ≠ k) :
    find used key (Function.update t i r) k' = find used key t k' := by
  unfold find
  congr 1
  funext j
  by_cases e : j = i
  · subst e
    have h0 : (used (t j) && decide (key (t j) = k')) = false := by
      simpa [← Bool.not_eq_true] using h.not_carries hne
    have h1 : decide (key r = k') = false := by simp [hk, hne.symm]
    rw [Function.update_self, h0, h1, Bool.and_false]
  · rw [Function.update_of_ne e]

/-- What is written under a key is read back under it. -/
theorem lookup_write (h : Holds used key t k i) (hu : used r = true) (hk : key r = k) :
    lookup used key (Function.update t i r) k = some r := by
  rw [lookup_of_find (find_write h hu hk), Function.update_self]

/-- A write under one key leaves every other key's row. -/
theorem lookup_write_ne (h : Holds used key t k i) (hk : key r = k) (hne : k' ≠ k) :
    lookup used key (Function.update t i r) k' = lookup used key t k' := by
  unfold lookup
  rw [find_write_ne h hk hne]
  cases hf : find used key t k' with
  | none => rfl
  | some j =>
      have hj : j ≠ i := by
        rintro rfl
        exact h.not_carries hne (find_eq_some.mp hf).1
      simp [Function.update_of_ne hj]

/-! ### Distinct keys -/

/-- No two rows in use carry one key. -/
def Distinct (used : ρ → Bool) (key : ρ → κ) (t : Fin n → ρ) : Prop :=
  ∀ i j, used (t i) = true → used (t j) = true → key (t i) = key (t j) → i = j

/-- A write at the row of its key, or at the free row a new key takes, keeps keys distinct. -/
theorem Distinct.write (hd : Distinct used key t) (h : Holds used key t k i) (hk : key r = k) :
    Distinct used key (Function.update t i r) := by
  have only : ∀ j, used (t j) = true → key (t j) = k → j = i := by
    intro j hu hj
    rcases h with h | ⟨h, -⟩
    · exact hd j i hu (find_used h) (hj.trans (find_key h).symm)
    · exact absurd ⟨hu, hj⟩ (find_eq_none.mp h j)
  intro a b ha hb hab
  by_cases ea : a = i <;> by_cases eb : b = i
  · exact ea.trans eb.symm
  · subst ea
    rw [Function.update_self, Function.update_of_ne eb] at hab
    rw [Function.update_of_ne eb] at hb
    exact absurd (only b hb (hab.symm.trans hk)) eb
  · subst eb
    rw [Function.update_self, Function.update_of_ne ea] at hab
    rw [Function.update_of_ne ea] at ha
    exact absurd (only a ha (hab.trans hk)) ea
  · rw [Function.update_of_ne ea] at ha hab
    rw [Function.update_of_ne eb] at hb hab
    exact hd a b ha hb hab

/-- Where keys are distinct, every row in use is the row of its key. -/
theorem Distinct.lookup (hd : Distinct used key t) (hu : used (t i) = true) :
    lookup used key t (key (t i)) = some (t i) := by
  cases h : find used key t (key (t i)) with
  | none => exact absurd ⟨hu, rfl⟩ (find_eq_none.mp h i)
  | some j =>
      obtain rfl : j = i := hd j i (find_used h) hu (find_key h)
      exact lookup_of_find h

/-- There is a free row as long as fewer keys are in the table than it has rows. -/
theorem free_isSome_iff_ncard (hd : Distinct used key t) :
    (free used t).isSome = true ↔ {k | (lookup used key t k).isSome = true}.ncard < n := by
  let inUse : Set (Fin n) := {i | used (t i) = true}
  have hkeys : {k | (lookup used key t k).isSome = true} = (fun i => key (t i)) '' inUse := by
    ext k
    simp only [Set.mem_ofPred_eq, Set.mem_image, inUse, Option.isSome_iff_exists]
    constructor
    · rintro ⟨r, hr⟩
      obtain ⟨i, hi, rfl⟩ := lookup_eq_some.mp hr
      exact ⟨i, find_used hi, find_key hi⟩
    · rintro ⟨i, hi, rfl⟩
      exact ⟨t i, hd.lookup hi⟩
  have hinj : Set.InjOn (fun i => key (t i)) inUse := fun i hi j hj h => hd i j hi hj h
  rw [hkeys, hinj.ncard_image, Option.isSome_iff_exists]
  constructor
  · rintro ⟨i, hi⟩
    have hlt : inUse.ncard < (Set.univ : Set (Fin n)).ncard := by
      refine Set.ncard_lt_ncard ⟨Set.subset_univ _, fun h => ?_⟩
      exact Bool.false_ne_true ((free_eq_some.mp hi).1.symm.trans (h (Set.mem_univ i)))
    rwa [Set.ncard_univ, Nat.card_fin] at hlt
  · intro hlt
    by_contra hno
    have hall : inUse = Set.univ := by
      ext i
      simp only [Set.mem_ofPred_eq, Set.mem_univ, iff_true, inUse]
      by_contra hi
      exact hno (exists_free (by simpa using hi))
    rw [hall, Set.ncard_univ, Nat.card_fin] at hlt
    exact lt_irrefl n hlt

-- A search is reasoned about through the lemmas above, never by running it on a symbolic table.
attribute [irreducible] find free

end Ryvo.Table
