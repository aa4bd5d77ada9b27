import Mathlib.Algebra.BigOperators.Fin
import Mathlib.Algebra.BigOperators.Group.List.Basic
import Mathlib.Algebra.Order.BigOperators.Group.Finset

/-!
# Support — Sums

Sums over a finite index that change at one place, and sums that a list of keyed amounts spreads over an index.

* `sum_update`: the sum after one value is overwritten.
* `flatMap_filter_perm`: sorting a list by key loses nothing.
* `sum_keyed`: the amounts of a list, sorted by key and summed over all keys, are the amounts of the list.

Nothing here names a program.
-/

namespace Ryvo

open Finset

variable {ι κ α M : Type} [Fintype ι] [DecidableEq ι] [AddCommMonoid M]

/-- Overwriting one value trades the old one for the new one. -/
theorem sum_update (f : ι → M) (i : ι) (x : M) :
    (∑ j, Function.update f i x j) + f i = (∑ j, f j) + x := by
  rw [← add_sum_erase univ f (mem_univ i), ← add_sum_erase univ (Function.update f i x) (mem_univ i),
    Function.update_self]
  have h : ∑ j ∈ univ.erase i, Function.update f i x j = ∑ j ∈ univ.erase i, f j :=
    sum_congr rfl fun j hj => Function.update_of_ne (ne_of_mem_erase hj) _ _
  rw [h, add_assoc, add_comm x, add_comm (f i)]

omit [DecidableEq ι] in
theorem le_sum (f : ι → Nat) (i : ι) : f i ≤ ∑ j, f j :=
  single_le_sum (fun _ _ => Nat.zero_le _) (mem_univ i)

/-- The amounts of a list whose key is `i`. -/
def keyed (key : α → ι) (f : α → M) (l : List α) (i : ι) : M :=
  (l.map fun a => if key a = i then f a else 0).sum

omit [Fintype ι] in
@[simp] theorem keyed_nil (key : α → ι) (f : α → M) (i : ι) : keyed key f [] i = 0 := rfl

omit [Fintype ι] in
@[simp] theorem keyed_cons (key : α → ι) (f : α → M) (a : α) (l : List α) (i : ι) :
    keyed key f (a :: l) i = (if key a = i then f a else 0) + keyed key f l i := by
  simp [keyed]

omit [Fintype ι] in
theorem keyed_append (key : α → ι) (f : α → M) (l l' : List α) (i : ι) :
    keyed key f (l ++ l') i = keyed key f l i + keyed key f l' i := by
  simp [keyed]

omit [Fintype ι] in
theorem keyed_perm {key : α → ι} {f : α → M} {l l' : List α} (h : l.Perm l') (i : ι) :
    keyed key f l i = keyed key f l' i :=
  (h.map _).sum_eq

omit [Fintype ι] in
theorem keyed_congr {key : α → ι} {f g : α → M} {l : List α} (h : ∀ a ∈ l, f a = g a) (i : ι) :
    keyed key f l i = keyed key g l i := by
  unfold keyed
  congr 1
  exact List.map_congr_left fun a ha => by rw [h a ha]

omit [Fintype ι] in
theorem keyed_eq_zero {key : α → ι} {f : α → M} {l : List α} {i : ι} (h : ∀ a ∈ l, key a ≠ i) :
    keyed key f l i = 0 := by
  induction l with
  | nil => rfl
  | cons a l ih =>
      rw [keyed_cons, if_neg (h a (by simp)), zero_add, ih fun b hb => h b (List.mem_cons_of_mem _ hb)]

omit [Fintype ι] in
theorem keyed_le_sum (key : α → ι) (f : α → Nat) (l : List α) (i : ι) :
    keyed key f l i ≤ (l.map f).sum := by
  induction l with
  | nil => simp
  | cons a l ih =>
      rw [keyed_cons, List.map_cons, List.sum_cons]
      split <;> omega

/-- A key that comes up once carries its own amount. -/
theorem keyed_of_mem {key : α → κ} [DecidableEq κ] {f : α → M} {l : List α} {a : α}
    (hn : (l.map key).Nodup) (ha : a ∈ l) : keyed key f l (key a) = f a := by
  induction l with
  | nil => simp at ha
  | cons b l ih =>
      simp only [List.map_cons, List.nodup_cons, List.mem_map, not_exists, not_and] at hn
      rcases List.mem_cons.mp ha with rfl | ha
      · rw [keyed_cons, if_pos rfl, keyed_eq_zero fun c hc => hn.1 c hc, add_zero]
      · have hne : key b ≠ key a := fun e => hn.1 a ha e.symm
        rw [keyed_cons, if_neg hne, zero_add, ih hn.2 ha]

omit [Fintype ι] in
/-- Over different keys, no more than everything. -/
theorem sum_keyed_le (key : α → ι) (f : α → Nat) (l : List α) {ks : List ι} (hn : ks.Nodup) :
    (ks.map (keyed key f l)).sum ≤ (l.map f).sum := by
  induction l with
  | nil =>
      rw [List.map_congr_left (g := fun _ => 0) fun k _ => keyed_nil key f k]
      simp
  | cons a l ih =>
      have hone : (ks.map fun k => if key a = k then f a else 0).sum ≤ f a := by
        by_cases hm : key a ∈ ks
        · have hk : (ks.map id).Nodup := by simpa using hn
          have := keyed_of_mem (f := fun _ => f a) hk hm
          simp only [keyed, id, eq_comm (b := key a)] at this
          exact this.le
        · rw [List.map_congr_left (g := fun _ => 0) fun k hk => if_neg fun e => hm (by rwa [e])]
          simp
      have hsum : (ks.map (keyed key f (a :: l))).sum
          = (ks.map fun k => if key a = k then f a else 0).sum + (ks.map (keyed key f l)).sum := by
        rw [← List.sum_map_add, List.map_congr_left fun k _ => keyed_cons key f a l k]
      rw [hsum, List.map_cons, List.sum_cons]
      omega

/-- A list sorted into the classes of `key` is the list again. -/
theorem flatMap_filter_perm [DecidableEq α] [DecidableEq κ] {key : α → κ} {l : List α} {ks : List κ}
    (hk : ks.Nodup) (h : ∀ a ∈ l, key a ∈ ks) :
    (ks.flatMap fun k => l.filter fun a => key a = k).Perm l := by
  refine List.perm_iff_count.mpr fun a => ?_
  have hcount : ∀ k, (l.filter fun a => key a = k).count a
      = if k = key a then l.count a else 0 := fun k => by
    split
    · subst k
      exact List.count_filter (by simp)
    · rename_i hne
      exact List.count_eq_zero.mpr fun hm => by
        have hk : key a = k := by simpa using (List.mem_filter.mp hm).2
        exact hne hk.symm
  rw [List.count_flatMap]
  have hsum : (ks.map (List.count a ∘ fun k => l.filter fun a => key a = k)).sum
      = keyed id (fun _ => l.count a) ks (key a) := by
    simp only [keyed, Function.comp_def, hcount, id]
  rw [hsum]
  by_cases ha : a ∈ l
  · have hm : key a ∈ ks := h a ha
    have hn : (ks.map id).Nodup := by simpa using hk
    exact keyed_of_mem hn hm
  · rw [List.count_eq_zero.mpr ha]
    simp [keyed]

/-- Summed over all keys, the amounts of the list. -/
theorem sum_keyed (key : α → ι) (f : α → M) (l : List α) : ∑ i, keyed key f l i = (l.map f).sum := by
  induction l with
  | nil => simp
  | cons a l ih => simp [sum_add_distrib, ih]

/-- Summed over the second key, the amounts sorted by the first. -/
theorem sum_keyed_pair [DecidableEq κ] (key : α → κ) (key' : α → ι) (f : α → M) (l : List α) (k : κ) :
    ∑ i, keyed (fun a => (key a, key' a)) f l (k, i) = keyed key f l k := by
  induction l with
  | nil => simp
  | cons a l ih =>
      simp only [keyed_cons, sum_add_distrib, ih, Prod.mk.injEq]
      by_cases h : key a = k <;> simp [h]

end Ryvo
