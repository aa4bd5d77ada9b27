import Mathlib.Data.List.Basic
import Mathlib.Data.List.Induction
import Mathlib.Data.List.InsertIdx
import Mathlib.Data.List.Nodup
import Mathlib.Data.List.Pairwise
import Mathlib.Order.Lattice

/-!
# Support — Sorted vectors

Vectors kept sorted by a key, no key twice, and searched by halving.

* `binarySearchByKey`: the position of the key, or the position to insert it at.  A position it finds has the key (`binarySearchByKey_ok`); on a sorted vector a key it does not find is not there, and what is before the position is smaller and what is after it larger (`binarySearchByKey_error`).
* `sortedBy_insertIdx`: inserting there keeps the vector sorted.
* `firsts`: the elements of a list, each where it first comes up.

Nothing here names a program.
-/

namespace Ryvo

variable {κ β : Type} [LinearOrder κ] {key : β → κ} {l : List β} {x : κ} {y : β} {i j : Nat}

/-- `slice::binary_search_by_key` between two positions; the first argument bounds the number of rounds. -/
def searchBetween (key : β → κ) (l : List β) (x : κ) : Nat → Nat → Nat → Except Nat Nat
  | 0, left, _ => .error left
  | n + 1, left, right =>
      let mid := left + (right - left) / 2
      match if left < right then l[mid]? else none with
      | none => .error left
      | some y =>
          if key y = x then .ok mid
          else if key y < x then searchBetween key l x n (mid + 1) right
          else searchBetween key l x n left mid

/-- `slice::binary_search_by_key`: `Ok` of a position, or `Err` of the one to insert at. -/
def binarySearchByKey (key : β → κ) (l : List β) (x : κ) : Except Nat Nat :=
  searchBetween key l x l.length 0 l.length

/-- Sorted, and no key twice. -/
def SortedBy (key : β → κ) (l : List β) : Prop := l.Pairwise (key · < key ·)

/-- What is before the position has a smaller key, and what is from it on a larger one. -/
structure Splits (key : β → κ) (l : List β) (x : κ) (i : Nat) : Prop where
  le : i ≤ l.length
  before : ∀ j y, l[j]? = some y → j < i → key y < x
  after : ∀ j y, l[j]? = some y → i ≤ j → x < key y

theorem SortedBy.lt (hl : SortedBy key l) {y' : β} (hy : l[i]? = some y) (hy' : l[j]? = some y')
    (h : i < j) : key y < key y' := by
  obtain ⟨hi, rfl⟩ := List.getElem?_eq_some_iff.mp hy
  obtain ⟨hj, rfl⟩ := List.getElem?_eq_some_iff.mp hy'
  exact List.pairwise_iff_getElem.mp hl i j hi hj h

theorem SortedBy.le (hl : SortedBy key l) {y' : β} (hy : l[i]? = some y) (hy' : l[j]? = some y')
    (h : i ≤ j) : key y ≤ key y' := by
  rcases Nat.lt_or_eq_of_le h with h | rfl
  · exact (hl.lt hy hy' h).le
  · exact (congrArg key (Option.some.inj (hy.symm.trans hy'))).le

/-! ### The search -/

theorem searchBetween_ok {n left right : Nat} (h : searchBetween key l x n left right = .ok i) :
    ∃ y, l[i]? = some y ∧ key y = x := by
  induction n generalizing left right with
  | zero => cases h
  | succ n ih =>
      simp only [searchBetween] at h
      split at h
      · cases h
      · rename_i y hy
        split at h
        · rename_i hkey
          cases h
          split at hy
          · exact ⟨y, hy, hkey⟩
          · cases hy
        split at h
        · exact ih h
        · exact ih h

/-- What is found is there. -/
theorem binarySearchByKey_ok (h : binarySearchByKey key l x = .ok i) :
    ∃ y, l[i]? = some y ∧ key y = x := searchBetween_ok h

/-- The window closes in on the position to insert at. -/
theorem searchBetween_error (hl : SortedBy key l) {n left right : Nat} (hn : right ≤ left + n)
    (hle : left ≤ right) (hright : right ≤ l.length)
    (hb : ∀ j y, l[j]? = some y → j < left → key y < x)
    (ha : ∀ j y, l[j]? = some y → right ≤ j → x < key y)
    (h : searchBetween key l x n left right = .error i) : Splits key l x i := by
  induction n generalizing left right with
  | zero =>
      obtain rfl : left = i := Except.error.inj h
      obtain rfl : left = right := by omega
      exact ⟨hright, hb, ha⟩
  | succ n ih =>
      simp only [searchBetween] at h
      by_cases hlt : left < right
      · have hmid : left + (right - left) / 2 < l.length := by omega
        have hy := List.getElem?_eq_getElem hmid
        rw [if_pos hlt, hy] at h
        dsimp only at h
        split at h
        · cases h
        rename_i hne
        split at h
        · rename_i hless
          refine ih (by omega) (by omega) hright (fun j y hj hlt' => ?_) ha h
          exact (hl.le hj hy (by omega)).trans_lt hless
        · rename_i hnless
          have hgreater := lt_of_le_of_ne (not_lt.mp hnless) (Ne.symm hne)
          refine ih (by omega) (by omega) (Nat.le_of_lt hmid) hb (fun j y hj hle' => ?_) h
          exact hgreater.trans_le (hl.le hy hj hle')
      · rw [if_neg hlt] at h
        obtain rfl : left = i := Except.error.inj h
        obtain rfl : left = right := by omega
        exact ⟨hright, hb, ha⟩

/-- Where a missing key would go. -/
theorem binarySearchByKey_error (hl : SortedBy key l) (h : binarySearchByKey key l x = .error i) :
    Splits key l x i := by
  refine searchBetween_error hl (by omega) (Nat.zero_le _) (Nat.le_refl _)
    (fun j y _ hj => by omega) ?_ h
  intro j y hj hle
  obtain ⟨hlt, -⟩ := List.getElem?_eq_some_iff.mp hj
  omega

theorem Splits.notMem (h : Splits key l x i) : ∀ y ∈ l, key y ≠ x := by
  intro y hy
  obtain ⟨j, hj⟩ := List.mem_iff_getElem?.mp hy
  rcases Nat.lt_or_ge j i with hlt | hge
  · exact (h.before j y hj hlt).ne
  · exact (h.after j y hj hge).ne'

/-- A key of a sorted vector is found, at its only position. -/
theorem binarySearchByKey_of_mem (hl : SortedBy key l) (hy : y ∈ l) :
    ∃ i, binarySearchByKey key l (key y) = .ok i ∧ l[i]? = some y := by
  cases h : binarySearchByKey key l (key y) with
  | error i => exact absurd rfl ((binarySearchByKey_error hl h).notMem y hy)
  | ok i =>
      obtain ⟨y', hy', hkey⟩ := binarySearchByKey_ok h
      obtain ⟨j, hj⟩ := List.mem_iff_getElem?.mp hy
      refine ⟨i, rfl, ?_⟩
      rcases Nat.lt_trichotomy i j with hlt | rfl | hgt
      · exact absurd hkey (hl.lt hy' hj hlt).ne
      · exact hj
      · exact absurd hkey (hl.lt hj hy' hgt).ne'

theorem Splits.tail (h : Splits key (y :: l) x (i + 1)) : Splits key l x i where
  le := Nat.le_of_succ_le_succ h.le
  before j z hz hj := h.before (j + 1) z (by simpa using hz) (by omega)
  after j z hz hj := h.after (j + 1) z (by simpa using hz) (by omega)

/-- Inserting a missing key where it goes keeps the vector sorted. -/
theorem sortedBy_insertIdx (hl : SortedBy key l) (h : Splits key l (key y) i) :
    SortedBy key (l.insertIdx i y) := by
  induction l generalizing i with
  | nil =>
      obtain rfl : i = 0 := by simpa using h.le
      exact List.pairwise_singleton _ _
  | cons z l ih =>
      obtain ⟨hz, hl'⟩ := List.pairwise_cons.mp hl
      cases i with
      | zero =>
          refine List.pairwise_cons.mpr ⟨fun z' hz' => ?_, hl⟩
          obtain ⟨j, hj⟩ := List.mem_iff_getElem?.mp hz'
          exact h.after j z' hj (Nat.zero_le _)
      | succ i =>
          rw [List.insertIdx_succ_cons]
          refine List.pairwise_cons.mpr ⟨fun z' hz' => ?_, ih hl' h.tail⟩
          rcases List.eq_or_mem_of_mem_insertIdx hz' with rfl | hz'
          · exact h.before 0 z rfl (by omega)
          · exact hz z' hz'

/-! ### First appearances -/

section Firsts

variable {α : Type} [DecidableEq α] {as bs : List α} {a : α}

/-- One more element, unless it is there. -/
def addFirst (seen : List α) (a : α) : List α := if a ∈ seen then seen else seen ++ [a]

/-- The elements of a list in the order in which they first come up. -/
def firsts (as : List α) : List α := as.foldl addFirst []

@[simp] theorem firsts_nil : firsts ([] : List α) = [] := rfl

@[simp] theorem firsts_snoc : firsts (as ++ [a]) = addFirst (firsts as) a := by
  simp [firsts, List.foldl_append]

theorem addFirst_of_mem (h : a ∈ as) : addFirst as a = as := if_pos h

theorem addFirst_of_notMem (h : a ∉ as) : addFirst as a = as ++ [a] := if_neg h

theorem mem_addFirst {b : α} : b ∈ addFirst as a ↔ b ∈ as ∨ b = a := by
  unfold addFirst
  split
  case isTrue h => exact ⟨.inl, fun hb => hb.elim id fun e => e ▸ h⟩
  case isFalse => simp

theorem nodup_addFirst (h : as.Nodup) : (addFirst as a).Nodup := by
  unfold addFirst
  split
  case isTrue => exact h
  case isFalse hn =>
    refine List.nodup_append.mpr ⟨h, by simp, ?_⟩
    rintro b hb c hc rfl
    exact hn (List.mem_singleton.mp hc ▸ hb)

omit [DecidableEq α] in
theorem getElem?_snoc {j : Nat} {b : α} :
    (as ++ [a])[j]? = some b ↔ as[j]? = some b ∨ j = as.length ∧ a = b := by
  rcases Nat.lt_trichotomy j as.length with hlt | rfl | hgt
  · simp [List.getElem?_append_left hlt, Nat.ne_of_lt hlt]
  · simp
  · rw [List.getElem?_eq_none (by simp; omega), List.getElem?_eq_none (Nat.le_of_lt hgt)]
    simp [Nat.ne_of_gt hgt]

theorem nodup_firsts : (firsts as).Nodup := by
  induction as using List.reverseRecOn with
  | nil => exact List.nodup_nil
  | append_singleton as a ih =>
      rw [firsts_snoc]
      exact nodup_addFirst ih

theorem mem_firsts : a ∈ firsts as ↔ a ∈ as := by
  induction as using List.reverseRecOn with
  | nil => simp
  | append_singleton as b ih => rw [firsts_snoc, mem_addFirst, ih, List.mem_append, List.mem_singleton]

end Firsts

end Ryvo
