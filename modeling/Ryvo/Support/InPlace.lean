import Ryvo.Support.Layout
import Ryvo.Support.Outcome

/-!
# Support — In place

Code that edits a state in place and may stop with an error.  Nothing is rolled back: what has been written by then stays.

`outcome` is the other kind of code, which returns the new state and keeps the old one where it fails.  The lemmas say, statement by statement, when code of the first kind is an `outcome` (`read_bind`, `write_bind`); for that it must not fail once it has written.

* `outcome_part` carries this from a part of a stored value to the whole of it.
* `findSomeM?_of_find` is a loop that acts on the first index it is looking for.

Nothing here names a program.
-/

namespace Ryvo

/-- A result, and the state that is left. -/
def InPlace (ε σ α : Type) : Type := σ → Except ε α × σ

namespace InPlace

variable {ε σ τ α γ : Type} {s s' : σ} {a : α} {e : ε}

/-- Go on where the first part succeeds, with the state it left. -/
def andThen (x : InPlace ε σ α) (f : α → InPlace ε σ γ) : InPlace ε σ γ := fun s =>
  match x s with
  | (.ok a, s) => f a s
  | (.error e, s) => (.error e, s)

instance : Monad (InPlace ε σ) where
  pure a s := (.ok a, s)
  bind := andThen

/-- Compute something from the state. -/
def read (f : σ → Except ε α) : InPlace ε σ α := fun s => (f s, s)

/-- Replace the state, or fail and leave it. -/
def write (f : σ → Except ε σ) : InPlace ε σ Unit := fun s =>
  match f s with
  | .ok s' => (.ok (), s')
  | .error e => (.error e, s)

/-- A computation that does not look at the state. -/
def lift (x : Except ε α) : InPlace ε σ α := fun s => (x, s)

theorem pure_apply : (pure a : InPlace ε σ α) s = (.ok a, s) := rfl

theorem bind_apply {x : InPlace ε σ α} {f : α → InPlace ε σ γ} (h : x s = (.ok a, s')) :
    (x >>= f) s = f a s' := by
  simp only [bind, andThen, h]

theorem bind_apply_error {x : InPlace ε σ α} {f : α → InPlace ε σ γ} (h : x s = (.error e, s')) :
    (x >>= f) s = (.error e, s') := by
  simp only [bind, andThen, h]

theorem read_apply {f : σ → Except ε α} : read f s = (f s, s) := rfl

/-- A read that succeeds. -/
theorem read_then {f : σ → Except ε α} {g : α → InPlace ε σ γ} {r : Except ε γ × σ}
    (hf : f s = .ok a) (hg : g a s = r) : (read f >>= g) s = r :=
  (bind_apply (congrArg (·, s) hf)).trans hg

theorem lift_then {x : Except ε α} {g : α → InPlace ε σ γ} {r : Except ε γ × σ} (hx : x = .ok a)
    (hg : g a s = r) : (lift x >>= g) s = r := read_then (f := fun _ => x) hx hg

theorem write_apply {f : σ → Except ε σ} (h : f s = .ok s') : write f s = (.ok (), s') := by
  simp only [write, h]

/-- What code that returns the new state leaves, and its result; `enc` is how a state is stored. -/
def outcome (enc : τ → σ) (t : τ) : Except ε (τ × α) → Except ε α × σ
  | .ok (t', a) => (.ok a, enc t')
  | .error e => (.error e, enc t)

variable {enc : τ → σ} {t t' : τ}

/-- Code that reads first goes on like code that computes the same first. -/
theorem read_bind {f : σ → Except ε α} {g : α → InPlace ε σ γ} {x : Except ε α}
    {k : α → Except ε (τ × γ)} (hf : f s = x) (hs : s = enc t)
    (hg : ∀ a, x = .ok a → g a s = outcome enc t (k a)) :
    (read f >>= g) s = outcome enc t (x >>= k) := by
  subst hs
  cases x with
  | error e => exact bind_apply_error (congrArg (·, enc t) hf)
  | ok a => exact (bind_apply (congrArg (·, enc t) hf)).trans (hg a rfl)

theorem lift_bind {x : Except ε α} {g : α → InPlace ε σ γ} {k : α → Except ε (τ × γ)}
    (hs : s = enc t) (hg : ∀ a, x = .ok a → g a s = outcome enc t (k a)) :
    (lift x >>= g) s = outcome enc t (x >>= k) := read_bind rfl hs hg

theorem write_bind {f : σ → Except ε σ} {g : Unit → InPlace ε σ γ} {r : Except ε (τ × γ)}
    (hf : f s = .ok s') (hg : g () s' = outcome enc t r) :
    (write f >>= g) s = outcome enc t r := (bind_apply (write_apply hf)).trans hg

theorem outcome_ok : outcome enc t (.ok (t', a) : Except ε (τ × α)) = (.ok a, enc t') := rfl

/-- The last write. -/
theorem write_last {f : σ → Except ε σ} (hf : f s = .ok (enc t')) :
    write f s = outcome enc t (.ok (t', ())) := write_apply hf

theorem outcome_map {x : InPlace ε σ α} {r : Except ε (τ × α)} (g : α → γ)
    (hx : x s = outcome enc t r) :
    (x >>= fun a => pure (g a)) s = outcome enc t ((fun y => (y.1, g y.2)) <$> r) := by
  cases r with
  | error e => exact bind_apply_error hx
  | ok r => exact bind_apply hx

/-- An error leaves the state. -/
theorem outcome_of_error {r : Except ε (τ × α)} (h : (outcome enc t r).1 = .error e) :
    (outcome enc t r).2 = enc t := by
  cases r with
  | ok r => cases h
  | error e => rfl

/-! ### Parts -/

section
open Layout

variable {β φ : Type} {enc : τ → List β} {sub : φ → List β} {get : τ → φ} {set : τ → φ → τ} {o : Nat}

/-- Code that edits a part in its frame edits the value. -/
theorem outcome_part (h : Part enc sub get set o) (t : τ) {x : InPlace ε (List β) α}
    {f : φ → Except ε (φ × α)} (hx : ∀ a c, a.length = o →
      x (framed a c sub (get t)) = outcome (framed a c sub) (get t) (f (get t))) :
    x (enc t) = outcome enc t (do
      let (y, r) ← f (get t)
      pure (set t y, r)) := by
  obtain ⟨a, c, ha, he, hset⟩ := h.exists_framed t
  rw [he, hx a c ha]
  cases f (get t) with
  | error e => exact Prod.ext rfl he.symm
  | ok r => exact Prod.ext rfl (hset r.1).symm

end

/-! ### Loops -/

section
variable {ι : Type} {l : List ι} {i : ι} {p : ι → Bool}

/-- A search that only looks. -/
theorem findSomeM?_ok {f : ι → Except ε (Option α)} {g : ι → α}
    (h : ∀ i, f i = .ok (if p i then some (g i) else none)) :
    l.findSomeM? f = .ok ((l.find? p).map g) := by
  induction l with
  | nil => rfl
  | cons j l ih =>
      rw [List.findSomeM?_cons, h, Except.ok_bind]
      by_cases hj : p j = true
      · simp [hj, pure, Except.pure]
      · simpa [hj] using ih

/-- A loop that finds nothing to do. -/
theorem findSomeM?_of_none {f : ι → InPlace ε σ (Option α)} (h : l.find? p = none)
    (hskip : ∀ j, p j = false → f j s = (.ok none, s)) : l.findSomeM? f s = (.ok none, s) := by
  induction l with
  | nil => rfl
  | cons j l ih =>
      rw [List.find?_eq_none, List.forall_mem_cons, ← List.find?_eq_none] at h
      rw [List.findSomeM?_cons]
      exact (bind_apply (hskip j (by simpa using h.1))).trans (ih h.2)

/-- A loop that passes over what it is not looking for, and returns at the first it is. -/
theorem findSomeM?_of_find {f : ι → InPlace ε σ (Option α)} (h : l.find? p = some i)
    (hskip : ∀ j, p j = false → f j s = (.ok none, s)) (hi : f i s = (.ok (some a), s')) :
    l.findSomeM? f s = (.ok (some a), s') := by
  induction l with
  | nil => cases h
  | cons j l ih =>
      rw [List.findSomeM?_cons]
      by_cases hj : p j = true
      · rw [List.find?_cons_of_pos hj] at h
        obtain rfl : j = i := Option.some.inj h
        exact bind_apply hi
      · rw [List.find?_cons_of_neg (by simpa using hj)] at h
        exact (bind_apply (hskip j (by simpa using hj))).trans (ih h)

end

end InPlace

end Ryvo
