import Mathlib.Tactic.Ring

/-!
# Support — Outcome

Fallible code.  A handler returns an `Except`, and a proof about it starts from `handler … = .ok r`.  The lemmas here take such an equation apart one statement at a time, so that no later proof unfolds the monad:

* `Except.bind_eq_ok` for `let x ← …`, `require_eq_ok` for a checked condition, `okOr_eq_ok` for an `Option` with an error for its absence;
* `Except.bind_eq_error` and its companions for a failure: which statement failed, and with which error;
* `Avoids` for a failure that does not happen: no statement fails with the error;
* `mapM` and `foldM` over a list, at the head of the list;
* `checkedAdd`, `checkedSub`, `checkedMul` for the unsigned machine integers, `signed` for the signed ones, each with the condition under which it succeeds.

Nothing here names a program.
-/

namespace Ryvo

variable {ε α β γ : Type}

/-- `if !cond { return Err(e) }`. -/
def require (cond : Prop) [Decidable cond] (e : ε) : Except ε Unit :=
  if cond then .ok () else .error e

/-- `option.ok_or(e)`. -/
def okOr (o : Option α) (e : ε) : Except ε α :=
  match o with
  | some a => .ok a
  | none => .error e

/-! ### Taking a success apart -/

@[simp] theorem Except.bind_eq_ok {x : Except ε α} {f : α → Except ε β} {b : β} :
    (x >>= f) = .ok b ↔ ∃ a, x = .ok a ∧ f a = .ok b := by
  cases x <;> simp [bind, Except.bind]

/-- What runs after a success need only be compared there. -/
theorem Except.bind_congr_ok {x : Except ε α} {f g : α → Except ε β}
    (h : ∀ a, x = .ok a → f a = g a) : x >>= f = x >>= g := by
  cases x with
  | error e => rfl
  | ok a => exact h a rfl

@[simp] theorem Except.map_eq_ok {x : Except ε α} {f : α → β} {b : β} :
    (f <$> x) = .ok b ↔ ∃ a, x = .ok a ∧ f a = b := by
  cases x <;> simp [Functor.map, Except.map]

@[simp] theorem Except.pure_eq_ok {a b : α} : (pure a : Except ε α) = .ok b ↔ a = b := by
  simp [pure, Except.pure]

@[simp] theorem Except.throw_eq_ok {e : ε} {b : α} : (throw e : Except ε α) = .ok b ↔ False := by
  simp [throw, throwThe, MonadExceptOf.throw]

@[simp] theorem require_eq_ok {cond : Prop} [Decidable cond] {e : ε} {u : Unit} :
    require cond e = .ok u ↔ cond := by
  unfold require
  split <;> simp_all

@[simp] theorem okOr_eq_ok {o : Option α} {e : ε} {a : α} : okOr o e = .ok a ↔ o = some a := by
  cases o <;> simp [okOr]

@[simp] theorem Except.ok_bind (a : α) (f : α → Except ε β) : ((.ok a : Except ε α) >>= f) = f a :=
  rfl

theorem Except.toOption_eq_some {x : Except ε α} {a : α} : x.toOption = some a ↔ x = .ok a := by
  cases x <;> simp [Except.toOption]

/-! ### Taking a failure apart -/

theorem Except.bind_eq_error {x : Except ε α} {f : α → Except ε β} {e : ε} :
    (x >>= f) = .error e ↔ x = .error e ∨ ∃ a, x = .ok a ∧ f a = .error e := by
  cases x <;> simp [bind, Except.bind]

theorem Except.pure_eq_error {a : α} {e : ε} : (pure a : Except ε α) = .error e ↔ False := by
  simp [pure, Except.pure]

theorem require_eq_error {cond : Prop} [Decidable cond] {e e' : ε} :
    require cond e' = .error e ↔ ¬ cond ∧ e' = e := by
  unfold require
  split <;> simp_all

theorem okOr_eq_error {o : Option α} {e e' : ε} : okOr o e' = .error e ↔ o = none ∧ e' = e := by
  cases o <;> simp [okOr]

theorem require_of {cond : Prop} [Decidable cond] {e : ε} (h : cond) :
    require cond e = .ok () := require_eq_ok.mpr h

/-! ### Lists -/

@[simp] theorem mapM_nil_eq_ok {f : α → Except ε β} {r : List β} :
    [].mapM f = .ok r ↔ r = [] := by
  rw [List.mapM_nil, Except.pure_eq_ok, eq_comm]

theorem mapM_cons_eq_ok {f : α → Except ε β} {a : α} {l : List α} {r : List β} :
    (a :: l).mapM f = .ok r ↔ ∃ b bs, f a = .ok b ∧ l.mapM f = .ok bs ∧ r = b :: bs := by
  simp only [List.mapM_cons, Except.bind_eq_ok, Except.pure_eq_ok, eq_comm (a := r)]
  exact ⟨fun ⟨b, hb, bs, hbs, h⟩ => ⟨b, bs, hb, hbs, h⟩, fun ⟨b, bs, hb, hbs, h⟩ => ⟨b, hb, bs, hbs, h⟩⟩

/-- A loop of checks succeeds when every check does. -/
theorem mapM_unit_eq_ok {f : α → Except ε Unit} {l : List α} :
    (∃ r, l.mapM f = .ok r) ↔ ∀ a ∈ l, f a = .ok () := by
  induction l with
  | nil => simp
  | cons a l ih =>
      simp only [mapM_cons_eq_ok, List.forall_mem_cons, ← ih]
      constructor
      · rintro ⟨_, _, bs, ha, hbs, -⟩
        exact ⟨ha, bs, hbs⟩
      · rintro ⟨ha, bs, hbs⟩
        exact ⟨_, (), bs, ha, hbs, rfl⟩

/-- Every result is that of an element. -/
theorem mem_of_mapM_eq_ok {f : α → Except ε β} {l : List α} {r : List β} (h : l.mapM f = .ok r)
    {b : β} (hb : b ∈ r) : ∃ a ∈ l, f a = .ok b := by
  induction l generalizing r with
  | nil =>
      obtain rfl := mapM_nil_eq_ok.mp h
      cases hb
  | cons a l ih =>
      obtain ⟨b₀, bs, hb₀, hbs, rfl⟩ := mapM_cons_eq_ok.mp h
      rcases List.mem_cons.mp hb with rfl | hb
      · exact ⟨a, .head _, hb₀⟩
      · obtain ⟨a', ha', hf⟩ := ih hbs hb
        exact ⟨a', .tail _ ha', hf⟩

/-- A loop none of whose iterations fails. -/
theorem mapM_eq_ok_map {f : α → Except ε β} {g : α → β} {l : List α} (h : ∀ a ∈ l, f a = .ok (g a)) :
    l.mapM f = .ok (l.map g) := by
  induction l with
  | nil => rfl
  | cons a l ih =>
      obtain ⟨ha, hl⟩ := List.forall_mem_cons.mp h
      exact mapM_cons_eq_ok.mpr ⟨_, _, ha, ih hl, rfl⟩

@[simp] theorem foldlM_nil_eq_ok {f : β → α → Except ε β} {b r : β} :
    [].foldlM f b = .ok r ↔ b = r := by
  simp

theorem foldlM_cons_eq_ok {f : β → α → Except ε β} {b r : β} {a : α} {l : List α} :
    (a :: l).foldlM f b = .ok r ↔ ∃ b', f b a = .ok b' ∧ l.foldlM f b' = .ok r := by
  simp

/-- A property every iteration keeps holds after the loop. -/
theorem foldlM_inv {P : β → Prop} {f : β → α → Except ε β} {l : List α} {b r : β}
    (hb : P b) (step : ∀ b a b', a ∈ l → P b → f b a = .ok b' → P b')
    (h : l.foldlM f b = .ok r) : P r := by
  induction l generalizing b with
  | nil => exact foldlM_nil_eq_ok.mp h ▸ hb
  | cons a l ih =>
      obtain ⟨b', hb', h⟩ := foldlM_cons_eq_ok.mp h
      exact ih (step b a b' (by simp) hb hb')
        (fun b a b' m => step b a b' (List.mem_cons_of_mem _ m)) h

/-- A property of what has been gone through, which every iteration extends. -/
theorem foldlM_snoc {P : List α → β → Prop} {f : β → α → Except ε β} {l d : List α} {b r : β}
    (hb : P d b) (step : ∀ d a b b', P d b → f b a = .ok b' → P (d ++ [a]) b')
    (h : l.foldlM f b = .ok r) : P (d ++ l) r := by
  induction l generalizing d b with
  | nil =>
      obtain rfl := foldlM_nil_eq_ok.mp h
      rwa [List.append_nil]
  | cons a l ih =>
      obtain ⟨b', hb', h⟩ := foldlM_cons_eq_ok.mp h
      have := ih (step d a b b' hb hb') h
      rwa [List.append_assoc, List.singleton_append] at this

/-- One more iteration. -/
theorem foldlM_snoc_eq_ok {f : β → α → Except ε β} {b r : β} {a : α} {l : List α} :
    (l ++ [a]).foldlM f b = .ok r ↔ ∃ b', l.foldlM f b = .ok b' ∧ f b' a = .ok r := by
  simp

/-! ### Machine integers -/

/-- `u64::MAX + 1`. -/
abbrev u64Bound : Nat := 2 ^ 64

/-- `u128::MAX + 1`. -/
abbrev u128Bound : Nat := 2 ^ 128

/-- `a.checked_add(b)` for an unsigned type of `bound` values. -/
def checkedAdd (bound : Nat) (a b : Nat) (e : ε) : Except ε Nat :=
  if a + b < bound then .ok (a + b) else .error e

/-- `a.checked_mul(b)` for an unsigned type of `bound` values. -/
def checkedMul (bound : Nat) (a b : Nat) (e : ε) : Except ε Nat :=
  if a * b < bound then .ok (a * b) else .error e

/-- `a.checked_sub(b)` for an unsigned type. -/
def checkedSub (a b : Nat) (e : ε) : Except ε Nat :=
  if b ≤ a then .ok (a - b) else .error e

/-- `T::try_from(a)` into an unsigned type of `bound` values. -/
def tryFrom (bound : Nat) (a : Nat) (e : ε) : Except ε Nat :=
  if a < bound then .ok a else .error e

/-- The value of a checked operation on a signed type of `w + 1` bits. -/
def signed (w : Nat) (a : Int) (e : ε) : Except ε Int :=
  if -(2 ^ w) ≤ a ∧ a < 2 ^ w then .ok a else .error e

@[simp] theorem checkedAdd_eq_ok {bound a b c : Nat} {e : ε} :
    checkedAdd bound a b e = .ok c ↔ c = a + b ∧ a + b < bound := by
  unfold checkedAdd
  split <;> simp_all [eq_comm]

@[simp] theorem checkedMul_eq_ok {bound a b c : Nat} {e : ε} :
    checkedMul bound a b e = .ok c ↔ c = a * b ∧ a * b < bound := by
  unfold checkedMul
  split <;> simp_all [eq_comm]

@[simp] theorem checkedSub_eq_ok {a b c : Nat} {e : ε} :
    checkedSub a b e = .ok c ↔ c = a - b ∧ b ≤ a := by
  unfold checkedSub
  split <;> simp_all [eq_comm]

theorem checkedAdd_eq_error {bound a b : Nat} {e e' : ε} :
    checkedAdd bound a b e' = .error e ↔ ¬ a + b < bound ∧ e' = e := by
  unfold checkedAdd
  split <;> simp_all

theorem checkedMul_eq_error {bound a b : Nat} {e e' : ε} :
    checkedMul bound a b e' = .error e ↔ ¬ a * b < bound ∧ e' = e := by
  unfold checkedMul
  split <;> simp_all

theorem checkedSub_eq_error {a b : Nat} {e e' : ε} :
    checkedSub a b e' = .error e ↔ ¬ b ≤ a ∧ e' = e := by
  unfold checkedSub
  split <;> simp_all

theorem tryFrom_eq_error {bound a : Nat} {e e' : ε} :
    tryFrom bound a e' = .error e ↔ ¬ a < bound ∧ e' = e := by
  unfold tryFrom
  split <;> simp_all

@[simp] theorem tryFrom_eq_ok {bound a c : Nat} {e : ε} :
    tryFrom bound a e = .ok c ↔ c = a ∧ a < bound := by
  unfold tryFrom
  split <;> rename_i h
  · simp [h, eq_comm]
  · simp [h]

@[simp] theorem signed_eq_ok {w : Nat} {a c : Int} {e : ε} :
    signed w a e = .ok c ↔ c = a ∧ -(2 ^ w) ≤ a ∧ a < 2 ^ w := by
  unfold signed
  split <;> rename_i h
  · simp [h, eq_comm]
  · simp [h]

/-! ### Failures that do not happen -/

/-- The code does not fail with this error. -/
def Avoids (e : ε) (x : Except ε α) : Prop := x ≠ .error e

section Avoids

variable {e e' : ε} {x y : Except ε α} {f : α → Except ε β} {cond : Prop} [Decidable cond]

@[simp] theorem avoids_bind : Avoids e (x >>= f) ↔ Avoids e x ∧ ∀ a, x = .ok a → Avoids e (f a) := by
  simp only [Avoids, ne_eq, Except.bind_eq_error, not_or, not_exists, not_and]

@[simp] theorem avoids_map {f : α → β} : Avoids e (f <$> x) ↔ Avoids e x := by
  cases x <;> simp [Avoids, Functor.map, Except.map]

@[simp] theorem avoids_ok (a : α) : Avoids e (.ok a : Except ε α) := fun h => by cases h

@[simp] theorem avoids_pure (a : α) : Avoids e (pure a : Except ε α) := fun h => by cases h

@[simp] theorem avoids_ite :
    Avoids e (if cond then x else y) ↔ (cond → Avoids e x) ∧ (¬ cond → Avoids e y) := by
  split <;> simp_all

@[simp] theorem avoids_require : Avoids e (require cond e') ↔ (e' = e → cond) := by
  rw [Avoids, ne_eq, require_eq_error]
  tauto

@[simp] theorem avoids_okOr {o : Option α} : Avoids e (okOr o e') ↔ (e' = e → o ≠ none) := by
  rw [Avoids, ne_eq, okOr_eq_error]
  tauto

variable {bound a b : Nat}

@[simp] theorem avoids_checkedAdd : Avoids e (checkedAdd bound a b e') ↔ (e' = e → a + b < bound) := by
  rw [Avoids, ne_eq, checkedAdd_eq_error]
  tauto

@[simp] theorem avoids_checkedMul : Avoids e (checkedMul bound a b e') ↔ (e' = e → a * b < bound) := by
  rw [Avoids, ne_eq, checkedMul_eq_error]
  tauto

@[simp] theorem avoids_checkedSub : Avoids e (checkedSub a b e') ↔ (e' = e → b ≤ a) := by
  rw [Avoids, ne_eq, checkedSub_eq_error]
  tauto

@[simp] theorem avoids_tryFrom : Avoids e (tryFrom bound a e') ↔ (e' = e → a < bound) := by
  rw [Avoids, ne_eq, tryFrom_eq_error]
  tauto

end Avoids

end Ryvo
