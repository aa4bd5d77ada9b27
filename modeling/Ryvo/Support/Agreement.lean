import Ryvo.Support.Outcome

/-!
# Support — Agreement

Two fallible computations agree when both fail, and with the same error, or both succeed, and their results are related.  A program agrees with what it is to do by agreeing with it statement by statement (`Agrees.bind`).

Nothing here names a program.
-/

namespace Ryvo

variable {ε α β γ δ : Type}

/-- Both fail with one error, or both succeed with related results. -/
inductive Agrees (R : α → β → Prop) : Except ε α → Except ε β → Prop
  | error (e : ε) : Agrees R (.error e) (.error e)
  | ok {a : α} {b : β} : R a b → Agrees R (.ok a) (.ok b)

namespace Agrees

variable {R R' : α → β → Prop} {S : γ → δ → Prop} {x : Except ε α} {y : Except ε β} {a : α} {e : ε}

theorem refl (x : Except ε α) : Agrees Eq x x := by
  cases x with
  | error e => exact .error e
  | ok a => exact .ok rfl

/-- With equal results they are equal. -/
theorem eq {x y : Except ε α} (h : Agrees Eq x y) : x = y := by
  cases h with
  | error e => rfl
  | ok h => rw [h]

theorem bind {f : α → Except ε γ} {g : β → Except ε δ} (h : Agrees R x y)
    (hf : ∀ a b, x = .ok a → R a b → Agrees S (f a) (g b)) : Agrees S (x >>= f) (y >>= g) := by
  cases h with
  | error e => exact .error e
  | ok hr => exact hf _ _ rfl hr

/-- A statement both sides share. -/
theorem bind_same {f : α → Except ε γ} {g : α → Except ε δ}
    (hf : ∀ a, x = .ok a → Agrees S (f a) (g a)) : Agrees S (x >>= f) (x >>= g) :=
  (refl x).bind fun a _ ha hab => hab ▸ hf a ha

theorem map {f : α → γ} {g : β → δ} (h : Agrees R x y) (hf : ∀ a b, R a b → S (f a) (g b)) :
    Agrees S (f <$> x) (g <$> y) := by
  cases h with
  | error e => exact .error e
  | ok hr => exact .ok (hf _ _ hr)

theorem map_left {f : α → γ} {S : γ → β → Prop} (h : Agrees R x y) (hf : ∀ a b, R a b → S (f a) b) :
    Agrees S (f <$> x) y := by
  cases h with
  | error e => exact .error e
  | ok hr => exact .ok (hf _ _ hr)

/-- Agreement on a function of the results. -/
theorem eq_map {f : α → β} (h : Agrees R x y) (hf : ∀ a b, R a b → f a = b) : y = f <$> x := by
  cases h with
  | error e => rfl
  | ok hr => exact congrArg _ (hf _ _ hr).symm

/-- Two loops over one list agree when their rounds do. -/
theorem foldlM {ι : Type} {f : α → ι → Except ε α} {g : β → ι → Except ε β} {l : List ι} {b : β}
    (hf : ∀ a b i, i ∈ l → R a b → Agrees R (f a i) (g b i)) (h : R a b) :
    Agrees R (l.foldlM f a) (l.foldlM g b) := by
  induction l generalizing a b with
  | nil => exact .ok h
  | cons i l ih =>
      rw [List.foldlM_cons, List.foldlM_cons]
      refine (hf a b i List.mem_cons_self h).bind fun a' b' _ h' => ?_
      exact ih (fun a b i hi => hf a b i (List.mem_cons_of_mem _ hi)) h'

theorem eq_ok (h : Agrees R x y) (hx : x = .ok a) : ∃ b, y = .ok b ∧ R a b := by
  subst hx
  cases h with
  | ok hr => exact ⟨_, rfl, hr⟩

theorem eq_error (h : Agrees R x y) (hx : x = .error e) : y = .error e := by
  subst hx
  cases h with
  | error e => rfl

end Agrees

end Ryvo
