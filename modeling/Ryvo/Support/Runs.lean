import Mathlib.Logic.Basic

/-!
# Support — Runs

Transition systems and their runs.  A run carries its history, the most recent step first, each step as the state it was taken in and the action taken; properties of whole histories are proved by the same induction as invariants.

* `Run.invariant` and `Reachable.invariant`: what holds at the start and is kept by every step holds throughout.
* `Run.history`: the same for a property of the history and the state it led to.
* `Run.suffix`: cutting a history gives a run to the state the later part started in.

Nothing here names a program.
-/

namespace Ryvo

variable {σ α : Type} {init : σ → Prop} {step : σ → α → σ → Prop} {s s' : σ} {a : α}
variable {h : List (σ × α)}

/-- The runs of a system: a history and the state it leads to. -/
inductive Run (init : σ → Prop) (step : σ → α → σ → Prop) : List (σ × α) → σ → Prop
  | start {s : σ} : init s → Run init step [] s
  | next {h : List (σ × α)} {s s' : σ} {a : α} :
      Run init step h s → step s a s' → Run init step ((s, a) :: h) s'

/-- The states some run leads to. -/
def Reachable (init : σ → Prop) (step : σ → α → σ → Prop) (s : σ) : Prop := ∃ h, Run init step h s

theorem Run.reachable (r : Run init step h s) : Reachable init step s := ⟨h, r⟩

theorem Reachable.start (hs : init s) : Reachable init step s := ⟨[], .start hs⟩

theorem Reachable.next (r : Reachable init step s) (hstep : step s a s') :
    Reachable init step s' := by
  obtain ⟨h, r⟩ := r
  exact ⟨_, r.next hstep⟩

/-- A property of the history that every step extends. -/
theorem Run.history {P : List (σ × α) → σ → Prop} (start : ∀ s, init s → P [] s)
    (next : ∀ h s a s', Run init step h s → P h s → step s a s' → P ((s, a) :: h) s')
    (r : Run init step h s) : P h s := by
  induction r with
  | start hs => exact start _ hs
  | next r hstep ih => exact next _ _ _ _ r ih hstep

/-- What every step from a reachable state keeps holds of every reachable state. -/
theorem Reachable.invariant {P : σ → Prop} (start : ∀ s, init s → P s)
    (next : ∀ s a s', Reachable init step s → P s → step s a s' → P s')
    (r : Reachable init step s) : P s := by
  obtain ⟨h, r⟩ := r
  exact r.history (P := fun _ s => P s) start fun h s a s' r hp hs => next s a s' ⟨h, r⟩ hp hs

/-- The state a step of the history was taken in is the end of a run of its own. -/
theorem Run.suffix {h₁ h₂ : List (σ × α)} (r : Run init step (h₁ ++ (s', a) :: h₂) s) :
    Run init step h₂ s' := by
  induction h₁ generalizing s with
  | nil => cases r with | next r _ => exact r
  | cons x h₁ ih => cases r with | next r _ => exact ih r

/-- Every step of the history was a step. -/
theorem Run.step_of_mem {h₁ h₂ : List (σ × α)} (r : Run init step (h₁ ++ (s', a) :: h₂) s) :
    ∃ s'', step s' a s'' ∧ (h₁ = [] → s'' = s) ∧ ∀ x ∈ h₁.getLast?, x.1 = s'' := by
  induction h₁ generalizing s with
  | nil =>
      cases r with
      | next _ hstep => exact ⟨s, hstep, fun _ => rfl, by simp⟩
  | cons x h₁ ih =>
      cases r with
      | next r hstep =>
          obtain ⟨s'', hs, hnil, hlast⟩ := ih r
          refine ⟨s'', hs, by simp, ?_⟩
          intro y hy
          rcases h₁ with _ | ⟨z, h₁⟩
          · simp only [List.getLast?_singleton, Option.mem_some_iff] at hy
            subst hy
            exact (hnil rfl).symm
          · exact hlast y (by simpa [List.getLast?_cons] using hy)

end Ryvo
