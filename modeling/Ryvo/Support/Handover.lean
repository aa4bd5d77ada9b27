import Mathlib.Data.List.Basic
import Ryvo.Support.Runs

/-!
# Support — Handover

A role that is handed over in two steps: whoever holds it nominates, and the nominee accepts.  `Role.Takes` is the role on its own; a system `HandsOver` a role it keeps somewhere in its state when its steps act on it by such events.

* `HandsOver.custody`: whoever holds the role founded it or accepted it last, and whoever is nominated was nominated by the holder, in the last event there was.
* `HandsOver.handover`: so the role changes hands only by an acceptance of what the holder nominated.

Nothing here names a program.
-/

namespace Ryvo

variable {κ σ α : Type} {vacant : κ}

/-- A role: who holds it, and who is nominated. -/
structure Role (κ : Type) where
  holder : κ
  /-- The vacant one where nobody is. -/
  nominee : κ

inductive RoleEvent (κ : Type) where
  | found (holder nominee : κ)
  | nominate (holder nominee : κ)
  | accept (nominee : κ)

/-- Whose doing an event is. -/
def RoleEvent.actor : RoleEvent κ → κ
  | found holder _ => holder
  | nominate holder _ => holder
  | accept nominee => nominee

/-- What an event makes of a role, or of there being none. -/
inductive Role.Takes (vacant : κ) : Option (Role κ) → RoleEvent κ → Option (Role κ) → Prop
  | found {holder nominee : κ} : holder ≠ vacant →
      Takes vacant none (.found holder nominee) (some ⟨holder, nominee⟩)
  | nominate {holder nominee nominee' : κ} : nominee' ≠ vacant →
      Takes vacant (some ⟨holder, nominee⟩) (.nominate holder nominee') (some ⟨holder, nominee'⟩)
  | accept {holder nominee : κ} : nominee ≠ vacant →
      Takes vacant (some ⟨holder, nominee⟩) (.accept nominee) (some ⟨nominee, vacant⟩)

/-- The steps of a system act on the role it keeps. -/
structure HandsOver (init : σ → Prop) (step : σ → α → σ → Prop) (vacant : κ)
    (role : σ → Option (Role κ)) (event : α → Option (RoleEvent κ)) : Prop where
  start : ∀ s, init s → role s = none
  kept : ∀ s a s', Reachable init step s → step s a s' → event a = none → role s' = role s
  takes : ∀ s a s' e, Reachable init step s → step s a s' → event a = some e →
    Role.Takes vacant (role s) e (role s')

variable {init : σ → Prop} {step : σ → α → σ → Prop} {role : σ → Option (Role κ)}
variable {event : α → Option (RoleEvent κ)} {s s' : σ} {a : α} {h : List (σ × α)} {r r' : Role κ}

/-- The event is a nomination of `nominee` by `holder`, or the founding that came with it. -/
def RoleEvent.Names (holder nominee : κ) (e : Option (RoleEvent κ)) : Prop :=
  e = some (.nominate holder nominee) ∨ e = some (.found holder nominee)

/-- The event puts `holder` in the role. -/
def RoleEvent.Installs (holder : κ) (e : Option (RoleEvent κ)) : Prop :=
  e = some (.accept holder) ∨ ∃ nominee, e = some (.found holder nominee)

/-- How a role came to be held, and how its nominee came to be named. -/
structure Custody (vacant : κ) (event : α → Option (RoleEvent κ)) (h : List (σ × α)) (r : Role κ) :
    Prop where
  holder_ne : r.holder ≠ vacant
  /-- Since the holder was installed, nobody was. -/
  installed : ∃ h₁ x h₂, h = h₁ ++ x :: h₂ ∧ RoleEvent.Installs r.holder (event x.2) ∧
    ∀ y ∈ h₁, ∀ k, ¬ RoleEvent.Installs k (event y.2)
  /-- Since the nominee was named, nothing happened to the role. -/
  named : r.nominee ≠ vacant → ∃ h₁ x h₂, h = h₁ ++ x :: h₂ ∧
    RoleEvent.Names r.holder r.nominee (event x.2) ∧ ∀ y ∈ h₁, event y.2 = none

/-- What holds of the steps since some step holds after one more. -/
theorem exists_since_cons {P : σ × α → Prop} {Q : σ × α → Prop} {x : σ × α}
    (hp : ∃ h₁ y h₂, h = h₁ ++ y :: h₂ ∧ P y ∧ ∀ z ∈ h₁, Q z) (hx : Q x) :
    ∃ h₁ y h₂, x :: h = h₁ ++ y :: h₂ ∧ P y ∧ ∀ z ∈ h₁, Q z := by
  obtain ⟨h₁, y, h₂, rfl, hy, hz⟩ := hp
  exact ⟨x :: h₁, y, h₂, rfl, hy, List.forall_mem_cons.mpr ⟨hx, hz⟩⟩

/-- The step just taken is the last. -/
theorem exists_since_head {P : σ × α → Prop} (Q : σ × α → Prop) {x : σ × α} (hx : P x) :
    ∃ h₁ y h₂, x :: h = h₁ ++ y :: h₂ ∧ P y ∧ ∀ z ∈ h₁, Q z :=
  ⟨[], x, h, rfl, hx, by simp⟩

theorem Custody.cons {x : σ × α} (hc : Custody vacant event h r) (hx : event x.2 = none) :
    Custody vacant event (x :: h) r where
  holder_ne := hc.holder_ne
  installed := exists_since_cons hc.installed (by simp [hx, RoleEvent.Installs])
  named hne := exists_since_cons (hc.named hne) hx

/-- **Custody** of a role that is handed over, along every run. -/
theorem HandsOver.custody (H : HandsOver init step vacant role event) (run : Run init step h s)
    (hr : role s = some r) : Custody vacant event h r := by
  refine run.history (P := fun h s => ∀ r, role s = some r → Custody vacant event h r) ?_ ?_ r hr
  · intro s hs r hr
    rw [H.start s hs] at hr
    cases hr
  · intro h s a s' run ih hstep r' hr'
    cases he : event a with
    | none =>
        rw [H.kept s a s' run.reachable hstep he] at hr'
        exact (ih r' hr').cons he
    | some e =>
        have ht := H.takes s a s' e run.reachable hstep he
        generalize hrole : role s = before at ht
        rw [hr'] at ht
        cases ht with
        | @found holder nominee hne =>
            exact ⟨hne, exists_since_head _ (.inr ⟨nominee, he⟩), fun _ => exists_since_head _ (.inr he)⟩
        | @nominate holder nominee nominee' hne =>
            have hc := ih _ hrole
            exact ⟨hc.holder_ne, exists_since_cons hc.installed (by simp [he, RoleEvent.Installs]),
              fun _ => exists_since_head _ (.inl he)⟩
        | @accept holder nominee hne =>
            exact ⟨hne, exists_since_head _ (.inl he), fun h => absurd rfl h⟩

/-- A role changes hands only by acceptance, of what its holder named last. -/
theorem HandsOver.handover (H : HandsOver init step vacant role event) (run : Run init step h s)
    (hstep : step s a s') (hr : role s = some r) (hr' : role s' = some r') (hne : r'.holder ≠ r.holder) :
    event a = some (.accept r'.holder) ∧ r'.nominee = vacant ∧
      ∃ h₁ x h₂, h = h₁ ++ x :: h₂ ∧ RoleEvent.Names r.holder r'.holder (event x.2) ∧
        ∀ y ∈ h₁, event y.2 = none := by
  cases he : event a with
  | none =>
      rw [H.kept s a s' run.reachable hstep he, hr] at hr'
      obtain rfl := Option.some.inj hr'
      exact absurd rfl hne
  | some e =>
      have ht := H.takes s a s' e run.reachable hstep he
      rw [hr, hr'] at ht
      cases ht with
      | nominate _ => exact absurd rfl hne
      | accept hnominee => exact ⟨rfl, rfl, (H.custody run hr).named hnominee⟩

/-- A role that is there stays, and is founded no more. -/
theorem HandsOver.stays (H : HandsOver init step vacant role event) (hs : Reachable init step s)
    (hstep : step s a s') (hr : role s = some r) :
    (∃ r', role s' = some r') ∧ ∀ holder nominee, event a ≠ some (.found holder nominee) := by
  cases he : event a with
  | none => exact ⟨⟨r, by rw [H.kept s a s' hs hstep he, hr]⟩, by simp⟩
  | some e =>
      have ht := H.takes s a s' e hs hstep he
      rw [hr] at ht
      generalize hrole : role s' = after at ht
      cases ht with
      | nominate _ => exact ⟨⟨_, rfl⟩, by simp⟩
      | accept _ => exact ⟨⟨_, rfl⟩, by simp⟩

end Ryvo
