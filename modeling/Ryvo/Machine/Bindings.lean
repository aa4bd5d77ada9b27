import Mathlib.Data.List.Sort
import Ryvo.State.Errors
import Ryvo.State.Keys

/-!
# Machine — Account bindings

Batch instructions take their bucket accounts as remaining accounts, each once, in the order in which their buckets first come up.  The first time a bucket id comes up, the next unused account is verified against it and bound to it; afterwards the id finds the account it was bound to.

The source keeps, for each bound id, the position of its account among the remaining accounts, and the next unused position.  A `Bindings` keeps the account itself, and the accounts not used yet.
-/

namespace Ryvo

/-- `insert_unique_sorted_u32` and `insert_unique_sorted_u64`: enter a value that must be new. -/
def insertUniqueSorted {κ : Type} [LinearOrder κ] (e : VaultError) (values : List κ) (value : κ) :
    Result (List κ) := do
  require (value ∉ values) (.vault e)
  pure (values.orderedInsert (· ≤ ·) value)

structure Bindings (κ : Type) where
  bound : List (κ × Pubkey)
  rest : List Pubkey

namespace Bindings

variable {κ : Type}

/-- `values.insert(index, value)` at the index where `binary_search` does not find it. -/
def insertSorted [LT κ] [DecidableLT κ] (x : κ × Pubkey) : List (κ × Pubkey) → List (κ × Pubkey)
  | [] => [x]
  | y :: ys => if x.1 < y.1 then x :: y :: ys else y :: insertSorted x ys

/-- `values.push(value)`. -/
def push (x : κ × Pubkey) (xs : List (κ × Pubkey)) : List (κ × Pubkey) := xs ++ [x]

section Bind

variable [DecidableEq κ]

/-- The account an id is bound to. -/
def lookup (bound : List (κ × Pubkey)) (id : κ) : Option Pubkey :=
  (bound.find? fun x => x.1 = id).map (·.2)

/-- The account of an id: the one bound to it, or the next unused one, verified and entered. -/
def bind (enter : κ × Pubkey → List (κ × Pubkey) → List (κ × Pubkey)) (missing : VaultError)
    (verify : Pubkey → κ → Result Unit) (b : Bindings κ) (id : κ) : Result (Bindings κ × Pubkey) :=
  match lookup b.bound id with
  | some account => .ok (b, account)
  | none =>
      match b.rest with
      | [] => .error (.vault missing)
      | account :: rest => do
          verify account id
          pure (⟨enter (id, account) b.bound, rest⟩, account)

end Bind

/-! ### Every id is bound to its own address -/

/-- Each bound id has the account `addr` gives it. -/
def BoundTo (addr : κ → Pubkey) (bound : List (κ × Pubkey)) : Prop := ∀ x ∈ bound, x.2 = addr x.1

/-- `enter` adds its argument and nothing else. -/
def Enters (enter : κ × Pubkey → List (κ × Pubkey) → List (κ × Pubkey)) : Prop :=
  ∀ x y xs, y ∈ enter x xs ↔ y = x ∨ y ∈ xs

theorem enters_push : Enters (push : κ × Pubkey → _ → _) := by
  intro x y xs
  simp [push, or_comm]

theorem enters_insertSorted [LT κ] [DecidableLT κ] :
    Enters (insertSorted : κ × Pubkey → _ → _) := by
  intro x y xs
  induction xs with
  | nil => simp [insertSorted]
  | cons z zs ih =>
      simp only [insertSorted]
      split
      · simp
      · simp only [List.mem_cons, ih]
        tauto

variable {addr : κ → Pubkey} {bound : List (κ × Pubkey)} {id : κ} {k : Pubkey}
variable {enter : κ × Pubkey → List (κ × Pubkey) → List (κ × Pubkey)} {missing : VaultError}
variable {verify : Pubkey → κ → Result Unit} {b b' : Bindings κ}

theorem BoundTo.nil : BoundTo addr [] := by simp [BoundTo]

theorem BoundTo.entered (he : Enters enter) (h : BoundTo addr bound) (hk : k = addr id) :
    BoundTo addr (enter (id, k) bound) := by
  intro x hx
  rcases (he _ _ _).mp hx with rfl | hx
  · exact hk
  · exact h x hx

variable [DecidableEq κ]

theorem BoundTo.lookup (h : BoundTo addr bound) (hk : lookup bound id = some k) : k = addr id := by
  simp only [Bindings.lookup, Option.map_eq_some_iff] at hk
  obtain ⟨x, hx, rfl⟩ := hk
  have hid : x.1 = id := by simpa using List.find?_some hx
  exact hid ▸ h x (List.mem_of_find?_eq_some hx)

/-- Binding yields the id's own address, and keeps every id at its own. -/
theorem BoundTo.bind (he : Enters enter) (hv : ∀ k, verify k id = .ok () → k = addr id)
    (h : BoundTo addr b.bound) (hb : b.bind enter missing verify id = .ok (b', k)) :
    k = addr id ∧ BoundTo addr b'.bound := by
  unfold Bindings.bind at hb
  cases hl : Bindings.lookup b.bound id with
  | some k' =>
      simp only [hl, Except.ok.injEq, Prod.mk.injEq] at hb
      obtain ⟨rfl, rfl⟩ := hb
      exact ⟨h.lookup hl, h⟩
  | none =>
      cases hr : b.rest with
      | nil => simp [hl, hr] at hb
      | cons a rest =>
          simp only [hl, hr, Except.bind_eq_ok, Except.pure_eq_ok, Prod.mk.injEq] at hb
          obtain ⟨_, hva, rfl, rfl⟩ := hb
          exact ⟨hv _ hva, h.entered he (hv _ hva)⟩

/-- What an id needs from the unused accounts: nothing, or its own address next. -/
theorem exists_bind (missing : VaultError) (verify : Pubkey → κ → Result Unit) {id : κ}
    (he : Enters enter) (hv : verify (addr id) id = .ok ()) (h : BoundTo addr bound) : ∃ used bound', BoundTo addr bound' ∧ ∀ rest,
      Bindings.bind enter missing verify ⟨bound, used ++ rest⟩ id = .ok (⟨bound', rest⟩, addr id) := by
  cases hl : Bindings.lookup bound id with
  | some k =>
      refine ⟨[], bound, h, fun rest => ?_⟩
      obtain rfl := h.lookup hl
      simp [Bindings.bind, hl]
  | none =>
      refine ⟨[addr id], enter (id, addr id) bound, h.entered he rfl, fun rest => ?_⟩
      simp [Bindings.bind, hl, hv]

end Bindings

end Ryvo
