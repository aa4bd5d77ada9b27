import Mathlib.Data.List.OfFn
import Mathlib.Logic.Function.Basic
import Mathlib.Tactic.Ring

/-!
# Support — Layout

Records in memory.  An encoding puts the parts of a value one after another, so that each of them stands at an offset of its own; code that knows the offsets reads and writes the parts in place.

* `Part` says that a part stands at an offset.  A read there is the part's encoding (`Part.window_eq`), and a write there is the encoding of the value with that part replaced (`Part.overwrite_eq`).
* Parts compose, offsets adding up (`Part.comp`), and are found from the front of an encoding (`Part.head`, `Part.tail`) and in arrays of records of one size (`Part.row`).
* `framed` is an encoding among other bytes.

Nothing here names a program.
-/

namespace Ryvo.Layout

variable {β σ φ ψ : Type} {enc pre rest : σ → List β} {sub : φ → List β} {sub' : ψ → List β}
variable {get : σ → φ} {set : σ → φ → σ} {get' : φ → ψ} {set' : φ → ψ → φ} {o o' k n : Nat}

/-- `data[o..o + n]`. -/
def window (data : List β) (o n : Nat) : List β := (data.drop o).take n

/-- `data[o..o + v.len()].copy_from_slice(v)`. -/
def overwrite (data : List β) (o : Nat) (v : List β) : List β :=
  data.take o ++ (v ++ data.drop (o + v.length))

theorem window_append {a v c : List β} (ha : a.length = o) (hv : v.length = n) :
    window (a ++ (v ++ c)) o n = v := by
  rw [window, List.drop_left' ha, List.take_left' hv]

theorem overwrite_append {a v v' c : List β} (ha : a.length = o) (hv : v'.length = v.length) :
    overwrite (a ++ (v ++ c)) o v' = a ++ (v' ++ c) := by
  have hdrop : (a ++ (v ++ c)).drop (o + v'.length) = c := by
    rw [← List.append_assoc, List.drop_left' (by simp [ha, hv])]
  rw [overwrite, List.take_left' ha, hdrop]

/-! ### Parts -/

/-- The part `get` of a value, encoded by `sub`, stands at offset `o` of the value's encoding, and the bytes around it do not depend on it. -/
structure Part (enc : σ → List β) (sub : φ → List β) (get : σ → φ) (set : σ → φ → σ) (o : Nat) :
    Prop where
  set_get : ∀ s, set s (get s) = s
  split : ∀ s, ∃ a c, a.length = o ∧ ∀ x, enc (set s x) = a ++ (sub x ++ c)

namespace Part

theorem self (h : Part enc sub get set o) (s : σ) :
    ∃ a c, a.length = o ∧ enc s = a ++ (sub (get s) ++ c) ∧ ∀ x, enc (set s x) = a ++ (sub x ++ c) := by
  obtain ⟨a, c, ha, hx⟩ := h.split s
  refine ⟨a, c, ha, ?_, hx⟩
  have he := hx (get s)
  rwa [h.set_get] at he

theorem window_eq (h : Part enc sub get set o) {s : σ} (hn : (sub (get s)).length = n) :
    window (enc s) o n = sub (get s) := by
  obtain ⟨a, c, ha, he, -⟩ := h.self s
  rw [he, window_append ha hn]

theorem overwrite_eq (h : Part enc sub get set o) {s : σ} {x : φ}
    (hx : (sub x).length = (sub (get s)).length) : overwrite (enc s) o (sub x) = enc (set s x) := by
  obtain ⟨a, c, ha, he, hset⟩ := h.self s
  rw [he, overwrite_append ha hx, hset]

theorem le_length (h : Part enc sub get set o) (s : σ) :
    o + (sub (get s)).length ≤ (enc s).length := by
  obtain ⟨a, c, ha, he, -⟩ := h.self s
  rw [he]
  simp only [List.length_append]
  omega

/-- The bytes before and after a part do not depend on it. -/
theorem getElem?_set (h : Part enc sub get set o) {s : σ} {x : φ} {i : Nat}
    (hn : (sub (get s)).length = n) (hx : (sub x).length = n) (hi : i < o ∨ o + n ≤ i) :
    (enc (set s x))[i]? = (enc s)[i]? := by
  obtain ⟨a, c, ha, he, hset⟩ := h.self s
  rw [he, hset]
  rcases hi with hi | hi
  · rw [List.getElem?_append_left (ha ▸ hi), List.getElem?_append_left (ha ▸ hi)]
  · rw [← List.append_assoc, ← List.append_assoc,
      List.getElem?_append_right (by rw [List.length_append]; omega),
      List.getElem?_append_right (by rw [List.length_append]; omega),
      List.length_append, List.length_append, hn, hx]

/-- A part of a part. -/
theorem comp (h : Part enc sub get set o) (h' : Part sub sub' get' set' o') :
    Part enc sub' (fun s => get' (get s)) (fun s x => set s (set' (get s) x)) (o + o') where
  set_get s := by rw [h'.set_get, h.set_get]
  split s := by
    obtain ⟨a, c, ha, hx⟩ := h.split s
    obtain ⟨a', c', ha', hx'⟩ := h'.split (get s)
    refine ⟨a ++ a', c' ++ c, by rw [List.length_append, ha, ha'], fun x => ?_⟩
    rw [hx, hx']
    simp only [List.append_assoc]

/-- The first part. -/
theorem head (hget : ∀ s, set s (get s) = s := by intros; rfl)
    (hset : ∀ s x, get (set s x) = x := by intros; rfl)
    (hrest : ∀ s x, rest (set s x) = rest s := by intros; rfl) :
    Part (fun s => sub (get s) ++ rest s) sub get set 0 where
  set_get := hget
  split s := ⟨[], rest s, rfl, fun x => by rw [hset, hrest, List.nil_append]⟩

/-- The only part. -/
theorem last (hget : ∀ s, set s (get s) = s := by intros; rfl)
    (hset : ∀ s x, get (set s x) = x := by intros; rfl) :
    Part (fun s => sub (get s)) sub get set 0 where
  set_get := hget
  split s := ⟨[], [], rfl, fun x => by rw [hset, List.nil_append, List.append_nil]⟩

/-- A part after others that take up `k` bytes. -/
theorem tail (k : Nat) (h : Part rest sub get set o)
    (hk : ∀ s, (pre s).length = k := by intros; simp)
    (hpre : ∀ s x, pre (set s x) = pre s := by intros; rfl) :
    Part (fun s => pre s ++ rest s) sub get set (k + o) where
  set_get := h.set_get
  split s := by
    obtain ⟨a, c, ha, hx⟩ := h.split s
    refine ⟨pre s ++ a, c, by rw [List.length_append, hk, ha], fun x => ?_⟩
    rw [hpre, hx, List.append_assoc]

/-- More bytes may follow. -/
theorem append (h : Part enc sub get set o) (t : List β) :
    Part (fun s => enc s ++ t) sub get set o where
  set_get := h.set_get
  split s := by
    obtain ⟨a, c, ha, hx⟩ := h.split s
    exact ⟨a, c ++ t, ha, fun x => by simp only [hx, List.append_assoc]⟩

end Part

/-! ### Frames -/

/-- An encoding between two pieces of other bytes. -/
def framed (a c : List β) (enc : σ → List β) (s : σ) : List β := a ++ (enc s ++ c)

theorem Part.framed (h : Part enc sub get set o) (a c : List β) :
    Part (framed a c enc) sub get set (a.length + o) :=
  (h.append c).tail a.length

/-- The value itself, in a frame. -/
theorem Part.inFrame (a c : List β) (enc : σ → List β) :
    Part (Layout.framed a c enc) enc (fun s => s) (fun _ x => x) a.length where
  set_get _ := rfl
  split _ := ⟨a, c, rfl, fun _ => rfl⟩

/-- A value whose part is replaced is the part replaced in its frame. -/
theorem Part.exists_framed (h : Part enc sub get set o) (s : σ) : ∃ a c, a.length = o ∧
    enc s = Layout.framed a c sub (get s) ∧ ∀ x, enc (set s x) = Layout.framed a c sub x :=
  h.self s

/-! ### Arrays -/

/-- Records one after another. -/
def rows (sub : φ → List β) {m : Nat} (t : Fin m → φ) : List β :=
  (List.ofFn fun i => sub (t i)).flatten

theorem rows_succ {m : Nat} (t : Fin (m + 1) → φ) :
    rows sub t = sub (t 0) ++ rows sub fun i => t i.succ := by
  rw [rows, List.ofFn_succ, List.flatten_cons, rows]

theorem length_rows {m : Nat} (hn : ∀ x, (sub x).length = n) (t : Fin m → φ) :
    (rows sub t).length = m * n := by
  induction m with
  | zero => simp [rows]
  | succ m ih =>
      rw [rows_succ, List.length_append, hn, ih]
      ring

/-- An array of records that are all one byte. -/
theorem rows_replicate {m : Nat} {z : φ} {v : β} (hz : sub z = List.replicate n v) :
    rows sub (fun _ : Fin m => z) = List.replicate (m * n) v := by
  induction m with
  | zero => simp [rows]
  | succ m ih => rw [rows_succ, ih, hz, List.replicate_append_replicate, Nat.succ_mul, Nat.add_comm]

theorem update_succ {m : Nat} (t : Fin (m + 1) → φ) (i : Fin m) (x : φ) :
    (fun j => Function.update t i.succ x (Fin.succ j)) = Function.update (fun j => t j.succ) i x := by
  funext j
  by_cases h : j = i
  · subst h
    simp
  · rw [Function.update_of_ne h, Function.update_of_ne (by simpa using h)]

/-- The rows of an array, where all are of one size. -/
theorem Part.row {m : Nat} (hn : ∀ x, (sub x).length = n) (i : Fin m) :
    Part (rows sub) sub (fun t => t i) (fun t x => Function.update t i x) (i.val * n) where
  set_get t := Function.update_eq_self i t
  split t := by
    induction m with
    | zero => exact i.elim0
    | succ m ih =>
        cases i using Fin.cases with
        | zero =>
            refine ⟨[], rows sub fun j => t j.succ, by simp, fun x => ?_⟩
            rw [rows_succ, Function.update_self, List.nil_append]
            simp
        | succ i =>
            obtain ⟨a, c, ha, hx⟩ := ih i fun j => t j.succ
            refine ⟨sub (t 0) ++ a, c, ?_, fun x => ?_⟩
            · rw [List.length_append, hn, ha, Fin.val_succ]
              ring
            · rw [rows_succ, update_succ, hx, List.append_assoc]
              simp [Function.update_of_ne (Fin.succ_ne_zero i).symm]

end Ryvo.Layout
