import Ryvo.Machine.Bindings
import Ryvo.Support.Agreement
import Ryvo.Support.SortedVec

/-!
# Machine — Account indices

The bookkeeping of the batch instructions as the source keeps it: a vector of bound ids, each with the index of its account among the remaining accounts, and the next index that is not used yet.  Settlements keep the vector sorted and search it by halving (`searchSorted`); `deposit_for` appends to it and searches it from the front (`searchFront`).

* `bind_agrees`: resolved to accounts, this is what `Bindings` does.
* `Places` is what holds of the vector in between: the ids that have come up, each once, at consecutive indices in the order in which they first came up, each index the one of its id's own account.  `Places.bind` keeps it.
-/

namespace Ryvo

/-- A bound id and the index of its account. -/
abbrev IndexBindings (κ : Type) := List (κ × Nat)

/-- `insert_unique_sorted_u32` and `insert_unique_sorted_u64`, by their own search. -/
def insertUnique {κ : Type} [LinearOrder κ] (e : VaultError) (values : List κ) (value : κ) :
    Result (List κ) :=
  match binarySearchByKey id values value with
  | .ok _ => .error (.vault e)
  | .error position => .ok (values.insertIdx position value)

namespace IndexBindings

variable {κ : Type}

/-- `bindings.binary_search_by_key(&id, ..)`. -/
def searchSorted [LinearOrder κ] (bound : IndexBindings κ) (id : κ) : Except Nat Nat :=
  binarySearchByKey Prod.fst bound id

/-- `bindings.iter().find(..)`; what is not found is pushed. -/
def searchFront [DecidableEq κ] (bound : IndexBindings κ) (id : κ) : Except Nat Nat :=
  match bound.findIdx? (·.1 = id) with
  | some position => .ok position
  | none => .error bound.length

/-- The index of an id's account: the one it is bound to, or the next one, whose account is verified and which is entered.  With it, the vector and the next index. -/
def bind (search : IndexBindings κ → κ → Except Nat Nat) (missing : VaultError)
    (verify : Pubkey → κ → Result Unit) (remaining : List Pubkey) (bound : IndexBindings κ)
    (next : Nat) (id : κ) : Result (IndexBindings κ × Nat × Nat) :=
  match search bound id with
  | .ok position => do
      let (_, index) ← okOr bound[position]? (.account .notEnoughAccountKeys)
      pure (bound, next, index)
  | .error position => do
      let account ← okOr remaining[next]? (.vault missing)
      verify account id
      pure (bound.insertIdx position (id, next), next + 1, next)

/-- Each bound id with its account. -/
def accounts (remaining : List Pubkey) (bound : IndexBindings κ) : List (κ × Pubkey) :=
  bound.map fun x => (x.1, remaining.getD x.2 Pubkey.default)

/-! ### The two searches -/

/-- On vectors that are valid, the search finds an id where it is, and `enter` is insertion at the position where it is not. -/
structure Searches (search : IndexBindings κ → κ → Except Nat Nat)
    (enter : κ × Pubkey → List (κ × Pubkey) → List (κ × Pubkey)) (valid : IndexBindings κ → Prop) :
    Prop where
  nil : valid []
  nodup : ∀ b, valid b → (b.map Prod.fst).Nodup
  found : ∀ b id i, search b id = .ok i → ∃ n, b[i]? = some (id, n)
  missing : ∀ b id i, valid b → search b id = .error i → i ≤ b.length ∧ id ∉ b.map Prod.fst
  inserts : ∀ b id i n, valid b → search b id = .error i → valid (b.insertIdx i (id, n))
  enters : ∀ b id i n (f : Nat → Pubkey), valid b → search b id = .error i →
    (b.insertIdx i (id, n)).map (fun x => (x.1, f x.2)) =
      enter (id, f n) (b.map fun x => (x.1, f x.2))

theorem insertSorted_eq [LinearOrder κ] {x : κ × Nat} {b : IndexBindings κ} {i : Nat}
    (f : Nat → Pubkey) (h : Splits Prod.fst b x.1 i) :
    (b.insertIdx i x).map (fun y => (y.1, f y.2)) =
      Bindings.insertSorted (x.1, f x.2) (b.map fun y => (y.1, f y.2)) := by
  induction b generalizing i with
  | nil =>
      obtain rfl : i = 0 := by simpa using h.le
      rfl
  | cons y b ih =>
      cases i with
      | zero =>
          have hlt : x.1 < y.1 := h.after 0 y rfl (Nat.le_refl _)
          simp [Bindings.insertSorted, hlt]
      | succ i =>
          have hlt : y.1 < x.1 := h.before 0 y rfl (by omega)
          simp [Bindings.insertSorted, hlt.not_gt, ih h.tail]

theorem searches_sorted [LinearOrder κ] :
    Searches (searchSorted : IndexBindings κ → κ → Except Nat Nat) Bindings.insertSorted (SortedBy Prod.fst) where
  nil := List.Pairwise.nil
  nodup b hb := List.pairwise_map.mpr (hb.imp fun h => h.ne)
  found b id i h := by
    obtain ⟨⟨_, n⟩, hn, rfl⟩ := binarySearchByKey_ok h
    exact ⟨n, hn⟩
  missing b id i hb h := by
    have hs := binarySearchByKey_error hb h
    refine ⟨hs.le, fun hm => ?_⟩
    obtain ⟨y, hy, hid⟩ := List.mem_map.mp hm
    exact hs.notMem y hy hid
  inserts b id i n hb h := sortedBy_insertIdx hb (y := (id, n)) (binarySearchByKey_error hb h)
  enters b id i n f hb h := insertSorted_eq f (x := (id, n)) (binarySearchByKey_error hb h)

theorem searchFront_error [DecidableEq κ] {b : IndexBindings κ} {id : κ} {i : Nat}
    (h : searchFront b id = .error i) : i = b.length ∧ id ∉ b.map Prod.fst := by
  unfold searchFront at h
  split at h
  · cases h
  · rename_i hfind
    refine ⟨(Except.error.inj h).symm, fun hm => ?_⟩
    obtain ⟨y, hy, hid⟩ := List.mem_map.mp hm
    have := List.findIdx?_eq_none_iff.mp hfind y hy
    simp [hid] at this

theorem searches_front [DecidableEq κ] :
    Searches (searchFront : IndexBindings κ → κ → Except Nat Nat) Bindings.push
      fun b => (b.map Prod.fst).Nodup where
  nil := List.nodup_nil
  nodup b hb := hb
  found b id i h := by
    unfold searchFront at h
    split at h
    · rename_i position hfind
      obtain rfl := Except.ok.inj h
      obtain ⟨hlt, hid, -⟩ := List.findIdx?_eq_some_iff_getElem.mp hfind
      refine ⟨b[position].2, ?_⟩
      rw [List.getElem?_eq_getElem hlt, ← of_decide_eq_true hid]
    · cases h
  missing b id i hb h := ⟨(searchFront_error h).1.le, (searchFront_error h).2⟩
  inserts b id i n hb h := by
    obtain ⟨rfl, hnew⟩ := searchFront_error h
    rw [List.insertIdx_length_self, List.map_append, List.nodup_append]
    refine ⟨hb, by simp, ?_⟩
    rintro x hx y hy rfl
    simp only [List.map_cons, List.map_nil, List.mem_singleton] at hy
    exact hnew (hy ▸ hx)
  enters b id i n f hb h := by
    obtain ⟨rfl, -⟩ := searchFront_error h
    simp [Bindings.push]

/-! ### Resolved to accounts -/

variable [DecidableEq κ] {search : IndexBindings κ → κ → Except Nat Nat}
variable {enter : κ × Pubkey → List (κ × Pubkey) → List (κ × Pubkey)} {valid : IndexBindings κ → Prop}
variable {missing : VaultError} {verify : Pubkey → κ → Result Unit} {remaining : List Pubkey}
variable {bound bound' : IndexBindings κ} {next next' index : Nat} {id : κ} {addr : κ → Pubkey}

theorem lookup_of_mem {l : List (κ × Pubkey)} {k : Pubkey} (hl : (l.map Prod.fst).Nodup)
    (hk : (id, k) ∈ l) : Bindings.lookup l id = some k := by
  induction l with
  | nil => cases hk
  | cons x l ih =>
      rw [List.map_cons, List.nodup_cons] at hl
      rcases List.mem_cons.mp hk with rfl | hk
      · simp [Bindings.lookup]
      · have hne : x.1 ≠ id := fun e => hl.1 (e ▸ List.mem_map.mpr ⟨_, hk, rfl⟩)
        have := ih hl.2 hk
        simpa [Bindings.lookup, hne] using this

theorem lookup_of_notMem {l : List (κ × Pubkey)} (h : id ∉ l.map Prod.fst) :
    Bindings.lookup l id = none := by
  simp only [Bindings.lookup, Option.map_eq_none_iff, List.find?_eq_none, decide_eq_true_eq]
  rintro x hx rfl
  exact h (List.mem_map.mpr ⟨x, hx, rfl⟩)

omit [DecidableEq κ] in
@[simp] theorem accounts_fst : (accounts remaining bound).map Prod.fst = bound.map Prod.fst := by
  simp [accounts, Function.comp_def]

/-- A valid vector whose indices have been used. -/
structure Fits (valid : IndexBindings κ → Prop) (remaining : List Pubkey) (bound : IndexBindings κ)
    (next : Nat) : Prop where
  valid : valid bound
  used : ∀ x ∈ bound, x.2 < next
  le : next ≤ remaining.length

omit [DecidableEq κ] in
theorem Fits.nil (hs : Searches search enter valid) (h : next ≤ remaining.length) :
    Fits valid remaining [] next := ⟨hs.nil, by simp, h⟩

/-- Binding by index is binding by account. -/
theorem bind_agrees (hs : Searches search enter valid) (hf : Fits valid remaining bound next) :
    Agrees (fun a b => b = (⟨accounts remaining a.1, remaining.drop a.2.1⟩,
          remaining.getD a.2.2 Pubkey.default) ∧
        a.2.2 < remaining.length ∧ Fits valid remaining a.1 a.2.1 ∧
        a.2.1 + bound.length = next + a.1.length)
      (bind search missing verify remaining bound next id)
      (Bindings.bind enter missing verify ⟨accounts remaining bound, remaining.drop next⟩ id) := by
  unfold bind Bindings.bind
  cases hsearch : search bound id with
  | ok position =>
      obtain ⟨n, hn⟩ := hs.found _ _ _ hsearch
      have hmem := List.mem_of_getElem? hn
      have hlt := (hf.used _ hmem).trans_le hf.le
      have hlookup : Bindings.lookup (accounts remaining bound) id
          = some (remaining.getD n Pubkey.default) :=
        lookup_of_mem (by rw [accounts_fst]; exact hs.nodup _ hf.valid)
          (List.mem_map.mpr ⟨_, hmem, rfl⟩)
      simp only [hn, okOr, hlookup, Except.ok_bind]
      exact .ok ⟨rfl, hlt, hf, rfl⟩
  | error position =>
      obtain ⟨hle, hnew⟩ := hs.missing _ _ _ hf.valid hsearch
      have hlookup : Bindings.lookup (accounts remaining bound) id = none :=
        lookup_of_notMem (by rwa [accounts_fst])
      rw [hlookup]
      rcases Nat.lt_or_ge next remaining.length with hlt | hge
      · rw [List.drop_eq_getElem_cons hlt, List.getElem?_eq_getElem hlt]
        refine Agrees.bind_same fun _ _ =>
          .ok ⟨?_, hlt, ⟨hs.inserts _ _ _ _ hf.valid hsearch, ?_, hlt⟩, ?_⟩
        · simp only [accounts, List.getD_eq_getElem?_getD, List.getElem?_eq_getElem hlt,
            Option.getD_some, hs.enters _ _ _ _ (fun i => remaining[i]?.getD Pubkey.default) hf.valid
              hsearch]
        · intro x hx
          rcases List.eq_or_mem_of_mem_insertIdx hx with rfl | hx
          · exact Nat.lt_succ_self _
          · exact (hf.used x hx).trans (Nat.lt_succ_self _)
        · simp only [List.length_insertIdx_of_le_length hle]
          omega
      · rw [List.drop_eq_nil_of_le hge, List.getElem?_eq_none hge]
        exact .error _

/-! ### Where the accounts are -/

/-- The ids that have come up, each bound once, to consecutive indices from `start` on in the order in which they first came up, and each of them the index of the id's own account. -/
structure Places (remaining : List Pubkey) (addr : κ → Pubkey) (start : Nat) (seen : List κ)
    (bound : IndexBindings κ) : Prop where
  nodup : seen.Nodup
  length : bound.length = seen.length
  mem : ∀ id i, (id, i) ∈ bound ↔ ∃ j, i = start + j ∧ seen[j]? = some id
  account : ∀ j id, seen[j]? = some id → remaining[start + j]? = some (addr id)

variable {start : Nat} {seen : List κ}

omit [DecidableEq κ] in
theorem Places.nil : Places remaining addr start [] [] :=
  ⟨List.nodup_nil, rfl, by simp, by simp⟩

omit [DecidableEq κ] in
theorem Places.mem_seen (hp : Places remaining addr start seen bound) :
    id ∈ seen ↔ id ∈ bound.map Prod.fst := by
  constructor
  · intro hm
    obtain ⟨j, hj⟩ := List.mem_iff_getElem?.mp hm
    exact List.mem_map.mpr ⟨_, (hp.mem id _).mpr ⟨j, rfl, hj⟩, rfl⟩
  · intro hm
    obtain ⟨⟨_, i⟩, hx, rfl⟩ := List.mem_map.mp hm
    obtain ⟨j, -, hj⟩ := (hp.mem _ i).mp hx
    exact List.mem_of_getElem? hj

omit [DecidableEq κ] in
/-- An id bound to an index has its own account there. -/
theorem Places.account_of_mem (hp : Places remaining addr start seen bound) (h : (id, index) ∈ bound) :
    remaining[index]? = some (addr id) := by
  obtain ⟨j, rfl, hj⟩ := (hp.mem id index).mp h
  exact hp.account j id hj

omit [DecidableEq κ] in
/-- One more id, at the next index. -/
theorem Places.insertIdx {position : Nat} (hp : Places remaining addr start seen bound)
    (hle : position ≤ bound.length) (hnew : id ∉ bound.map Prod.fst)
    (hacc : remaining[start + bound.length]? = some (addr id)) :
    Places remaining addr start (seen ++ [id]) (bound.insertIdx position (id, start + bound.length))
    where
  nodup := by
    refine List.nodup_append.mpr ⟨hp.nodup, by simp, ?_⟩
    rintro x hx y hy rfl
    exact hnew (hp.mem_seen.mp (List.mem_singleton.mp hy ▸ hx))
  length := by rw [List.length_insertIdx_of_le_length hle, hp.length, List.length_append,
    List.length_singleton]
  mem id' i := by
    rw [List.mem_insertIdx hle, hp.mem]
    constructor
    · rintro (he | ⟨j, rfl, hj⟩)
      · obtain ⟨rfl, rfl⟩ := Prod.mk.inj he
        exact ⟨seen.length, by rw [hp.length], List.getElem?_concat_length⟩
      · exact ⟨j, rfl, by
          rw [List.getElem?_append_left (List.getElem?_eq_some_iff.mp hj).1, hj]⟩
    · rintro ⟨j, rfl, hj⟩
      rcases getElem?_snoc.mp hj with hj | ⟨rfl, rfl⟩
      · exact .inr ⟨j, rfl, hj⟩
      · exact .inl (by rw [hp.length])
  account j id' hj := by
    rcases getElem?_snoc.mp hj with hj | ⟨rfl, rfl⟩
    · exact hp.account j id' hj
    · rw [← hp.length, hacc]

/-- Binding enters an id that is new, and yields the index of its own account. -/
theorem Places.bind (hs : Searches search enter valid) (hv : valid bound)
    (hp : Places remaining addr start seen bound) (hver : ∀ k, verify k id = .ok () → k = addr id)
    (h : IndexBindings.bind search missing verify remaining bound (start + bound.length) id
      = .ok (bound', next', index)) :
    Places remaining addr start (addFirst seen id) bound' ∧ valid bound' ∧
      next' = start + bound'.length ∧ (id, index) ∈ bound' := by
  unfold IndexBindings.bind at h
  cases hsearch : search bound id with
  | ok position =>
      obtain ⟨n, hn⟩ := hs.found _ _ _ hsearch
      simp only [hsearch, hn, okOr, Except.ok_bind, Except.pure_eq_ok, Prod.mk.injEq] at h
      obtain ⟨rfl, rfl, rfl⟩ := h
      have hmem := List.mem_of_getElem? hn
      rw [addFirst_of_mem (hp.mem_seen.mpr (List.mem_map.mpr ⟨_, hmem, rfl⟩))]
      exact ⟨hp, hv, rfl, hmem⟩
  | error position =>
      obtain ⟨hle, hnew⟩ := hs.missing _ _ _ hv hsearch
      simp only [hsearch, Except.bind_eq_ok, okOr_eq_ok, Except.pure_eq_ok, Prod.mk.injEq] at h
      obtain ⟨account, hacc, _, hva, rfl, rfl, rfl⟩ := h
      obtain rfl := hver _ hva
      rw [addFirst_of_notMem (mt hp.mem_seen.mp hnew)]
      exact ⟨hp.insertIdx hle hnew hacc, hs.inserts _ _ _ _ hv hsearch,
        by rw [List.length_insertIdx_of_le_length hle, Nat.add_assoc],
        (List.mem_insertIdx hle).mpr (.inl rfl)⟩

omit [DecidableEq κ] in
/-- An id bound is found, at its only position. -/
theorem Searches.finds (hs : Searches search enter valid) (hv : valid bound) (h : (id, index) ∈ bound) :
    ∃ position, search bound id = .ok position ∧ bound[position]? = some (id, index) := by
  have hmem : id ∈ bound.map Prod.fst := List.mem_map.mpr ⟨_, h, rfl⟩
  cases hsearch : search bound id with
  | error position => exact absurd hmem (hs.missing _ _ _ hv hsearch).2
  | ok position =>
      obtain ⟨n, hn⟩ := hs.found _ _ _ hsearch
      -- Both entries have the id, and no id is there twice.
      have hsame := List.inj_on_of_nodup_map (hs.nodup _ hv) (List.mem_of_getElem? hn) h rfl
      exact ⟨position, rfl, hsame ▸ hn⟩

omit [DecidableEq κ] in
/-- The accounts in use are those of the ids, in order. -/
theorem Places.take (hp : Places remaining addr start seen bound) :
    (remaining.drop start).take bound.length = seen.map addr := by
  refine List.ext_getElem? fun j => ?_
  rw [List.getElem?_take, List.getElem?_map, List.getElem?_drop, hp.length]
  split
  case isTrue hlt =>
    have hj := List.getElem?_eq_getElem hlt
    rw [hp.account j _ hj, hj]
    rfl
  case isFalse hge => rw [List.getElem?_eq_none (by omega)]; rfl

omit [DecidableEq κ] in
/-- When a vector uses all accounts, they are those of its ids. -/
theorem Places.accounts (hp : Places remaining addr 0 seen bound)
    (hall : bound.length = remaining.length) : remaining = seen.map addr := by
  rw [← hp.take, List.drop_zero, hall, List.take_length]

omit [DecidableEq κ] in
/-- When two vectors, one after the other, use all accounts, they are those of their ids. -/
theorem Places.accounts_append {κ' : Type} {addr' : κ' → Pubkey} {seen' : List κ'}
    {bound' : IndexBindings κ'} (hp : Places remaining addr 0 seen bound)
    (hp' : Places remaining addr' bound.length seen' bound')
    (hall : bound.length + bound'.length = remaining.length) :
    remaining = seen.map addr ++ seen'.map addr' := by
  have hrest : (remaining.drop bound.length).length = bound'.length := by
    rw [List.length_drop]
    omega
  rw [← hp.take, ← hp'.take, ← hrest, List.take_length, List.drop_zero, List.take_append_drop]

/-- **A binding vector that does its work**: its ids and accounts are in place, no id is there twice, and the search finds what is bound and nothing else. -/
structure Exact (search : IndexBindings κ → κ → Except Nat Nat) (remaining : List Pubkey)
    (addr : κ → Pubkey) (start : Nat) (seen : List κ) (bound : IndexBindings κ) : Prop where
  places : Places remaining addr start seen bound
  nodup : (bound.map Prod.fst).Nodup
  finds : ∀ id index, (id, index) ∈ bound →
    ∃ position, search bound id = .ok position ∧ bound[position]? = some (id, index)
  misses : ∀ id, id ∉ seen → ∃ position, search bound id = .error position

omit [DecidableEq κ] in
theorem Places.exact (hs : Searches search enter valid) (hv : valid bound)
    (hp : Places remaining addr start seen bound) : Exact search remaining addr start seen bound where
  places := hp
  nodup := hs.nodup _ hv
  finds _ _ h := hs.finds hv h
  misses id hnew := by
    cases h : search bound id with
    | error position => exact ⟨position, rfl⟩
    | ok position =>
        obtain ⟨n, hn⟩ := hs.found _ _ _ h
        exact absurd (hp.mem_seen.mpr (List.mem_map.mpr ⟨_, List.mem_of_getElem? hn, rfl⟩)) hnew

end IndexBindings

end Ryvo
