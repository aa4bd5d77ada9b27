import Ryvo.Runs.Governance

/-!
# Runs — The token registry

The registry along a run: an append-only list of tokens that only its authority extends.

* `RegistryValid`: what the entries are, together; `RegistryValid.push` is the one step lemma.
* `registry_of_history`: every registry is valid, and behind every entry there is the authority's instruction that entered it.
-/

namespace Ryvo

variable {env : Env} {w w' : World} {a : Action} {r r' : TokenRegistry} {e : TokenEntry}
variable {h : List (World × Action)} {clock clock' : Int}

namespace TokenRegistry

theorem checkSymbol_eq_ok {symbol : List UInt8} :
    checkSymbol symbol = .ok () ↔ (∀ b ∈ symbol, b < 128) ∧ ∃ b ∈ symbol, b ≠ 0 := by
  simp [checkSymbol]

theorem notMem_of_not_registered (h : r.isTokenRegistered e.id = false) :
    ∀ x ∈ r.tokens, x.id ≠ e.id := by
  intro x hx hid
  rw [isTokenRegistered, Option.isSome_eq_false_iff, Option.isNone_iff_eq_none, findToken,
    List.find?_eq_none] at h
  exact h x hx (by simpa using hid)

theorem notMem_of_not_mint (h : r.isMintRegistered e.mint = false) :
    ∀ x ∈ r.tokens, x.mint ≠ e.mint := by
  intro x hx hm
  rw [isMintRegistered, List.any_eq_false] at h
  exact h x hx (by simpa using hm)

/-- The registry of a moment. -/
structure Valid (clock : Int) (r : TokenRegistry) : Prop where
  ids : (r.tokens.map (·.id)).Nodup
  size : r.tokens.length ≤ maxTokens
  entries : ∀ e ∈ r.tokens, 0 < e.id ∧ e.decimals ≤ maxTokenDecimals ∧ e.symbol.length = 8 ∧
    (∀ b ∈ e.symbol, b < 128) ∧ ∃ b ∈ e.symbol, b ≠ 0
  /-- In the order in which they were registered. -/
  ordered : r.tokens.Pairwise (·.registeredAt ≤ ·.registeredAt)
  past : ∀ e ∈ r.tokens, e.registeredAt ≤ clock
  /-- A plain token comes before every other token of its mint. -/
  mints : r.tokens.Pairwise fun e e' => e'.kind = .plain → e.mint ≠ e'.mint

theorem Valid.nil {authority pending : Pubkey} : Valid clock ⟨authority, [], pending⟩ where
  ids := List.nodup_nil
  size := Nat.zero_le _
  entries := by simp
  ordered := .nil
  past := by simp
  mints := .nil

theorem Valid.mono (hv : Valid clock r) (hle : clock ≤ clock') (ht : r'.tokens = r.tokens) :
    Valid clock' r' where
  ids := ht ▸ hv.ids
  size := ht ▸ hv.size
  entries := ht ▸ hv.entries
  ordered := ht ▸ hv.ordered
  past e he := (hv.past e (ht ▸ he)).trans hle
  mints := ht ▸ hv.mints

theorem pairwise_push {α : Type} {R : α → α → Prop} {l : List α} {x : α} (hl : l.Pairwise R)
    (hx : ∀ y ∈ l, R y x) : (l ++ [x]).Pairwise R :=
  List.pairwise_append.mpr ⟨hl, List.pairwise_singleton R x, by simpa using hx⟩

/-- An admissible entry keeps the registry valid. -/
theorem Valid.push (hv : Valid w.clock r) (he : Enters w r e) : Valid w.clock (r.push e) where
  ids := by
    rw [TokenRegistry.push, List.map_append]
    refine pairwise_push hv.ids fun id hid => ?_
    obtain ⟨x, hx, rfl⟩ := List.mem_map.mp hid
    exact notMem_of_not_registered he.fresh x hx
  size := by simpa [TokenRegistry.push] using he.room
  entries x hx := by
    rcases List.mem_append.mp hx with hx | hx
    · exact hv.entries x hx
    · obtain rfl := List.mem_singleton.mp hx
      exact ⟨he.positive, he.decimals, he.symbol.1, checkSymbol_eq_ok.mp he.symbol.2⟩
  ordered := pairwise_push hv.ordered fun x hx => (hv.past x hx).trans he.registeredAt.ge
  past x hx := by
    rcases List.mem_append.mp hx with hx | hx
    · exact hv.past x hx
    · obtain rfl := List.mem_singleton.mp hx
      exact he.registeredAt.le
  mints := pairwise_push hv.mints fun x hx hk => notMem_of_not_mint (he.mint hk) x hx

/-- Every entry is the one its id finds. -/
theorem Valid.findToken (hv : Valid clock r) (he : e ∈ r.tokens) : r.findToken e.id = some e := by
  cases hf : r.findToken e.id with
  | none =>
      rw [TokenRegistry.findToken, List.find?_eq_none] at hf
      exact absurd (decide_eq_true rfl) (hf e he)
  | some e' =>
      have hmem : e' ∈ r.tokens := List.mem_of_find?_eq_some hf
      rw [List.inj_on_of_nodup_map hv.ids hmem he (findToken_id hf)]

/-- One plain token a mint. -/
theorem Valid.plain_unique {e' : TokenEntry} (hv : Valid clock r) (he : e ∈ r.tokens) (he' : e' ∈ r.tokens)
    (hk : e.kind = .plain) (hk' : e'.kind = .plain) (hm : e.mint = e'.mint) : e = e' := by
  let Same : TokenEntry → TokenEntry → Prop := fun x y =>
    x.kind = .plain → y.kind = .plain → x.mint = y.mint → x = y
  have hpair : r.tokens.Pairwise Same := hv.mints.imp fun hne _ hy heq => absurd heq (hne hy)
  have hflip : r.tokens.Pairwise (flip Same) :=
    hv.mints.imp fun hne hy _ heq => absurd heq.symm (hne hy)
  exact List.Pairwise.forall_of_forall_of_flip (fun _ _ _ _ _ => rfl) hpair hflip he he' hk hk' hm

end TokenRegistry

/-! ### Steps -/

theorem Reached.registryValid (hw : Reached env w) (hr : w.tokenRegistry = some r) : r.Valid w.clock := by
  refine Reachable.invariant (P := fun w => ∀ r, w.tokenRegistry = some r → r.Valid w.clock) ?_ ?_ hw r hr
  · rintro w ⟨clock, -, rfl⟩ r hr
    cases hr
  · intro w a w' hw ih hstep r' hr'
    have hle := Reached.clock_le hw hstep
    have hchange := Reached.registryChange hw hstep
    rw [hr'] at hchange
    generalize hb : w.tokenRegistry = before at hchange
    cases hchange with
    | kept _ => exact (ih _ hb).mono hle rfl
    | opened _ => exact .nil
    | nominated _ => exact (ih _ hb).mono hle rfl
    | accepted _ => exact (ih _ hb).mono hle rfl
    | entered _ he => exact ((ih _ hb).push he).mono hle rfl

/-- The step is the registry authority's instruction to enter the token. -/
def EntersToken (e : TokenEntry) (x : World × Action) : Prop :=
  ∃ r, x.1.tokenRegistry = some r ∧ r.authority ∈ x.2.signers ∧ x.2.Enters r.authority e ∧
    e.registeredAt = x.1.clock

theorem Action.Enters.signed {k : Pubkey} (ha : a.Enters k e) : k ∈ a.signers := by
  cases a with
  | outside o => exact ha.elim
  | call ix =>
      cases ix with
      | registerToken => exact ha.1 ▸ .head _
      | registerYieldBearingToken => exact ha.1 ▸ .head _
      | _ => exact ha.elim

/-- A step leaves the tokens, or enters one more, at the end. -/
theorem Reached.tokens (hw : Reached env w) (hstep : Step env w a w') (hr : w.tokenRegistry = some r) :
    ∃ r', w'.tokenRegistry = some r' ∧ (r'.tokens = r.tokens ∨
      ∃ e, r'.tokens = r.tokens ++ [e] ∧ EntersToken e (w, a)) := by
  have hchange := hw.registryChange hstep
  rw [hr] at hchange
  generalize hb : w'.tokenRegistry = after at hchange
  cases hchange with
  | kept _ => exact ⟨r, rfl, .inl rfl⟩
  | nominated _ => exact ⟨_, rfl, .inl rfl⟩
  | accepted _ => exact ⟨_, rfl, .inl rfl⟩
  | entered ha he => exact ⟨_, rfl, .inr ⟨_, rfl, r, hr, ha.signed, ha, he.registeredAt⟩⟩

/-- A token has the decimals of its mint. -/
theorem Reached.decimals (hw : Reached env w) (hr : w.tokenRegistry = some r) :
    ∀ e ∈ r.tokens, ∃ m, w.mints e.mint = some m ∧ e.decimals = m.decimals := by
  refine Reachable.invariant (P := fun w => ∀ r, w.tokenRegistry = some r →
    ∀ e ∈ r.tokens, ∃ m, w.mints e.mint = some m ∧ e.decimals = m.decimals) ?_ ?_ hw r hr
  · rintro w ⟨clock, -, rfl⟩ r hr
    cases hr
  · intro w a w' hw ih hstep r' hr' e he
    obtain ⟨ms, -, hd⟩ := Reached.makes hw hstep
    have persists : ∀ m, w.mints e.mint = some m → e.decimals = m.decimals →
        ∃ m', w'.mints e.mint = some m' ∧ e.decimals = m'.decimals := fun m hm hdec => by
      obtain ⟨n, hm'⟩ := hd.ops.persists.mint e.mint m hm
      exact ⟨_, hm', hdec⟩
    have old : ∀ r₀, w.tokenRegistry = some r₀ → e ∈ r₀.tokens →
        ∃ m', w'.mints e.mint = some m' ∧ e.decimals = m'.decimals := fun r₀ hr₀ he => by
      obtain ⟨m, hm, hdec⟩ := ih r₀ hr₀ e he
      exact persists m hm hdec
    have hchange := Reached.registryChange hw hstep
    rw [hr'] at hchange
    generalize hb : w.tokenRegistry = before at hchange
    cases hchange with
    | kept _ => exact old _ hb he
    | opened _ => simp at he
    | nominated _ => exact old _ hb he
    | accepted _ => exact old _ hb he
    | entered _ hen =>
        rcases List.mem_append.mp he with he | he
        · exact old _ hb he
        · obtain rfl := List.mem_singleton.mp he
          obtain ⟨m, hm, hdec⟩ := hen.minted
          exact persists m hm hdec

/-! ### Histories -/

/-- Behind every entry there is the instruction that entered it. -/
theorem entered_of_history (run : History env h w) (hr : w.tokenRegistry = some r) :
    ∀ e ∈ r.tokens, ∃ x ∈ h, EntersToken e x := by
  refine Run.history (P := fun h w => ∀ r, w.tokenRegistry = some r →
    ∀ e ∈ r.tokens, ∃ x ∈ h, EntersToken e x) ?_ ?_ run r hr
  · rintro w ⟨clock, -, rfl⟩ r hr
    cases hr
  · intro h w a w' run ih hstep r' hr' e he
    cases hr : w.tokenRegistry with
    | none =>
        have hchange := Reached.registryChange run.reachable hstep
        rw [hr, hr'] at hchange
        cases hchange with
        | opened _ => simp at he
    | some r =>
        obtain ⟨r₁, hr₁, hcases⟩ := Reached.tokens run.reachable hstep hr
        obtain rfl := Option.some.inj (hr₁.symm.trans hr')
        rcases hcases with hkept | ⟨e', happend, henters⟩
        · obtain ⟨x, hx, hent⟩ := ih r hr e (hkept ▸ he)
          exact ⟨x, .tail _ hx, hent⟩
        · rw [happend] at he
          rcases List.mem_append.mp he with he | he
          · obtain ⟨x, hx, hent⟩ := ih r hr e he
            exact ⟨x, .tail _ hx, hent⟩
          · obtain rfl := List.mem_singleton.mp he
            exact ⟨_, .head _, henters⟩

/-- What a history says of its registry. -/
structure RegistryRecord (env : Env) (h : List (World × Action)) (w : World) (r : TokenRegistry) :
    Prop where
  valid : r.Valid w.clock
  found : ∀ e ∈ r.tokens, r.findToken e.id = some e
  plain_unique : ∀ e ∈ r.tokens, ∀ e' ∈ r.tokens, e.kind = .plain → e'.kind = .plain →
    e.mint = e'.mint → e = e'
  decimals : ∀ e ∈ r.tokens, ∃ m, w.mints e.mint = some m ∧ e.decimals = m.decimals
  entered : ∀ e ∈ r.tokens, ∃ x ∈ h, EntersToken e x
  appended : ∀ a w', Step env w a w' → ∃ r', w'.tokenRegistry = some r' ∧
    (r'.tokens = r.tokens ∨ ∃ e, r'.tokens = r.tokens ++ [e] ∧ EntersToken e (w, a))

/-- **The registry only grows, by its authority's hand**: along every run its ids are distinct, a mint has one plain token at most, which comes before its yield-bearing ones, decimals are the mint's, and no entry is changed or removed. -/
theorem registry_of_history (run : History env h w) (hr : w.tokenRegistry = some r) :
    RegistryRecord env h w r where
  valid := Reached.registryValid run.reachable hr
  found _ he := (Reached.registryValid run.reachable hr).findToken he
  plain_unique _ he _ he' hk hk' hm :=
    (Reached.registryValid run.reachable hr).plain_unique he he' hk hk' hm
  decimals := Reached.decimals run.reachable hr
  entered := entered_of_history run hr
  appended _ _ hstep := Reached.tokens run.reachable hstep hr

open Localnet in
/-- Token 1 over a mint, then token 2, yield-bearing over the same. -/
theorem registry_of_two : ∃ h w r, History localnet h w ∧ w.tokenRegistry = some r ∧
    r.tokens.map (fun e => (e.id, e.mint, e.kind))
      = [(1, Localnet.usd, .plain), (2, Localnet.usd, .yieldBearing)] ∧ RegistryRecord localnet h w r := by
  obtain ⟨w, ⟨h, run⟩, hc⟩ := reached_of_runsTo localnet (opening ++ lending)
    (fun w => w.tokenRegistry.any fun r : TokenRegistry => decide
      (r.tokens.map (fun e => (e.id, e.mint, e.kind))
        = [(1, usd, .plain), (2, usd, .yieldBearing)])) (by decide +kernel)
  obtain ⟨r, hr, ht⟩ := Option.any_eq_true _ _ |>.mp hc
  exact ⟨h, w, r, run, hr, of_decide_eq_true ht, registry_of_history run hr⟩

end Ryvo
