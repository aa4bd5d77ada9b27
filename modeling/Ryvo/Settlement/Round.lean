import Ryvo.Settlement.Roster

/-!
# Settlement — A clearing round

`settle_clearing_round` on the ledger.  `ParsedClearingRoundLayout.entries` names the lanes of a round by participant instead of by position in its roster; a round that succeeds is a settlement of them (`settle_spec`), and a well-formed one whose nets its participants can bear succeeds with the right accounts (`exists_settle`).
-/

namespace Ryvo

variable {env : Env} {w w' : World} {k : Pubkey} {t : U16} {p : U32}
variable {ids : List U32} {e : LaneEntry} {es done : List LaneEntry}

/-! ### The round in terms of its participants -/

/-- Name an entry's lane. -/
def ChannelEntry.laneEntry (ids : List U32) (payer : U32) (entry : ChannelEntry) :
    Result LaneEntry := do
  let payee ← okOr ids[entry.payeeRef]? (.vault .invalidClearingRoundMessage)
  pure ⟨payer, payee, entry.targetCumulative⟩

/-- The lanes of a block. -/
def ParticipantBlockMeta.laneEntries (ids : List U32) (block : ParticipantBlockMeta) :
    Result (List LaneEntry) := do
  let entries ← block.readEntries
  entries.mapM (·.laneEntry ids block.participantId)

namespace ParsedClearingRoundLayout

variable (layout : ParsedClearingRoundLayout)

def roster : List U32 := layout.blocks.map (·.participantId)

/-- The lanes of the round. -/
def entries : Result (List LaneEntry) := do
  let blocks ← layout.blocks.mapM (·.laneEntries layout.roster)
  pure blocks.flatten

end ParsedClearingRoundLayout

namespace SettleClearingRound

variable {α : Type} {auth : Authentication α}
variable {block : ParticipantBlockMeta} {blocks : List ParticipantBlockMeta}
variable {pr pr' : Progress} {entry : ChannelEntry}

/-! ### The loop over lanes -/

/-- What holds after the lanes of `done`. -/
structure Done (env : Env) (w : World) (t : U16) (ids : List U32) (done : List LaneEntry)
    (pr : Progress) : Prop where
  lanes : LanesDone env t w done pr.world
  bound : Bindings.BoundTo (channelAddress env t) pr.channels.bound
  states : pr.states = ids.map (stateOf env w t ((w.ledger env).net t done))
  gross : pr.totalGross = (w.ledger env).gross t done

/-- Adding to one position of the roster. -/
theorem addPosition_eq_ok (net : U32 → Int) {i : Nat} (d : Int) {states : List ParticipantRoundState}
    (hn : ids.Nodup) (hp : ids[i]? = some p) :
    addPosition (ids.map (stateOf env w t net)) i d = .ok states ↔
      (-(2 ^ 127) ≤ net p + d ∧ net p + d < 2 ^ 127) ∧
        states = ids.map (stateOf env w t fun q => net q + if p = q then d else 0) := by
  have hset : (ids.map (stateOf env w t net)).set i { stateOf env w t net p with netPosition := net p + d }
      = ids.map (stateOf env w t fun q => net q + if p = q then d else 0) := by
    refine List.ext_getElem? fun j => ?_
    rw [List.getElem?_set]
    by_cases hj : i = j
    · subst hj
      obtain ⟨hlt, rfl⟩ := List.getElem?_eq_some_iff.mp hp
      simp [hlt, stateOf]
    · simp only [hj, if_false, List.getElem?_map]
      cases hq : ids[j]? with
      | none => rfl
      | some q =>
          have hne : p ≠ q := by
            rintro rfl
            exact hj (List.getElem?_inj (List.getElem?_eq_some_iff.mp hp).1 hn |>.mp (hp.trans hq.symm))
          simp [stateOf, hne]
  simp only [addPosition, List.getElem?_map, hp, Option.map_some, okOr, Except.ok_bind,
    Except.bind_eq_ok, signed_eq_ok, Except.pure_eq_ok]
  constructor
  · rintro ⟨_, ⟨rfl, hb⟩, rfl⟩
    exact ⟨hb, hset⟩
  · rintro ⟨hb, rfl⟩
    exact ⟨_, ⟨rfl, hb⟩, hset⟩

theorem Done.nil (hl : Located env w) (rest : List Pubkey) :
    Done env w t ids [] ⟨w, ⟨[], rest⟩, ids.map (stateOf env w t fun _ => 0), 0⟩ :=
  ⟨.nil hl, .nil, rfl, rfl⟩

/-- One more lane. -/
theorem settleLane_spec {payer payee : U32} {i : Nat} (hd : Done env w t ids done pr)
    (hn : ids.Nodup) (hp : ids[i]? = some payer) (hq : ids[entry.payeeRef]? = some payee)
    (hnew : (payer, payee) ∉ done.map LaneEntry.lane) (h : settleLane env t i pr entry = .ok pr') :
    Done env w t ids (done ++ [⟨payer, payee, entry.targetCumulative⟩]) pr' := by
  simp only [settleLane, hd.states, List.getElem?_map, hp, hq, Option.map_some, okOr, stateOf,
    Except.ok_bind, Except.bind_eq_ok, require_eq_ok, exists_const, Prod.exists, checkedSub_eq_ok,
    checkedAdd_eq_ok, Except.pure_eq_ok] at h
  obtain ⟨lower, higher, sel, hc, id, hid, channels, channel, hbind, data, hdata, i', sel', l, hread,
    hlt, _, ⟨rfl, -⟩, _, ⟨rfl, -⟩, _, ⟨rfl, -⟩, states₁, h₁, states₂, h₂, w₁, _, hedit, rfl⟩ := h
  obtain ⟨hkey, hbound⟩ := bindLane_spec hd.lanes.located hd.bound hc hid hbind
  obtain ⟨-, hlane, -, rfl⟩ := (settleLane_eq_ok _ _ hkey hc).mp
    ⟨⟨data, by simpa [World.getChannelBucket] using hdata, hread⟩, hedit⟩
  have hlane₀ : (w.ledger env).lane t payer payee = some l := (hd.lanes.lane_eq hnew).symm.trans hlane
  obtain ⟨-, rfl⟩ := (addPosition_eq_ok _ _ hn hp).mp h₁
  obtain ⟨-, rfl⟩ := (addPosition_eq_ok _ _ hn hq).mp h₂
  refine ⟨hd.lanes.snoc (e := ⟨payer, payee, entry.targetCumulative⟩) hnew hlane hlt, hbound, ?_, ?_⟩
  · refine List.map_congr_left fun q _ => ?_
    simp only [stateOf, Ledger.net_append,
      Ledger.net_single (e := ⟨payer, payee, entry.targetCumulative⟩) hlane₀, add_assoc]
  · rw [hd.gross, Ledger.gross_append]
    simp only [Ledger.gross, List.map_cons, List.map_nil, List.sum_cons, List.sum_nil, add_zero,
      Ledger.delta_of_lane (e := ⟨payer, payee, entry.targetCumulative⟩) hlane₀]

/-- The accounts not used yet. -/
def Progress.withRest (pr : Progress) (rest : List Pubkey) : Progress :=
  { pr with channels := ⟨pr.channels.bound, rest⟩ }

theorem Done.withRest (hd : Done env w t ids done pr) (rest : List Pubkey) :
    Done env w t ids done (pr.withRest rest) :=
  ⟨hd.lanes, hd.bound, hd.states, hd.gross⟩

/-- The lane of an entry can be raised to its target. -/
def Raisable (L : Ledger) (t : U16) (e : LaneEntry) : Prop :=
  ∃ l, L.lane t e.payer e.payee = some l ∧ l.settledCumulative < e.target

theorem exists_settleLane {payer payee : U32} {i : Nat} (hd : Done env w t ids done pr)
    (hn : ids.Nodup) (hp : ids[i]? = some payer) (hq : ids[entry.payeeRef]? = some payee)
    (hnew : (payer, payee) ∉ done.map LaneEntry.lane)
    (hl : Raisable (w.ledger env) t ⟨payer, payee, entry.targetCumulative⟩)
    (hgross : (w.ledger env).gross t (done ++ [⟨payer, payee, entry.targetCumulative⟩]) < u64Bound) :
    ∃ (used : List Pubkey) (pr' : Progress), ∀ rest,
      settleLane env t i (pr.withRest (used ++ rest)) entry = .ok (pr'.withRest rest) := by
  obtain ⟨l, hlane₀, hlt⟩ := hl
  have hlane : pr.world.lane env t payer payee = some l := (hd.lanes.lane_eq hnew).trans hlane₀
  obtain ⟨lower, higher, sel, id, hcan, hid, hkey, hver, b, off, hbk, hoff⟩ :=
    laneAccount hd.lanes.located hlane
  obtain ⟨used, bound', -, hbind⟩ := Bindings.exists_bind
    .invalidClearingRoundMessage (verifyChannel env pr.world t) Bindings.enters_insertSorted hver
    hd.bound
  have hu := min_le_right l.lockedBalance (entry.targetCumulative - l.settledCumulative)
  obtain ⟨⟨data, hdata, hread⟩, hedit⟩ := (settleLane_eq_ok entry.targetCumulative
    (min l.lockedBalance (entry.targetCumulative - l.settledCumulative)) (u := ()) hkey hcan).mpr
    ⟨⟨b, hbk, hoff⟩, hlane, min_le_left _ _, rfl⟩
  have hnet := Ledger.net_le_gross (w.ledger env) t done
  rw [Ledger.gross_append] at hgross
  simp only [Ledger.gross, List.map_cons, List.map_nil, List.sum_cons, List.sum_nil, add_zero,
    Ledger.delta_of_lane (e := ⟨payer, payee, entry.targetCumulative⟩) hlane₀, u64Bound] at hgross hnet
  have htot : pr.totalGross + (entry.targetCumulative - l.settledCumulative) < u64Bound := by
    rw [hd.gross]
    exact hgross
  let uncovered : Int := ((entry.targetCumulative - l.settledCumulative
    - min l.lockedBalance (entry.targetCumulative - l.settledCumulative) : Nat) : Int)
  let net₁ : U32 → Int := fun q => (w.ledger env).net t done q + if payer = q then -uncovered else 0
  obtain ⟨states₁, h₁⟩ : ∃ s, addPosition (ids.map (stateOf env w t ((w.ledger env).net t done))) i
      (-uncovered) = .ok s :=
    ⟨_, (addPosition_eq_ok _ _ hn hp).mpr
      ⟨⟨by have := hnet payer; omega, by have := hnet payer; omega⟩, rfl⟩⟩
  obtain ⟨-, rfl⟩ := (addPosition_eq_ok _ _ hn hp).mp h₁
  obtain ⟨states₂, h₂⟩ : ∃ s, addPosition (ids.map (stateOf env w t net₁)) entry.payeeRef
      ((entry.targetCumulative - l.settledCumulative : Nat) : Int) = .ok s :=
    ⟨_, (addPosition_eq_ok _ _ hn hq).mpr
      ⟨⟨by have := hnet payee; simp only [net₁]; split <;> omega,
        by have := hnet payee; simp only [net₁]; split <;> omega⟩, rfl⟩⟩
  refine ⟨used,
    { world := pr.world.writeLane env t payer payee (l.settled entry.targetCumulative
        (min l.lockedBalance (entry.targetCumulative - l.settledCumulative)))
      channels := ⟨bound', []⟩
      states := states₂
      totalGross := pr.totalGross + (entry.targetCumulative - l.settledCumulative) }, fun rest => ?_⟩
  simp only [settleLane, Progress.withRest, hd.states, List.getElem?_map, hp, hq, Option.map_some,
    okOr, Except.ok_bind, Except.bind_eq_ok, require_eq_ok, exists_const, Prod.exists,
    checkedSub_eq_ok, checkedAdd_eq_ok, Except.pure_eq_ok]
  exact ⟨lower, higher, sel, hcan, id, hid, _, _, hbind rest, data,
    by simpa [World.getChannelBucket, channelAddress] using hdata, off.1, off.2, l, hread, hlt, _,
    ⟨rfl, hlt.le⟩, _, ⟨rfl, htot⟩, _, ⟨rfl, hu⟩, _, h₁, _, h₂, _, (), hedit, rfl⟩

/-! ### The entries of a block -/

/-- The entries of a block, once they are read. -/
def settleList (env : Env) (t : U16) (i : Nat) : List ChannelEntry → Nat → Progress → Result Progress
  | [], _, pr => .ok pr
  | entry :: entries, seen, pr => do
      require (entry.payeeRef < pr.states.length) (Error.vault .invalidClearingRoundMessage)
      require (seen.testBit entry.payeeRef = false) (Error.vault .invalidClearingRoundMessage)
      let pr ← settleLane env t i pr entry
      settleList env t i entries (seen ||| 1 <<< entry.payeeRef) pr

/-- Reading and settling in turn is reading first and settling then. -/
theorem settleEntries_eq_ok {i n seen : Nat} {msg : List UInt8} :
    settleEntries env t i n msg seen pr = .ok pr' ↔ ∃ entries rest,
      parseChannelEntries n msg = .ok (entries, rest) ∧
        settleList env t i entries seen pr = .ok pr' := by
  induction n generalizing msg seen pr with
  | zero =>
      simp only [settleEntries, parseChannelEntries, Except.ok.injEq, Prod.mk.injEq]
      constructor
      · rintro rfl
        exact ⟨[], msg, ⟨rfl, rfl⟩, rfl⟩
      · rintro ⟨_, _, ⟨rfl, rfl⟩, h⟩
        exact Except.ok.inj h
  | succ n ih =>
      simp only [settleEntries, parseChannelEntries, Except.bind_eq_ok, require_eq_ok, exists_const,
        Prod.exists, Except.pure_eq_ok, Prod.mk.injEq, ih]
      constructor
      · rintro ⟨x, rest, hx, hlt, hseen, pr₁, h₁, entries, rest', hrest, h⟩
        exact ⟨x :: entries, rest', ⟨x, rest, hx, entries, rest', hrest, rfl, rfl⟩, by
          simpa only [settleList, Except.bind_eq_ok, require_eq_ok, exists_const] using
            ⟨hlt, hseen, pr₁, h₁, h⟩⟩
      · rintro ⟨_, _, ⟨x, rest, hx, entries, rest', hrest, rfl, rfl⟩, h⟩
        simp only [settleList, Except.bind_eq_ok, require_eq_ok, exists_const] at h
        obtain ⟨hlt, hseen, pr₁, h₁, h⟩ := h
        exact ⟨x, rest, hx, hlt, hseen, pr₁, h₁, entries, rest', hrest, h⟩

theorem settleBlock_eq_ok {i : Nat} : settleBlock env t pr (block, i) = .ok pr' ↔ ∃ entries,
    block.readEntries = .ok entries ∧ settleList env t i entries 0 pr = .ok pr' := by
  simp only [settleBlock, settleEntries_eq_ok, ParticipantBlockMeta.readEntries, Except.bind_eq_ok,
    Prod.exists, Except.pure_eq_ok]
  constructor
  · rintro ⟨entries, rest, hp, h⟩
    exact ⟨entries, ⟨entries, rest, hp, rfl⟩, h⟩
  · rintro ⟨_, ⟨entries, rest, hp, rfl⟩, h⟩
    exact ⟨entries, rest, hp, h⟩

theorem testBit_insert {seen i j : Nat} :
    (seen ||| 1 <<< i).testBit j = true ↔ seen.testBit j = true ∨ i = j := by
  simp [Nat.one_shiftLeft, Nat.testBit_two_pow]

theorem laneEntry_eq_ok {payer : U32} : entry.laneEntry ids payer = .ok e ↔
    ∃ payee, ids[entry.payeeRef]? = some payee ∧ e = ⟨payer, payee, entry.targetCumulative⟩ := by
  simp only [ChannelEntry.laneEntry, Except.bind_eq_ok, okOr_eq_ok, Except.pure_eq_ok, eq_comm (b := e)]

/-- The entries of one block.  The mask has a bit for each lane of this payer settled so far. -/
theorem settleList_spec {payer : U32} {i seen : Nat} {entries : List ChannelEntry}
    (hd : Done env w t ids done pr) (hn : ids.Nodup) (hp : ids[i]? = some payer)
    (hs : ∀ e ∈ done, e.payer = payer → ∃ j, seen.testBit j = true ∧ ids[j]? = some e.payee)
    (h : settleList env t i entries seen pr = .ok pr') :
    ∃ es, entries.mapM (·.laneEntry ids payer) = .ok es ∧ Done env w t ids (done ++ es) pr' := by
  induction entries generalizing done pr seen with
  | nil =>
      obtain rfl := Except.ok.inj h
      exact ⟨[], rfl, by simpa using hd⟩
  | cons x entries ih =>
      simp only [settleList, Except.bind_eq_ok, require_eq_ok, exists_const] at h
      obtain ⟨hlt, hunseen, pr₁, h₁, h⟩ := h
      rw [hd.states, List.length_map] at hlt
      have hq : ids[x.payeeRef]? = some ids[x.payeeRef] := List.getElem?_eq_getElem hlt
      have hnew : (payer, ids[x.payeeRef]) ∉ done.map LaneEntry.lane := by
        intro hm
        obtain ⟨e, he, hk⟩ := List.mem_map.mp hm
        simp only [LaneEntry.lane, Prod.mk.injEq] at hk
        obtain ⟨j, hj, hje⟩ := hs e he hk.1
        rw [hk.2, ← hq] at hje
        obtain rfl := (List.getElem?_inj hlt hn).mp hje.symm
        exact Bool.false_ne_true (hunseen.symm.trans hj)
      have hd₁ := settleLane_spec hd hn hp hq hnew h₁
      obtain ⟨es, hes, hd'⟩ := ih hd₁ (fun e he hpe => by
        rcases List.mem_append.mp he with he | he
        · obtain ⟨j, hj, hje⟩ := hs e he hpe
          exact ⟨j, testBit_insert.mpr (.inl hj), hje⟩
        · obtain rfl := List.mem_singleton.mp he
          exact ⟨x.payeeRef, testBit_insert.mpr (.inr rfl), hq⟩) h
      rw [List.append_assoc, List.singleton_append] at hd'
      exact ⟨_, mapM_cons_eq_ok.mpr ⟨_, es, laneEntry_eq_ok.mpr ⟨_, hq, rfl⟩, hes, rfl⟩, hd'⟩

/-- Entries on different lanes that can be raised are settled. -/
theorem exists_settleList {payer : U32} {i seen : Nat} {entries : List ChannelEntry}
    (hd : Done env w t ids done pr) (hn : ids.Nodup) (hp : ids[i]? = some payer)
    (hs : ∀ j, seen.testBit j = true → ∃ e ∈ done, e.payer = payer ∧ ids[j]? = some e.payee)
    (hes : entries.mapM (·.laneEntry ids payer) = .ok es)
    (hlanes : ((done ++ es).map LaneEntry.lane).Nodup)
    (hraise : ∀ e ∈ es, Raisable (w.ledger env) t e)
    (hgross : (w.ledger env).gross t (done ++ es) < u64Bound) :
    ∃ (used : List Pubkey) (pr' : Progress), ∀ rest,
      settleList env t i entries seen (pr.withRest (used ++ rest)) = .ok (pr'.withRest rest) := by
  induction entries generalizing done pr seen es with
  | nil => exact ⟨[], pr, fun rest => rfl⟩
  | cons x entries ih =>
      obtain ⟨e, es, he, hes', rfl⟩ := mapM_cons_eq_ok.mp hes
      obtain ⟨payee, hq, rfl⟩ := laneEntry_eq_ok.mp he
      have happ : ∀ e : LaneEntry, done ++ e :: es = (done ++ [e]) ++ es := by simp
      rw [happ] at hlanes hgross
      have hnew : (payer, payee) ∉ done.map LaneEntry.lane := by
        rw [List.map_append, List.nodup_append] at hlanes
        have := hlanes.1
        simp only [List.map_append, List.map_cons, List.map_nil, List.nodup_append,
          List.mem_singleton] at this
        exact fun hm => this.2.2 _ hm _ rfl rfl
      have hgr := (Nat.le_add_right _ _).trans_lt (Ledger.gross_append ▸ hgross)
      obtain ⟨used₁, pr₁, h₁⟩ := exists_settleLane hd hn hp hq hnew (hraise _ (by simp)) hgr
      have hd₁ := (settleLane_spec (hd.withRest _) hn hp hq hnew (h₁ [])).withRest pr₁.channels.rest
      have hlt : x.payeeRef < ids.length := (List.getElem?_eq_some_iff.mp hq).1
      have hunseen : seen.testBit x.payeeRef = false := by
        rw [← Bool.not_eq_true]
        intro hj
        obtain ⟨e', he', hpe, hje⟩ := hs _ hj
        refine hnew (List.mem_map.mpr ⟨e', he', ?_⟩)
        rw [LaneEntry.lane, hpe, Option.some.inj (hje.symm.trans hq)]
      have hs' : ∀ j, (seen ||| 1 <<< x.payeeRef).testBit j = true →
          ∃ e ∈ done ++ [⟨payer, payee, x.targetCumulative⟩], e.payer = payer ∧
            ids[j]? = some e.payee := fun j hj => by
        rcases testBit_insert.mp hj with hj | rfl
        · obtain ⟨e', he', h'⟩ := hs j hj
          exact ⟨e', List.mem_append_left _ he', h'⟩
        · exact ⟨_, List.mem_append_right _ (List.mem_singleton_self _), rfl, hq⟩
      obtain ⟨used₂, pr₂, h₂⟩ := ih hd₁ hs' hes' hlanes
        (fun e he => hraise e (List.mem_cons_of_mem _ he)) hgross
      refine ⟨used₁ ++ used₂, pr₂, fun rest => ?_⟩
      simp only [settleList, Except.bind_eq_ok, require_eq_ok, exists_const]
      refine ⟨by simpa [Progress.withRest, hd.states] using hlt, hunseen, _, ?_, h₂ rest⟩
      rw [List.append_assoc]
      exact h₁ _

/-! ### The blocks -/

theorem laneEntries_payer {payer : U32} {entries : List ChannelEntry}
    (h : entries.mapM (·.laneEntry ids payer) = .ok es) : ∀ e ∈ es, e.payer = payer ∧ e.payee ∈ ids := by
  induction entries generalizing es with
  | nil => simp [mapM_nil_eq_ok.mp h]
  | cons x entries ih =>
      obtain ⟨e, es, he, hes, rfl⟩ := mapM_cons_eq_ok.mp h
      obtain ⟨payee, hq, rfl⟩ := laneEntry_eq_ok.mp he
      exact List.forall_mem_cons.mpr ⟨⟨rfl, List.mem_of_getElem? hq⟩, ih hes⟩

/-- The roster at the next block. -/
theorem roster_step {i : Nat} (hn : ids.Nodup)
    (hi : ids.drop i = (block :: blocks).map (·.participantId)) :
    ids[i]? = some block.participantId ∧ ids.drop (i + 1) = blocks.map (·.participantId) ∧
      ids.take (i + 1) = ids.take i ++ [block.participantId] ∧
      block.participantId ∉ ids.take i := by
  have h₀ : ids[i]? = some block.participantId := by
    have := congrArg (·[0]?) hi
    simpa using this
  have h₁ : ids.drop (i + 1) = blocks.map (·.participantId) := by
    rw [← List.tail_drop, hi]
    rfl
  refine ⟨h₀, h₁, by rw [List.take_add_one, h₀]; rfl, fun hm => ?_⟩
  have := List.take_append_drop i ids ▸ hn
  rw [List.nodup_append] at this
  exact this.2.2 _ hm block.participantId (by rw [hi]; simp) rfl

/-- The blocks from position `i` on, those before it paying nothing more. -/
theorem settleBlocks_spec {i : Nat} (hd : Done env w t ids done pr) (hn : ids.Nodup)
    (hi : ids.drop i = blocks.map (·.participantId)) (hb : ∀ e ∈ done, e.payer ∈ ids.take i)
    (h : (blocks.zipIdx i).foldlM (settleBlock env t) pr = .ok pr') :
    ∃ lists, blocks.mapM (·.laneEntries ids) = .ok lists ∧
      Done env w t ids (done ++ lists.flatten) pr' := by
  induction blocks generalizing done pr i with
  | nil =>
      obtain rfl := foldlM_nil_eq_ok.mp h
      exact ⟨[], rfl, by simpa using hd⟩
  | cons b blocks ih =>
      obtain ⟨hp, hi', htake, hfresh⟩ := roster_step hn hi
      rw [List.zipIdx_cons] at h
      obtain ⟨pr₁, h₁, h⟩ := foldlM_cons_eq_ok.mp h
      obtain ⟨entries, hread, h₁⟩ := settleBlock_eq_ok.mp h₁
      obtain ⟨es, hes, hd₁⟩ := settleList_spec hd hn hp
        (fun e he hpe => absurd (hpe ▸ hb e he) hfresh) h₁
      obtain ⟨lists, hlists, hd'⟩ := ih hd₁ hi' (fun e he => by
        rw [htake]
        rcases List.mem_append.mp he with he | he
        · exact List.mem_append_left _ (hb e he)
        · exact List.mem_append_right _ (by simp [(laneEntries_payer hes e he).1])) h
      refine ⟨es :: lists, mapM_cons_eq_ok.mpr ⟨es, lists, ?_, hlists, rfl⟩, ?_⟩
      · rw [ParticipantBlockMeta.laneEntries, hread]
        exact hes
      · rwa [List.flatten_cons, ← List.append_assoc]

/-- Blocks whose entries are on different lanes that can be raised are settled. -/
theorem exists_settleBlocks {i : Nat} {lists : List (List LaneEntry)}
    (hd : Done env w t ids done pr) (hn : ids.Nodup)
    (hi : ids.drop i = blocks.map (·.participantId)) (hb : ∀ e ∈ done, e.payer ∈ ids.take i)
    (hlists : blocks.mapM (·.laneEntries ids) = .ok lists)
    (hlanes : ((done ++ lists.flatten).map LaneEntry.lane).Nodup)
    (hraise : ∀ e ∈ lists.flatten, Raisable (w.ledger env) t e)
    (hgross : (w.ledger env).gross t (done ++ lists.flatten) < u64Bound) :
    ∃ (used : List Pubkey) (pr' : Progress), ∀ rest,
      (blocks.zipIdx i).foldlM (settleBlock env t) (pr.withRest (used ++ rest))
        = .ok (pr'.withRest rest) := by
  induction blocks generalizing done pr i lists with
  | nil => exact ⟨[], pr, fun rest => rfl⟩
  | cons b blocks ih =>
      obtain ⟨hp, hi', htake, hfresh⟩ := roster_step hn hi
      obtain ⟨es, lists, hes, hlists', rfl⟩ := mapM_cons_eq_ok.mp hlists
      simp only [ParticipantBlockMeta.laneEntries, Except.bind_eq_ok] at hes
      obtain ⟨entries, hread, hes⟩ := hes
      rw [List.flatten_cons, ← List.append_assoc] at hlanes hgross
      have hlanes₁ : ((done ++ es).map LaneEntry.lane).Nodup := by
        rw [List.map_append, List.nodup_append] at hlanes
        exact hlanes.1
      have hgross₁ := (Nat.le_add_right _ _).trans_lt (Ledger.gross_append ▸ hgross)
      have hs : ∀ j, (0 : Nat).testBit j = true →
          ∃ e ∈ done, e.payer = b.participantId ∧ ids[j]? = some e.payee := by simp
      obtain ⟨used₁, pr₁, h₁⟩ := exists_settleList hd hn hp hs hes hlanes₁
        (fun e he => hraise e (by simp [he])) hgross₁
      obtain ⟨es', hes', hd₁⟩ := settleList_spec (hd.withRest _) hn hp
        (fun e he hpe => absurd (hpe ▸ hb e he) hfresh) (h₁ [])
      obtain rfl := Except.ok.inj (hes'.symm.trans hes)
      obtain ⟨used₂, pr₂, h₂⟩ := ih (hd₁.withRest pr₁.channels.rest) hi' (fun e he => by
        rw [htake]
        rcases List.mem_append.mp he with he | he
        · exact List.mem_append_left _ (hb e he)
        · exact List.mem_append_right _ (by simp [(laneEntries_payer hes e he).1])) hlists' hlanes
        (fun e he => hraise e (by simp only [List.flatten_cons, List.mem_append]; exact .inr he))
        hgross
      refine ⟨used₁ ++ used₂, pr₂, fun rest => ?_⟩
      rw [List.zipIdx_cons]
      refine foldlM_cons_eq_ok.mpr ⟨_, settleBlock_eq_ok.mpr ⟨entries, hread, ?_⟩, h₂ rest⟩
      rw [List.append_assoc]
      exact h₁ _

/-! ### The net positions -/

theorem checkPosition_neg {net : U32 → Int} {acc : Nat} (h : net p < 0)
    (hle : (net p).natAbs ≤ (w.ledger env).total t p) (hlt : (net p).natAbs < u64Bound) :
    checkPosition acc (stateOf env w t net p) = .ok acc := by
  simp only [checkPosition, stateOf, h, if_true, Except.bind_eq_ok, tryFrom_eq_ok,
    Except.pure_eq_ok]
  exact ⟨_, ⟨rfl, hlt⟩, (), require_of hle, trivial⟩

theorem checkPosition_nonneg {net : U32 → Int} {acc : Nat} (h : 0 ≤ net p)
    (hlt : acc + (net p).natAbs < u64Bound) :
    checkPosition acc (stateOf env w t net p) = .ok (acc + (net p).natAbs) := by
  have h' : ¬ net p < 0 := by omega
  simp only [checkPosition, stateOf, h', if_false, Except.bind_eq_ok, tryFrom_eq_ok,
    checkedAdd_eq_ok]
  exact ⟨_, ⟨rfl, (Nat.le_add_left _ _).trans_lt hlt⟩, rfl, hlt⟩

/-- Debits that are covered and credits whose sum fits pass the check. -/
theorem exists_checkPositions {net : U32 → Int} {acc : Nat}
    (hneg : ∀ p ∈ ids, net p < 0 →
      (net p).natAbs ≤ (w.ledger env).total t p ∧ (net p).natAbs < u64Bound)
    (hpos : acc + (ids.map fun p => (net p).toNat).sum < u64Bound) :
    ∃ n, (ids.map (stateOf env w t net)).foldlM checkPosition acc = .ok n := by
  induction ids generalizing acc with
  | nil => exact ⟨acc, rfl⟩
  | cons p ids ih =>
      simp only [List.map_cons, List.sum_cons] at hpos
      have hrest := fun q hq => hneg q (List.mem_cons_of_mem _ hq)
      by_cases h : net p < 0
      · obtain ⟨hle, hlt⟩ := hneg p (by simp) h
        have hpos' : acc + (ids.map fun p => (net p).toNat).sum < u64Bound := by omega
        obtain ⟨n, hn⟩ := ih hrest hpos'
        exact ⟨n, foldlM_cons_eq_ok.mpr ⟨acc, checkPosition_neg h hle hlt, hn⟩⟩
      · have hpos' : acc + (net p).natAbs + (ids.map fun p => (net p).toNat).sum < u64Bound := by
          omega
        obtain ⟨n, hn⟩ := ih hrest hpos'
        exact ⟨n, foldlM_cons_eq_ok.mpr ⟨_, checkPosition_nonneg (by omega) (by omega), hn⟩⟩

theorem applyPosition_eq_ok {w₀ : World} {net : U32 → Int} :
    applyPosition t w (stateOf env w₀ t net p) = .ok w' ↔
      World.applyDelta env t w (p, net p) = .ok w' := by
  rw [World.applyDelta_eq_ok]
  by_cases h : net p = 0
  · simp [applyPosition, stateOf, h, eq_comm]
  · simp only [applyPosition, stateOf, h, if_false, Except.bind_eq_ok, Prod.exists,
      editDelta_eq_ok h, Except.pure_eq_ok, false_and, ne_eq, not_false_eq_true, true_and, false_or]
    constructor
    · rintro ⟨_, _, h, rfl⟩
      exact h
    · intro h
      exact ⟨w', (), h, rfl⟩

/-- The last loop applies the nets slot by slot. -/
theorem applyPositions_eq_ok {w₀ : World} {net : U32 → Int} :
    (ids.map (stateOf env w₀ t net)).foldlM (applyPosition t) w = .ok w' ↔
      World.applyDeltas env t (ids.map fun p => (p, net p)) w = .ok w' := by
  induction ids generalizing w with
  | nil => rfl
  | cons p ids ih =>
      simp only [List.map_cons, foldlM_cons_eq_ok, World.applyDeltas_cons, applyPosition_eq_ok, ih]

/-- Nobody outside the roster has a net. -/
theorem keyed_roster {L : Ledger} (hn : ids.Nodup) (h : ∀ e ∈ es, e.payer ∈ ids ∧ e.payee ∈ ids)
    (p : U32) : keyed Prod.fst Prod.snd (ids.map fun p => (p, L.net t es p)) p = L.net t es p := by
  by_cases hp : p ∈ ids
  · have hk : ((ids.map fun p => (p, L.net t es p)).map Prod.fst).Nodup := by
      simpa [Function.comp_def] using hn
    exact keyed_of_mem hk (List.mem_map.mpr ⟨p, hp, rfl⟩)
  · rw [keyed_eq_zero, Ledger.net_eq_zero]
    · rintro e he
      exact ⟨fun e' => hp (e' ▸ (h e he).1), fun e' => hp (e' ▸ (h e he).2)⟩
    · rintro _ ha rfl
      obtain ⟨q, hq, rfl⟩ := List.mem_map.mp ha
      exact hp hq

/-! ### The round -/

theorem entries_eq_ok {layout : ParsedClearingRoundLayout} : layout.entries = .ok es ↔
    ∃ lists, layout.blocks.mapM (·.laneEntries layout.roster) = .ok lists ∧ es = lists.flatten := by
  simp only [ParsedClearingRoundLayout.entries, Except.bind_eq_ok, Except.pure_eq_ok,
    eq_comm (b := es)]

theorem lists_roster {lists : List (List LaneEntry)}
    (h : blocks.mapM (·.laneEntries ids) = .ok lists) (hb : ∀ b ∈ blocks, b.participantId ∈ ids) :
    ∀ e ∈ lists.flatten, e.payer ∈ ids ∧ e.payee ∈ ids := by
  induction blocks generalizing lists with
  | nil => simp [mapM_nil_eq_ok.mp h]
  | cons b blocks ih =>
      obtain ⟨es, lists, hes, hlists, rfl⟩ := mapM_cons_eq_ok.mp h
      simp only [ParticipantBlockMeta.laneEntries, Except.bind_eq_ok] at hes
      obtain ⟨entries, -, hes⟩ := hes
      intro e he
      rcases List.mem_append.mp (List.flatten_cons ▸ he) with he | he
      · obtain ⟨hp, hq⟩ := laneEntries_payer hes e he
        exact ⟨hp ▸ hb b (by simp), hq⟩
      · exact ih hlists (fun b hb' => hb b (List.mem_cons_of_mem _ hb')) e he

/-- The entries of a round are between participants of its roster. -/
theorem entries_roster {layout : ParsedClearingRoundLayout} (h : layout.entries = .ok es) :
    ∀ e ∈ es, e.payer ∈ layout.roster ∧ e.payee ∈ layout.roster := by
  obtain ⟨lists, hlists, rfl⟩ := entries_eq_ok.mp h
  exact lists_roster hlists fun b hb => List.mem_map.mpr ⟨b, hb, rfl⟩

/-- The keys of the blocks that pay, folded into one that passes the check. -/
def Authenticated (env : Env) (w : World) (auth : Authentication α)
    (layout : ParsedClearingRoundLayout) : Prop :=
  ∃ aggregate, aggregateOf auth (payingSnapshots env w layout.tokenId layout.blocks) = .ok aggregate ∧
    auth.verify aggregate = .ok ()

/-- What a success says. -/
theorem settle_spec {remaining : List Pubkey} {layout : ParsedClearingRoundLayout}
    (hl : Located env w) (h : settle env w auth remaining layout = .ok w') :
    ∃ es, layout.entries = .ok es ∧ layout.roster.Nodup ∧
      (∀ p ∈ layout.roster, Known env w layout.tokenId p) ∧ Authenticated env w auth layout ∧
      (w.ledger env).Settles layout.tokenId es (w'.ledger env) ∧ Located env w' ∧
      BucketsOnly w w' := by
  simp only [settle, Except.bind_eq_ok, require_eq_ok, exists_const, tryFrom_eq_ok,
    Except.pure_eq_ok] at h
  obtain ⟨roster, hroster, _, hverify, pr, hloop, -, _, -, w₁, hfold, _, -, _, -, rfl⟩ := h
  have ho := openBlocks_spec hl (.nil _) hroster
  rw [List.nil_append] at ho
  have hn : layout.roster.Nodup := ho.nodup
  have hstates : roster.states = layout.roster.map (stateOf env w layout.tokenId fun _ => 0) := by
    rw [ho.states, ParsedClearingRoundLayout.roster, List.map_map]
    rfl
  rw [hstates] at hloop
  obtain ⟨lists, hlists, hd⟩ := settleBlocks_spec (.nil hl _) hn rfl (by simp) hloop
  rw [List.nil_append] at hd
  have hentries : layout.entries = .ok lists.flatten := entries_eq_ok.mpr ⟨lists, hlists, rfl⟩
  have hmem := entries_roster hentries
  rw [hd.states] at hfold
  have hshift := Shifted.of_applyDeltas (by simpa [Function.comp_def] using hn)
    (applyPositions_eq_ok.mp hfold)
  have hknown : ∀ p ∈ layout.roster, Known env w layout.tokenId p := fun p hp => by
    obtain ⟨b, hb, rfl⟩ := List.mem_map.mp hp
    exact ho.known b hb
  have hsome : ∀ p ∈ layout.roster, (w.slot env p).isSome := fun p hp => by
    obtain ⟨s, hs, -, -⟩ := hknown p hp
    simp [hs]
  exact ⟨_, hentries, hn, hknown, ⟨_, ho.aggregate, hverify⟩,
    hd.lanes.settles hshift (fun p _ => keyed_roster hn hmem p)
      fun e he => ⟨hsome _ (hmem e he).1, hsome _ (hmem e he).2⟩⟩

/-- A well-formed round whose lanes can be raised and whose nets can be applied is settled, with the
right accounts. -/
theorem exists_settle {layout : ParsedClearingRoundLayout} (hl : Located env w)
    (hn : layout.roster.Nodup) (hes : layout.entries = .ok es)
    (hlanes : (es.map LaneEntry.lane).Nodup)
    (hknown : ∀ p ∈ layout.roster, Known env w layout.tokenId p)
    (ha : Authenticated env w auth layout)
    (hraise : ∀ e ∈ es, Raisable (w.ledger env) layout.tokenId e)
    (hgross : (w.ledger env).gross layout.tokenId es < u64Bound)
    (hnets : ∀ p ∈ layout.roster, ∃ s s', w.slot env p = some s ∧
      s.withTokenDelta layout.tokenId ((w.ledger env).net layout.tokenId es p) = .ok s')
    (hblocks : layout.blocks.length < 2 ^ 16) (hcount : layout.channelCount < 2 ^ 16) :
    ∃ remaining w', settle env w auth remaining layout = .ok w' := by
  obtain ⟨lists, hlists, rfl⟩ := entries_eq_ok.mp hes
  obtain ⟨aggregate, hagg, hverify⟩ := ha
  obtain ⟨used₁, r, hroster⟩ := exists_openBlocks hl (.nil []) (fun b hb =>
    hknown _ (List.mem_map.mpr ⟨b, hb, rfl⟩)) hn ⟨aggregate, hagg⟩
  have ho := openBlocks_spec hl ((Opened.nil []).withRest _) (hroster [])
  rw [List.nil_append] at ho
  obtain rfl := Except.ok.inj (ho.aggregate.symm.trans hagg)
  have hstates : r.states = layout.roster.map (stateOf env w layout.tokenId fun _ => 0) := by
    have := ho.states
    rw [ParsedClearingRoundLayout.roster, List.map_map]
    exact this
  have hdrop : layout.roster.drop 0 = layout.blocks.map (·.participantId) := rfl
  obtain ⟨used₂, pr, hloop⟩ := exists_settleBlocks (.nil hl []) hn hdrop (by simp) hlists
    (by simpa using hlanes) hraise (by simpa using hgross)
  obtain ⟨lists', hlists', hd⟩ := settleBlocks_spec ((Done.nil hl []).withRest _) hn hdrop (by simp)
    (hloop [])
  obtain rfl := Except.ok.inj (hlists.symm.trans hlists')
  rw [List.nil_append] at hd
  have hneg : ∀ p ∈ layout.roster, (w.ledger env).net layout.tokenId lists.flatten p < 0 →
      ((w.ledger env).net layout.tokenId lists.flatten p).natAbs
        ≤ (w.ledger env).total layout.tokenId p ∧
      ((w.ledger env).net layout.tokenId lists.flatten p).natAbs < u64Bound := fun p hp hlt => by
    obtain ⟨s, s', hs, hdelta⟩ := hnets p hp
    obtain ⟨n, hn⟩ := Int.eq_ofNat_of_zero_le (Int.neg_nonneg_of_nonpos hlt.le)
    have hnet : (w.ledger env).net layout.tokenId lists.flatten p = -n := by omega
    rw [hnet] at hdelta ⊢
    obtain ⟨e, he, htot, hle, -⟩ :=
      (ParticipantBucketSlot.withTokenDelta_debit (by omega)).mp hdelta
    rw [Ledger.total_of_slot (L := w.ledger env) hs, ParticipantBucketSlot.balance_of_tokenEntry he]
    omega
  have hpos : 0 + (layout.roster.map fun p =>
      ((w.ledger env).net layout.tokenId lists.flatten p).toNat).sum < u64Bound := by
    have h₁ : (layout.roster.map fun p =>
        ((w.ledger env).net layout.tokenId lists.flatten p).toNat).sum
          ≤ (layout.roster.map ((w.ledger env).paidTo layout.tokenId lists.flatten)).sum :=
      List.sum_le_sum fun p _ => by simp only [Ledger.net]; omega
    have h₂ := sum_keyed_le (·.payee) ((w.ledger env).delta layout.tokenId) lists.flatten hn
    simp only [Ledger.gross] at hgross
    exact (Nat.zero_add _).trans_lt ((h₁.trans h₂).trans_lt hgross)
  obtain ⟨n, hcheck⟩ := exists_checkPositions hneg hpos
  obtain ⟨w', hw'⟩ : ∃ w', World.applyDeltas env layout.tokenId (layout.roster.map fun p =>
      (p, (w.ledger env).net layout.tokenId lists.flatten p)) pr.world = .ok w' := exists_applyDeltas
    (by simpa [Function.comp_def] using hn) (fun d hd' _ => by
      obtain ⟨p, hp, rfl⟩ := List.mem_map.mp hd'
      rw [show pr.world.slot env = w.slot env from hd.lanes.slot]
      exact hnets p hp)
  refine ⟨used₁ ++ used₂, w', ?_⟩
  simp only [settle, Except.bind_eq_ok, require_eq_ok, exists_const, tryFrom_eq_ok,
    Except.pure_eq_ok]
  refine ⟨r.withRest used₂, hroster _, (), hverify, pr.withRest [], ?_, rfl, n, ?_, w', ?_, _,
    ⟨rfl, hblocks⟩, _, ⟨rfl, hcount⟩, rfl⟩
  · have := hloop []
    rw [List.append_nil, ← hstates] at this
    exact this
  · rw [hd.states]
    exact hcheck
  · rw [hd.states]
    exact applyPositions_eq_ok.mpr hw'

end SettleClearingRound

end Ryvo
