import Ryvo.Instructions.SettleClearingRound
import Ryvo.Settlement.Individual

/-!
# Settlement — The roster of a clearing round

The first loop of `settle_clearing_round` opens one block a participant: it must exist, and come up once, and where it pays its key joins the aggregate.  `Opened` is what holds in between; `openBlocks_spec` and `exists_openBlocks` say what the loop leaves behind and when it succeeds.
-/

namespace Ryvo

variable {env : Env} {w w' : World} {k : Pubkey} {t : U16} {p : U32}

/-- What a clearing round reads of a participant. -/
def clearingSnapshot (s : ParticipantBucketSlot) (t : U16) : ParticipantClearingSnapshot :=
  ⟨s.owner, s.blsSchemeVersion, s.blsPubkeyCompressed, (s.balance t).total⟩

theorem readClearingSnapshot_eq_ok {snapshot : ParticipantClearingSnapshot} :
    (∃ b, w.getParticipantBucket (slotKey env p) = .ok b ∧
      b.readClearingSnapshotFromData p t = .ok snapshot) ↔
    ∃ s, w.slot env p = some s ∧ (s.balance t).total < u64Bound ∧
      snapshot = clearingSnapshot s t := by
  have hread : ∀ (s : ParticipantBucketSlot) (n : Nat), s.readTokenTotalBalanceOrZero t = .ok n ↔
      n = (s.balance t).total ∧ (s.balance t).total < u64Bound := fun s n => by
    unfold ParticipantBucketSlot.readTokenTotalBalanceOrZero
    cases h : s.tokenEntry t with
    | none =>
        rw [ParticipantBucketSlot.balance_of_none h]
        simp [BucketTokenBalance.total, BucketTokenBalance.fresh, BucketTokenBalance.empty, eq_comm]
    | some e =>
        rw [ParticipantBucketSlot.balance_of_tokenEntry h]
        simp [BucketTokenBalance.total]
  simp only [World.getParticipantBucket, okOr_eq_ok, ParticipantBucket.readClearingSnapshotFromData,
    Except.bind_eq_ok, hread, Except.pure_eq_ok, ← ParticipantBucket.slot?_eq_some, slot_eq_some]
  constructor
  · rintro ⟨b, hb, s, hs, _, ⟨rfl, hlt⟩, rfl⟩
    exact ⟨s, ⟨b, hb, hs⟩, hlt, rfl⟩
  · rintro ⟨s, ⟨b, hb, hs⟩, hlt, rfl⟩
    exact ⟨b, hb, s, hs, _, ⟨rfl, hlt⟩, rfl⟩

namespace SettleClearingRound

variable {α : Type} {auth : Authentication α} {r r' : Roster α}
variable {block : ParticipantBlockMeta} {blocks opened : List ParticipantBlockMeta}

/-- The snapshots of the blocks that pay. -/
def payingSnapshots (env : Env) (w : World) (t : U16) (blocks : List ParticipantBlockMeta) :
    List ParticipantClearingSnapshot :=
  blocks.filterMap fun b =>
    if 0 < b.entryCount then (w.slot env b.participantId).map (clearingSnapshot · t) else none

/-- The keys of a list of snapshots, folded into one. -/
def aggregateOf (auth : Authentication α) (snapshots : List ParticipantClearingSnapshot) :
    Result (Option α) :=
  snapshots.foldlM (fun aggregate snapshot => some <$> auth.fold aggregate snapshot) none

/-- A participant of the round that exists, with a total that fits. -/
def Known (env : Env) (w : World) (t : U16) (p : U32) : Prop :=
  ∃ s, w.slot env p = some s ∧ s.owner ≠ Pubkey.default ∧ (s.balance t).total < u64Bound

/-- A participant's state with a net position. -/
def stateOf (env : Env) (w : World) (t : U16) (net : U32 → Int) (p : U32) : ParticipantRoundState :=
  ⟨p, slotKey env p, (w.ledger env).total t p, net p⟩

/-- What holds after the blocks of `opened`. -/
structure Opened (env : Env) (w : World) (auth : Authentication α) (t : U16)
    (opened : List ParticipantBlockMeta) (r : Roster α) : Prop where
  seen : ∀ x, x ∈ r.seenParticipantIds ↔ x ∈ opened.map (·.participantId)
  nodup : (opened.map (·.participantId)).Nodup
  bound : Bindings.BoundTo (fun id => env.address (.participantBucket id)) r.participants.bound
  states : r.states = opened.map fun b => stateOf env w t (fun _ => 0) b.participantId
  known : ∀ b ∈ opened, Known env w t b.participantId
  aggregate : aggregateOf auth (payingSnapshots env w t opened) = .ok r.aggregate

theorem Opened.nil (rest : List Pubkey) :
    Opened env w auth t [] ⟨[], ⟨[], rest⟩, [], none⟩ :=
  ⟨by simp, by simp, .nil, rfl, by simp, rfl⟩

theorem payingSnapshots_append {s : ParticipantBucketSlot}
    (hs : w.slot env block.participantId = some s) : payingSnapshots env w t (opened ++ [block])
      = payingSnapshots env w t opened ++
        if 0 < block.entryCount then [clearingSnapshot s t] else [] := by
  simp only [payingSnapshots, List.filterMap_append, List.append_cancel_left_eq,
    List.filterMap_cons, List.filterMap_nil, hs, Option.map_some]
  by_cases h : 0 < block.entryCount <;> simp [h]

/-- Folding in one more block. -/
theorem aggregateOf_snoc {s : ParticipantBucketSlot} {a a' : Option α}
    (hs : w.slot env block.participantId = some s)
    (ha : aggregateOf auth (payingSnapshots env w t opened) = .ok a) :
    aggregateOf auth (payingSnapshots env w t (opened ++ [block])) = .ok a' ↔
      foldIfPaying auth a (clearingSnapshot s t) block.entryCount = .ok a' := by
  rw [payingSnapshots_append hs]
  simp only [aggregateOf, List.foldlM_append, Except.bind_eq_ok] at ha ⊢
  rw [ha]
  simp only [Except.ok.injEq, exists_eq_left', foldIfPaying]
  split
  · simp
  · simp only [List.foldlM_nil, Except.pure_eq_ok, Except.ok.injEq]

/-- One more block. -/
theorem openBlock_spec (hl : Located env w) (ho : Opened env w auth t opened r)
    (h : openBlock env w auth t r block = .ok r') : Opened env w auth t (opened ++ [block]) r' := by
  simp only [openBlock, insertUniqueSorted, Except.bind_eq_ok, require_eq_ok, exists_const,
    Prod.exists, Except.pure_eq_ok] at h
  obtain ⟨seen, ⟨hnew, rfl⟩, participants, account, hbind, data, hdata, snapshot, hsnap, howner,
    aggregate, hagg, rfl⟩ := h
  obtain ⟨rfl, hbound⟩ := ho.bound.bind Bindings.enters_insertSorted
    (fun k hv => ((verifyParticipantBucket hl).mp hv).1) hbind
  obtain ⟨s, hs, hlt, rfl⟩ := readClearingSnapshot_eq_ok.mp ⟨data, hdata, hsnap⟩
  rw [ho.seen] at hnew
  refine ⟨fun x => ?_, ?_, hbound, ?_, fun b hb => ?_, (aggregateOf_snoc hs ho.aggregate).mpr hagg⟩
  · simp only [List.mem_orderedInsert, ho.seen, List.map_append, List.map_cons, List.map_nil,
      List.mem_append, List.mem_singleton, or_comm]
  · rw [List.map_append, List.nodup_append]
    exact ⟨ho.nodup, by simp, by
      rintro a ha b hb rfl
      simp only [List.map_cons, List.map_nil, List.mem_singleton] at hb
      exact hnew (hb ▸ ha)⟩
  · rw [ho.states, List.map_append, List.map_cons, List.map_nil]
    simp only [stateOf, clearingSnapshot, Ledger.total_of_slot (L := w.ledger env) hs]
    rfl
  · rcases List.mem_append.mp hb with hb | hb
    · exact ho.known b hb
    · obtain rfl := List.mem_singleton.mp hb
      exact ⟨s, hs, howner, hlt⟩

theorem openBlocks_spec (hl : Located env w) (ho : Opened env w auth t opened r)
    (h : blocks.foldlM (openBlock env w auth t) r = .ok r') :
    Opened env w auth t (opened ++ blocks) r' := by
  induction blocks generalizing opened r with
  | nil =>
      obtain rfl := foldlM_nil_eq_ok.mp h
      simpa using ho
  | cons b blocks ih =>
      obtain ⟨r₁, h₁, h⟩ := foldlM_cons_eq_ok.mp h
      have := ih (openBlock_spec hl ho h₁) h
      rwa [List.append_assoc, List.singleton_append] at this

/-- The accounts not used yet. -/
def Roster.withRest (r : Roster α) (rest : List Pubkey) : Roster α :=
  { r with participants := ⟨r.participants.bound, rest⟩ }

theorem Opened.withRest (ho : Opened env w auth t opened r) (rest : List Pubkey) :
    Opened env w auth t opened (r.withRest rest) :=
  ⟨ho.seen, ho.nodup, ho.bound, ho.states, ho.known, ho.aggregate⟩

theorem exists_openBlock (hl : Located env w) (ho : Opened env w auth t opened r)
    (hk : Known env w t block.participantId)
    (hn : block.participantId ∉ opened.map (·.participantId))
    (ha : ∃ a, aggregateOf auth (payingSnapshots env w t (opened ++ [block])) = .ok a) :
    ∃ (used : List Pubkey) (r' : Roster α), ∀ rest,
      openBlock env w auth t (r.withRest (used ++ rest)) block = .ok (r'.withRest rest) := by
  obtain ⟨s, hs, howner, hlt⟩ := hk
  obtain ⟨a, ha⟩ := ha
  have hv := (verifyParticipantBucket hl).mpr ⟨rfl, isSome_bucket_of_slot hs⟩
  obtain ⟨used, bound', -, hbind⟩ := Bindings.exists_bind .invalidClearingRoundMessage
    (ParticipantBucket.verifyAccountInfo env w) Bindings.enters_insertSorted hv ho.bound
  obtain ⟨data, hdata, hsnap⟩ := readClearingSnapshot_eq_ok.mpr ⟨s, hs, hlt, rfl⟩
  refine ⟨used, ⟨r.seenParticipantIds.orderedInsert (· ≤ ·) block.participantId, ⟨bound', []⟩,
    r.states ++ [⟨block.participantId, slotKey env block.participantId,
      (clearingSnapshot s t).tokenTotalBalance, 0⟩], a⟩, fun rest => ?_⟩
  simp only [openBlock, insertUniqueSorted, Except.bind_eq_ok, require_eq_ok, exists_const,
    Prod.exists, Except.pure_eq_ok]
  exact ⟨_, ⟨fun hm => hn ((ho.seen _).mp hm), rfl⟩, _, _, hbind rest, data, hdata, _, hsnap, howner,
    a, (aggregateOf_snoc hs ho.aggregate).mp ha, rfl⟩

theorem exists_openBlocks (hl : Located env w) (ho : Opened env w auth t opened r)
    (hk : ∀ b ∈ blocks, Known env w t b.participantId)
    (hn : ((opened ++ blocks).map (·.participantId)).Nodup)
    (ha : ∃ a, aggregateOf auth (payingSnapshots env w t (opened ++ blocks)) = .ok a) :
    ∃ (used : List Pubkey) (r' : Roster α), ∀ rest,
      blocks.foldlM (openBlock env w auth t) (r.withRest (used ++ rest)) = .ok (r'.withRest rest) := by
  induction blocks generalizing opened r with
  | nil => exact ⟨[], r, fun rest => rfl⟩
  | cons b blocks ih =>
      have happ : opened ++ b :: blocks = (opened ++ [b]) ++ blocks := by simp
      rw [happ] at hn ha
      have hnew : b.participantId ∉ opened.map (·.participantId) := by
        rw [List.map_append, List.nodup_append] at hn
        have := hn.1
        simp only [List.map_append, List.map_cons, List.map_nil, List.nodup_append,
          List.mem_singleton] at this
        exact fun hm => this.2.2 _ hm _ rfl rfl
      have ha₁ : ∃ a, aggregateOf auth (payingSnapshots env w t (opened ++ [b])) = .ok a := by
        obtain ⟨a, ha⟩ := ha
        simp only [payingSnapshots, List.filterMap_append (l := opened ++ [b]), aggregateOf,
          List.foldlM_append, Except.bind_eq_ok] at ha ⊢
        exact ha.imp fun _ h => h.1
      obtain ⟨used₁, r₁, h₁⟩ := exists_openBlock hl ho (hk b (by simp)) hnew ha₁
      have ho₁ : Opened env w auth t (opened ++ [b]) r₁ :=
        (openBlock_spec hl (ho.withRest _) (h₁ [])).withRest r₁.participants.rest
      obtain ⟨used₂, r₂, h₂⟩ := ih ho₁ (fun b hb => hk b (List.mem_cons_of_mem _ hb)) hn ha
      refine ⟨used₁ ++ used₂, r₂, fun rest => foldlM_cons_eq_ok.mpr ⟨_, ?_, h₂ rest⟩⟩
      rw [List.append_assoc]
      exact h₁ _

end SettleClearingRound

end Ryvo
