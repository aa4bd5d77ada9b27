import Ryvo.Instructions.ByIndex
import Ryvo.Settlement.Bundle
import Mathlib.Data.List.Sort

/-!
# Settlement — By index and by account

The handlers that keep indices do what the handlers that keep accounts do, with the same errors: `handler_eq`, for each of the three.
-/

namespace Ryvo

variable {env : Env} {w : World} {remaining : List Pubkey} {t : U16} {index : Nat}

theorem remainingAccount_of_lt (h : index < remaining.length) :
    remainingAccount remaining index = .ok (remaining.getD index Pubkey.default) := by
  simp [remainingAccount, okOr, List.getElem?_eq_getElem h]

theorem remainingAccount_eq_getElem (h : index < remaining.length) :
    remainingAccount remaining index = .ok remaining[index] := by
  simp [remainingAccount, okOr, List.getElem?_eq_getElem h]

/-- A vector that fits has used all accounts when it has used the last. -/
theorem drop_eq_nil_iff {next : Nat} (h : next ≤ remaining.length) :
    remaining.drop next = [] ↔ next = remaining.length := by
  rw [List.drop_eq_nil_iff]
  omega

section Unique

variable {κ : Type} [LinearOrder κ] {e : VaultError} {values : List κ} {value : κ}

theorem orderedInsert_eq {i : Nat} (h : Splits id values value i) :
    values.insertIdx i value = values.orderedInsert (· ≤ ·) value := by
  induction values generalizing i with
  | nil =>
      obtain rfl : i = 0 := by simpa using h.le
      rfl
  | cons y ys ih =>
      cases i with
      | zero =>
          have hlt : value < y := h.after 0 y rfl (Nat.le_refl _)
          rw [List.orderedInsert_cons, if_pos hlt.le]
          rfl
      | succ i =>
          have hlt : y < value := h.before 0 y rfl (by omega)
          rw [List.orderedInsert_cons, if_neg hlt.not_ge, List.insertIdx_succ_cons, ih h.tail]

theorem insertUnique_agrees (hv : SortedBy id values) :
    Agrees (fun a b => a = b ∧ SortedBy id a) (insertUnique e values value)
      (insertUniqueSorted e values value) := by
  unfold insertUnique insertUniqueSorted
  cases h : binarySearchByKey id values value with
  | ok i =>
      obtain ⟨y, hy, rfl⟩ := binarySearchByKey_ok h
      have hmem : id y ∈ values := List.mem_of_getElem? hy
      simp only [require, hmem, not_true_eq_false, if_false]
      exact .error _
  | error i =>
      have hs := binarySearchByKey_error hv h
      have hnew : value ∉ values := fun hm => hs.notMem value hm rfl
      simp only [require, hnew, not_false_eq_true, if_true]
      exact .ok ⟨orderedInsert_eq hs, sortedBy_insertIdx hv hs⟩

end Unique

namespace SettleClearingRound

variable {α : Type} {auth : Authentication α}

/-- The state with the account its index is of. -/
def resolve (remaining : List Pubkey) (s : ByIndex.ParticipantRoundState) : ParticipantRoundState :=
  ⟨s.participantId, remaining.getD s.bucketAccount Pubkey.default, s.tokenTotalBalance,
    s.netPosition⟩

/-- The indices are in range, and the states are resolved. -/
structure SameStates (remaining : List Pubkey) (s : List ByIndex.ParticipantRoundState)
    (s' : List ParticipantRoundState) : Prop where
  range : ∀ x ∈ s, x.bucketAccount < remaining.length
  resolved : s' = s.map (resolve remaining)

structure SameRoster (remaining : List Pubkey) (r : ByIndex.Roster α) (r' : Roster α) : Prop where
  seen : r'.seenParticipantIds = r.seenParticipantIds
  sorted : SortedBy id r.seenParticipantIds
  participants : r'.participants = ⟨IndexBindings.accounts remaining r.participantBucketBindings,
    remaining.drop r.nextParticipantBucketAccountIndex⟩
  fits : IndexBindings.Fits (SortedBy Prod.fst) remaining r.participantBucketBindings
    r.nextParticipantBucketAccountIndex
  states : SameStates remaining r.states r'.states
  aggregate : r'.aggregate = r.aggregate

theorem openBlock_agrees {r : ByIndex.Roster α} {r' : Roster α} {block : ParticipantBlockMeta}
    (h : SameRoster remaining r r') : Agrees (SameRoster remaining)
      (ByIndex.openBlock env w auth remaining t r block) (openBlock env w auth t r' block) := by
  unfold ByIndex.openBlock openBlock
  rw [h.seen, h.participants, h.aggregate]
  refine (insertUnique_agrees h.sorted).bind fun seen _ _ hseen => ?_
  obtain ⟨rfl, hsorted⟩ := hseen
  refine (IndexBindings.bind_agrees IndexBindings.searches_sorted h.fits).bind fun a b _ hab => ?_
  obtain ⟨bindings, next, index⟩ := a
  obtain ⟨rfl, hlt, hfits, -⟩ := hab
  dsimp only at hlt hfits ⊢
  rw [remainingAccount_of_lt hlt, Except.ok_bind]
  refine Agrees.bind_same fun data _ => Agrees.bind_same fun snapshot _ =>
    Agrees.bind_same fun _ _ => Agrees.bind_same fun aggregate _ => .ok ?_
  refine ⟨rfl, hsorted, rfl, hfits, ⟨fun x hx => ?_, ?_⟩, rfl⟩
  · rcases List.mem_append.mp hx with hx | hx
    · exact h.states.range x hx
    · obtain rfl := List.mem_singleton.mp hx
      exact hlt
  · rw [h.states.resolved, List.map_append]
    rfl

theorem openBlocks_agrees {layout : ParsedClearingRoundLayout} : Agrees (SameRoster remaining)
    (ByIndex.openBlocks env w auth remaining layout)
    (layout.blocks.foldlM (openBlock env w auth layout.tokenId) ⟨[], ⟨[], remaining⟩, [], none⟩) := by
  refine Agrees.foldlM (fun _ _ _ _ h => openBlock_agrees h) ⟨rfl, List.Pairwise.nil, rfl, ?_, ?_, rfl⟩
  · exact .nil IndexBindings.searches_sorted (Nat.zero_le _)
  · exact ⟨by simp, rfl⟩

/-! ### The lanes -/

structure SameProgress (remaining : List Pubkey) (next : Nat) (p : ByIndex.Progress)
    (p' : Progress) : Prop where
  world : p'.world = p.world
  channels : p'.channels = ⟨IndexBindings.accounts remaining p.channelBucketBindings,
    remaining.drop (next + p.channelBucketBindings.length)⟩
  fits : IndexBindings.Fits (SortedBy Prod.fst) remaining p.channelBucketBindings
    (next + p.channelBucketBindings.length)
  states : SameStates remaining p.states p'.states
  totalGross : p'.totalGross = p.totalGross

theorem addPosition_agrees {s : List ByIndex.ParticipantRoundState} {s' : List ParticipantRoundState}
    {delta : Int} (h : SameStates remaining s s') :
    Agrees (SameStates remaining) (addPosition s index delta) (addPosition s' index delta) := by
  unfold addPosition
  rw [h.resolved, List.getElem?_map]
  cases hx : s[index]? with
  | none => exact .error _
  | some x =>
      simp only [Option.map_some, okOr, Except.ok_bind]
      refine Agrees.bind_same fun net _ => .ok ⟨fun y hy => ?_, ?_⟩
      · rcases List.mem_or_eq_of_mem_set hy with hy | rfl
        · exact h.range y hy
        · exact h.range x (List.mem_of_getElem? hx)
      · rw [List.map_set]
        rfl

theorem settleLane_agrees {next i : Nat} {p : ByIndex.Progress} {p' : Progress} {entry : ChannelEntry}
    (h : SameProgress remaining next p p') : Agrees (SameProgress remaining next)
      (ByIndex.settleLane env remaining next t i p entry) (settleLane env t i p' entry) := by
  unfold ByIndex.settleLane settleLane
  rw [h.world, h.channels, h.totalGross, h.states.resolved, List.getElem?_map, List.getElem?_map]
  cases p.states[i]? with
  | none => exact .error _
  | some payer =>
  cases p.states[entry.payeeRef]? with
  | none => exact .error _
  | some payee =>
  simp only [Option.map_some, okOr, Except.ok_bind]
  refine Agrees.bind_same fun pair _ => ?_
  obtain ⟨lower, higher, selector⟩ := pair
  refine Agrees.bind_same fun id _ => ?_
  refine (IndexBindings.bind_agrees IndexBindings.searches_sorted h.fits).bind fun a b _ hab => ?_
  obtain ⟨bindings, next', index⟩ := a
  obtain ⟨rfl, hlt, hfits, hnext⟩ := hab
  dsimp only at hlt hfits hnext ⊢
  obtain rfl : next' = next + bindings.length := by omega
  rw [remainingAccount_of_lt hlt, Except.ok_bind]
  refine Agrees.bind_same fun data _ => Agrees.bind_same fun lane _ => Agrees.bind_same fun _ _ =>
    Agrees.bind_same fun delta _ => Agrees.bind_same fun gross _ => Agrees.bind_same fun uncovered _ => ?_
  refine (addPosition_agrees ⟨h.states.range, rfl⟩).bind fun s₁ s₁' _ h₁ => ?_
  refine (addPosition_agrees h₁).bind fun s₂ s₂' _ h₂ => ?_
  exact Agrees.bind_same fun _ _ => .ok ⟨rfl, rfl, hfits, h₂, rfl⟩

theorem settleEntries_agrees {next i n seen : Nat} {msg : List UInt8} {p : ByIndex.Progress}
    {p' : Progress} (h : SameProgress remaining next p p') : Agrees (SameProgress remaining next)
      (ByIndex.settleEntries env remaining next t i n msg seen p) (settleEntries env t i n msg seen p') := by
  induction n generalizing msg seen p p' with
  | zero => exact .ok h
  | succ n ih =>
      unfold ByIndex.settleEntries settleEntries
      refine Agrees.bind_same fun x _ => ?_
      obtain ⟨entry, rest⟩ := x
      dsimp only
      rw [h.states.resolved, List.length_map]
      exact Agrees.bind_same fun _ _ => Agrees.bind_same fun _ _ =>
        (settleLane_agrees h).bind fun _ _ _ h' => ih h'

theorem settleBlocks_agrees {layout : ParsedClearingRoundLayout} {r : ByIndex.Roster α} {r' : Roster α}
    (h : SameRoster remaining r r') :
    Agrees (SameProgress remaining r.nextParticipantBucketAccountIndex)
      (ByIndex.settleBlocks env w remaining layout r)
      (layout.blocks.zipIdx.foldlM (settleBlock env layout.tokenId)
        ⟨w, ⟨[], r'.participants.rest⟩, r'.states, 0⟩) := by
  refine Agrees.foldlM (fun _ _ _ _ h => settleEntries_agrees h) ⟨rfl, ?_, ?_, h.states, rfl⟩
  · rw [h.participants]
    rfl
  · exact .nil IndexBindings.searches_sorted h.fits.le

/-! ### The net positions -/

theorem checkPosition_resolve {n : Nat} {s : ByIndex.ParticipantRoundState} :
    checkPosition n (resolve remaining s) = checkPosition n s := rfl

theorem applyPosition_resolve {s : ByIndex.ParticipantRoundState}
    (h : s.bucketAccount < remaining.length) :
    applyPosition t w (resolve remaining s) = ByIndex.applyPosition remaining t w s := by
  simp only [applyPosition, ByIndex.applyPosition, remainingAccount_of_lt h, Except.ok_bind]
  rfl

theorem applyPositions_resolve {s : List ByIndex.ParticipantRoundState}
    (h : ∀ x ∈ s, x.bucketAccount < remaining.length) :
    (s.map (resolve remaining)).foldlM (applyPosition t) w =
      s.foldlM (ByIndex.applyPosition remaining t) w := by
  induction s generalizing w with
  | nil => rfl
  | cons x s ih =>
      rw [List.map_cons, List.foldlM_cons, List.foldlM_cons,
        applyPosition_resolve (h x List.mem_cons_self)]
      exact bind_congr fun w => ih fun y hy => h y (List.mem_cons_of_mem _ hy)

theorem settle_eq {layout : ParsedClearingRoundLayout} :
    ByIndex.settle env w auth remaining layout = settle env w auth remaining layout := by
  refine Agrees.eq ?_
  unfold ByIndex.settle settle
  refine openBlocks_agrees.bind fun r r' _ hr => ?_
  rw [hr.aggregate]
  refine Agrees.bind_same fun _ _ => (settleBlocks_agrees hr).bind fun p p' _ hp => ?_
  have hrest : p'.channels.rest = [] ↔
      r.nextParticipantBucketAccountIndex + p.channelBucketBindings.length = remaining.length := by
    rw [hp.channels]
    exact drop_eq_nil_iff hp.fits.le
  rw [hp.world, hp.states.resolved, List.foldlM_map, applyPositions_resolve hp.states.range]
  simp only [hrest, checkPosition_resolve]
  exact Agrees.refl _

/-- **`settle_clearing_round`**, by index and by account. -/
theorem handler_eq {sysvar : InstructionsSysvar} {message : List UInt8} {signature : Bytes 48} :
    ByIndex.handler env w remaining sysvar message signature =
      handler env w sysvar remaining message signature := by
  unfold ByIndex.handler handler
  simp only [settle_eq]

end SettleClearingRound

namespace DepositFor

structure SameProgress (remaining : List Pubkey) (p : ByIndex.Progress) (p' : World × Bindings U32) :
    Prop where
  world : p'.1 = p.world
  buckets : p'.2 = ⟨IndexBindings.accounts remaining p.bucketBindings,
    remaining.drop p.nextBucketAccountIndex⟩
  fits : IndexBindings.Fits (fun b => (b.map Prod.fst).Nodup) remaining p.bucketBindings
    p.nextBucketAccountIndex

theorem creditOne_agrees {p : ByIndex.Progress} {p' : World × Bindings U32} {x : U32 × Nat}
    (h : SameProgress remaining p p') : Agrees (SameProgress remaining)
      (ByIndex.creditOne env remaining t p x) (creditOne env t p' x) := by
  obtain ⟨w', bindings⟩ := p'
  obtain ⟨rfl, rfl, hfits⟩ := h
  unfold ByIndex.creditOne creditOne
  refine Agrees.bind_same fun _ _ => ?_
  refine (IndexBindings.bind_agrees IndexBindings.searches_front hfits).bind fun a b _ hab => ?_
  obtain ⟨bindings, next, index⟩ := a
  obtain ⟨rfl, hlt, hfits', -⟩ := hab
  dsimp only at hlt hfits' ⊢
  rw [remainingAccount_of_lt hlt, Except.ok_bind]
  exact Agrees.bind_same fun _ _ => .ok ⟨rfl, rfl, hfits'⟩

theorem credits_agree {l : List (U32 × Nat)} : Agrees (SameProgress remaining)
    (l.foldlM (ByIndex.creditOne env remaining t) ⟨w, [], 0⟩)
    (l.foldlM (creditOne env t) (w, ⟨[], remaining⟩)) :=
  Agrees.foldlM (fun _ _ _ _ h => creditOne_agrees h)
    ⟨rfl, rfl, .nil IndexBindings.searches_front (Nat.zero_le _)⟩

/-- **`deposit_for`**, by index and by account. -/
theorem handler_eq {funder source : Pubkey} {participantIds : List U32} {amounts : List Nat} :
    ByIndex.handler env w remaining funder source t participantIds amounts =
      handler env w funder source remaining t participantIds amounts := by
  refine Agrees.eq ?_
  unfold ByIndex.handler handler
  iterate 10 refine Agrees.bind_same fun _ _ => ?_
  refine Agrees.bind_same fun w _ => ?_
  refine credits_agree.bind fun p p' _ hp => ?_
  obtain ⟨w', bindings⟩ := p'
  obtain ⟨rfl, rfl, hfits⟩ := hp
  simp only [drop_eq_nil_iff hfits.le]
  exact Agrees.refl _

end DepositFor

namespace SettleCommitmentBundle

open SettleIndividual (accountOf verifyBucket)

/-! ### The participant buckets -/

theorem addUnseen_snd {l ids sorted : List U32} (hs : SortedBy id sorted)
    (hm : ∀ x, x ∈ sorted ↔ x ∈ ids) :
    (l.foldl ByIndex.addUnseen (sorted, ids)).2 = l.foldl pushUnseen ids := by
  induction l generalizing ids sorted with
  | nil => rfl
  | cons a l ih =>
      rw [List.foldl_cons, List.foldl_cons]
      cases h : binarySearchByKey id sorted a with
      | ok i =>
          obtain ⟨y, hy, rfl⟩ := binarySearchByKey_ok h
          have hseen : id y ∈ ids := (hm _).mp (List.mem_of_getElem? hy)
          simp only [ByIndex.addUnseen, h, pushUnseen, hseen, if_true]
          exact ih hs hm
      | error i =>
          have hsplit := binarySearchByKey_error hs h
          have hnew : a ∉ ids := fun ha => hsplit.notMem a ((hm a).mpr ha) rfl
          simp only [ByIndex.addUnseen, h, pushUnseen, hnew, if_false]
          refine ih (sortedBy_insertIdx hs hsplit) fun x => ?_
          rw [List.mem_insertIdx hsplit.le, List.mem_append, List.mem_singleton, hm, or_comm]

theorem participantBucketIds_eq {q : U32} {payers : List U32} :
    ByIndex.participantBucketIds q payers = participantBucketIds q payers :=
  @addUnseen_snd _ [] [] List.Pairwise.nil fun _ => Iff.rfl

variable {ids l : List U32} {bound : IndexBindings U32} {id : U32} {n : Nat}

/-- The first `n` ids are bound, each to its position. -/
structure BoundInOrder (ids : List U32) (n : Nat) (bound : IndexBindings U32) : Prop where
  sorted : SortedBy Prod.fst bound
  mem : ∀ id i, (id, i) ∈ bound ↔ i < n ∧ ids[i]? = some id

theorem BoundInOrder.all (hb : BoundInOrder ids n bound) (h : ids.length ≤ n) :
    BoundInOrder ids ids.length bound := by
  refine ⟨hb.sorted, fun id i => ?_⟩
  rw [hb.mem]
  constructor
  · rintro ⟨-, hi⟩
    exact ⟨(List.getElem?_eq_some_iff.mp hi).1, hi⟩
  · rintro ⟨hlt, hi⟩
    exact ⟨hlt.trans_le h, hi⟩

/-- The next id is not bound yet. -/
theorem BoundInOrder.notMem (hb : BoundInOrder ids n bound) (hids : ids.Nodup)
    (hn : ids[n]? = some id) : id ∉ bound.map Prod.fst := by
  intro hm
  obtain ⟨⟨_, i⟩, hx, rfl⟩ := List.mem_map.mp hm
  obtain ⟨hlt, hi⟩ := (hb.mem _ i).mp hx
  have hlt' := (List.getElem?_eq_some_iff.mp hi).1
  exact hlt.ne ((List.getElem?_inj hlt' hids).mp (hi.trans hn.symm))

theorem BoundInOrder.insertIdx {position : Nat} (hb : BoundInOrder ids n bound)
    (hn : ids[n]? = some id) (h : Splits Prod.fst bound id position) :
    BoundInOrder ids (n + 1) (bound.insertIdx position (id, n)) := by
  refine ⟨sortedBy_insertIdx hb.sorted (y := (id, n)) h, fun id' i => ?_⟩
  rw [List.mem_insertIdx h.le, hb.mem, Prod.mk.injEq]
  constructor
  · rintro (⟨rfl, rfl⟩ | ⟨hlt, hi⟩)
    · exact ⟨Nat.lt_succ_self _, hn⟩
    · exact ⟨hlt.trans (Nat.lt_succ_self _), hi⟩
  · rintro ⟨hlt, hi⟩
    rcases Nat.lt_succ_iff_lt_or_eq.mp hlt with hlt | rfl
    · exact .inr ⟨hlt, hi⟩
    · exact .inl ⟨Option.some.inj (hi.symm.trans hn), rfl⟩

/-- The loop that binds the buckets is the loop that verifies them. -/
theorem bindBuckets_agrees (hids : ids.Nodup) (hlen : ids.length ≤ remaining.length)
    (hl : ids.drop n = l) (hb : BoundInOrder ids n bound) :
    Agrees (fun b _ => BoundInOrder ids ids.length b)
      ((l.zipIdx n).foldlM (ByIndex.bindBucket env w remaining) bound)
      ((l.zip (remaining.drop n)).mapM (verifyBucket env w)) := by
  induction l generalizing n bound with
  | nil => exact .ok (hb.all (List.drop_eq_nil_iff.mp hl))
  | cons id l ih =>
      have hn : ids[n]? = some id := by
        rw [← List.head?_drop, hl]
        rfl
      have hlt : n < remaining.length := (List.getElem?_eq_some_iff.mp hn).1.trans_le hlen
      have hl' : ids.drop (n + 1) = l := by
        rw [← List.tail_drop, hl]
        rfl
      rw [List.zipIdx_cons, List.foldlM_cons, List.drop_eq_getElem_cons hlt, List.zip_cons_cons,
        List.mapM_cons]
      have hround : Agrees (fun b _ => BoundInOrder ids (n + 1) b)
          (ByIndex.bindBucket env w remaining bound (id, n))
          (verifyBucket env w (id, remaining[n])) := by
        unfold ByIndex.bindBucket verifyBucket
        rw [remainingAccount_eq_getElem hlt, Except.ok_bind]
        cases hsearch : IndexBindings.searchSorted bound id with
        | ok i =>
            obtain ⟨n', hn'⟩ := IndexBindings.searches_sorted.found _ _ _ hsearch
            exact absurd (List.mem_map.mpr ⟨_, List.mem_of_getElem? hn', rfl⟩) (hb.notMem hids hn)
        | error i =>
            rw [← bind_pure (ParticipantBucket.verifyAccountInfo env w remaining[n] id)]
            rw [bind_assoc]
            refine Agrees.bind_same fun _ _ => ?_
            exact .ok (hb.insertIdx hn (binarySearchByKey_error hb.sorted hsearch))
      refine hround.bind fun b _ _ hb' => ?_
      rw [← bind_pure (List.foldlM _ _ _)]
      exact (ih hl' hb').bind fun b' _ _ h => .ok h

/-- The account found by index is the account supplied. -/
theorem findBucketAccountIndex_eq (hids : ids.Nodup) (hlen : ids.length ≤ remaining.length)
    (hb : BoundInOrder ids ids.length bound) :
    (do let index ← ByIndex.findBucketAccountIndex bound id
        remainingAccount remaining index) = accountOf (ids.zip remaining) id := by
  have hkeys : (ids.zip remaining).map Prod.fst = ids := List.map_fst_zip hlen
  unfold ByIndex.findBucketAccountIndex accountOf
  cases hsearch : IndexBindings.searchSorted bound id with
  | ok position =>
      obtain ⟨n, hn⟩ := IndexBindings.searches_sorted.found _ _ _ hsearch
      obtain ⟨hlt, hi⟩ := (hb.mem id n).mp (List.mem_of_getElem? hn)
      have hlt' := hlt.trans_le hlen
      have hzip : (id, remaining[n]) ∈ ids.zip remaining := by
        refine List.mem_of_getElem? (i := n) ?_
        rw [List.getElem?_zip_eq_some]
        exact ⟨hi, List.getElem?_eq_getElem hlt'⟩
      rw [IndexBindings.lookup_of_mem (by rwa [hkeys]) hzip]
      simp only [hn, okOr, Except.ok_bind]
      exact remainingAccount_eq_getElem hlt'
  | error position =>
      have hnew := (IndexBindings.searches_sorted.missing _ _ _ hb.sorted hsearch).2
      have hnot : id ∉ ids := by
        intro hm
        obtain ⟨j, hj⟩ := List.mem_iff_getElem?.mp hm
        exact hnew (List.mem_map.mpr ⟨_, (hb.mem id j).mpr
          ⟨(List.getElem?_eq_some_iff.mp hj).1, hj⟩, rfl⟩)
      rw [IndexBindings.lookup_of_notMem (by rwa [hkeys])]
      rfl

/-! ### The commitments -/

structure SameProgress (remaining : List Pubkey) (p : ByIndex.Progress) (p' : Progress) : Prop where
  world : p'.world = p.world
  channels : p'.channels = ⟨IndexBindings.accounts remaining p.channelBucketBindings,
    remaining.drop p.nextChannelBucketAccountIndex⟩
  fits : IndexBindings.Fits (SortedBy Prod.fst) remaining p.channelBucketBindings
    p.nextChannelBucketAccountIndex
  seen : p'.seenLaneKeys = p.seenLaneKeys
  sorted : SortedBy (fun x => x) p.seenLaneKeys
  deltas : p'.deltas = p.deltas
  total : p'.total = p.total

theorem settleCommitment_agrees {auth : Authorities} {payeeOwner : Pubkey} {p : ByIndex.Progress}
    {p' : Progress} {c : ParsedBundleCommitment} (hids : ids.Nodup)
    (hlen : ids.length ≤ remaining.length) (hb : BoundInOrder ids ids.length bound)
    (h : SameProgress remaining p p') : Agrees (SameProgress remaining)
      (ByIndex.settleCommitment env remaining auth bound payeeOwner p c)
      (settleCommitment env auth (ids.zip remaining) payeeOwner p' c) := by
  unfold ByIndex.settleCommitment settleCommitment
  simp only [h.world, h.channels, h.seen, h.deltas, h.total]
  refine Agrees.bind_same fun _ _ => (insertUnique_agrees h.sorted).bind fun seen _ _ hseen => ?_
  obtain ⟨rfl, hsorted⟩ := hseen
  refine Agrees.bind_same fun pair _ => ?_
  obtain ⟨lower, higher, selector⟩ := pair
  refine Agrees.bind_same fun id _ => ?_
  refine (IndexBindings.bind_agrees IndexBindings.searches_sorted h.fits).bind fun a b _ hab => ?_
  obtain ⟨bindings, next, index⟩ := a
  obtain ⟨rfl, hlt, hfits, -⟩ := hab
  dsimp only at hlt hfits ⊢
  rw [remainingAccount_of_lt hlt, Except.ok_bind]
  refine Agrees.bind_same fun data _ => Agrees.bind_same fun lane _ => Agrees.bind_same fun _ _ =>
    Agrees.bind_same fun _ _ => Agrees.bind_same fun amount _ => ?_
  rw [← findBucketAccountIndex_eq hids hlen hb, bind_assoc]
  refine Agrees.bind_same fun payerIndex _ => Agrees.bind_same fun payerBucket _ =>
    Agrees.bind_same fun payerData _ => Agrees.bind_same fun balance _ =>
    Agrees.bind_same fun available _ => Agrees.bind_same fun _ _ => Agrees.bind_same fun debit _ =>
    Agrees.bind_same fun total _ => Agrees.bind_same fun deltas₁ _ =>
    Agrees.bind_same fun deltas₂ _ => Agrees.bind_same fun edited _ => ?_
  exact .ok ⟨rfl, rfl, hfits, rfl, hsorted, rfl, rfl⟩

theorem settleCommitments_agrees {auth : Authorities} {payeeOwner : Pubkey}
    {cs : List ParsedBundleCommitment} (hids : ids.Nodup) (hlen : ids.length ≤ remaining.length)
    (hb : BoundInOrder ids ids.length bound) : Agrees (SameProgress remaining)
      (cs.foldlM (ByIndex.settleCommitment env remaining auth bound payeeOwner)
        ⟨w, [], ids.length, [], [], 0⟩)
      (cs.foldlM (settleCommitment env auth (ids.zip remaining) payeeOwner)
        ⟨w, ⟨[], remaining.drop ids.length⟩, [], [], 0⟩) :=
  Agrees.foldlM (fun _ _ _ _ h => settleCommitment_agrees hids hlen hb h)
    ⟨rfl, rfl, .nil IndexBindings.searches_sorted hlen, rfl, List.Pairwise.nil, rfl, rfl⟩

/-- The last loop goes through the buckets in the order of their accounts. -/
theorem applyBuckets_eq {deltas : BalanceDeltas} (hlen : n + l.length ≤ remaining.length) :
    (l.zipIdx n).foldlM (ByIndex.applyBucket remaining t deltas) w =
      (l.zip (remaining.drop n)).foldlM (applyBucket t deltas) w := by
  induction l generalizing n w with
  | nil => rfl
  | cons id l ih =>
      rw [List.length_cons] at hlen
      have hlt : n < remaining.length := by omega
      rw [List.zipIdx_cons, List.foldlM_cons, List.drop_eq_getElem_cons hlt, List.zip_cons_cons,
        List.foldlM_cons]
      have hround : ByIndex.applyBucket remaining t deltas w (id, n) =
          applyBucket t deltas w (id, remaining[n]) := by
        simp only [ByIndex.applyBucket, applyBucket, remainingAccount_eq_getElem hlt, Except.ok_bind]
      rw [hround]
      exact bind_congr fun w => ih (by omega)

theorem settle_eq {auth : Authorities} {q : U32} {cs : List ParsedBundleCommitment} :
    ByIndex.settle env w remaining auth t q cs = settle env w auth remaining t q cs := by
  refine Agrees.eq ?_
  unfold ByIndex.settle settle
  dsimp only
  rw [participantBucketIds_eq]
  have hids := participantBucketIds_nodup q (cs.map (·.parsed.payerId))
  generalize participantBucketIds q (cs.map (·.parsed.payerId)) = ids at hids
  refine Agrees.bind_same fun _ hreq => ?_
  have hlen := require_eq_ok.mp hreq
  have hstart : BoundInOrder ids 0 [] := ⟨List.Pairwise.nil, by simp⟩
  refine (bindBuckets_agrees hids hlen rfl hstart).bind fun bound _ _ hb => ?_
  rw [← findBucketAccountIndex_eq hids hlen hb, bind_assoc]
  refine Agrees.bind_same fun payeeIndex _ => Agrees.bind_same fun payeeBucket _ =>
    Agrees.bind_same fun payeeData _ => Agrees.bind_same fun payeeOwner _ => ?_
  refine (settleCommitments_agrees hids hlen hb).bind fun p p' _ hp => ?_
  simp only [hp.channels, hp.deltas, hp.world, drop_eq_nil_iff hp.fits.le]
  refine Agrees.bind_same fun _ _ => ?_
  rw [applyBuckets_eq (by omega), List.drop_zero]
  exact Agrees.refl _

/-- **`settle_commitment_bundle`**, by index and by account. -/
theorem handler_eq {submitter : Pubkey} {sysvar : InstructionsSysvar} {count : U8} :
    ByIndex.handler env w remaining submitter sysvar count =
      handler env w submitter sysvar remaining count := by
  unfold ByIndex.handler handler
  simp only [settle_eq]

end SettleCommitmentBundle

end Ryvo
