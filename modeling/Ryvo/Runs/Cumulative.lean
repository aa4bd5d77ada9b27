import Ryvo.Runs.Collateral

/-!
# Runs — Cumulative lanes

What a lane has paid along a run.  A message names lanes and the cumulative amounts they are to be raised to (`SettlementMessage.targets`), whichever instruction carries it; an accepted one raises every lane it names (`Asks`), so it cannot be accepted again.

* `Reached.settled_eq`: a step adds to a lane what its messages pay on it, and nothing else.
* `cumulative_of_history`: a lane has paid what it has settled, and that is the highest amount accepted.
-/

namespace Ryvo

open Finset

variable {env : Env} {w w' : World} {a : Action} {t t' : U16} {p q : U32} {n : Nat}
variable {h : List (World × Action)} {c c' : GlobalConfig} {m : SettlementMessage}
variable {L L' : Ledger} {e : LaneEntry} {es : List LaneEntry} {l l' : DirectionalLaneState}

/-! ### Messages -/

inductive SettlementMessage
  | commitment (bytes : List UInt8)
  | clearingRound (bytes : List UInt8)
  deriving DecidableEq

/-- The token of a message, and the lanes it names. -/
def SettlementMessage.laneEntries (c : GlobalConfig) :
    SettlementMessage → Option (U16 × List LaneEntry)
  | .commitment bytes => do
      let parsed ← (parseCommitmentMessage bytes c).toOption
      pure (parsed.tokenId, [parsed.entry])
  | .clearingRound bytes => do
      let layout ←
        (parseClearingRoundLayoutWithVersion bytes c Bls.clearingRoundMessageVersion).toOption
      let es ← layout.entries.toOption
      pure (layout.tokenId, es)

/-- The amounts a list of entries has for a lane. -/
def targetsOn (t : U16) (p q : U32) (x : U16 × List LaneEntry) : List Nat :=
  if x.1 = t then (x.2.filter (·.lane = (p, q))).map (·.target) else []

/-- The amounts a message has for a lane. -/
def SettlementMessage.targets (c : GlobalConfig) (t : U16) (p q : U32) (m : SettlementMessage) :
    List Nat :=
  (m.laneEntries c).elim [] (targetsOn t p q)

/-- The first messages of the transaction's Ed25519 instruction. -/
def commitmentMessages (sysvar : InstructionsSysvar) (count : Nat) : List SettlementMessage :=
  match Ed25519.verifyEd25519Ix sysvar 0 with
  | .ok ixData => (List.range count).filterMap fun i =>
      (Ed25519.signedMessage ixData i).toOption.map fun signed => .commitment signed.message
  | .error _ => []

/-- The messages a settlement carries. -/
def Action.messages : Action → List SettlementMessage
  | .call (.settleIndividual _ sysvar _) => commitmentMessages sysvar 1
  | .call (.settleCommitmentBundle _ sysvar _ count) => commitmentMessages sysvar count.val
  | .call (.settleClearingRound _ _ _ message _) => [.clearingRound message]
  | _ => []

/-- The amounts an action has for a lane. -/
def World.targets (w : World) (t : U16) (p q : U32) (a : Action) : List Nat :=
  w.globalConfig.elim [] fun c => a.messages.flatMap (·.targets c t p q)

/-- `settled_cumulative`; a lane that was not created has settled nothing. -/
def World.settled (env : Env) (w : World) (t : U16) (p q : U32) : Nat :=
  (w.ledger env).settledCumulative t p q

/-- What a step pays on a lane: the amounts accepted, each less what was settled before. -/
def paid (env : Env) (t : U16) (p q : U32) (x : World × Action) : Nat :=
  ((x.1.targets t p q x.2).map (· - x.1.settled env t p q)).sum

/-- The messages of an action name the entries `es` of token `t`, and each names some. -/
structure Asks (c : GlobalConfig) (ms : List SettlementMessage) (t : U16) (es : List LaneEntry) :
    Prop where
  targets : ∀ t' p q, ms.flatMap (·.targets c t' p q) = targetsOn t' p q (t, es)
  named : ∀ m ∈ ms, ∃ p q, m.targets c t p q ≠ []

/-- Nothing but the domain of a deployment is read of its config. -/
theorem SettlementMessage.laneEntries_congr (hc : SameDeployment c c') (m : SettlementMessage) :
    m.laneEntries c' = m.laneEntries c := by
  cases m <;>
    simp only [laneEntries, parseCommitmentMessage, parseClearingRoundLayoutWithVersion,
      parseClearingRoundHeaderWithVersion, hc.messageDomain]

theorem targetsOn_of_mem (hn : (es.map LaneEntry.lane).Nodup) (he : e ∈ es) :
    targetsOn t e.payer e.payee (t, es) = [e.target] := by
  rw [targetsOn, if_pos rfl]
  induction es with
  | nil => simp at he
  | cons x es ih =>
      simp only [List.map_cons, List.nodup_cons, List.mem_map, not_exists, not_and] at hn
      rcases List.mem_cons.mp he with rfl | he
      · have hnone : es.filter (·.lane = (e.payer, e.payee)) = [] :=
          List.filter_eq_nil_iff.mpr fun x hx => decide_eq_true_iff.not.mpr (hn.1 x hx)
        rw [List.filter_cons_of_pos (by simp [LaneEntry.lane]), hnone]
        rfl
      · have hne : x.lane ≠ e.lane := fun h => hn.1 e he h.symm
        rw [List.filter_cons_of_neg (by simpa [LaneEntry.lane] using hne), ih hn.2 he]

theorem targetsOn_eq_nil (h : ¬ (t' = t ∧ (p, q) ∈ es.map LaneEntry.lane)) :
    targetsOn t' p q (t, es) = [] := by
  rw [targetsOn]
  split
  · rename_i ht
    have hnone : es.filter (·.lane = (p, q)) = [] :=
      List.filter_eq_nil_iff.mpr fun x hx => by
        simpa using fun hk => h ⟨ht.symm, List.mem_map.mpr ⟨x, hx, hk⟩⟩
    rw [hnone]
    rfl
  · rfl

/-! ### What a settlement reads -/

theorem SettlementMessage.laneEntries_commitment {bytes : List UInt8}
    {parsed : ParsedCommitmentMessage} (h : parseCommitmentMessage bytes c = .ok parsed) :
    (commitment bytes).laneEntries c = some (parsed.tokenId, [parsed.entry]) := by
  simp [laneEntries, h, Except.toOption]

theorem SettlementMessage.laneEntries_clearingRound {bytes : List UInt8}
    {layout : ParsedClearingRoundLayout}
    (h : parseClearingRoundLayoutWithVersion bytes c Bls.clearingRoundMessageVersion = .ok layout)
    (hes : layout.entries = .ok es) :
    (clearingRound bytes).laneEntries c = some (layout.tokenId, es) := by
  simp [laneEntries, h, hes, Except.toOption]

/-- A message that names entries names them on their lanes. -/
theorem Asks.single (hm : m.laneEntries c = some (t, es)) (hes : es ≠ []) : Asks c [m] t es where
  targets t' p q := by simp [SettlementMessage.targets, hm]
  named m' hm' := by
    obtain rfl := List.mem_singleton.mp hm'
    obtain ⟨e, he⟩ := List.exists_mem_of_ne_nil es hes
    refine ⟨e.payer, e.payee, ?_⟩
    rw [SettlementMessage.targets, hm, Option.elim_some, targetsOn, if_pos rfl, ne_eq,
      List.map_eq_nil_iff, List.filter_eq_nil_iff]
    exact fun h => h e he (by simp [LaneEntry.lane])

theorem Asks.append {ms ms' : List SettlementMessage} {es' : List LaneEntry} (h : Asks c ms t es)
    (h' : Asks c ms' t es') : Asks c (ms ++ ms') t (es ++ es') where
  targets t' p q := by
    rw [List.flatMap_append, h.targets, h'.targets]
    simp only [targetsOn]
    split
    · rw [List.filter_append, List.map_append]
    · rfl
  named m hm := (List.mem_append.mp hm).elim (h.named m) (h'.named m)

theorem Asks.nil : Asks c [] t [] := ⟨fun _ _ _ => by simp [targetsOn], by simp⟩

theorem asks_individual {sysvar : InstructionsSysvar} {signer : Pubkey}
    {parsed : ParsedCommitmentMessage}
    (h : SettleIndividual.readCommitment sysvar c = .ok (signer, parsed)) :
    Asks c (commitmentMessages sysvar 1) parsed.tokenId [parsed.entry] := by
  simp only [SettleIndividual.readCommitment, Except.bind_eq_ok, require_eq_ok, exists_const,
    Except.pure_eq_ok, Prod.mk.injEq] at h
  obtain ⟨ixData, hix, -, signed, hsigned, _, hparse, -, rfl⟩ := h
  have hms : commitmentMessages sysvar 1 = [.commitment signed.message] := by
    simp [commitmentMessages, hix, hsigned, Except.toOption]
  rw [hms]
  exact .single (SettlementMessage.laneEntries_commitment hparse) (by simp)

theorem asks_parseCommitments {ixData : List UInt8} {batch : Option (U16 × U32)} {indices : List Nat}
    {cs : List SettleCommitmentBundle.ParsedBundleCommitment}
    (h : SettleCommitmentBundle.parseCommitments ixData c batch indices = .ok cs)
    (ht : ∀ x ∈ cs, x.parsed.tokenId = t) :
    Asks c (indices.filterMap fun i =>
      (Ed25519.signedMessage ixData i).toOption.map fun signed => .commitment signed.message)
        t (SettleCommitmentBundle.entries cs) := by
  induction indices generalizing batch cs with
  | nil =>
      cases h
      exact .nil
  | cons i indices ih =>
      simp only [SettleCommitmentBundle.parseCommitments, Except.bind_eq_ok, require_eq_ok,
        exists_const, Except.pure_eq_ok] at h
      obtain ⟨signed, hsigned, parsed, hparse, -, -, rest, hrest, rfl⟩ := h
      obtain ⟨rfl, ht⟩ := List.forall_mem_cons.mp ht
      rw [List.filterMap_cons_some (b := SettlementMessage.commitment signed.message)
        (by rw [hsigned]; rfl)]
      exact Asks.append (.single (SettlementMessage.laneEntries_commitment hparse) (by simp))
        (ih hrest ht)

theorem asks_bundle {sysvar : InstructionsSysvar} {count : Nat}
    {cs : List SettleCommitmentBundle.ParsedBundleCommitment}
    (h : SettleCommitmentBundle.readCommitments sysvar c count = .ok cs)
    (ht : ∀ x ∈ cs, x.parsed.tokenId = t) :
    Asks c (commitmentMessages sysvar count) t (SettleCommitmentBundle.entries cs) := by
  simp only [SettleCommitmentBundle.readCommitments, Except.bind_eq_ok, require_eq_ok,
    exists_const] at h
  obtain ⟨ixData, hix, -, hparse⟩ := h
  rw [commitmentMessages, hix]
  exact asks_parseCommitments hparse ht

namespace SettleClearingRound

/-- Blocks without entries pay nothing. -/
theorem payingSnapshots_eq_nil {ids : List U32} {blocks : List ParticipantBlockMeta}
    {lists : List (List LaneEntry)} (h : blocks.mapM (·.laneEntries ids) = .ok lists)
    (hnil : lists.flatten = []) : payingSnapshots env w t blocks = [] := by
  induction blocks generalizing lists with
  | nil => rfl
  | cons b blocks ih =>
      obtain ⟨es, lists, hes, hlists, rfl⟩ := mapM_cons_eq_ok.mp h
      obtain ⟨rfl, hnil⟩ := List.append_eq_nil_iff.mp (List.flatten_cons ▸ hnil)
      simp only [ParticipantBlockMeta.laneEntries, ParticipantBlockMeta.readEntries,
        Except.bind_eq_ok, Prod.exists, Except.pure_eq_ok] at hes
      obtain ⟨_, ⟨entries, _, hread, rfl⟩, hes⟩ := hes
      have hcount : b.entryCount = 0 := by
        rw [← parseChannelEntries_length hread]
        cases entries with
        | nil => rfl
        | cons x entries =>
            obtain ⟨_, _, -, -, hcons⟩ := mapM_cons_eq_ok.mp hes
            cases hcons
      have hrest := ih hlists hnil
      rw [payingSnapshots] at hrest ⊢
      rw [List.filterMap_cons_none (by simp [hcount]), hrest]

/-- A round that is accepted names a lane: somebody signed it, and only those who pay sign. -/
theorem Settled.ne_nil {message : List UInt8} {signature : Bytes 48}
    {layout : ParsedClearingRoundLayout} (h : Settled env w message signature layout es) :
    es ≠ [] := by
  rintro rfl
  obtain ⟨aggregate, hagg, hverify⟩ := h.authenticated
  obtain ⟨lists, hlists, hnil⟩ := entries_eq_ok.mp h.entries
  rw [payingSnapshots_eq_nil hlists hnil.symm] at hagg
  obtain rfl : none = aggregate := Except.ok.inj hagg
  cases hverify

theorem Settled.asks {message : List UInt8} {signature : Bytes 48}
    {layout : ParsedClearingRoundLayout} (h : Settled env w message signature layout es) :
    ∃ c, w.globalConfig = some c ∧ Asks c [.clearingRound message] layout.tokenId es := by
  obtain ⟨c, hc, hread⟩ := h.read
  exact ⟨c, hc, .single (SettlementMessage.laneEntries_clearingRound hread h.entries) h.ne_nil⟩

end SettleClearingRound

/-! ### Steps -/

/-- An action settles what its messages ask for, or carries none. -/
theorem Reached.asks (hw : Reached env w) (h : Step env w a w') :
    (¬ a.IsSettlement ∧ a.messages = []) ∨ ∃ c t es, w.globalConfig = some c ∧
      Asks c a.messages t es ∧ (w.ledger env).Settles t es (w'.ledger env) := by
  have hran := h.ran
  cases a with
  | outside o => exact .inl ⟨id, rfl⟩
  | call ix =>
      cases ix with
      | settleIndividual submitter sysvar remaining =>
          obtain ⟨parsed, hset, hd⟩ := SettleIndividual.handler_spec
            (R := Action.rights env w (.outside (.tick 0))) hw.located hran
          obtain ⟨c, signer, hc, hread, -⟩ := hset.accepted
          exact .inr ⟨c, _, _, hc, asks_individual hread, Ledger.takesAll_singleton.mp hd.takes⟩
      | settleCommitmentBundle submitter sysvar remaining count =>
          obtain ⟨t, q, cs, hset, hd⟩ := SettleCommitmentBundle.handler_spec
            (R := Action.rights env w (.outside (.tick 0))) hw.located hran
          obtain ⟨c, hc, hread⟩ := hset.read
          exact .inr ⟨c, _, _, hc, asks_bundle hread fun x hx => (hset.batch x hx).1,
            Ledger.takesAll_singleton.mp hd.takes⟩
      | settleClearingRound submitter sysvar remaining message signature =>
          obtain ⟨layout, es, hset, hd⟩ := SettleClearingRound.handler_spec
            (R := Action.rights env w (.outside (.tick 0))) hw.located hran
          obtain ⟨c, hc, hasks⟩ := hset.asks
          exact .inr ⟨c, _, _, hc, hasks, Ledger.takesAll_singleton.mp hd.takes⟩
      | _ => exact .inl ⟨id, rfl⟩

theorem settled_of_lane (hl : w.lane env t p q = some l) : w.settled env t p q = l.settledCumulative := by
  rw [World.settled, Ledger.settledCumulative, World.ledger_lane, hl]
  rfl

theorem settled_of_none (hl : w.lane env t p q = none) : w.settled env t p q = 0 := by
  rw [World.settled, Ledger.settledCumulative, World.ledger_lane, hl]
  rfl

theorem Ledger.LaneChange.settledCumulative {m : Move} (h : LaneChange t p q l m l')
    (hm : ∀ es, m ≠ .settle t es) : l'.settledCumulative = l.settledCumulative := by
  cases h with
  | settle es _ _ _ _ _ _ => exact absurd rfl (hm es)
  | _ => rfl

/-- Only settlements change what is settled. -/
theorem Reached.settled_same (hw : Reached env w) (h : Step env w a w') (ha : ¬ a.IsSettlement)
    (t : U16) (p q : U32) : w'.settled env t p q = w.settled env t p q := by
  cases hl : w.lane env t p q with
  | none =>
      rw [settled_of_none hl]
      cases hl' : w'.lane env t p q with
      | none => exact settled_of_none hl'
      | some l' =>
          obtain ⟨signer, -, rfl⟩ := hw.newLane h hl hl'
          exact settled_of_lane hl'
  | some l =>
      obtain ⟨l', hl', hc⟩ := hw.laneStep h hl
      rw [settled_of_lane hl, settled_of_lane hl']
      rcases hc with rfl | ⟨m, hm, hc⟩
      · rfl
      · refine hc.settledCumulative fun es he => ?_
        subst he
        exact ha hm.isSettlement

/-- A step leaves what is settled on a lane, or names one amount for it, a higher one. -/
theorem Reached.targets (hw : Reached env w) (h : Step env w a w') (t : U16) (p q : U32) :
    (w.targets t p q a = [] ∧ w'.settled env t p q = w.settled env t p q) ∨
      ∃ n l, w.targets t p q a = [n] ∧ w.lane env t p q = some l ∧ l.settledCumulative < n ∧
        w'.settled env t p q = n := by
  rcases hw.asks h with ⟨ha, hms⟩ | ⟨c, t₀, es, hc, hasks, hset⟩
  · refine .inl ⟨?_, hw.settled_same h ha t p q⟩
    rw [World.targets, hms]
    cases w.globalConfig <;> rfl
  have htargets : w.targets t p q a = targetsOn t p q (t₀, es) := by
    rw [World.targets, hc, Option.elim_some, hasks.targets]
  by_cases hm : t = t₀ ∧ (p, q) ∈ es.map LaneEntry.lane
  · obtain ⟨rfl, hm⟩ := hm
    obtain ⟨e, he, hk⟩ := List.mem_map.mp hm
    simp only [LaneEntry.lane, Prod.mk.injEq] at hk
    obtain ⟨rfl, rfl⟩ := hk
    obtain ⟨l, hl, hlt, hl'⟩ := hset.lanes e he
    exact .inr ⟨e.target, l, htargets.trans (targetsOn_of_mem hset.nodup he), hl, hlt,
      settled_of_lane hl'⟩
  · refine .inl ⟨htargets.trans (targetsOn_eq_nil hm), ?_⟩
    have hlane := hset.otherLanes t p q hm
    rw [World.settled, Ledger.settledCumulative, hlane]
    rfl

/-- A step adds to a lane what it pays on it. -/
theorem Reached.settled_eq (hw : Reached env w) (h : Step env w a w') (t : U16) (p q : U32) :
    w'.settled env t p q = w.settled env t p q + paid env t p q (w, a) := by
  rcases hw.targets h t p q with ⟨ht, hs⟩ | ⟨n, l, ht, hl, hlt, hs⟩
  · rw [paid, ht, hs]
    rfl
  · rw [← settled_of_lane hl] at hlt
    simp only [paid, ht, hs, List.map_cons, List.map_nil, List.sum_cons, List.sum_nil]
    omega

/-- What is settled only grows, and reaches every amount that was accepted. -/
theorem Reached.settled_le (hw : Reached env w) (h : Step env w a w') (t : U16) (p q : U32) :
    w.settled env t p q ≤ w'.settled env t p q ∧
      ∀ n ∈ w.targets t p q a, n ≤ w'.settled env t p q := by
  refine ⟨by rw [hw.settled_eq h]; exact Nat.le_add_right _ _, fun n hn => ?_⟩
  rcases hw.targets h t p q with ⟨ht, -⟩ | ⟨m, -, ht, -, -, hs⟩
  · simp [ht] at hn
  · rw [ht, List.mem_singleton] at hn
    rw [hs, hn]

/-- No message of a settlement comes twice. -/
theorem Asks.nodup {ms : List SettlementMessage} (h : Asks c ms t es)
    (hn : (es.map LaneEntry.lane).Nodup) : ms.Nodup := by
  rw [List.nodup_iff_sublist]
  intro m hm
  obtain ⟨p, q, hne⟩ := h.named m (hm.subset List.mem_cons_self)
  have hsub := (hm.flatMap (·.targets c t p q)).length_le
  have hpos := List.length_pos_iff.mpr hne
  have hone : (targetsOn t p q (t, es)).length ≤ 1 := by
    by_cases hk : (p, q) ∈ es.map LaneEntry.lane
    · obtain ⟨e, he, hk⟩ := List.mem_map.mp hk
      simp only [LaneEntry.lane, Prod.mk.injEq] at hk
      obtain ⟨rfl, rfl⟩ := hk
      rw [targetsOn_of_mem hn he]
      exact le_rfl
    · rw [targetsOn_eq_nil fun hm => hk hm.2]
      exact Nat.zero_le _
  rw [h.targets] at hsub
  simp only [List.flatMap_cons, List.flatMap_nil, List.append_nil, List.length_append] at hsub
  omega

theorem mem_targets (hc : w.globalConfig = some c) (hm : m ∈ a.messages)
    (hn : n ∈ m.targets c t p q) : n ∈ w.targets t p q a := by
  rw [World.targets, hc]
  exact List.mem_flatMap.mpr ⟨m, hm, hn⟩

theorem sum_targetsOn (f : LaneEntry → Nat) (hn : (es.map LaneEntry.lane).Nodup)
    (hf : ∀ e ∈ es, e.lane = (p, q) → f e = e.target - n) :
    ((targetsOn t p q (t, es)).map (· - n)).sum = keyed LaneEntry.lane f es (p, q) := by
  by_cases hm : (p, q) ∈ es.map LaneEntry.lane
  · obtain ⟨e, he, hk⟩ := List.mem_map.mp hm
    simp only [LaneEntry.lane, Prod.mk.injEq] at hk
    obtain ⟨rfl, rfl⟩ := hk
    have hkeyed : keyed LaneEntry.lane f es (e.payer, e.payee) = f e := keyed_of_mem hn he
    rw [targetsOn_of_mem hn he, hkeyed, hf e he rfl]
    rfl
  · rw [targetsOn_eq_nil fun h => hm h.2, keyed_eq_zero fun e he hk => hm (List.mem_map.mpr ⟨e, he, hk⟩)]
    rfl

/-- What a step pays on a lane is what its entries pay there. -/
theorem Asks.paid (h : Asks c a.messages t es) (hc : w.globalConfig = some c)
    (hn : (es.map LaneEntry.lane).Nodup) (p q : U32) :
    paid env t p q (w, a) = keyed LaneEntry.lane ((w.ledger env).delta t) es (p, q) := by
  rw [Ryvo.paid, World.targets, hc, Option.elim_some, h.targets]
  refine sum_targetsOn _ hn fun e he hk => ?_
  simp only [LaneEntry.lane, Prod.mk.injEq] at hk
  rw [Ledger.delta, hk.1, hk.2, World.settled]

theorem Asks.paid_ne (h : Asks c a.messages t es) (hc : w.globalConfig = some c) (ht : t' ≠ t)
    (p q : U32) : Ryvo.paid env t' p q (w, a) = 0 := by
  rw [Ryvo.paid, World.targets, hc, Option.elim_some, h.targets, targetsOn_eq_nil fun h => ht h.1]
  rfl

/-- A settlement gives each payee what its lanes pay, and takes it from the payers. -/
theorem Reached.credits (hw : Reached env w) (h : Step env w a w') (ha : a.messages ≠ [])
    (t : U16) (r : U32) : ((w'.ledger env).claim t r : Int)
      = (w.ledger env).claim t r + ∑ q, paid env t q r (w, a) - ∑ q, paid env t r q (w, a) := by
  rcases hw.asks h with ⟨-, hms⟩ | ⟨c, t₀, es, hc, hasks, hset⟩
  · exact absurd hms ha
  by_cases ht : t = t₀
  · subst ht
    have hto : ∑ q, paid env t q r (w, a) = (w.ledger env).paidTo t es r := by
      rw [Ledger.paidTo, ← sum_keyed_pair LaneEntry.payee LaneEntry.payer]
      refine sum_congr rfl fun q _ => ?_
      rw [hasks.paid hc hset.nodup]
      simp only [keyed, LaneEntry.lane, Prod.mk.injEq, and_comm]
    have hby : ∑ q, paid env t r q (w, a) = (w.ledger env).paidBy t es r := by
      rw [Ledger.paidBy, ← sum_keyed_pair LaneEntry.payer LaneEntry.payee]
      exact sum_congr rfl fun q _ => hasks.paid hc hset.nodup r q
    rw [hset.claim r, hto, hby]
  · simp [hset.claim_ne ht r, hasks.paid_ne hc ht]

/-! ### Runs -/

theorem total_of_history (r : History env h w) (t : U16) (p q : U32) :
    (h.map (paid env t p q)).sum = w.settled env t p q := by
  refine Run.history (P := fun h w => (h.map (paid env t p q)).sum = w.settled env t p q) ?_ ?_ r
  · rintro w ⟨clock, -, rfl⟩
    rw [settled_of_none (lane_genesis ..)]
    rfl
  · intro h w a w' r ih hstep
    rw [List.map_cons, List.sum_cons, ih, Reached.settled_eq r.reachable hstep, Nat.add_comm]

/-- The amounts accepted for a lane. -/
def accepted (t : U16) (p q : U32) (h : List (World × Action)) : Set Nat :=
  {n | ∃ x ∈ h, n ∈ x.1.targets t p q x.2}

theorem highest_of_history (r : History env h w) (t : U16) (p q : U32) :
    IsGreatest (insert 0 (accepted t p q h)) (w.settled env t p q) := by
  refine Run.history
    (P := fun h w => IsGreatest (insert 0 (accepted t p q h)) (w.settled env t p q)) ?_ ?_ r
  · rintro w ⟨clock, -, rfl⟩
    rw [settled_of_none (lane_genesis ..)]
    refine ⟨Set.mem_insert _ _, ?_⟩
    rintro n (rfl | ⟨x, hx, -⟩)
    · exact le_rfl
    · cases hx
  · rintro h w a w' r ⟨hmem, hle⟩ hstep
    have hw : Reached env w := r.reachable
    obtain ⟨hmono, hreach⟩ := hw.settled_le hstep t p q
    constructor
    · rcases hw.targets hstep t p q with ⟨-, hs⟩ | ⟨n, l, ht, -, -, hs⟩
      · rw [hs]
        exact hmem.imp_right fun ⟨x, hx, hn⟩ => ⟨x, List.mem_cons_of_mem _ hx, hn⟩
      · exact .inr ⟨(w, a), List.mem_cons_self, by simp [ht, hs]⟩
    · rintro n (rfl | ⟨x, hx, hn⟩)
      · exact Nat.zero_le _
      · rcases List.mem_cons.mp hx with rfl | hx
        · exact hreach n hn
        · exact (hle (.inr ⟨x, hx, hn⟩)).trans hmono

/-- The message names an amount that has been reached. -/
def Spent (env : Env) (w : World) (m : SettlementMessage) : Prop :=
  ∃ c t p q n, w.globalConfig = some c ∧ n ∈ m.targets c t p q ∧ n ≤ w.settled env t p q

theorem Reached.spent (hw : Reached env w) (h : Step env w a w')
    (hm : m ∈ a.messages ∨ Spent env w m) : Spent env w' m := by
  rcases hm with hm | ⟨c, t, p, q, n, hc, hn, hle⟩
  · rcases hw.asks h with ⟨-, hms⟩ | ⟨c, t, es, hc, hasks, -⟩
    · simp [hms] at hm
    · obtain ⟨p, q, hne⟩ := hasks.named m hm
      obtain ⟨n, hn⟩ := List.exists_mem_of_ne_nil _ hne
      obtain ⟨c', hc', hsame⟩ := (hw.adminChange h).config hc
      refine ⟨c', t, p, q, n, hc', ?_, (hw.settled_le h t p q).2 n (mem_targets hc hm hn)⟩
      rwa [SettlementMessage.targets, SettlementMessage.laneEntries_congr hsame]
  · obtain ⟨c', hc', hsame⟩ := (hw.adminChange h).config hc
    refine ⟨c', t, p, q, n, hc', ?_, hle.trans (hw.settled_le h t p q).1⟩
    rwa [SettlementMessage.targets, SettlementMessage.laneEntries_congr hsame]

/-- A spent message is refused. -/
theorem Reached.not_spent (hw : Reached env w) (h : Step env w a w') (hm : m ∈ a.messages) :
    ¬ Spent env w m := by
  rintro ⟨c, t, p, q, n, hc, hn, hle⟩
  have hmem := mem_targets hc hm hn
  rcases hw.targets h t p q with ⟨ht, -⟩ | ⟨n', l, ht, hl, hlt, -⟩
  · simp [ht] at hmem
  · rw [ht, List.mem_singleton] at hmem
    rw [settled_of_lane hl, hmem] at hle
    exact absurd hlt hle.not_gt

theorem spent_of_history (r : History env h w) : ∀ m ∈ h.flatMap (·.2.messages), Spent env w m := by
  refine Run.history (P := fun h w => ∀ m ∈ h.flatMap (·.2.messages), Spent env w m) ?_ ?_ r
  · rintro w - m hm
    simp at hm
  · intro h w a w' r ih hstep m hm
    rw [List.flatMap_cons, List.mem_append] at hm
    exact Reached.spent r.reachable hstep (hm.imp_right (ih m))

theorem messages_nodup_of_history (r : History env h w) : (h.flatMap (·.2.messages)).Nodup := by
  refine Run.history (P := fun h _ => (h.flatMap (·.2.messages)).Nodup) ?_ ?_ r
  · rintro w -
    exact List.nodup_nil
  · intro h w a w' r ih hstep
    have hw : Reached env w := r.reachable
    rw [List.flatMap_cons, List.nodup_append]
    refine ⟨?_, ih, fun m hm m' hm' he => ?_⟩
    · rcases hw.asks hstep with ⟨-, hms⟩ | ⟨c, t, es, -, hasks, hset⟩
      · rw [hms]
        exact List.nodup_nil
      · exact hasks.nodup hset.nodup
    · subst he
      exact hw.not_spent hstep hm (spent_of_history r m hm')

/-- What a run says about its lanes and its messages, and the next step. -/
structure Cumulative (env : Env) (h : List (World × Action)) (w : World) : Prop where
  total : ∀ t p q, (h.map (paid env t p q)).sum = w.settled env t p q
  highest : ∀ t p q, IsGreatest (insert 0 (accepted t p q h)) (w.settled env t p q)
  once : (h.flatMap (·.2.messages)).Nodup
  /-- A lane no message names stays; one that is named is named once, and raised. -/
  raised : ∀ a w' t p q, Step env w a w' →
    (w.targets t p q a = [] ∧ w'.settled env t p q = w.settled env t p q) ∨
      ∃ n l, w.targets t p q a = [n] ∧ w.lane env t p q = some l ∧ l.settledCumulative < n ∧
        w'.settled env t p q = n
  credited : ∀ a w' t r, Step env w a w' → a.messages ≠ [] → ((w'.ledger env).claim t r : Int)
    = (w.ledger env).claim t r + ∑ q, paid env t q r (w, a) - ∑ q, paid env t r q (w, a)
  kept : ∀ a w' t p q, Step env w a w' → (w.lane env t p q).isSome → (w'.lane env t p q).isSome
  /-- A lane is only created where there is none. -/
  created : ∀ owner k k₁ k₂ payeeOwner t lower higher id signer w',
    Step env w (.call (.createChannel owner k k₁ k₂ payeeOwner t lower higher id signer)) w' →
      ∃ p q s, w.lane env t p q = none ∧
        w'.ledger env = (w.ledger env).setLane t p q (.fresh s)

/-- **Cumulative lanes never pay twice**, along every run. -/
theorem cumulative_of_history (r : History env h w) : Cumulative env h w where
  total := total_of_history r
  highest := highest_of_history r
  once := messages_nodup_of_history r
  raised a w' t p q hstep := Reached.targets r.reachable hstep t p q
  credited a w' t r₁ hstep ha := Reached.credits r.reachable hstep ha t r₁
  kept a w' t p q hstep hl := by
    obtain ⟨l, hl⟩ := Option.isSome_iff_exists.mp hl
    obtain ⟨l', hl', -⟩ := Reached.laneStep r.reachable hstep hl
    simp [hl']
  created owner k k₁ k₂ payeeOwner t lower higher id signer w' hstep := by
    have hw : Reached env w := r.reachable
    obtain ⟨p, q, s, -, -, -, hd⟩ := CreateChannel.handler_spec
      (R := Action.rights env w (.outside (.tick 0))) hw.located hstep.ran
    obtain ⟨-, hn, -, -, he⟩ := Ledger.takesAll_singleton.mp hd.takes
    exact ⟨p, q, _, hn, he⟩

open Localnet in
/-- Commitments to 25 and to 30 pay 30 together. -/
theorem cumulative_of_commitments : ∃ h w, History localnet h w ∧ w.settled localnet 1 0 1 = 30 ∧
    Cumulative localnet h w := by
  let pay : Nat → Action := fun amount => .call (.settleIndividual (key 11)
    (commitment (GlobalConfig.deriveMessageDomain localnet GlobalConfig.localnetChainId) amount)
    (SettleIndividual.accounts localnet ⟨0, 1, 1, amount, none⟩))
  obtain ⟨w, ⟨h, r⟩, hc⟩ := reached_of_runsTo localnet (opening ++ funding ++ [pay 25, pay 30])
    (fun w => w.settled localnet 1 0 1 = 30) (by decide +kernel)
  exact ⟨h, w, r, of_decide_eq_true hc, cumulative_of_history r⟩

end Ryvo
