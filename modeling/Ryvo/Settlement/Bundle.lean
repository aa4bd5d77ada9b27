import Ryvo.Settlement.Individual

/-!
# Settlement — A bundle of commitments

`settle_commitment_bundle` on the ledger.  Its balances are read before any of them moves and changed by one delta for each participant, so that it succeeds, with the right accounts, exactly when each commitment alone is authorised and payable and the payee can receive them all; and then it is a settlement of their entries.
-/

namespace Ryvo

variable {env : Env} {w w' : World} {k : Pubkey} {t : U16} {p q r : U32} {d : Int}
variable {ds ds' : BalanceDeltas}

/-! ### Collecting deltas -/

theorem addBalanceDelta_spec (hn : (ds.map Prod.fst).Nodup)
    (h : addBalanceDelta ds p d = .ok ds') : (ds'.map Prod.fst).Nodup ∧
      (∀ x ∈ ds'.map Prod.fst, x ∈ ds.map Prod.fst ∨ x = p) ∧
      ∀ r, keyed Prod.fst Prod.snd ds' r = keyed Prod.fst Prod.snd ds r + if p = r then d else 0 := by
  induction ds generalizing ds' with
  | nil =>
      by_cases hd : d = 0
      · simp only [addBalanceDelta, hd, if_true, Except.ok.injEq] at h
        subst h
        simp [hd]
      · simp only [addBalanceDelta, hd, if_false, Except.ok.injEq] at h
        subst h
        simp
  | cons x ds ih =>
      obtain ⟨a, existing⟩ := x
      simp only [List.map_cons, List.nodup_cons] at hn
      by_cases hd : d = 0
      · simp only [addBalanceDelta, hd, if_true, Except.ok.injEq] at h
        subst h
        exact ⟨by simpa using hn, fun x hx => .inl hx, by simp [hd]⟩
      by_cases ha : a = p
      · simp only [addBalanceDelta, hd, ha, if_false, if_true, Except.bind_eq_ok, signed_eq_ok,
          Except.pure_eq_ok] at h
        obtain ⟨_, ⟨rfl, -⟩, rfl⟩ := h
        subst ha
        refine ⟨by simpa using hn, fun x hx => .inl (by simpa using hx), fun r => ?_⟩
        simp only [keyed_cons]
        split <;> ring
      · simp only [addBalanceDelta, hd, ha, if_false, Except.bind_eq_ok, Except.pure_eq_ok] at h
        obtain ⟨ds₁, hrec, rfl⟩ := h
        obtain ⟨hn₁, hsub, hk⟩ := ih hn.2 hrec
        refine ⟨?_, fun x hx => ?_, fun r => by simp only [keyed_cons, hk]; ring⟩
        · simp only [List.map_cons, List.nodup_cons]
          exact ⟨fun hm => (hsub a hm).elim hn.1 ha, hn₁⟩
        · rcases List.mem_cons.mp hx with rfl | hx
          · exact .inl (by simp)
          · exact (hsub x hx).imp_left fun h => List.mem_cons_of_mem _ h

/-- A delta is collected when the sum stays in `i128`. -/
theorem exists_addBalanceDelta (hn : (ds.map Prod.fst).Nodup)
    (hlo : -(2 ^ 127) ≤ keyed Prod.fst Prod.snd ds p + d)
    (hhi : keyed Prod.fst Prod.snd ds p + d < 2 ^ 127) :
    ∃ ds', addBalanceDelta ds p d = .ok ds' := by
  induction ds with
  | nil => exact ⟨_, rfl⟩
  | cons x ds ih =>
      obtain ⟨a, existing⟩ := x
      simp only [List.map_cons, List.nodup_cons] at hn
      by_cases hd : d = 0
      · simp [addBalanceDelta, hd]
      by_cases ha : a = p
      · have hz : keyed Prod.fst Prod.snd ds p = 0 :=
          keyed_eq_zero fun y hy e => hn.1 (List.mem_map.mpr ⟨y, hy, e.trans ha.symm⟩)
        simp only [keyed_cons, ha, if_true, hz, add_zero] at hlo hhi
        simp only [addBalanceDelta, hd, ha, if_false, if_true, Except.bind_eq_ok, signed_eq_ok,
          Except.pure_eq_ok]
        exact ⟨_, _, ⟨rfl, hlo, hhi⟩, rfl⟩
      · simp only [keyed_cons, ha, if_false, zero_add] at hlo hhi
        obtain ⟨ds', h⟩ := ih hn.2 hlo hhi
        simp only [addBalanceDelta, hd, ha, if_false, h, Except.ok_bind, Except.pure_eq_ok]
        exact ⟨_, rfl⟩

namespace SettleCommitmentBundle

open SettleIndividual (accountOf)

variable {auth : Authorities} {buckets : List (U32 × Pubkey)} {payeeOwner : Pubkey}
variable {c : ParsedBundleCommitment} {cs done : List ParsedBundleCommitment}
variable {pr pr' : Progress}

/-- The entries of a list of commitments. -/
def entries (cs : List ParsedBundleCommitment) : List LaneEntry := cs.map (·.parsed.entry)

/-! ### The buckets -/

theorem pushUnseen_spec {ids l : List U32} (hn : ids.Nodup) : (l.foldl pushUnseen ids).Nodup ∧
    ∀ x, x ∈ l.foldl pushUnseen ids ↔ x ∈ ids ∨ x ∈ l := by
  induction l generalizing ids with
  | nil => simpa using hn
  | cons a l ih =>
      have hp : (pushUnseen ids a).Nodup ∧ ∀ x, x ∈ pushUnseen ids a ↔ x ∈ ids ∨ x = a := by
        unfold pushUnseen
        split <;> rename_i h
        · exact ⟨hn, fun x => ⟨.inl, fun hx => hx.elim id fun e => e ▸ h⟩⟩
        · exact ⟨List.nodup_append.mpr ⟨hn, by simp, by
            rintro x hx y hy rfl
            exact h (List.mem_singleton.mp hy ▸ hx)⟩, by simp⟩
      obtain ⟨h₁, h₂⟩ := ih hp.1
      refine ⟨h₁, fun x => ?_⟩
      simp only [List.foldl_cons, h₂, hp.2, List.mem_cons]
      tauto

theorem participantBucketIds_nodup (q : U32) (payers : List U32) :
    (participantBucketIds q payers).Nodup := (pushUnseen_spec (by simp)).1

theorem mem_participantBucketIds {q : U32} {payers : List U32} {x : U32} :
    x ∈ participantBucketIds q payers ↔ x = ParticipantBucket.bucketIdForParticipantId q ∨
      x ∈ payers.map ParticipantBucket.bucketIdForParticipantId := by
  rw [participantBucketIds, (pushUnseen_spec (by simp)).2, List.mem_singleton]

theorem laneKey_inj {a b a' b' : U32} (h : laneKey a b = laneKey a' b') : a = a' ∧ b = b' := by
  unfold laneKey at h
  exact ⟨Fin.ext (by omega), Fin.ext (by omega)⟩

/-! ### The loop over commitments -/

/-- The lane key of a commitment. -/
def keyOf (c : ParsedBundleCommitment) : Nat := laneKey c.parsed.payerId c.parsed.payeeId

/-- What holds after the commitments of `done`. -/
structure Done (env : Env) (t : U16) (w : World) (done : List ParsedBundleCommitment)
    (pr : Progress) : Prop where
  lanes : LanesDone env t w (entries done) pr.world
  bound : Bindings.BoundTo (channelAddress env t) pr.channels.bound
  seen : ∀ x, x ∈ pr.seenLaneKeys ↔ x ∈ done.map keyOf
  keys : (pr.deltas.map Prod.fst).Nodup
  parties : ∀ x ∈ pr.deltas.map Prod.fst, ∃ c ∈ done, x = c.parsed.payerId ∨ x = c.parsed.payeeId
  deltas : ∀ r, keyed Prod.fst Prod.snd pr.deltas r = (w.ledger env).net t (entries done) r
  total : pr.total = (w.ledger env).gross t (entries done)

theorem Done.nil (hl : Located env w) (rest : List Pubkey) :
    Done env t w [] ⟨w, ⟨[], rest⟩, [], [], 0⟩ :=
  ⟨.nil hl, .nil, by simp, by simp, by simp, fun _ => rfl, rfl⟩

theorem entries_snoc : entries (done ++ [c]) = entries done ++ [c.parsed.entry] := by
  simp [entries]

/-- A lane key seen is a lane settled. -/
theorem Done.lane_notMem (hd : Done env t w done pr) (h : keyOf c ∉ pr.seenLaneKeys) :
    c.parsed.entry.lane ∉ (entries done).map LaneEntry.lane := by
  intro hm
  simp only [entries, List.map_map, List.mem_map, Function.comp_apply, LaneEntry.lane,
    ParsedCommitmentMessage.entry, Prod.mk.injEq] at hm
  obtain ⟨c', hc', hp, hq⟩ := hm
  exact h ((hd.seen _).mpr (List.mem_map.mpr ⟨c', hc', by simp only [keyOf, hp, hq]⟩))

/-- One more commitment. -/
theorem settleCommitment_spec (hd : Done env t w done pr) (hb : AreBuckets env w buckets)
    (ht : c.parsed.tokenId = t)
    (h : settleCommitment env auth buckets payeeOwner pr c = .ok pr') :
    Done env t w (done ++ [c]) pr' ∧ (auth c).submitter payeeOwner = true ∧
      (w.ledger env).CanPay t c.parsed.entry ∧
      ∀ l, w.lane env t c.parsed.payerId c.parsed.payeeId = some l →
        (auth c).signer l.authorizedSigner = true := by
  subst ht
  simp only [settleCommitment, insertUniqueSorted, Except.bind_eq_ok, require_eq_ok, exists_const,
    Prod.exists, checkedSub_eq_ok, checkedAdd_eq_ok, Except.pure_eq_ok] at h
  obtain ⟨hsub, seen, ⟨hnew, rfl⟩, lower, higher, sel, hc, id, hid, channels, channel, hbind, data,
    hdata, i, sel', l, hread, hsig, hlt, _, ⟨rfl, -⟩, payerKey, hpk, payerData, hpd, total, htotal,
    _, ⟨rfl, havail⟩, hle, _, ⟨rfl, -⟩, _, ⟨rfl, -⟩, ds₁, hds₁, ds₂, hds₂, w₁, _, hedit, rfl⟩ := h
  obtain ⟨hkey, hbound⟩ := bindLane_spec hd.lanes.located hd.bound hc hid hbind
  obtain ⟨-, hlane, -, rfl⟩ := (settleLane_eq_ok _ _ hkey hc).mp
    ⟨⟨data, by simpa [World.getChannelBucket] using hdata, hread⟩, hedit⟩
  have hnotin := hd.lane_notMem (c := c) hnew
  have hlane₀ : (w.ledger env).lane c.parsed.tokenId c.parsed.entry.payer c.parsed.entry.payee
      = some l := (hd.lanes.lane_eq hnotin).symm.trans hlane
  obtain rfl := (hb.of_eq hd.lanes.participantBuckets).accountOf hpk
  obtain ⟨sp, row, hsp, hrow, -, rfl⟩ := readTotal_eq_ok.mp ⟨payerData, hpd, htotal⟩
  rw [hd.lanes.slot] at hsp
  have hnet := Ledger.net_single hlane₀
  obtain ⟨hn₁, hp₁, hk₁⟩ := addBalanceDelta_spec hd.keys hds₁
  obtain ⟨hn₂, hp₂, hk₂⟩ := addBalanceDelta_spec hn₁ hds₂
  refine ⟨⟨?_, hbound, fun x => ?_, hn₂, fun x hx => ?_, fun r => ?_, ?_⟩, hsub,
    ⟨l, sp, row, hlane₀, hsp, hrow, hlt, havail, hle⟩, fun l' hl' => ?_⟩
  · rw [entries_snoc]
    exact hd.lanes.snoc hnotin hlane hlt
  · simp only [List.mem_orderedInsert, hd.seen, List.map_append, List.map_cons, List.map_nil,
      List.mem_append, List.mem_singleton, keyOf, or_comm]
  · rcases hp₂ x hx with hx | rfl
    · rcases hp₁ x hx with hx | rfl
      · obtain ⟨c', hc', h'⟩ := hd.parties x hx
        exact ⟨c', List.mem_append_left _ hc', h'⟩
      · exact ⟨c, by simp, .inl rfl⟩
    · exact ⟨c, by simp, .inr rfl⟩
  · rw [hk₂, hk₁, hd.deltas, entries_snoc, Ledger.net_append, hnet, add_assoc]
    rfl
  · rw [hd.total, entries_snoc, Ledger.gross_append]
    simp only [Ledger.gross, List.map_cons, List.map_nil, List.sum_cons, List.sum_nil, add_zero,
      Ledger.delta_of_lane hlane₀]
    rfl
  · obtain rfl := Option.some.inj (hlane₀.symm.trans hl')
    exact hsig

/-- All the commitments. -/
theorem settleCommitments_spec (hd : Done env t w done pr) (hb : AreBuckets env w buckets)
    (ht : ∀ c ∈ cs, c.parsed.tokenId = t)
    (h : cs.foldlM (settleCommitment env auth buckets payeeOwner) pr = .ok pr') :
    Done env t w (done ++ cs) pr' ∧ ∀ c ∈ cs, (auth c).submitter payeeOwner = true ∧
      (w.ledger env).CanPay t c.parsed.entry ∧
      ∀ l, w.lane env t c.parsed.payerId c.parsed.payeeId = some l →
        (auth c).signer l.authorizedSigner = true := by
  induction cs generalizing done pr with
  | nil =>
      obtain rfl := foldlM_nil_eq_ok.mp h
      simpa using hd
  | cons c cs ih =>
      obtain ⟨pr₁, h₁, h⟩ := foldlM_cons_eq_ok.mp h
      obtain ⟨hd₁, hc⟩ := settleCommitment_spec hd hb (ht c (by simp)) h₁
      obtain ⟨hd', hcs⟩ := ih hd₁ (fun c hc => ht c (List.mem_cons_of_mem _ hc)) h
      rw [List.append_assoc, List.singleton_append] at hd'
      exact ⟨hd', List.forall_mem_cons.mpr ⟨hc, hcs⟩⟩

/-- What a success says. -/
theorem settle_spec {remaining : List Pubkey} (hl : Located env w)
    (hcs : ∀ c ∈ cs, c.parsed.tokenId = t ∧ c.parsed.payeeId = q)
    (h : settle env w auth remaining t q cs = .ok w') :
    (∀ c ∈ cs, SettleIndividual.Accepts env w (auth c) c.parsed) ∧
      (w.ledger env).Settles t (entries cs) (w'.ledger env) ∧ Located env w' ∧ BucketsOnly w w' := by
  simp only [settle, Except.bind_eq_ok, require_eq_ok, exists_const] at h
  obtain ⟨hlen, r, hver, payeeKey, hpk, payeeData, hpd, owner, howner, pr, hloop, -, hfold⟩ := h
  have hb := (verifyBuckets_eq_ok hl).mp ⟨r, hver⟩
  have hids := map_fst_zip_of_le hlen
  obtain rfl := hb.accountOf hpk
  obtain ⟨sq, hsq, rfl⟩ := readOwner_eq_ok.mp ⟨payeeData, hpd, howner⟩
  obtain ⟨hd, hacc⟩ := settleCommitments_spec (.nil hl _) hb (fun c hc => (hcs c hc).1) hloop
  rw [List.nil_append] at hd
  have hparties : ∀ d ∈ pr.deltas, ∃ c ∈ cs, d.1 = c.parsed.payerId ∨ d.1 = c.parsed.payeeId :=
    fun d hd' => hd.parties d.1 (List.mem_map.mpr ⟨d, hd', rfl⟩)
  have hshift := Shifted.of_applyBuckets (hb.of_eq hd.lanes.participantBuckets)
    (by rw [hids]; exact participantBucketIds_nodup _ _) (fun d hd' => by
      rw [hids, mem_participantBucketIds]
      obtain ⟨c, hc, h | h⟩ := hparties d hd'
      · rw [h]
        exact .inr (List.mem_map.mpr ⟨_, List.mem_map.mpr ⟨c, hc, rfl⟩, rfl⟩)
      · rw [h, (hcs c hc).2]
        exact .inl rfl) hd.keys hfold
  refine ⟨fun c hc => ?_, hd.lanes.settles hshift (fun p _ => hd.deltas p) fun e he => ?_⟩
  · obtain ⟨hsub, hpay, hsig⟩ := hacc c hc
    obtain ⟨ht, hq⟩ := hcs c hc
    subst ht hq
    exact ⟨hpay, hsig, sq, hsq, hsub⟩
  · obtain ⟨c, hc, rfl⟩ := List.mem_map.mp he
    obtain ⟨-, ⟨l, sp, row, hpay⟩, -⟩ := hacc c hc
    obtain ⟨-, rfl⟩ := hcs c hc
    have hsp := hpay.slot
    rw [World.ledger_slot] at hsp
    exact ⟨by simp [hsp], by simp [ParsedCommitmentMessage.entry, hsq]⟩

/-- The accounts not used yet. -/
def Progress.withRest (pr : Progress) (rest : List Pubkey) : Progress :=
  { pr with channels := ⟨pr.channels.bound, rest⟩ }

theorem Done.withRest (hd : Done env t w done pr) (rest : List Pubkey) :
    Done env t w done (pr.withRest rest) :=
  ⟨hd.lanes, hd.bound, hd.seen, hd.keys, hd.parties, hd.deltas, hd.total⟩

/-- A commitment that is authorised and payable is settled, whatever was settled before it. -/
theorem exists_settleCommitment (hd : Done env t w done pr) (hb : AreBuckets env w buckets)
    (ht : c.parsed.tokenId = t)
    (hid : ParticipantBucket.bucketIdForParticipantId c.parsed.payerId ∈ buckets.map Prod.fst)
    (hsub : (auth c).submitter payeeOwner = true) (hpay : (w.ledger env).CanPay t c.parsed.entry)
    (hsig : ∀ l, w.lane env t c.parsed.payerId c.parsed.payeeId = some l →
      (auth c).signer l.authorizedSigner = true)
    (hnew : keyOf c ∉ done.map keyOf)
    (hgross : (w.ledger env).gross t (entries (done ++ [c])) < u64Bound) :
    ∃ (used : List Pubkey) (pr' : Progress), ∀ rest, settleCommitment env auth buckets payeeOwner (pr.withRest (used ++ rest)) c
      = .ok (pr'.withRest rest) := by
  subst ht
  obtain ⟨l, sp, row, hc⟩ := hpay
  have hseen : keyOf c ∉ pr.seenLaneKeys := fun h => hnew ((hd.seen _).mp h)
  have hnotin := hd.lane_notMem hseen
  have hlane : pr.world.lane env c.parsed.tokenId c.parsed.payerId c.parsed.payeeId = some l :=
    (hd.lanes.lane_eq hnotin).trans hc.lane
  obtain ⟨lower, higher, sel, id, hcan, hid', hkey, hver, b, off, hbk, hoff⟩ :=
    laneAccount hd.lanes.located hlane
  obtain ⟨used, bound', hbound', hbind⟩ := Bindings.exists_bind
    .invalidCommitmentMessage (verifyChannel env pr.world c.parsed.tokenId)
    Bindings.enters_insertSorted hver hd.bound
  obtain ⟨⟨data, hdata, hread⟩, hedit⟩ := (settleLane_eq_ok c.parsed.committedAmount
    (min l.lockedBalance (c.parsed.committedAmount - l.settledCumulative)) (u := ()) hkey hcan).mpr
    ⟨⟨b, hbk, hoff⟩, hlane, min_le_left _ _, rfl⟩
  obtain ⟨payerData, hpd, htotal⟩ := readTotal_eq_ok.mpr ⟨sp, row, by rw [hd.lanes.slot]; exact hc.slot,
    hc.entry, (Nat.le_add_left _ _).trans_lt hc.bounded, rfl⟩
  have hnet := Ledger.net_le_gross (w.ledger env) c.parsed.tokenId (entries done)
  have hgr := hgross
  rw [entries_snoc, Ledger.gross_append, Ledger.gross, Ledger.gross] at hgr
  simp only [List.map_cons, List.map_nil, List.sum_cons, List.sum_nil, add_zero,
    Ledger.delta_of_lane hc.lane] at hgr
  have hu : min l.lockedBalance (c.parsed.committedAmount - l.settledCumulative)
      ≤ c.parsed.committedAmount - l.settledCumulative := min_le_right _ _
  have hentry : c.parsed.entry.target = c.parsed.committedAmount := rfl
  simp only [hentry, u64Bound, Ledger.gross] at hgr hnet
  obtain ⟨ds₁, hds₁⟩ := exists_addBalanceDelta (p := c.parsed.payerId)
    (d := -((c.parsed.committedAmount - l.settledCumulative
      - min l.lockedBalance (c.parsed.committedAmount - l.settledCumulative) : Nat) : Int))
    hd.keys (by rw [hd.deltas]; have := hnet c.parsed.payerId; omega)
    (by rw [hd.deltas]; have := hnet c.parsed.payerId; omega)
  obtain ⟨hn₁, -, hk₁⟩ := addBalanceDelta_spec hd.keys hds₁
  obtain ⟨ds₂, hds₂⟩ := exists_addBalanceDelta (p := c.parsed.payeeId)
    (d := ((c.parsed.committedAmount - l.settledCumulative : Nat) : Int)) hn₁
    (by rw [hk₁, hd.deltas]; have := hnet c.parsed.payeeId; split <;> omega)
    (by rw [hk₁, hd.deltas]; have := hnet c.parsed.payeeId; split <;> omega)
  refine ⟨used,
    { world := pr.world.writeLane env c.parsed.tokenId c.parsed.payerId c.parsed.payeeId
        (l.settled c.parsed.committedAmount
          (min l.lockedBalance (c.parsed.committedAmount - l.settledCumulative)))
      channels := ⟨bound', []⟩
      seenLaneKeys := pr.seenLaneKeys.orderedInsert (· ≤ ·) (keyOf c)
      deltas := ds₂
      total := pr.total + (c.parsed.committedAmount - l.settledCumulative) }, fun rest => ?_⟩
  have htot : pr.total + (c.parsed.committedAmount - l.settledCumulative) < u64Bound := by
    rw [hd.total]
    exact hgr
  simp only [settleCommitment, insertUniqueSorted, Except.bind_eq_ok, require_eq_ok, exists_const,
    Prod.exists, checkedSub_eq_ok, checkedAdd_eq_ok, Except.pure_eq_ok]
  exact ⟨hsub, _, ⟨hseen, rfl⟩, lower, higher, sel, hcan, id, hid', _, _, hbind rest, data,
    by simpa [World.getChannelBucket, Progress.withRest, channelAddress] using hdata,
    off.1, off.2, l, hread, hsig l hc.lane, hc.raised, _, ⟨rfl, hc.raised.le⟩, _,
    accountOf_of_mem hb hid, payerData, hpd, row.total, htotal, _, ⟨rfl, hc.bounded⟩, hc.covered, _,
    ⟨rfl, hu⟩, _, ⟨rfl, htot⟩, ds₁, hds₁, ds₂, hds₂, _, (), hedit, rfl⟩

/-- Authorised and payable commitments of different lanes are settled together. -/
theorem exists_settleCommitments (hd : Done env t w done pr) (hb : AreBuckets env w buckets)
    (hcs : ∀ c ∈ cs, c.parsed.tokenId = t ∧
      ParticipantBucket.bucketIdForParticipantId c.parsed.payerId ∈ buckets.map Prod.fst ∧
      (auth c).submitter payeeOwner = true ∧ (w.ledger env).CanPay t c.parsed.entry ∧
      ∀ l, w.lane env t c.parsed.payerId c.parsed.payeeId = some l →
        (auth c).signer l.authorizedSigner = true)
    (hn : ((done ++ cs).map keyOf).Nodup)
    (hgross : (w.ledger env).gross t (entries (done ++ cs)) < u64Bound) :
    ∃ (used : List Pubkey) (pr' : Progress), ∀ rest, cs.foldlM
      (settleCommitment env auth buckets payeeOwner) (pr.withRest (used ++ rest))
        = .ok (pr'.withRest rest) := by
  induction cs generalizing done pr with
  | nil => exact ⟨[], pr, fun rest => rfl⟩
  | cons c cs ih =>
      obtain ⟨ht, hid, hsub, hpay, hsig⟩ := hcs c (by simp)
      have happ : done ++ c :: cs = (done ++ [c]) ++ cs := by simp
      rw [happ] at hn hgross
      have hnew : keyOf c ∉ done.map keyOf := by
        rw [List.map_append, List.nodup_append] at hn
        have := hn.1
        simp only [List.map_append, List.map_cons, List.map_nil, List.nodup_append,
          List.mem_singleton] at this
        exact fun hm => this.2.2 _ hm _ rfl rfl
      have hgr : (w.ledger env).gross t (entries (done ++ [c])) < u64Bound := by
        rw [entries, List.map_append, Ledger.gross_append] at hgross
        exact (Nat.le_add_right _ _).trans_lt hgross
      obtain ⟨used₁, pr₁, h₁⟩ := exists_settleCommitment hd hb ht hid hsub hpay hsig hnew hgr
      have hd₁ : Done env t w (done ++ [c]) pr₁ := by
        have := (settleCommitment_spec (hd.withRest _) hb ht (h₁ [])).1
        exact this.withRest pr₁.channels.rest
      obtain ⟨used₂, pr₂, h₂⟩ := ih hd₁ (fun c hc => hcs c (List.mem_cons_of_mem _ hc)) hn hgross
      refine ⟨used₁ ++ used₂, pr₂, fun rest => foldlM_cons_eq_ok.mpr ⟨_, ?_, h₂ rest⟩⟩
      rw [List.append_assoc]
      exact h₁ _

/-- Authorised and payable commitments of different payers are settled, with the right accounts,
when the payee can receive them all. -/
theorem exists_settle (hl : Located env w)
    (hcs : ∀ c ∈ cs, c.parsed.tokenId = t ∧ c.parsed.payeeId = q)
    (hn : (cs.map (·.parsed.payerId)).Nodup)
    (hacc : ∀ c ∈ cs, SettleIndividual.Accepts env w (auth c) c.parsed)
    (hr : (w.ledger env).CanReceive t q ((w.ledger env).gross t (entries cs))) :
    ∃ remaining w', settle env w auth remaining t q cs = .ok w' := by
  obtain ⟨sq, sq', hsq, hrec⟩ := hr
  rw [World.ledger_slot] at hsq
  let ids := participantBucketIds q (cs.map (·.parsed.payerId))
  have hmem : ∀ c ∈ cs, ParticipantBucket.bucketIdForParticipantId c.parsed.payerId ∈ ids :=
    fun c hc => mem_participantBucketIds.mpr
      (.inr (List.mem_map.mpr ⟨_, List.mem_map.mpr ⟨c, hc, rfl⟩, rfl⟩))
  have hq : ParticipantBucket.bucketIdForParticipantId q ∈ ids := mem_participantBucketIds.mpr (.inl rfl)
  have hsome : ∀ id ∈ ids, (w.participantBuckets (env.address (.participantBucket id))).isSome := by
    intro id hid
    rcases mem_participantBucketIds.mp hid with rfl | hid
    · exact isSome_bucket_of_slot hsq
    · obtain ⟨_, hp, rfl⟩ := List.mem_map.mp hid
      obtain ⟨c, hc, rfl⟩ := List.mem_map.mp hp
      obtain ⟨l, sp, row, hpay⟩ := (hacc c hc).canPay
      exact isSome_bucket_of_slot hpay.slot
  have hb : AreBuckets env w (bucketsOf env ids) := areBuckets_bucketsOf hsome
  obtain ⟨r, hver⟩ := (verifyBuckets_eq_ok hl).mpr hb
  obtain ⟨payeeData, hpd, howner⟩ := readOwner_eq_ok.mpr ⟨sq, hsq, rfl⟩
  have hauth : ∀ c ∈ cs, c.parsed.tokenId = t ∧
      ParticipantBucket.bucketIdForParticipantId c.parsed.payerId ∈ (bucketsOf env ids).map Prod.fst ∧
      (auth c).submitter sq.owner = true ∧ (w.ledger env).CanPay t c.parsed.entry ∧
      ∀ l, w.lane env t c.parsed.payerId c.parsed.payeeId = some l →
        (auth c).signer l.authorizedSigner = true := fun c hc => by
    obtain ⟨ht, hpq⟩ := hcs c hc
    obtain ⟨hpay, hsig, s, hs, hsub⟩ := hacc c hc
    subst ht hpq
    obtain rfl := Option.some.inj (hs.symm.trans hsq)
    exact ⟨rfl, by simpa using hmem c hc, hsub, hpay, hsig⟩
  have hkeys : (cs.map keyOf).Nodup := by
    simp only [List.Nodup, List.pairwise_map] at hn ⊢
    exact hn.imp fun h e => h (laneKey_inj e).1
  have hgross : (w.ledger env).gross t (entries cs) < u64Bound := by
    rcases Nat.eq_zero_or_pos ((w.ledger env).gross t (entries cs)) with h0 | hpos
    · rw [h0]; decide
    · exact Ledger.CanReceive.lt (L := w.ledger env) ⟨sq, sq', hsq, hrec⟩ hpos
  obtain ⟨used, pr, hloop⟩ := exists_settleCommitments (.nil hl []) hb hauth (by simpa using hkeys)
    (by simpa using hgross)
  have hd := (settleCommitments_spec ((Done.nil hl []).withRest _) hb (fun c hc => (hcs c hc).1)
    (hloop [])).1
  rw [List.nil_append] at hd
  have hparties : ∀ d ∈ (pr.withRest []).deltas, ∃ c ∈ cs, d.1 = c.parsed.payerId ∨ d.1 = q := by
    intro d hd'
    obtain ⟨c, hc, h⟩ := hd.parties d.1 (List.mem_map.mpr ⟨d, hd', rfl⟩)
    exact ⟨c, hc, (hcs c hc).2 ▸ h⟩
  have hentry : ∀ c ∈ cs, c.parsed.entry.payee = q ∧ c.parsed.entry.payer ≠ q := fun c hc => by
    obtain ⟨l, sp, row, hpay⟩ := (hauth c hc).2.2.2.1
    exact ⟨(hcs c hc).2, fun e => lane_ne hpay.lane (e.trans (hcs c hc).2.symm)⟩
  have hentries : ∀ e ∈ entries cs, e.payee = q ∧ e.payer ≠ q := fun e he => by
    obtain ⟨c, hc, rfl⟩ := List.mem_map.mp he
    exact hentry c hc
  obtain ⟨w', hw'⟩ := exists_applyBuckets (t := t) (hb.of_eq hd.lanes.participantBuckets)
    (by simpa using participantBucketIds_nodup _ _) (fun d hd' => by
      obtain ⟨c, hc, h | h⟩ := hparties d hd'
      · rw [h]; simpa using hmem c hc
      · rw [h]; simpa using hq) hd.keys (fun d hd' _ => by
      have hnet : d.2 = (w.ledger env).net t (entries cs) d.1 := by
        rw [← hd.deltas, keyed_of_mem hd.keys hd']
      rw [hd.lanes.slot, hnet]
      obtain ⟨c, hc, h | h⟩ := hparties d hd'
      · obtain ⟨l, sp, row, hpay⟩ := (hauth c hc).2.2.2.1
        obtain ⟨sp', hsp'⟩ := hpay.debit
        rw [h]
        refine ⟨sp, sp', hpay.slot, ?_⟩
        have := Ledger.net_payer (L := w.ledger env) (t := t) (e := c.parsed.entry) (by
            simpa [entries, Function.comp_def, ParsedCommitmentMessage.entry] using hn)
          (List.mem_map.mpr ⟨c, hc, rfl⟩)
          fun e he h' => (hentry c hc).2 (h'.symm.trans (hentries e he).1)
        rwa [← this] at hsp'
      · rw [h, Ledger.net_payee hentries]
        exact ⟨sq, sq', hsq, hrec⟩)
  refine ⟨bucketAddresses env ids ++ used, w', ?_⟩
  simp only [settle, Except.bind_eq_ok, require_eq_ok, exists_const]
  refine ⟨by simp [bucketAddresses, ids], ?_⟩
  rw [zip_bucketAddresses]
  refine ⟨r, hver, _, accountOf_of_mem hb (by simpa using hq), payeeData, hpd, sq.owner, howner,
    pr.withRest [], ?_, rfl, hw'⟩
  have hdrop : (bucketAddresses env ids ++ used).drop ids.length = used := by
    rw [List.drop_append_of_le_length (by simp [bucketAddresses])]
    simp [bucketAddresses]
  have := hloop []
  simpa only [Progress.withRest, List.append_nil, hdrop, ids] using this

end SettleCommitmentBundle

end Ryvo
