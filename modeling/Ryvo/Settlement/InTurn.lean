import Ryvo.Settlement.Bundle

/-!
# Settlement — One after another

The plain path: commitments settled one after another, each in an instruction of its own (`SettledInTurn`).

* `Ledger.Settles.net_eq` and its neighbours: settling one lane changes nothing that the entries of other lanes read.
* `SettledInTurn.raised`, `SettledInTurn.moved`: what a sequence does to the lanes and to a slot, whatever the lanes.
* `settledInTurn_iff`: commitments of different payers to one payee can be settled in turn exactly when each can be settled and the payee can receive them all; the order does not matter, and together they are one settlement.
-/

namespace Ryvo

variable {env : Env} {w w' w₁ : World} {t t' : U16} {p q : U32}
variable {s s' s₁ : ParticipantBucketSlot} {e : LaneEntry} {es : List LaneEntry} {d d' : Int}

/-! ### Slots -/

namespace ParticipantBucketSlot

/-- What some deltas on token `t`, of `d` in sum, leave of a slot. -/
structure Moved (s s' : ParticipantBucketSlot) (t : U16) (d : Int) : Prop where
  owner : s'.owner = s.owner
  total : ((s'.balance t).total : Int) = (s.balance t).total + d
  other : ∀ t', t' ≠ t → s'.tokenEntry t' = s.tokenEntry t'
  withdrawing_le : (s'.balance t).withdrawingBalance ≤ (s.balance t).withdrawingBalance
  room : ¬ s.HasRoom t → s' = s

theorem Moved.refl (s : ParticipantBucketSlot) (t : U16) : Moved s s t 0 where
  owner := rfl
  total := (add_zero _).symm
  other _ _ := rfl
  withdrawing_le := le_rfl
  room _ := rfl

theorem Moved.trans (h : Moved s s₁ t d) (h' : Moved s₁ s' t d') : Moved s s' t (d + d') where
  owner := h'.owner.trans h.owner
  total := by rw [h'.total, h.total, add_assoc]
  other t' ht := (h'.other t' ht).trans (h.other t' ht)
  withdrawing_le := h'.withdrawing_le.trans h.withdrawing_le
  room hr := by
    obtain rfl := h.room hr
    exact h'.room hr

/-- A slot without room takes no delta but zero. -/
theorem Moved.of_delta (h : s.withTokenDelta t d = .ok s') : Moved s s' t d where
  owner := (appliedDelta h).profile.owner
  total := (appliedDelta h).total
  other := (appliedDelta h).other
  withdrawing_le := (appliedDelta h).withdrawing_le
  room hr := by
    rcases delta_cases d with rfl | ⟨n, hn, rfl⟩ | ⟨n, hn, rfl⟩
    · exact (Except.ok.inj h).symm
    · exact absurd ((withTokenDelta_credit hn).mp h).1 hr
    · obtain ⟨row, hrow, -⟩ := (withTokenDelta_debit hn).mp h
      exact absurd (hasRoom_of_tokenEntry hrow) hr

/-- What can be done in several deltas can be done in one, when the totals fit. -/
theorem Moved.exists_delta (h : Moved s s' t d) (hs : (s.balance t).total < u64Bound)
    (hs' : (s'.balance t).total < u64Bound) : ∃ s₁, s.withTokenDelta t d = .ok s₁ := by
  have htotal := h.total
  rcases delta_cases d with rfl | ⟨n, hn, rfl⟩ | ⟨n, hn, rfl⟩
  · exact ⟨s, rfl⟩
  · have hroom : s.HasRoom t := by
      by_contra hr
      rw [h.room hr] at htotal
      omega
    have hle : (s.balance t).availableBalance ≤ (s.balance t).total := Nat.le_add_right _ _
    exact ⟨_, (withTokenDelta_credit hn).mpr ⟨hroom, by omega, rfl⟩⟩
  · cases he : s.tokenEntry t with
    | none =>
        rw [balance_of_none he] at htotal
        have h₀ : (BucketTokenBalance.fresh t).total = 0 := rfl
        omega
    | some row =>
        rw [balance_of_tokenEntry he] at htotal hs
        exact ⟨_, (withTokenDelta_debit hn).mpr ⟨row, he, hs, by omega, rfl⟩⟩

/-- One delta leaves at least as much of a pending withdrawal as several. -/
theorem Moved.withdrawing_le_delta (h : Moved s s' t d) (hd : s.withTokenDelta t d = .ok s₁) :
    (s'.balance t).withdrawingBalance ≤ (s₁.balance t).withdrawingBalance := by
  have ha := appliedDelta hd
  have htotal := h.total
  have htotal₁ := ha.total
  simp only [BucketTokenBalance.total] at htotal htotal₁
  have hle := h.withdrawing_le
  by_cases hdrained : (s₁.balance t).withdrawingBalance < (s.balance t).withdrawingBalance
  · have := ha.drained hdrained
    omega
  · omega

end ParticipantBucketSlot

/-! ### One lane of several -/

namespace Ledger

variable {L L' L₁ : Ledger}

theorem Settles.lane_eq (h : L.Settles t [e] L₁) {e' : LaneEntry} (hne : e'.lane ≠ e.lane) :
    L₁.lane t e'.payer e'.payee = L.lane t e'.payer e'.payee := by
  refine h.otherLanes t e'.payer e'.payee fun hm => hne ?_
  simpa [LaneEntry.lane] using hm.2

theorem Settles.delta_eq (h : L.Settles t [e] L₁) {e' : LaneEntry} (hne : e'.lane ≠ e.lane) :
    L₁.delta t e' = L.delta t e' := by
  simp only [delta, settledCumulative, h.lane_eq hne]

theorem Settles.used_eq (h : L.Settles t [e] L₁) {e' : LaneEntry} (hne : e'.lane ≠ e.lane) :
    L₁.used t e' = L.used t e' := by
  simp only [used, Ledger.locked, h.delta_eq hne, h.lane_eq hne]

theorem ne_of_notMem (hn : e.lane ∉ es.map LaneEntry.lane) : ∀ e' ∈ es, e'.lane ≠ e.lane :=
  fun e' he' h => hn (List.mem_map.mpr ⟨e', he', h⟩)

/-- The nets of entries on other lanes are as they were. -/
theorem Settles.net_eq (h : L.Settles t [e] L₁) (hn : e.lane ∉ es.map LaneEntry.lane) (p : U32) :
    L₁.net t es p = L.net t es p := by
  have hne := ne_of_notMem hn
  have h₁ : keyed (·.payee) (L₁.delta t) es p = keyed (·.payee) (L.delta t) es p :=
    keyed_congr (fun e' he' => h.delta_eq (hne e' he')) p
  have h₂ : keyed (·.payer) (fun e => L₁.delta t e - L₁.used t e) es p
      = keyed (·.payer) (fun e => L.delta t e - L.used t e) es p :=
    keyed_congr (fun e' he' => by rw [h.delta_eq (hne e' he'), h.used_eq (hne e' he')]) p
  simp only [net, paidTo, uncoveredBy, h₁, h₂]

theorem Settles.gross_eq (h : L.Settles t [e] L₁) (hn : e.lane ∉ es.map LaneEntry.lane) :
    L₁.gross t es = L.gross t es := by
  rw [gross, gross, List.map_congr_left fun e' he' => h.delta_eq (ne_of_notMem hn e' he')]

theorem Settles.slot_isSome_of (h : L.Settles t es L') (hs : (L'.slot p).isSome) :
    (L.slot p).isSome := by
  cases hp : L.slot p with
  | none => simp [h.noSlot p hp] at hs
  | some s => rfl

theorem withTokenDelta_zero_iff : s.withTokenDelta t 0 = .ok s' ↔ s' = s := by
  rw [ParticipantBucketSlot.withTokenDelta_zero, Except.ok.injEq, eq_comm]

theorem net_cons : L.net t (e :: es) p = L.net t [e] p + L.net t es p := by
  rw [← List.singleton_append, net_append]

theorem gross_cons : L.gross t (e :: es) = L.delta t e + L.gross t es := rfl

/-- A settlement of one lane, then one of others, of payers of their own and to the same payee. -/
theorem Settles.cons (h : L.Settles t [e] L₁) (h' : L₁.Settles t es L')
    (hn : e.lane ∉ es.map LaneEntry.lane) (hq : ∀ e' ∈ es, e'.payee = e.payee)
    (hp : ∀ e' ∈ es, e'.payer ≠ e.payer) : L.Settles t (e :: es) L' where
  nodup := List.nodup_cons.mpr ⟨hn, h'.nodup⟩
  lanes e' he' := by
    rcases List.mem_cons.mp he' with rfl | he'
    · obtain ⟨l, hl, hlt, hl₁⟩ := h.lanes e' (List.mem_singleton_self _)
      refine ⟨l, hl, hlt, ?_⟩
      rw [h'.otherLanes _ _ _ fun hm => hn hm.2, hl₁]
    · obtain ⟨l, hl, hlt, hl'⟩ := h'.lanes e' he'
      exact ⟨l, (h.lane_eq (ne_of_notMem hn e' he')).symm.trans hl, hlt, hl'⟩
  otherLanes t' p q hm := by
    simp only [List.map_cons, List.mem_cons] at hm
    rw [h'.otherLanes t' p q (by tauto), h.otherLanes t' p q (by simpa using by tauto)]
  slots p s hs := by
    obtain ⟨s₁, hs₁, hd₁⟩ := h.slots p s hs
    obtain ⟨s', hs', hd'⟩ := h'.slots p s₁ hs₁
    refine ⟨s', hs', ?_⟩
    rw [h.net_eq hn] at hd'
    rw [net_cons]
    have hne : e.payer ≠ e.payee := (h.known e (List.mem_singleton_self _)).1
    by_cases hpq : p = e.payee
    · -- The payee is only credited, so the credits add up.
      subst hpq
      have hpayer : ∀ e' ∈ es, e'.payee = e.payee ∧ e'.payer ≠ e.payee := fun e' he' =>
        ⟨hq e' he', fun hpe => (h'.known e' he').1 (hpe.trans (hq e' he').symm)⟩
      rw [net_payee hpayer] at hd' ⊢
      have hone : ∀ e' ∈ [e], e'.payee = e.payee ∧ e'.payer ≠ e.payee := by simpa using hne
      rw [net_payee hone] at hd₁ ⊢
      exact_mod_cast ParticipantBucketSlot.withTokenDelta_add.mpr ⟨s₁, hd₁, hd'⟩
    by_cases hpe : p = e.payer
    · -- A payer pays on one of the lanes only.
      subst hpe
      have h₀ : L.net t es e.payer = 0 := net_eq_zero fun e' he' =>
        ⟨hp e' he', fun hpe' => hne (hpe'.symm.trans (hq e' he'))⟩
      rw [h₀, withTokenDelta_zero_iff] at hd'
      rwa [h₀, add_zero, hd']
    · have h₀ : L.net t [e] p = 0 := net_eq_zero fun e' he' => by
        obtain rfl := List.mem_singleton.mp he'
        exact ⟨Ne.symm hpe, Ne.symm hpq⟩
      rw [h₀, withTokenDelta_zero_iff] at hd₁
      rwa [h₀, zero_add, ← hd₁]
  noSlot p hp := h'.noSlot p (h.noSlot p hp)
  known e' he' := by
    rcases List.mem_cons.mp he' with rfl | he'
    · exact h.known e' (List.mem_singleton_self _)
    · obtain ⟨hne, hpayer, hpayee⟩ := h'.known e' he'
      exact ⟨hne, h.slot_isSome_of hpayer, h.slot_isSome_of hpayee⟩

/-- The entries are settled in some order: their lanes are raised, and each slot is moved by its net. -/
structure Raises (L : Ledger) (t : U16) (es : List LaneEntry) (L' : Ledger) : Prop where
  lanes : ∀ e ∈ es, ∃ l, L.lane t e.payer e.payee = some l ∧ l.settledCumulative < e.target ∧
    L'.lane t e.payer e.payee = some (settledLane l e.target)
  otherLanes : ∀ t' p q, ¬ (t' = t ∧ (p, q) ∈ es.map LaneEntry.lane) →
    L'.lane t' p q = L.lane t' p q
  slots : ∀ p s, L.slot p = some s → ∃ s', L'.slot p = some s' ∧ s.Moved s' t (L.net t es p)
  noSlot : ∀ p, L.slot p = none → L'.slot p = none
  known : ∀ e ∈ es, e.payer ≠ e.payee ∧ (L.slot e.payer).isSome ∧ (L.slot e.payee).isSome

theorem Raises.refl (L : Ledger) (t : U16) : L.Raises t [] L where
  lanes := by simp
  otherLanes _ _ _ _ := rfl
  slots p s hs := ⟨s, hs, .refl s t⟩
  noSlot _ hp := hp
  known := by simp

theorem Settles.raises_cons (h : L.Settles t [e] L₁) (h' : L₁.Raises t es L')
    (hn : e.lane ∉ es.map LaneEntry.lane) : L.Raises t (e :: es) L' where
  lanes e' he' := by
    rcases List.mem_cons.mp he' with rfl | he'
    · obtain ⟨l, hl, hlt, hl₁⟩ := h.lanes e' (List.mem_singleton_self _)
      refine ⟨l, hl, hlt, ?_⟩
      rw [h'.otherLanes _ _ _ fun hm => hn hm.2, hl₁]
    · obtain ⟨l, hl, hlt, hl'⟩ := h'.lanes e' he'
      exact ⟨l, (h.lane_eq (ne_of_notMem hn e' he')).symm.trans hl, hlt, hl'⟩
  otherLanes t' p q hm := by
    simp only [List.map_cons, List.mem_cons] at hm
    rw [h'.otherLanes t' p q (by tauto), h.otherLanes t' p q (by simpa using by tauto)]
  slots p s hs := by
    obtain ⟨s₁, hs₁, hd₁⟩ := h.slots p s hs
    obtain ⟨s', hs', hm⟩ := h'.slots p s₁ hs₁
    rw [h.net_eq hn] at hm
    rw [net_cons]
    exact ⟨s', hs', (ParticipantBucketSlot.Moved.of_delta hd₁).trans hm⟩
  noSlot p hp := h'.noSlot p (h.noSlot p hp)
  known e' he' := by
    rcases List.mem_cons.mp he' with rfl | he'
    · exact h.known e' (List.mem_singleton_self _)
    · obtain ⟨hne, hpayer, hpayee⟩ := h'.known e' he'
      exact ⟨hne, h.slot_isSome_of hpayer, h.slot_isSome_of hpayee⟩

/-- The order of the entries does not matter. -/
theorem Raises.perm {es' : List LaneEntry} (h : L.Raises t es L') (hp : es.Perm es') :
    L.Raises t es' L' where
  lanes e he := h.lanes e (hp.mem_iff.mpr he)
  otherLanes t' p q hm := h.otherLanes t' p q fun hm' => hm ⟨hm'.1, (hp.map _).mem_iff.mp hm'.2⟩
  slots p s hs := by
    rw [← net_perm hp]
    exact h.slots p s hs
  noSlot := h.noSlot
  known e he := h.known e (hp.mem_iff.mpr he)

theorem Raises.total_eq (h : L.Raises t es L') (p : U32) :
    (L'.total t p : Int) = L.total t p + L.net t es p := by
  cases hp : L.slot p with
  | some s =>
      obtain ⟨s', hs', hm⟩ := h.slots p s hp
      rw [total_of_slot hp, total_of_slot hs', hm.total]
  | none =>
      have hnet : L.net t es p = 0 := net_eq_zero fun e he =>
        ⟨fun hpe => by simpa [hpe, hp] using (h.known e he).2.1,
          fun hpe => by simpa [hpe, hp] using (h.known e he).2.2⟩
      simp [Ledger.total, hp, h.noSlot p hp, hnet]

end Ledger

/-! ### Commitments in turn -/

open SettleCommitmentBundle (ParsedBundleCommitment Authorities entries)

/-- The commitments are settled one after another, each with the accounts it needs. -/
inductive SettledInTurn (env : Env) (auth : Authorities) :
    World → List ParsedBundleCommitment → World → Prop
  | nil {w : World} : SettledInTurn env auth w [] w
  | cons {w w₁ w' : World} {c : ParsedBundleCommitment} {cs : List ParsedBundleCommitment}
      {remaining : List Pubkey} :
      SettleIndividual.settle env w (auth c) remaining c.parsed = .ok w₁ →
      SettledInTurn env auth w₁ cs w' → SettledInTurn env auth w (c :: cs) w'

variable {auth : Authorities} {c : ParsedBundleCommitment} {cs cs' : List ParsedBundleCommitment}

theorem SettledInTurn.located (h : SettledInTurn env auth w cs w') (hl : Located env w) :
    Located env w' ∧ BucketsOnly w w' := by
  induction h with
  | nil => exact ⟨hl, rfl⟩
  | cons h₁ _ ih =>
      obtain ⟨-, -, hl₁, hb₁⟩ := SettleIndividual.settle_spec hl h₁
      obtain ⟨hl', hb'⟩ := ih hl₁
      refine ⟨hl', ?_⟩
      rw [BucketsOnly] at hb₁ hb' ⊢
      rw [hb', hb₁]

/-- Commitments on different lanes, in turn, raise their lanes. -/
theorem SettledInTurn.raises (h : SettledInTurn env auth w cs w') (hl : Located env w)
    (ht : ∀ c ∈ cs, c.parsed.tokenId = t) (hn : ((entries cs).map LaneEntry.lane).Nodup) :
    (w.ledger env).Raises t (entries cs) (w'.ledger env) := by
  induction h with
  | nil => exact .refl _ t
  | cons h₁ _ ih =>
      obtain ⟨-, hset, hl₁, -⟩ := SettleIndividual.settle_spec hl h₁
      obtain ⟨rfl, ht⟩ := List.forall_mem_cons.mp ht
      obtain ⟨hnew, hn⟩ := List.nodup_cons.mp hn
      exact hset.raises_cons (ih hl₁ ht hn) hnew

/-! ### One payee -/

/-- Each commitment is authorised and payable, and the payee can receive all of them. -/
structure Payable (env : Env) (w : World) (auth : Authorities) (t : U16) (q : U32)
    (cs : List ParsedBundleCommitment) : Prop where
  accepts : ∀ c ∈ cs, SettleIndividual.Accepts env w (auth c) c.parsed
  receives : (w.ledger env).CanReceive t q ((w.ledger env).gross t (entries cs))

theorem Payable.perm (h : Payable env w auth t q cs) (hp : cs.Perm cs') :
    Payable env w auth t q cs' where
  accepts c hc := h.accepts c (hp.mem_iff.mpr hc)
  receives := by
    have hgross : (w.ledger env).gross t (entries cs) = (w.ledger env).gross t (entries cs') :=
      Ledger.gross_perm (hp.map _)
    exact hgross ▸ h.receives

/-- What a commitment is accepted by is its lane, its payer's slot and its payee's owner. -/
theorem SettleIndividual.Accepts.congr {a : SettleIndividual.Authority}
    {parsed : ParsedCommitmentMessage} (h : SettleIndividual.Accepts env w a parsed)
    (hlane : w₁.lane env parsed.tokenId parsed.payerId parsed.payeeId
      = w.lane env parsed.tokenId parsed.payerId parsed.payeeId)
    (hslot : w₁.slot env parsed.payerId = w.slot env parsed.payerId)
    (howner : ∀ s, w.slot env parsed.payeeId = some s →
      ∃ s₁, w₁.slot env parsed.payeeId = some s₁ ∧ s₁.owner = s.owner) :
    SettleIndividual.Accepts env w₁ a parsed where
  canPay := by
    obtain ⟨l, s, row, hc⟩ := h.canPay
    exact ⟨l, s, row, hlane.trans hc.lane, hslot.trans hc.slot, hc.entry, hc.raised, hc.bounded,
      hc.covered⟩
  signer l hl := h.signer l (hlane.symm.trans hl)
  submitter := by
    obtain ⟨s, hs, ha⟩ := h.submitter
    obtain ⟨s₁, hs₁, ho⟩ := howner s hs
    exact ⟨s₁, hs₁, ho ▸ ha⟩

/-- The payee's credits add up. -/
theorem canReceive_cons {L L₁ : Ledger} (h : L.Settles t [e] L₁) (n : Nat) :
    L₁.CanReceive t e.payee n ↔ L.CanReceive t e.payee (L.delta t e + n) := by
  have hne := (h.known e (List.mem_singleton_self _)).1
  have hnet : L.net t [e] e.payee = (L.delta t e : Nat) := by
    have hone : ∀ e' ∈ [e], e'.payee = e.payee ∧ e'.payer ≠ e.payee := by simpa using hne
    rw [Ledger.net_payee hone]
    rfl
  constructor
  · rintro ⟨s₁, s', hs₁, hd'⟩
    cases hs : L.slot e.payee with
    | none => simp [h.noSlot _ hs] at hs₁
    | some s =>
        obtain ⟨s₂, hs₂, hd⟩ := h.slots _ s hs
        obtain rfl := Option.some.inj (hs₁.symm.trans hs₂)
        rw [hnet] at hd
        exact ⟨s, s', hs, ParticipantBucketSlot.withTokenDelta_add.mpr ⟨s₁, hd, hd'⟩⟩
  · rintro ⟨s, s', hs, hd⟩
    obtain ⟨s₁, hd₁, hd'⟩ := ParticipantBucketSlot.withTokenDelta_add.mp hd
    obtain ⟨s₂, hs₂, hd₂⟩ := h.slots _ s hs
    rw [hnet] at hd₂
    obtain rfl := Except.ok.inj (hd₁.symm.trans hd₂)
    exact ⟨s₁, s', hs₂, hd'⟩

/-- What settling `c` leaves of what a commitment of another payer to the same payee is accepted by. -/
theorem accepts_iff_of_settled {x : ParsedBundleCommitment} {a : SettleIndividual.Authority}
    (h : (w.ledger env).Settles t [c.parsed.entry] (w₁.ledger env)) (ht : x.parsed.tokenId = t)
    (hq : x.parsed.payeeId = c.parsed.payeeId) (hp : x.parsed.payerId ≠ c.parsed.payerId) :
    SettleIndividual.Accepts env w₁ a x.parsed ↔ SettleIndividual.Accepts env w a x.parsed := by
  subst ht
  have hlane : w₁.lane env x.parsed.tokenId x.parsed.payerId x.parsed.payeeId
      = w.lane env x.parsed.tokenId x.parsed.payerId x.parsed.payeeId :=
    h.lane_eq (show x.parsed.entry.lane ≠ _ from fun hk => hp (congrArg Prod.fst hk))
  have hslot : x.parsed.payerId ≠ x.parsed.payeeId →
      w₁.slot env x.parsed.payerId = w.slot env x.parsed.payerId := fun hne => by
    have hnet : (w.ledger env).net x.parsed.tokenId [c.parsed.entry] x.parsed.payerId = 0 :=
      Ledger.net_eq_zero fun e he => by
        obtain rfl := List.mem_singleton.mp he
        exact ⟨Ne.symm hp, fun hpe => hne (hpe.symm.trans hq.symm)⟩
    cases hs : w.slot env x.parsed.payerId with
    | none => exact h.noSlot _ hs
    | some s =>
        obtain ⟨s₁, hs₁, hd⟩ := h.slots _ s hs
        rw [hnet, Ledger.withTokenDelta_zero_iff] at hd
        rw [← hd]
        exact hs₁
  have hself : ∀ {w₂ : World}, SettleIndividual.Accepts env w₂ a x.parsed →
      x.parsed.payerId ≠ x.parsed.payeeId := fun hacc => by
    obtain ⟨l, s, row, hc⟩ := hacc.canPay
    exact lane_ne hc.lane
  constructor
  · intro hacc
    refine hacc.congr hlane.symm (hslot (hself hacc)).symm fun s₁ hs₁ => ?_
    cases hs : w.slot env x.parsed.payeeId with
    | none =>
        have hnone := h.noSlot _ hs
        rw [World.ledger_slot, hs₁] at hnone
        cases hnone
    | some s =>
        obtain ⟨s₂, hs₂, hd⟩ := h.slots _ s hs
        obtain rfl := Option.some.inj (hs₁.symm.trans hs₂)
        exact ⟨s, rfl, (ParticipantBucketSlot.appliedDelta hd).profile.owner.symm⟩
  · intro hacc
    refine hacc.congr hlane (hslot (hself hacc)) fun s hs => ?_
    obtain ⟨s₁, hs₁, hd⟩ := h.slots _ s hs
    exact ⟨s₁, hs₁, (ParticipantBucketSlot.appliedDelta hd).profile.owner⟩

/-- Once `c` is settled, the others are payable exactly when all of them were. -/
theorem payable_cons (h : (w.ledger env).Settles t [c.parsed.entry] (w₁.ledger env))
    (hc : c.parsed.payeeId = q) (hacc : SettleIndividual.Accepts env w (auth c) c.parsed)
    (hcs : ∀ x ∈ cs, x.parsed.tokenId = t ∧ x.parsed.payeeId = q)
    (hp : ∀ x ∈ cs, x.parsed.payerId ≠ c.parsed.payerId) :
    Payable env w₁ auth t q cs ↔ Payable env w auth t q (c :: cs) := by
  subst hc
  have hx : ∀ x ∈ cs, SettleIndividual.Accepts env w₁ (auth x) x.parsed ↔
      SettleIndividual.Accepts env w (auth x) x.parsed := fun x hx =>
    accepts_iff_of_settled h (hcs x hx).1 (hcs x hx).2 (hp x hx)
  have hnew : c.parsed.entry.lane ∉ (entries cs).map LaneEntry.lane := fun hm => by
    simp only [entries, List.map_map, List.mem_map, Function.comp_apply] at hm
    obtain ⟨x, hx, hk⟩ := hm
    exact hp x hx (congrArg Prod.fst hk)
  have hgross := h.gross_eq hnew
  constructor
  · intro hpay
    refine ⟨List.forall_mem_cons.mpr ⟨hacc, fun x hm => (hx x hm).mp (hpay.accepts x hm)⟩, ?_⟩
    have hreceives := hpay.receives
    rw [hgross] at hreceives
    exact (canReceive_cons h _).mp hreceives
  · intro hpay
    refine ⟨fun x hm => (hx x hm).mpr (hpay.accepts x (List.mem_cons_of_mem _ hm)), ?_⟩
    rw [hgross]
    exact (canReceive_cons h _).mpr hpay.receives

/-- **In turn, or not at all**: commitments of different payers to one payee can be settled one after another exactly when each is accepted and the payee can receive their sum. -/
theorem settledInTurn_iff (hl : Located env w) (hq : (w.slot env q).isSome)
    (hcs : ∀ c ∈ cs, c.parsed.tokenId = t ∧ c.parsed.payeeId = q)
    (hn : (cs.map (·.parsed.payerId)).Nodup) :
    (∃ w', SettledInTurn env auth w cs w') ↔ Payable env w auth t q cs := by
  induction cs generalizing w with
  | nil =>
      obtain ⟨s, hs⟩ := Option.isSome_iff_exists.mp hq
      exact ⟨fun _ => ⟨by simp, s, s, hs, rfl⟩, fun _ => ⟨w, .nil⟩⟩
  | cons c cs ih =>
      obtain ⟨⟨rfl, rfl⟩, hcs⟩ := List.forall_mem_cons.mp hcs
      simp only [List.map_cons, List.nodup_cons, List.mem_map, not_exists, not_and] at hn
      have step : ∀ {w₁ remaining}, SettleIndividual.settle env w (auth c) remaining c.parsed = .ok w₁ →
          SettleIndividual.Accepts env w (auth c) c.parsed ∧
            ((∃ w', SettledInTurn env auth w₁ cs w') ↔
              Payable env w auth c.parsed.tokenId c.parsed.payeeId (c :: cs)) := fun {w₁ _} h₁ => by
        obtain ⟨hacc, hset, hl₁, -⟩ := SettleIndividual.settle_spec hl h₁
        obtain ⟨s, hs⟩ := Option.isSome_iff_exists.mp hq
        obtain ⟨s₁, hs₁, -⟩ := hset.slots _ s hs
        have hq₁ : (w₁.slot env c.parsed.payeeId).isSome := by
          rw [World.ledger_slot] at hs₁
          simp [hs₁]
        exact ⟨hacc, (ih hl₁ hq₁ hcs hn.2).trans (payable_cons hset rfl hacc hcs hn.1)⟩
      constructor
      · rintro ⟨w', h⟩
        cases h with
        | cons h₁ h => exact (step h₁).2.mp ⟨w', h⟩
      · intro hpay
        have hle : (w.ledger env).delta c.parsed.tokenId c.parsed.entry
            ≤ (w.ledger env).gross c.parsed.tokenId (entries (c :: cs)) := Nat.le_add_right _ _
        obtain ⟨w₁, h₁⟩ := SettleIndividual.exists_settle hl (hpay.accepts c List.mem_cons_self)
          (hpay.receives.le hle)
        obtain ⟨w', h⟩ := (step h₁).2.mpr hpay
        exact ⟨w', .cons h₁ h⟩

/-- Together they are one settlement. -/
theorem SettledInTurn.settles (h : SettledInTurn env auth w cs w') (hl : Located env w)
    (hne : cs ≠ []) (hcs : ∀ c ∈ cs, c.parsed.tokenId = t ∧ c.parsed.payeeId = q)
    (hn : (cs.map (·.parsed.payerId)).Nodup) :
    (w.ledger env).Settles t (entries cs) (w'.ledger env) := by
  induction cs generalizing w with
  | nil => exact absurd rfl hne
  | cons c cs ih =>
      cases h with
      | cons h₁ h =>
          obtain ⟨-, hset, hl₁, -⟩ := SettleIndividual.settle_spec hl h₁
          obtain ⟨⟨rfl, hq⟩, hcs⟩ := List.forall_mem_cons.mp hcs
          simp only [List.map_cons, List.nodup_cons, List.mem_map, not_exists, not_and] at hn
          rcases cs with _ | ⟨x, cs⟩
          · cases h
            exact hset
          have hp : ∀ e ∈ entries (x :: cs), e.payer ≠ c.parsed.entry.payer := fun e he => by
            obtain ⟨y, hy, rfl⟩ := List.mem_map.mp he
            exact hn.1 y hy
          have hpayee : ∀ e ∈ entries (x :: cs), e.payee = c.parsed.entry.payee := fun e he => by
            obtain ⟨y, hy, rfl⟩ := List.mem_map.mp he
            exact (hcs y hy).2.trans hq.symm
          refine hset.cons (ih h hl₁ (by simp) hcs hn.2) (fun hm => ?_) hpayee hp
          obtain ⟨e, he, hk⟩ := List.mem_map.mp hm
          exact hp e he (congrArg Prod.fst hk)

end Ryvo
