import Ryvo.Settlement.Lanes

/-!
# Settlement — One commitment

`settle_individual` on the ledger: it succeeds, with the right accounts, exactly when the commitment is authorised, the payer can pay and the payee can receive; and then it is a settlement of the one entry.
-/

namespace Ryvo

variable {env : Env} {w w' : World} {k : Pubkey} {t : U16} {p q : U32} {id : U32}
variable {ids : List U32} {remaining : List Pubkey} {buckets : List (U32 × Pubkey)}

/-- The lane a commitment names, and its amount. -/
def ParsedCommitmentMessage.entry (parsed : ParsedCommitmentMessage) : LaneEntry :=
  ⟨parsed.payerId, parsed.payeeId, parsed.committedAmount⟩

/-! ### The accounts of the buckets -/

/-- The addresses of the buckets, in the order of their ids. -/
def bucketAddresses (env : Env) (ids : List U32) : List Pubkey :=
  ids.map fun id => env.address (.participantBucket id)

theorem verifyBuckets_eq_ok (hl : Located env w) :
    (∃ r, buckets.mapM (SettleIndividual.verifyBucket env w) = .ok r) ↔ AreBuckets env w buckets := by
  simp only [mapM_unit_eq_ok, SettleIndividual.verifyBucket, verifyParticipantBucket hl, AreBuckets]

theorem AreBuckets.boundTo (h : AreBuckets env w buckets) :
    Bindings.BoundTo (fun id => env.address (.participantBucket id)) buckets :=
  fun b hb => (h b hb).1

/-- The account found for a bucket is the bucket's. -/
theorem AreBuckets.accountOf (h : AreBuckets env w buckets)
    (hk : SettleIndividual.accountOf buckets id = .ok k) :
    k = env.address (.participantBucket id) :=
  h.boundTo.lookup (okOr_eq_ok.mp hk)

theorem accountOf_of_mem (h : AreBuckets env w buckets) (hm : id ∈ buckets.map Prod.fst) :
    SettleIndividual.accountOf buckets id = .ok (env.address (.participantBucket id)) := by
  have hsome : (Bindings.lookup buckets id).isSome := by
    obtain ⟨b, hb, rfl⟩ := List.mem_map.mp hm
    rw [Bindings.lookup, Option.isSome_map, List.find?_isSome]
    exact ⟨b, hb, by simp⟩
  obtain ⟨k, hk⟩ := Option.isSome_iff_exists.mp hsome
  exact okOr_eq_ok.mpr (by rw [hk, h.boundTo.lookup hk])

theorem map_fst_zip_of_le (h : ids.length ≤ remaining.length) :
    (ids.zip remaining).map Prod.fst = ids := List.map_fst_zip h

/-- The buckets with their addresses. -/
def bucketsOf (env : Env) (ids : List U32) : List (U32 × Pubkey) :=
  ids.map fun id => (id, env.address (.participantBucket id))

theorem zip_bucketAddresses (ids : List U32) (rest : List Pubkey) :
    ids.zip (bucketAddresses env ids ++ rest) = bucketsOf env ids := by
  induction ids with
  | nil => rfl
  | cons id ids ih =>
      simp only [bucketAddresses, bucketsOf, List.map_cons, List.cons_append,
        List.zip_cons_cons] at *
      rw [ih]

@[simp] theorem map_fst_bucketsOf (ids : List U32) : (bucketsOf env ids).map Prod.fst = ids := by
  simp [bucketsOf, Function.comp_def]

/-- Buckets that exist, at their addresses. -/
theorem areBuckets_bucketsOf
    (h : ∀ id ∈ ids, (w.participantBuckets (env.address (.participantBucket id))).isSome) :
    AreBuckets env w (bucketsOf env ids) := by
  intro b hb
  obtain ⟨id, hid, rfl⟩ := List.mem_map.mp hb
  exact ⟨rfl, h id hid⟩

theorem AreBuckets.of_eq {w₁ : World} (h : AreBuckets env w buckets)
    (he : w₁.participantBuckets = w.participantBuckets) : AreBuckets env w₁ buckets := by
  simpa only [AreBuckets, he] using h

theorem isSome_bucket_of_slot {s : ParticipantBucketSlot} (h : w.slot env p = some s) :
    (w.participantBuckets (slotKey env p)).isSome := by
  obtain ⟨b, hb, -⟩ := slot_eq_some.mp h
  simp [hb]

namespace SettleIndividual

variable {auth : Authority} {parsed : ParsedCommitmentMessage}

theorem participantBucketIds_nodup (a b : U32) : (participantBucketIds a b).Nodup := by
  unfold participantBucketIds
  split
  · rename_i h; simpa using h.symm
  · simp

theorem eq_or_eq_of_mem_participantBucketIds {a b : U32} (h : id ∈ participantBucketIds a b) :
    id = a ∨ id = b := by
  unfold participantBucketIds at h
  split at h
  · simpa using h
  · exact .inl (by simpa using h)

theorem mem_participantBucketIds (a b : U32) :
    a ∈ participantBucketIds a b ∧ b ∈ participantBucketIds a b := by
  unfold participantBucketIds
  split
  · simp
  · rename_i h; simp only [ne_eq, not_not] at h; simp [h]

/-- The last loop is the bundle's, with two deltas. -/
theorem applyBucket_eq (payerDelta payeeDelta : Int) : applyBucket parsed payerDelta payeeDelta
    = SettleCommitmentBundle.applyBucket parsed.tokenId
      [(parsed.payerId, payerDelta), (parsed.payeeId, payeeDelta)] := by
  funext w bucket
  simp [applyBucket, SettleCommitmentBundle.applyBucket]

/-- An authorised commitment the payer can pay. -/
structure Accepts (env : Env) (w : World) (auth : Authority) (parsed : ParsedCommitmentMessage) :
    Prop where
  canPay : (w.ledger env).CanPay parsed.tokenId parsed.entry
  signer : ∀ l, w.lane env parsed.tokenId parsed.payerId parsed.payeeId = some l →
    auth.signer l.authorizedSigner = true
  submitter : ∃ s, w.slot env parsed.payeeId = some s ∧ auth.submitter s.owner = true

/-- What a success says. -/
theorem settle_spec (hl : Located env w) (h : settle env w auth remaining parsed = .ok w') :
    Accepts env w auth parsed ∧
      (w.ledger env).Settles parsed.tokenId [parsed.entry] (w'.ledger env) ∧
      Located env w' ∧ BucketsOnly w w' := by
  simp only [settle, Except.bind_eq_ok, require_eq_ok, exists_const, okOr_eq_ok, Prod.exists,
    checkedSub_eq_ok, checkedAdd_eq_ok] at h
  obtain ⟨lower, higher, sel, hc, id, hid, hlen, r, hver, channel, -, _, hcv, data, hdata, i, sel', l,
    hread, hsig, payeeKey, hpk, payeeData, hpd, owner, howner, hsub, hlt, _, ⟨rfl, -⟩, payerKey,
    hrk, payerData, hrd, total, htotal, _, ⟨rfl, havail⟩, hle, _, ⟨rfl, -⟩, w₁, _, hedit, hfold⟩ := h
  have hb := (verifyBuckets_eq_ok hl).mp ⟨r, hver⟩
  obtain rfl := hb.accountOf hpk
  obtain rfl := hb.accountOf hrk
  obtain ⟨sq, hsq, rfl⟩ := readOwner_eq_ok.mp ⟨payeeData, hpd, howner⟩
  obtain ⟨sp, row, hsp, hrow, -, rfl⟩ := readTotal_eq_ok.mp ⟨payerData, hrd, htotal⟩
  have hkey := laneKey_of_verified hl hc hid hcv
  obtain ⟨-, hlane, -, rfl⟩ := (settleLane_eq_ok _ _ hkey hc).mp
    ⟨⟨data, by simpa [World.getChannelBucket] using hdata, hread⟩, hedit⟩
  have hpay : (w.ledger env).Covers parsed.tokenId parsed.entry l sp row :=
    ⟨hlane, hsp, hrow, hlt, havail, hle⟩
  refine ⟨⟨⟨l, sp, row, hpay⟩, fun l' hl' => ?_, sq, hsq, hsub⟩, ?_⟩
  · obtain rfl := Option.some.inj (hlane.symm.trans hl')
    exact hsig
  have hdone : LanesDone env parsed.tokenId w [parsed.entry] _ :=
    (LanesDone.nil hl).snoc (e := parsed.entry) (by simp) hlane hlt
  have hids := map_fst_zip_of_le (Nat.le_of_succ_le hlen.ge)
  have hmem := mem_participantBucketIds (ParticipantBucket.bucketIdForParticipantId parsed.payerId)
    (ParticipantBucket.bucketIdForParticipantId parsed.payeeId)
  rw [applyBucket_eq] at hfold
  have hshift := Shifted.of_applyBuckets (hb.of_eq hdone.participantBuckets)
    (by rw [hids]; exact participantBucketIds_nodup _ _) (by simpa [hids] using hmem)
    (by simpa using lane_ne hlane) hfold
  refine hdone.settles hshift (fun p _ => ?_) (by simp [ParsedCommitmentMessage.entry, hsp, hsq])
  rw [Ledger.net_single (e := parsed.entry) hlane, keyed_cons, keyed_cons, keyed_nil, add_zero]
  rfl

/-- The accounts of a commitment: the buckets of its parties, then the lane's. -/
def accounts (env : Env) (parsed : ParsedCommitmentMessage) : List Pubkey :=
  bucketAddresses env (participantBucketIds
    (ParticipantBucket.bucketIdForParticipantId parsed.payerId)
    (ParticipantBucket.bucketIdForParticipantId parsed.payeeId))
  ++ (laneKey env parsed.tokenId parsed.payerId parsed.payeeId).toList

/-- An authorised commitment the payer can pay and the payee can receive is settled, with its accounts. -/
theorem exists_settle (hl : Located env w) (ha : Accepts env w auth parsed)
    (hr : (w.ledger env).CanReceive parsed.tokenId parsed.payeeId
      ((w.ledger env).delta parsed.tokenId parsed.entry)) :
    ∃ w', settle env w auth (accounts env parsed) parsed = .ok w' := by
  obtain ⟨⟨l, sp, row, hc⟩, hsig, sq, hsq, hsub⟩ := ha
  obtain ⟨lower, higher, sel, id, hcan, hid, hkey, hver, b, off, hbk, hoff⟩ :=
    laneAccount hl hc.lane
  let ids := participantBucketIds (ParticipantBucket.bucketIdForParticipantId parsed.payerId)
    (ParticipantBucket.bucketIdForParticipantId parsed.payeeId)
  let remaining := bucketAddresses env ids ++ [env.address (.channelBucket parsed.tokenId id)]
  have haccounts : accounts env parsed = remaining := by
    simp only [accounts, remaining, ids]
    rw [show laneKey env parsed.tokenId parsed.payerId parsed.payeeId = _ from hkey]
    rfl
  have hlen : remaining.length = ids.length + 1 := by simp [remaining, bucketAddresses]
  have hzip : ids.zip remaining = bucketsOf env ids := zip_bucketAddresses _ _
  have hmem := mem_participantBucketIds (ParticipantBucket.bucketIdForParticipantId parsed.payerId)
    (ParticipantBucket.bucketIdForParticipantId parsed.payeeId)
  have hb : AreBuckets env w (bucketsOf env ids) := areBuckets_bucketsOf fun id hm => by
    rcases eq_or_eq_of_mem_participantBucketIds hm with rfl | rfl
    · exact isSome_bucket_of_slot hc.slot
    · exact isSome_bucket_of_slot hsq
  obtain ⟨r, hr'⟩ := (verifyBuckets_eq_ok hl).mpr hb
  obtain ⟨payeeData, hpd, howner⟩ := readOwner_eq_ok.mpr ⟨sq, hsq, rfl⟩
  obtain ⟨payerData, hrd, htotal⟩ := readTotal_eq_ok.mpr
    ⟨sp, row, hc.slot, hc.entry, (Nat.le_add_left _ _).trans_lt hc.bounded, rfl⟩
  obtain ⟨⟨data, hdata, hread⟩, hedit⟩ := (settleLane_eq_ok parsed.committedAmount
    (min l.lockedBalance (parsed.committedAmount - l.settledCumulative)) (u := ()) hkey hcan).mpr
    ⟨⟨b, hbk, hoff⟩, hc.lane, min_le_left _ _, rfl⟩
  have hdone : LanesDone env parsed.tokenId w [parsed.entry] _ :=
    (LanesDone.nil hl).snoc (e := parsed.entry) (by simp) hc.lane hc.raised
  let ds : BalanceDeltas :=
    [(parsed.payerId, -(((w.ledger env).delta parsed.tokenId parsed.entry
        - (w.ledger env).used parsed.tokenId parsed.entry : Nat) : Int)),
      (parsed.payeeId, ((w.ledger env).delta parsed.tokenId parsed.entry : Int))]
  obtain ⟨w', hw'⟩ : ∃ w', (bucketsOf env ids).foldlM
      (SettleCommitmentBundle.applyBucket parsed.tokenId ds) _ = .ok w' := exists_applyBuckets
    (hb.of_eq hdone.participantBuckets) (by simpa using participantBucketIds_nodup _ _)
    (by simpa [ds] using hmem) (by simpa [ds, ParsedCommitmentMessage.entry] using lane_ne hc.lane) (by
      simp only [ds, List.mem_cons, List.not_mem_nil, or_false, forall_eq_or_imp, forall_eq,
        hdone.slot]
      obtain ⟨sp', hsp'⟩ := hc.debit
      obtain ⟨sq', sq'', hsq', hd⟩ := hr
      exact ⟨fun _ => ⟨sp, sp', hc.slot, hsp'⟩, fun _ => ⟨sq', sq'', hsq', hd⟩⟩)
  simp only [ds] at hw'
  rw [Ledger.used_of_lane (e := parsed.entry) hc.lane,
    Ledger.delta_of_lane (e := parsed.entry) hc.lane, ← applyBucket_eq] at hw'
  refine ⟨w', ?_⟩
  rw [haccounts]
  simp only [settle, Except.bind_eq_ok, require_eq_ok, exists_const, okOr_eq_ok, Prod.exists,
    checkedSub_eq_ok, checkedAdd_eq_ok]
  refine ⟨lower, higher, sel, hcan, id, hid, hlen, ?_⟩
  rw [hzip]
  exact ⟨r, hr', env.address (.channelBucket parsed.tokenId id),
    by simp [remaining, bucketAddresses, ids], (), hver, data, by simp [World.getChannelBucket, hdata],
    off.1, off.2, l, hread, hsig l hc.lane, _, accountOf_of_mem hb (by simpa using hmem.2),
    payeeData, hpd, sq.owner, howner, hsub, hc.raised, _, ⟨rfl, hc.raised.le⟩, _,
    accountOf_of_mem hb (by simpa using hmem.1), payerData, hrd, row.total, htotal, _,
    ⟨rfl, hc.bounded⟩, hc.covered, _, ⟨rfl, min_le_right _ _⟩, _, (), hedit, hw'⟩

end SettleIndividual

end Ryvo
