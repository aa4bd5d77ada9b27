import Ryvo.Runs.Payouts

/-!
# Runs — Debits

What a participant has a claim to in a token, its balance and the collateral of its lanes, falls only on its own authority: it converts the token, one of its lanes' signers signed a commitment, its key signed a round, or its owner asked for the withdrawal.  Each of these says how much at most.

* `Authorized`: the four, as the program reads them from the transaction and its accounts.
* `debits_of_history`: no step takes more than was authorised in it.
-/

namespace Ryvo

open Finset

variable {env : Env} {w w' : World} {a : Action} {t : U16} {p : U32} {n : Nat}
variable {es : List LaneEntry} {h : List (World × Action)} {L L' : Ledger} {m : Move} {ms : List Move}

/-! ### Authority -/

/-- The points of compressed keys, added up. -/
def Bls.aggregate (env : Env) (keys : List (List UInt8)) : Result (Option (List UInt8)) :=
  keys.foldlM (fun sum key => some <$> Bls.aggregatePubkeyWithCompressedBe env sum key) none

/-- Signature `i` of the transaction's Ed25519 instruction is on a commitment of this deployment, by the signer of the lane of `p` it names, and raises that lane by `n`. -/
def SignedCommitment (env : Env) (w : World) (sysvar : InstructionsSysvar) (i : Nat) (t : U16) (p : U32)
    (n : Nat) : Prop :=
  ∃ c data signed parsed l, w.globalConfig = some c ∧
    Ed25519.verifyEd25519Ix sysvar 0 = .ok data ∧ Ed25519.signedMessage data i = .ok signed ∧
    (signed.message.drop 2).take 16 = c.messageDomain ∧
    parseCommitmentMessage signed.message c = .ok parsed ∧ parsed.tokenId = t ∧ parsed.payerId = p ∧
    w.lane env t p parsed.payeeId = some l ∧ signed.signer = l.authorizedSigner ∧
    l.settledCumulative + n = parsed.committedAmount

/-- The message is a round in which the block of `p` has entries, worth `n` together; and its signature was verified under a sum of keys with the one `p` has registered. -/
def SignedRound (env : Env) (w : World) (message : List UInt8) (signature : Bytes 48) (t : U16) (p : U32)
    (n : Nat) : Prop :=
  ∃ c layout block es s keys sum, w.globalConfig = some c ∧
    parseClearingRoundLayoutWithVersion message c Bls.clearingRoundMessageVersion = .ok layout ∧
    layout.tokenId = t ∧ block ∈ layout.blocks ∧ block.participantId = p ∧ 0 < block.entryCount ∧
    layout.entries = .ok es ∧ (w.ledger env).paidBy t es p = n ∧
    w.slot env p = some s ∧ s.blsSchemeVersion = Bls.schemeVersionV1 ∧
    s.blsPubkeyCompressed ∈ keys ∧ Bls.aggregate env keys = .ok (some sum) ∧
    Bls.verifySameMessageAggregateSignature env message signature.val sum = .ok ()

/-- The action may lower the claim of `p` in the token by `n`, on the authority of `p`. -/
inductive Authorized (env : Env) (h : List (World × Action)) (w : World) (t : U16) (p : U32) :
    Action → Nat → Prop
  | optIn {owner k k' : Pubkey} {u : U16} {n : U64} : w.OwnedBy env p owner → env.canSign owner = true →
      Authorized env h w t p (.call (.optInYield owner k k' t u n)) n.val
  | optOut {owner k k' : Pubkey} {u : U16} {n : U64} : w.OwnedBy env p owner → env.canSign owner = true →
      Authorized env h w t p (.call (.optOutYield owner k k' t u n)) n.val
  | commitment {submitter : Pubkey} {sysvar : InstructionsSysvar} {remaining : List Pubkey} {n : Nat} :
      SignedCommitment env w sysvar 0 t p n →
      Authorized env h w t p (.call (.settleIndividual submitter sysvar remaining)) n
  | bundled {submitter : Pubkey} {sysvar : InstructionsSysvar} {remaining : List Pubkey} {count : U8}
      {i n : Nat} : i < count.val → SignedCommitment env w sysvar i t p n →
      Authorized env h w t p (.call (.settleCommitmentBundle submitter sysvar remaining count)) n
  | round {submitter : Pubkey} {sysvar : InstructionsSysvar} {remaining : List Pubkey}
      {message : List UInt8} {signature : Bytes 48} {n : Nat} :
      SignedRound env w message signature t p n →
      Authorized env h w t p (.call (.settleClearingRound submitter sysvar remaining message signature)) n
  | payout {a : Action} {destination : Pubkey} {s : ParticipantBucketSlot} {e : BucketTokenBalance} :
      a.Executes t p destination → w.slot env p = some s → s.tokenEntry t = some e →
      Matured w e destination → Pends env h t p e → Authorized env h w t p a e.withdrawingBalance

/-! ### Settlements -/

namespace Ledger

/-- What the claim of `p` falls by in a settlement is at most what `p` pays. -/
theorem Settles.claim_le (h : L.Settles t es L') (p : U32) :
    L.claim t p ≤ L'.claim t p + L.paidBy t es p := by
  have := h.claim p
  omega

theorem paidBy_eq_zero (h : ∀ e ∈ es, e.payer ≠ p) : L.paidBy t es p = 0 := keyed_eq_zero h

/-- Who pays on one entry only pays what that adds. -/
theorem paidBy_of_mem {e : LaneEntry} (hn : (es.map (·.payer)).Nodup) (he : e ∈ es) :
    L.paidBy t es e.payer = L.delta t e := keyed_of_mem hn he

/-- Who pays, pays on an entry. -/
theorem exists_of_paidBy (h : 0 < L.paidBy t es p) : ∃ e ∈ es, e.payer = p := by
  by_contra hne
  push Not at hne
  rw [paidBy_eq_zero hne] at h
  exact h.ne rfl

end Ledger

/-- The commitment of a bundle is read at one of its indices. -/
theorem SettleCommitmentBundle.exists_signed {data : List UInt8} {c : GlobalConfig}
    {batch : Option (U16 × U32)} {indices : List Nat} {cs : List ParsedBundleCommitment}
    (h : parseCommitments data c batch indices = .ok cs) :
    ∀ x ∈ cs, ∃ i ∈ indices, ∃ signed, Ed25519.signedMessage data i = .ok signed ∧
      parseCommitmentMessage signed.message c = .ok x.parsed ∧ signed.signer = x.signerPubkey := by
  induction indices generalizing batch cs with
  | nil =>
      cases h
      simp
  | cons i indices ih =>
      simp only [parseCommitments, Except.bind_eq_ok, require_eq_ok, exists_const,
        Except.pure_eq_ok] at h
      obtain ⟨signed, hsigned, parsed, hparsed, -, -, rest, hrest, rfl⟩ := h
      intro x hx
      rcases List.mem_cons.mp hx with rfl | hx
      · exact ⟨i, .head _, signed, hsigned, hparsed, rfl⟩
      · obtain ⟨j, hj, hs⟩ := ih hrest x hx
        exact ⟨j, .tail _ hj, hs⟩

/-- An accepted commitment raises a lane of its payer's by what its signer signed for. -/
theorem signedCommitment_of_accepts {sysvar : InstructionsSysvar} {i : Nat} {c : GlobalConfig}
    {data : List UInt8} {signed : Ed25519.SignedMessage} {parsed : ParsedCommitmentMessage}
    {submitter signer : Pubkey} (hc : w.globalConfig = some c)
    (hdata : Ed25519.verifyEd25519Ix sysvar 0 = .ok data)
    (hsigned : Ed25519.signedMessage data i = .ok signed) (hsigner : signed.signer = signer)
    (hparse : parseCommitmentMessage signed.message c = .ok parsed)
    (h : SettleIndividual.Accepts env w (SettleIndividual.authority submitter signer parsed) parsed) :
    SignedCommitment env w sysvar i parsed.tokenId parsed.payerId
      ((w.ledger env).delta parsed.tokenId parsed.entry) := by
  obtain ⟨l, _, _, hcovers⟩ := h.canPay
  have hlane : w.lane env parsed.tokenId parsed.payerId parsed.payeeId = some l := hcovers.lane
  have hs := h.signer l hlane
  simp only [SettleIndividual.authority, beq_iff_eq] at hs
  have hamount : l.settledCumulative + (w.ledger env).delta parsed.tokenId parsed.entry
      = parsed.committedAmount := by
    rw [Ledger.delta_of_lane hcovers.lane]
    exact Nat.add_sub_cancel' hcovers.raised.le
  exact ⟨c, data, signed, parsed, l, hc, hdata, hsigned, parseCommitmentMessage_domain hparse, hparse, rfl,
    rfl, hlane, hsigner.trans hs, hamount⟩

namespace SettleClearingRound

/-- The keys of an aggregate are registered ones, added up. -/
theorem aggregateOf_bls {message signature : List UInt8} {snapshots : List ParticipantClearingSnapshot}
    {sum : Option (List UInt8)} (h : aggregateOf (blsAuthentication env message signature) snapshots = .ok sum) :
    (∀ x ∈ snapshots, x.blsSchemeVersion = Bls.schemeVersionV1) ∧
      Bls.aggregate env (snapshots.map (·.blsPubkeyCompressed)) = .ok sum := by
  have step : ∀ {start : Option (List UInt8)}, snapshots.foldlM (fun aggregate snapshot =>
      some <$> (blsAuthentication env message signature).fold aggregate snapshot) start = .ok sum →
      (∀ x ∈ snapshots, x.blsSchemeVersion = Bls.schemeVersionV1) ∧
        (snapshots.map (·.blsPubkeyCompressed)).foldlM (fun sum key =>
          some <$> Bls.aggregatePubkeyWithCompressedBe env sum key) start = .ok sum := by
    clear h
    induction snapshots with
    | nil =>
        intro start h
        exact ⟨by simp, h⟩
    | cons x snapshots ih =>
        intro start h
        obtain ⟨next, hnext, h⟩ := foldlM_cons_eq_ok.mp h
        obtain ⟨hall, h⟩ := ih h
        simp only [blsAuthentication, foldBlsKey, Except.bind_eq_ok, require_eq_ok, exists_const,
          Except.map_eq_ok] at hnext
        obtain ⟨point, ⟨-, hv, hpoint⟩, rfl⟩ := hnext
        refine ⟨List.forall_mem_cons.mpr ⟨hv, hall⟩, foldlM_cons_eq_ok.mpr ⟨_, ?_, h⟩⟩
        rw [hpoint]
        rfl
  exact step h

/-- Every entry of a round stands in its payer's block. -/
theorem exists_block {ids : List U32} {blocks : List ParticipantBlockMeta} {lists : List (List LaneEntry)}
    (h : blocks.mapM (·.laneEntries ids) = .ok lists) :
    ∀ e ∈ lists.flatten, ∃ b ∈ blocks, b.participantId = e.payer ∧ 0 < b.entryCount := by
  induction blocks generalizing lists with
  | nil =>
      obtain rfl := mapM_nil_eq_ok.mp h
      simp
  | cons b blocks ih =>
      obtain ⟨es, lists, hes, hlists, rfl⟩ := mapM_cons_eq_ok.mp h
      intro e he
      rw [List.flatten_cons, List.mem_append] at he
      rcases he with he | he
      · simp only [ParticipantBlockMeta.laneEntries, ParticipantBlockMeta.readEntries,
          Except.bind_eq_ok, Prod.exists, Except.pure_eq_ok] at hes
        obtain ⟨_, ⟨entries, _, hread, rfl⟩, hes⟩ := hes
        have hcount : 0 < b.entryCount := by
          rw [← parseChannelEntries_length hread]
          refine List.length_pos_iff.mpr fun hnil => ?_
          subst hnil
          obtain rfl := mapM_nil_eq_ok.mp hes
          simp at he
        exact ⟨b, .head _, (laneEntries_payer hes e he).1.symm, hcount⟩
      · obtain ⟨b', hb', hp⟩ := ih hlists e he
        exact ⟨b', .tail _ hb', hp⟩

/-- Whoever pays in a round has its key in the sum the round was verified under. -/
theorem Settled.signedRound {message : List UInt8} {signature : Bytes 48}
    {layout : ParsedClearingRoundLayout} (h : Settled env w message signature layout es)
    (hp : 0 < (w.ledger env).paidBy layout.tokenId es p) :
    SignedRound env w message signature layout.tokenId p
      ((w.ledger env).paidBy layout.tokenId es p) := by
  obtain ⟨c, hc, hread⟩ := h.read
  obtain ⟨e, he, rfl⟩ := Ledger.exists_of_paidBy hp
  obtain ⟨lists, hlists, rfl⟩ := entries_eq_ok.mp h.entries
  obtain ⟨block, hblock, hid, hcount⟩ := exists_block hlists e he
  obtain ⟨s, hs, -⟩ := h.known e.payer (entries_roster h.entries e he).1
  obtain ⟨sum, hsum, hverify⟩ := h.authenticated
  obtain ⟨hversion, hsum⟩ := aggregateOf_bls hsum
  have hmem : clearingSnapshot s layout.tokenId
      ∈ payingSnapshots env w layout.tokenId layout.blocks := by
    refine List.mem_filterMap.mpr ⟨block, hblock, ?_⟩
    rw [if_pos hcount, hid, hs]
    rfl
  simp only [blsAuthentication, Except.bind_eq_ok, okOr_eq_ok] at hverify
  obtain ⟨sum, rfl, hverify⟩ := hverify
  exact ⟨c, layout, block, _, s, _, sum, hc, hread, rfl, hblock, hid, hcount, h.entries, rfl, hs,
    hversion _ hmem, List.mem_map.mpr ⟨_, hmem, rfl⟩, hsum, hverify⟩

end SettleClearingRound

/-! ### Steps -/

namespace Ledger

/-- Moves that lower no claim. -/
def Spares (t : U16) (p : U32) (m : Move) : Prop := ∀ L : Ledger, 0 ≤ L.flow t p m

theorem TakesAll.claim_le (h : L.TakesAll ms L') (hm : ∀ m ∈ ms, Spares t p m) :
    L.claim t p ≤ L'.claim t p := by
  induction ms generalizing L with
  | nil =>
      obtain rfl := h
      exact le_rfl
  | cons m ms ih =>
      obtain ⟨L₁, hmove, h⟩ := h
      obtain ⟨hm₀, hm⟩ := List.forall_mem_cons.mp hm
      have hle := ih h hm
      have hflow := hmove.claim t p
      have := hm₀ L
      omega

theorem spares_credit (t' : U16) (p' : U32) (n : Nat) : Spares t p (.credit t' p' n) := by
  intro L
  rw [flow]
  split <;> omega

theorem spares_of_flow (h : ∀ L : Ledger, L.flow t p m = 0) : Spares t p m := fun L => (h L).ge

/-- A debit and a credit lower the claim in the token of the debit, by what is debited. -/
theorem TakesAll.claim_convert {u v : U16} {q : U32} {n k : Nat}
    (h : L.TakesAll [.debit u q n, .credit v q k] L') (hlt : L'.claim t p < L.claim t p) :
    u = t ∧ q = p ∧ L.claim t p ≤ L'.claim t p + n := by
  obtain ⟨L₁, h₁, h₂⟩ := h
  have h₁ := h₁.claim t p
  have h₂ := (takesAll_singleton.mp h₂).claim t p
  simp only [flow] at h₁ h₂
  split at h₁
  · rename_i ht
    refine ⟨ht.1, ht.2, ?_⟩
    split at h₂ <;> omega
  · split at h₂ <;> omega

end Ledger

/-- A settlement lowers a claim by what was signed for. -/
theorem Makes.authorized {t' : U16} (hm : Makes env w a [.settle t' es])
    (hs : (w.ledger env).Settles t' es L')
    (hlt : L'.claim t p < (w.ledger env).claim t p) :
    Authorized env h w t p a ((w.ledger env).paidBy t es p) := by
  obtain rfl : t = t' := by
    by_contra ht
    exact hlt.ne (hs.claim_ne ht p)
  have hpaid : 0 < (w.ledger env).paidBy t es p := by
    have := hs.claim_le p
    omega
  generalize hms : [Move.settle t es] = ms at hm
  cases hm with
  | @settleIndividual submitter sysvar remaining parsed hset =>
      obtain ⟨rfl, rfl⟩ := Move.settle.inj (List.singleton_inj.mp hms)
      obtain ⟨c, signer, hc, hread, hacc⟩ := hset.accepted
      simp only [SettleIndividual.readCommitment, Except.bind_eq_ok, require_eq_ok, exists_const,
        Except.pure_eq_ok, Prod.mk.injEq] at hread
      obtain ⟨data, hdata, -, signed, hsigned, _, hparse, hsigner, rfl⟩ := hread
      obtain ⟨e, he, rfl⟩ := Ledger.exists_of_paidBy hpaid
      obtain rfl := List.mem_singleton.mp he
      rw [Ledger.paidBy_of_mem (by simp) he]
      exact .commitment (signedCommitment_of_accepts hc hdata hsigned hsigner hparse hacc)
  | @settleBundle submitter sysvar remaining count t q cs hset =>
      obtain ⟨rfl, rfl⟩ := Move.settle.inj (List.singleton_inj.mp hms)
      obtain ⟨c, hc, hread⟩ := hset.read
      simp only [SettleCommitmentBundle.readCommitments, Except.bind_eq_ok, require_eq_ok,
        exists_const] at hread
      obtain ⟨data, hdata, -, hparse⟩ := hread
      obtain ⟨e, he, rfl⟩ := Ledger.exists_of_paidBy hpaid
      obtain ⟨x, hx, rfl⟩ := List.mem_map.mp he
      obtain ⟨i, hi, signed, hsigned, hparse, hsigner⟩ :=
        SettleCommitmentBundle.exists_signed hparse x hx
      -- All entries have one payee, so each payer comes up once.
      have hpayers : ((SettleCommitmentBundle.entries cs).map (·.payer)).Nodup := by
        refine (List.nodup_map_iff_inj_on hs.nodup.of_map).mpr fun e he e' he' hp => ?_
        obtain ⟨y, hy, rfl⟩ := List.mem_map.mp he
        obtain ⟨z, hz, rfl⟩ := List.mem_map.mp he'
        refine List.inj_on_of_nodup_map hs.nodup he he' ?_
        have hq := (hset.batch y hy).2.trans (hset.batch z hz).2.symm
        exact Prod.ext hp hq
      rw [Ledger.paidBy_of_mem hpayers he]
      have ht := (hset.batch x hx).1
      have := signedCommitment_of_accepts hc hdata hsigned hsigner hparse (hset.accepted x hx)
      rw [ht] at this
      exact .bundled (List.mem_range.mp hi) this
  | settleRound hset =>
      obtain ⟨rfl, rfl⟩ := Move.settle.inj (List.singleton_inj.mp hms)
      exact .round (hset.signedRound hpaid)
  | depositFor hms' _ =>
      have hfalse := DepositFor.onBalance hms' (.settle t es) (by simp [← hms])
      exact hfalse.elim
  | _ => simp at hms

/-- What a history says of the claims that fall next. -/
def AuthorizedDebits (env : Env) (h : List (World × Action)) (w : World) : Prop :=
  ∀ a w' t p, Step env w a w' → (w'.ledger env).claim t p < (w.ledger env).claim t p →
    ∃ n, Authorized env h w t p a n ∧ (w.ledger env).claim t p ≤ (w'.ledger env).claim t p + n

/-- **No debit without authorisation**: after every run, a step that lowers a participant's claim in a token is a conversion its owner signed, a settlement its lane's signer or its registered key signed, or the payout its owner had asked for; and it takes no more than that says. -/
theorem debits_of_history (r : History env h w) : AuthorizedDebits env h w := by
  intro a w' t p hstep hlt
  have hw : Reached env w := r.reachable
  obtain ⟨ms, hm, hd⟩ := hw.makes hstep
  have htakes := hd.takes
  have hsigned := hstep.signed
  -- Moves that lower no claim.
  have spares : (∀ m ∈ ms, Ledger.Spares t p m) → False := fun hms =>
    hlt.not_ge (htakes.claim_le hms)
  have payout : ∀ {t' p' destination}, a.Executes t' p' destination → w.Withdraws env t' p' destination →
      (w.ledger env).Takes (.clear t' p') (w'.ledger env) →
      ∃ n, Authorized env h w t p a n ∧ (w.ledger env).claim t p ≤ (w'.ledger env).claim t p + n := by
    rintro t' p' destination ha ⟨s, e, hs, he, hmatured⟩ hclear
    have hflow := hclear.claim t p
    rw [Ledger.flow] at hflow
    split at hflow
    · rename_i ht
      obtain ⟨rfl, rfl⟩ := ht
      have hbalance := ParticipantBucketSlot.balance_of_tokenEntry he
      have hpends := pends_of_history r hs (hbalance ▸ hmatured.pending)
      rw [hbalance] at hpends
      rw [withdrawing_of_row hs he] at hflow
      exact ⟨_, .payout ha hs he hmatured hpends, by omega⟩
    · omega
  have settles : ∀ {t' es}, ms = [.settle t' es] →
      ∃ n, Authorized env h w t p a n ∧ (w.ledger env).claim t p ≤ (w'.ledger env).claim t p + n := by
    rintro t' es rfl
    have hs := Ledger.takesAll_singleton.mp htakes
    refine ⟨_, hm.authorized hs hlt, ?_⟩
    by_cases ht : t = t'
    · subst ht
      exact hs.claim_le p
    · exact absurd (hs.claim_ne ht p) hlt.ne
  cases hm with
  | optIn hp _ =>
      obtain ⟨rfl, rfl, hle⟩ := htakes.claim_convert hlt
      exact ⟨_, .optIn (hw.ownedBy_iff.mp hp) (hsigned _ (.head _)), hle⟩
  | optOut hp _ =>
      obtain ⟨rfl, rfl, hle⟩ := htakes.claim_convert hlt
      exact ⟨_, .optOut (hw.ownedBy_iff.mp hp) (hsigned _ (.head _)), hle⟩
  | settleIndividual _ => exact settles rfl
  | settleBundle _ => exact settles rfl
  | settleRound _ => exact settles rfl
  | execute hwithdraws _ =>
      exact payout ⟨_, _, .inl rfl⟩ hwithdraws (Ledger.takesAll_singleton.mp htakes)
  | executeYield hwithdraws _ =>
      exact payout ⟨_, _, .inr rfl⟩ hwithdraws (Ledger.takesAll_singleton.mp htakes)
  | depositFor hms _ =>
      refine (spares ?_).elim
      subst hms
      intro m hmem
      obtain ⟨x, -, rfl⟩ := List.mem_map.mp hmem
      exact Ledger.spares_credit _ _ _
  | deposit _ _ => exact (spares (List.forall_mem_singleton.mpr (Ledger.spares_credit _ _ _))).elim
  | depositYield _ _ => exact (spares (List.forall_mem_singleton.mpr (Ledger.spares_credit _ _ _))).elim
  | nothing => exact (spares (by simp)).elim
  | _ => exact (spares (List.forall_mem_singleton.mpr (Ledger.spares_of_flow fun _ => rfl))).elim

open Localnet in
/-- A stranger executes the withdrawal of thirty; no more than thirty was asked for. -/
theorem debits_of_payout : ∃ h w a w' n, History localnet h w ∧ Step localnet w a w' ∧
    (w.ledger localnet).claim 1 0 = (w'.ledger localnet).claim 1 0 + 30 ∧
    Authorized localnet h w 1 0 a n ∧ 30 ≤ n := by
  let execute : Action := .call (.executeWithdrawalTimelocked bucket (Localnet.key 70) (Localnet.key 80) 1 0)
  obtain ⟨w, w', ⟨h, r⟩, hstep, hc⟩ := step_of_runsTo localnet (opening ++ funding ++ maturing) execute
    (fun w _ => (w.ledger localnet).withdrawing 1 0 = 30) (by decide +kernel)
  obtain ⟨-, -, -, -, -, hclear⟩ := Reached.executed r.reachable hstep
    ⟨_, _, .inl rfl⟩
  have hclaim := hclear.claim 1 0
  rw [Ledger.flow, if_pos ⟨rfl, rfl⟩, of_decide_eq_true hc] at hclaim
  obtain ⟨n, hn, hle⟩ := debits_of_history r execute w' 1 0 hstep (by omega)
  exact ⟨h, w, execute, w', n, r, hstep, by omega, hn, by omega⟩

end Ryvo
