import Ryvo.Bls.Pairing
import Ryvo.Machine.Curve
import Ryvo.Runs.Keys

/-!
# Runs — Forgery

A message is signed at its scalar's multiple of the generator, and everybody knows that scalar.  So a signature on one message is, but for a known factor, the signature on any other under the same key; and one signature of every key is public, the proof of possession it was registered with.

* `Accepted`, `accepted_iff`: what one of the two verifications accepts under a key.
* `signatures_transfer`: every accepted signature gives, without the secret, an accepted one on every other message; and the proofs of possession in a history add up to the signature of any round.
* `round_forged`: a run in which a published proof of possession settles a round nobody signed.
-/

namespace Ryvo

open Bls SettleClearingRound

variable {G₁ G₂ Gₜ : Type} [AddCommGroup G₁] [AddCommGroup G₂] [AddCommGroup Gₜ]
variable {env : Env} {P : PairedGroups order G₁ G₂ Gₜ} {w : World} {h : List (World × Action)}
variable {key message signature : List UInt8} {s : ParticipantBucketSlot} {p : U32}

/-! ### One key -/

/-- One of the two verifications accepts the signature on the message, under the key alone. -/
inductive Accepted (env : Env) (key : List UInt8) : List UInt8 → List UInt8 → Prop
  | pop {messageDomain : List UInt8} {participantId : U32} {owner : Pubkey} {signature : List UInt8} :
      verifyPop env messageDomain participantId owner key signature = .ok () →
      Accepted env key (buildRegistrationMessage messageDomain participantId owner key) signature
  | round {message signature point : List UInt8} : decompressG2Be env key = .ok point →
      verifySameMessageAggregateSignature env message signature point = .ok () →
      Accepted env key message signature

/-- The factor between two messages' signatures. -/
def transferFactor (env : Env) (message message' : List UInt8) : Nat :=
  transferScalar order (messageScalar env message) (messageScalar env message')

/-- The signature times a scalar. -/
def Bls.Implements.Multiple (I : Implements env.curve P) (k : Nat) (signature signature' : List UInt8) :
    Prop :=
  ∃ x, signature = I.compress₁ x ∧ signature' = I.compress₁ (k • x)

section

variable (I : Implements env.curve P)

theorem accepted_iff : Accepted env key message signature ↔
    ∃ y x, y ≠ 0 ∧ key = I.compress₂ y ∧ x ≠ 0 ∧ signature = I.compress₁ x ∧
      P.Signs y (messageScalar env message) x := by
  constructor
  · intro h
    cases h with
    | pop h => exact I.verifyPop_iff.mp h
    | round hkey h =>
        obtain ⟨y, hy, rfl, rfl⟩ := I.decompressG2Be_eq_ok.mp hkey
        obtain ⟨x, hx, hsignature, hsigns⟩ := I.verifySameMessageAggregateSignature_iff.mp h
        exact ⟨y, x, hy, rfl, hx, hsignature, hsigns⟩
  · rintro ⟨y, x, hy, hkey, hx, hsignature, hsigns⟩
    exact .round (I.decompressG2Be_eq_ok.mpr ⟨y, hy, hkey, rfl⟩)
      (I.verifySameMessageAggregateSignature_iff.mpr ⟨x, hx, hsignature, hsigns⟩)

/-- The key of a secret accepts what the secret signs. -/
theorem accepted_secret {sk : Nat} (hsk : ¬ order ∣ sk) (message : List UInt8) :
    Accepted env (I.compress₂ (sk • P.gen₂)) message
      (I.compress₁ ((sk * messageScalar env message) • P.gen₁)) := by
  have hne : sk • P.gen₂ ≠ 0 := by
    intro hzero
    have hpair : sk • P.pair P.gen₁ P.gen₂ = 0 := by rw [← map_nsmul, hzero, map_zero]
    refine hsk ?_
    rw [← PairedGroups.addOrderOf_pair (P := P)]
    exact addOrderOf_dvd_of_nsmul_eq_zero hpair
  have hsigns := P.signs_secret sk (messageScalar env message)
  exact (accepted_iff I).mpr ⟨_, _, hne, rfl,
    hsigns.ne_zero (order_not_dvd_messageScalar message) hne, rfl, hsigns⟩

/-- The factor turns an accepted signature into one on the other message, for either verification. -/
theorem Accepted.transfer (ha : Accepted env key message signature) (message' : List UInt8) :
    ∃ signature', I.Multiple (transferFactor env message message') signature signature' ∧
      (∀ point, decompressG2Be env key = .ok point →
        verifySameMessageAggregateSignature env message' signature' point = .ok ()) ∧
      ∀ messageDomain participantId owner,
        message' = buildRegistrationMessage messageDomain participantId owner key →
        verifyPop env messageDomain participantId owner key signature' = .ok () := by
  obtain ⟨y, x, hy, rfl, hx, rfl, hsigns⟩ := (accepted_iff I).mp ha
  have hsigns' := hsigns.transfer (order_not_dvd_messageScalar message) (messageScalar env message')
  have hx' := hsigns'.ne_zero (order_not_dvd_messageScalar message') hy
  refine ⟨_, ⟨x, rfl, rfl⟩, ?_, ?_⟩
  · intro point hpoint
    obtain ⟨y', -, hkey, rfl⟩ := I.decompressG2Be_eq_ok.mp hpoint
    obtain rfl := I.compress₂_injective hkey
    exact I.verifySameMessageAggregateSignature_iff.mpr ⟨_, hx', rfl, hsigns'⟩
  · rintro messageDomain participantId owner rfl
    exact I.verifyPop_iff.mpr ⟨y, _, hy, rfl, hx', rfl, hsigns'⟩

/-! ### Rounds -/

/-- A registration in the history carries this point's proof of possession, for this message. -/
def Published (h : List (World × Action)) (message : List UInt8) (x : G₁) : Prop :=
  ∃ z ∈ h, ∃ owner k k' key pop c p,
    z.2 = .call (.registerParticipantBlsKey owner k k' key pop) ∧ z.1.globalConfig = some c ∧
    message = buildRegistrationMessage c.messageDomain p owner key.val ∧ pop.val = I.compress₁ x

/-- A key in a sum, and the signature that was published with it. -/
structure Proven (h : List (World × Action)) (e : G₂ × List UInt8 × G₁) : Prop where
  key : e.1 ≠ 0
  published : Published I h e.2.1 e.2.2
  signs : P.Signs e.1 (messageScalar env e.2.1) e.2.2

/-- Behind a registered key there is its proof. -/
theorem exists_proven (r : History env h w) (hs : w.slot env p = some s)
    (hv : s.blsSchemeVersion = ParticipantBucketSlot.blsSchemeVersionV1) :
    ∃ e, s.blsPubkeyCompressed = I.compress₂ e.1 ∧ Proven I h e := by
  obtain ⟨key, hkey, z, hz, -, k, k', pop, c, hcall, hc, hpop⟩ :=
    (keyRecord_of_history r hs).exists_registration hv
  obtain ⟨y, x, hy, hy', -, hx, hsigns⟩ := I.verifyPop_iff.mp hpop
  exact ⟨⟨y, _, x⟩, hkey.trans hy', hy, ⟨z, hz, _, _, _, _, _, c, p, hcall, hc, rfl, hx⟩, hsigns⟩

/-- Everybody who pays in these blocks has a registered key. -/
def AllRegistered (env : Env) (w : World) (blocks : List ParticipantBlockMeta) : Prop :=
  ∀ b ∈ blocks, 0 < b.entryCount → ∃ s, w.slot env b.participantId = some s ∧
    s.blsSchemeVersion = ParticipantBucketSlot.blsSchemeVersionV1

/-- The snapshots of those who pay, with a proof for each. -/
theorem exists_proofs (r : History env h w) {t : U16} {blocks : List ParticipantBlockMeta}
    (hb : AllRegistered env w blocks) : ∃ es : List (G₂ × List UInt8 × G₁), (∀ e ∈ es, Proven I h e) ∧
      List.Forall₂ (fun snapshot e => snapshot.blsSchemeVersion = Bls.schemeVersionV1 ∧
        snapshot.blsPubkeyCompressed = I.compress₂ e.1) (payingSnapshots env w t blocks) es := by
  induction blocks with
  | nil => exact ⟨[], by simp, .nil⟩
  | cons b blocks ih =>
      obtain ⟨hfirst, hrest⟩ := List.forall_mem_cons.mp hb
      obtain ⟨es, hes, hall⟩ := ih hrest
      by_cases hcount : 0 < b.entryCount
      · obtain ⟨s, hs, hv⟩ := hfirst hcount
        obtain ⟨e, hkey, he⟩ := exists_proven I r hs hv
        refine ⟨e :: es, List.forall_mem_cons.mpr ⟨he, hes⟩, ?_⟩
        rw [payingSnapshots, List.filterMap_cons_some (b := clearingSnapshot s t)
          (by rw [if_pos hcount, hs]; rfl)]
        exact .cons ⟨hv, hkey⟩ hall
      · refine ⟨es, hes, ?_⟩
        rw [payingSnapshots, List.filterMap_cons_none (by rw [if_neg hcount])]
        exact hall

/-- Registered keys are folded into their sum. -/
theorem fold_keys {message signature : List UInt8} {snapshots : List ParticipantClearingSnapshot}
    {es : List (G₂ × List UInt8 × G₁)} (hes : ∀ e ∈ es, e.1 ≠ 0)
    (hall : List.Forall₂ (fun snapshot e => snapshot.blsSchemeVersion = Bls.schemeVersionV1 ∧
      snapshot.blsPubkeyCompressed = I.compress₂ e.1) snapshots es) (sum : G₂) :
    snapshots.foldlM (fun aggregate snapshot =>
      some <$> (blsAuthentication env message signature).fold aggregate snapshot)
        (some (I.encode₂ sum)) = .ok (some (I.encode₂ (sum + (es.map Prod.fst).sum))) := by
  induction hall generalizing sum with
  | nil =>
      rw [List.map_nil, List.sum_nil, add_zero]
      rfl
  | @cons snapshot e snapshots es hhead _ ih =>
      obtain ⟨hv, hkey⟩ := hhead
      obtain ⟨he, hes⟩ := List.forall_mem_cons.mp hes
      have hne : snapshot.blsSchemeVersion ≠ ParticipantBucketSlot.blsSchemeVersionUnregistered := by
        rw [hv]
        decide
      rw [List.map_cons, List.sum_cons, ← add_assoc]
      refine foldlM_cons_eq_ok.mpr ⟨_, ?_, ih hes (sum + e.1)⟩
      simp only [blsAuthentication, foldBlsKey, require_of hne, require_of hv, Except.ok_bind, hkey,
        I.aggregatePubkey_eq he]
      rfl

/-- Those who pay, somebody at least, are verified under the sum of their keys. -/
theorem aggregateOf_keys {message signature : List UInt8} {snapshots : List ParticipantClearingSnapshot}
    {es : List (G₂ × List UInt8 × G₁)} (hes : ∀ e ∈ es, e.1 ≠ 0) (hne : es ≠ [])
    (hall : List.Forall₂ (fun snapshot e => snapshot.blsSchemeVersion = Bls.schemeVersionV1 ∧
      snapshot.blsPubkeyCompressed = I.compress₂ e.1) snapshots es) :
    aggregateOf (blsAuthentication env message signature) snapshots
      = .ok (some (I.encode₂ (es.map Prod.fst).sum)) := by
  cases hall with
  | nil => exact absurd rfl hne
  | @cons snapshot e snapshots es hhead htail =>
      obtain ⟨hv, hkey⟩ := hhead
      obtain ⟨he, hes⟩ := List.forall_mem_cons.mp hes
      have hunregistered :
          snapshot.blsSchemeVersion ≠ ParticipantBucketSlot.blsSchemeVersionUnregistered := by
        rw [hv]
        decide
      rw [List.map_cons, List.sum_cons]
      refine foldlM_cons_eq_ok.mpr ⟨_, ?_, fold_keys I hes htail e.1⟩
      simp only [blsAuthentication, foldBlsKey, require_of hunregistered, require_of hv,
        Except.ok_bind, hkey, I.aggregatePubkey_first he]
      rfl

/-- The signature that published proofs add up to, on a message. -/
def forgedSignature (proofs : List (List UInt8 × G₁)) (message : List UInt8) : Bytes 48 :=
  ⟨I.compress₁ (proofs.map fun proof => transferFactor env proof.1 message • proof.2).sum,
    I.length_compress₁ _⟩

/-- It is accepted for everybody whose proofs these are. -/
theorem verify_forgedSignature {es : List (G₂ × List UInt8 × G₁)} (hes : ∀ e ∈ es, Proven I h e)
    (hsum : (es.map Prod.fst).sum ≠ 0) (message : List UInt8) :
    verifySameMessageAggregateSignature env message (forgedSignature I (es.map Prod.snd) message).val
      (I.encode₂ (es.map Prod.fst).sum) = .ok () := by
  have hsigns := PairedGroups.Signs.sum (P := P) (a := messageScalar env message)
    (l := es.map fun e => (e.1, transferFactor env e.2.1 message • e.2.2)) fun e' he' => by
      obtain ⟨e, he, rfl⟩ := List.mem_map.mp he'
      exact (hes e he).signs.transfer (order_not_dvd_messageScalar e.2.1) _
  simp only [List.map_map, Function.comp_def] at hsigns
  refine I.verifySameMessageAggregateSignature_iff.mpr
    ⟨_, hsigns.ne_zero (order_not_dvd_messageScalar message) hsum, ?_, hsigns⟩
  simp only [forgedSignature, List.map_map, Function.comp_def]

/-- What signatures are worth. -/
structure SignaturesTransfer : Prop where
  /-- Every key has signatures on every message. -/
  signs : ∀ (sk : Nat) message, ¬ order ∣ sk → Accepted env (I.compress₂ (sk • P.gen₂)) message
    (I.compress₁ ((sk * messageScalar env message) • P.gen₁))
  /-- Each of them, times the factor between the messages, is one on any other message. -/
  transfers : ∀ (sk : Nat) message message' signature,
    Accepted env (I.compress₂ (sk • P.gen₂)) message signature →
    ∃ signature', I.Multiple (transferFactor env message message') signature signature' ∧
      (∀ point, decompressG2Be env (I.compress₂ (sk • P.gen₂)) = .ok point →
        verifySameMessageAggregateSignature env message' signature' point = .ok ()) ∧
      ∀ messageDomain participantId owner, message'
          = buildRegistrationMessage messageDomain participantId owner (I.compress₂ (sk • P.gen₂)) →
        verifyPop env messageDomain participantId owner (I.compress₂ (sk • P.gen₂)) signature' = .ok ()
  /-- A round of participants with registered keys is authenticated by what their proofs of possession in the history add up to, unless their keys cancel out. -/
  rounds : ∀ h w, History env h w → ∀ message (layout : ParsedClearingRoundLayout),
    AllRegistered env w layout.blocks →
    (∀ ys : List G₂, (payingSlots env w layout.blocks).map (·.blsPubkeyCompressed)
      = ys.map I.compress₂ → ys.sum ≠ 0) →
    ∃ proofs, (∀ proof ∈ proofs, Published I h proof.1 proof.2) ∧
      Authenticated env w (blsAuthentication env message (forgedSignature I proofs message).val) layout

/-- **A signature on one message is a signature on all.**  Whatever the key, an accepted signature times a factor anybody can compute from the two messages is accepted on the other one; so rounds can be signed with nothing but what was published when the keys were registered. -/
theorem signatures_transfer : SignaturesTransfer I where
  signs sk message hsk := accepted_secret I hsk message
  transfers sk message message' signature ha := ha.transfer I message'
  rounds h w r message layout hb hcancel := by
    obtain ⟨es, hes, hall⟩ := exists_proofs I r (t := layout.tokenId) hb
    have hkeys : (payingSlots env w layout.blocks).map (·.blsPubkeyCompressed)
        = (es.map Prod.fst).map I.compress₂ := by
      rw [← map_payingSnapshots (t := layout.tokenId), List.map_map]
      exact List.forall₂_eq_eq_eq ▸ (List.forall₂_map_left_iff.mpr
        (List.forall₂_map_right_iff.mpr (hall.imp fun _ _ hx => hx.2)))
    have hsum := hcancel _ hkeys
    have hne : es ≠ [] := by
      rintro rfl
      exact hsum rfl
    refine ⟨es.map Prod.snd, fun proof hproof => ?_, _,
      aggregateOf_keys I (fun e he => (hes e he).key) hne hall, ?_⟩
    · obtain ⟨e, he, rfl⟩ := List.mem_map.mp hproof
      exact (hes e he).published
    · exact verify_forgedSignature I hes hsum message

end

/-! ### A forged round -/

namespace Localnet

/-- What participant 0 proves its key with. -/
def popMessage : List UInt8 :=
  buildRegistrationMessage (GlobalConfig.deriveMessageDomain localnet GlobalConfig.localnetChainId) 0
    (Localnet.key 10) (g2Compressed.encode 42)

/-- Participant 0 pays participant 1 sixty of token 1. -/
def roundMessage : List UInt8 :=
  buildClearingRoundMessageBytes clearingRoundMessageVersion
    (GlobalConfig.deriveMessageDomain localnet GlobalConfig.localnetChainId) 1
    [⟨0, [(1, 60)]⟩, ⟨1, []⟩]

/-- The digests of the two messages; all others have none. -/
def digest (bytes : List UInt8) : List UInt8 :=
  if bytes = hashToSigningPointTag ++ popMessage then (leBytes 32 (popScalar + 2 * order)).reverse
  else if bytes = hashToSigningPointTag ++ roundMessage then (leBytes 32 roundScalar).reverse
  else leBytes 32 0

theorem length_digest (bytes : List UInt8) : (digest bytes).length = 32 := by
  rw [digest]
  split
  · rw [List.length_reverse, length_leBytes]
  · split
    · rw [List.length_reverse, length_leBytes]
    · exact length_leBytes 32 0

/-- The chain with these, and the curve. -/
def signing : Env := { localnet with sha256 := digest, length_sha256 := length_digest, curve := curve }

/-- The curve's groups. -/
def groups : Implements signing.curve residues := curveOf_implements fitting

/-- The secret's multiple of a scalar's point, compressed. -/
def signatureOf (a : Nat) : Bytes 48 :=
  ⟨g1Compressed.encode (42 * a % order), Numbering.length_encode _ _⟩

/-- Participant 0 registers its key, with a proof. -/
def provenRegistration : Action :=
  .call (.registerParticipantBlsKey (Localnet.key 10) indexBucket bucket
    ⟨g2Compressed.encode 42, Numbering.length_encode _ _⟩ (signatureOf popScalar))

/-- Participant 1 submits the round. -/
def forgedClearing : Action :=
  .call (.settleClearingRound (Localnet.key 11) ⟨[(localnet.programId, [])], 0⟩ [bucket, channels 1]
    roundMessage (signatureOf roundScalar))

theorem messageScalar_popMessage : messageScalar signing popMessage = popScalar := by
  decide +kernel

theorem messageScalar_roundMessage : messageScalar signing roundMessage = roundScalar := by
  decide +kernel

theorem compress_secret : groups.compress₂ (42 • residues.gen₂) = g2Compressed.encode 42 := by
  have hval : (42 • (1 : ZMod order)).val = 42 := by
    rw [nsmul_one, ZMod.val_natCast_of_lt (by decide)]
  exact congrArg g2Compressed.encode hval

theorem compress_scalar (a : Nat) : groups.compress₁ ((42 * a) • residues.gen₁) = (signatureOf a).val := by
  have hval : ((42 * a) • (1 : ZMod order)).val = 42 * a % order := by
    rw [nsmul_one, ZMod.val_natCast]
  exact congrArg g1Compressed.encode hval

/-- The proof of possession, times the factor, is the signature on the round. -/
theorem multiple_signatureOf : groups.Multiple (transferFactor signing popMessage roundMessage)
    (signatureOf popScalar).val (signatureOf roundScalar).val := by
  refine ⟨(42 * popScalar) • residues.gen₁, (compress_scalar _).symm, ?_⟩
  have hdvd : ¬ order ∣ messageScalar signing popMessage := order_not_dvd_messageScalar _
  have hfactor : transferFactor signing popMessage roundMessage * popScalar ≡ roundScalar [MOD order] := by
    rw [← messageScalar_popMessage, ← messageScalar_roundMessage]
    exact transferScalar_mul hdvd
  have hmod := (hfactor.mul_left 42).symm
  rw [Nat.mul_left_comm 42 (transferFactor signing popMessage roundMessage)] at hmod
  have hpoint : (42 * roundScalar) • residues.gen₁
      = transferFactor signing popMessage roundMessage • (42 * popScalar) • residues.gen₁ :=
    (PairedGroups.nsmul_congr hmod).trans (mul_nsmul' _ _ _)
  exact (compress_scalar roundScalar).symm.trans (congrArg groups.compress₁ hpoint)

/-- What the key accepts of the two. -/
theorem accepted_popSignature :
    Accepted signing (g2Compressed.encode 42) popMessage (signatureOf popScalar).val := by
  have hok : verifyPop signing (GlobalConfig.deriveMessageDomain localnet GlobalConfig.localnetChainId)
      0 (Localnet.key 10) (g2Compressed.encode 42) (signatureOf popScalar).val = .ok () := by
    decide +kernel
  exact .pop hok

end Localnet

open Localnet in
/-- The key of forty-two signs both messages, and the factor between them takes a signature from the one to the other. -/
theorem signatures_transfer_signing : ∃ signature',
    groups.Multiple (transferFactor signing popMessage roundMessage) (signatureOf popScalar).val
      signature' ∧
    (∀ point, decompressG2Be signing (groups.compress₂ (42 • residues.gen₂)) = .ok point →
      verifySameMessageAggregateSignature signing roundMessage signature' point = .ok ()) ∧
    SignaturesTransfer groups := by
  have hall := signatures_transfer groups
  obtain ⟨signature', hmultiple, hround, -⟩ := hall.transfers 42 popMessage roundMessage
    (signatureOf popScalar).val (compress_secret ▸ accepted_popSignature)
  exact ⟨signature', hmultiple, hround, hall⟩

open Localnet in
/-- The proof of possession that registered the key, times the factor between its message and the round's, settles a round that nobody signed: of the sixty, the lane's collateral pays forty and the participant's account twenty. -/
theorem round_forged : ∃ w w₁ w₂, Reached signing w ∧ Step signing w provenRegistration w₁ ∧
    Step signing w₁ forgedClearing w₂ ∧
    (w₁.ledger signing).available 1 0 = 30 ∧ (w₂.ledger signing).available 1 0 = 10 ∧
    messageScalar signing popMessage ≠ messageScalar signing roundMessage ∧
    Accepted signing (groups.compress₂ (42 • residues.gen₂)) popMessage (signatureOf popScalar).val ∧
    groups.Multiple (transferFactor signing popMessage roundMessage) (signatureOf popScalar).val
      (signatureOf roundScalar).val := by
  obtain ⟨w, w₁, hw, hstep, hc⟩ := step_of_runsTo signing (opening ++ funding) provenRegistration
    (fun _ w₁ => w₁.runsTo signing [forgedClearing] fun w₂ => (w₁.ledger signing).available 1 0 = 30 ∧
      (w₂.ledger signing).available 1 0 = 10) (by decide +kernel)
  obtain ⟨w₂, hforged, hc⟩ := World.runsTo_singleton.mp hc
  obtain ⟨hbefore, hafter⟩ := of_decide_eq_true hc
  have hne : messageScalar signing popMessage ≠ messageScalar signing roundMessage := by
    rw [messageScalar_popMessage, messageScalar_roundMessage]
    decide
  exact ⟨w, w₁, w₂, hw, hstep, hforged, hbefore, hafter, hne, compress_secret ▸ accepted_popSignature,
    multiple_signatureOf⟩

end Ryvo
