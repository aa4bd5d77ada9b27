import Ryvo.Messages.Ed25519Codec
import Ryvo.Runs.Collateral
import Ryvo.Settlement.InTurn

/-!
# Runs — Bundles and single commitments

A bundle against its commitments, each in a `settle_individual` instruction of its own (`OneByOne`).  The two read different transactions: a bundle has one Ed25519 instruction with all the signatures (`PresentsAll`), a single commitment one with its own (`Presents`).

* `OneByOne.inTurn`, `oneByOne_of_inTurn`: the instructions succeed as `SettledInTurn` does.
* `bundle_iff_oneByOne`: in any reachable state and in any order, the bundle is accepted exactly when the single commitments are, and the balances and lanes they leave are the same.
-/

namespace Ryvo

open SettleCommitmentBundle (ParsedBundleCommitment authorities entries)

variable {env : Env} {w w' w₁ w₂ : World} {submitter : Pubkey} {c : GlobalConfig}
variable {sysvar : InstructionsSysvar} {sysvars : List InstructionsSysvar}
variable {x : ParsedBundleCommitment} {cs cs' : List ParsedBundleCommitment} {t : U16} {q : U32}

/-- The transaction carries one commitment. -/
structure Presents (env : Env) (c : GlobalConfig) (sysvar : InstructionsSysvar)
    (x : ParsedBundleCommitment) : Prop where
  direct : Ed25519.assertNoCpi env sysvar = .ok ()
  reads : SettleIndividual.readCommitment sysvar c = .ok (x.signerPubkey, x.parsed)

/-- The transaction carries these commitments, as a bundle. -/
structure PresentsAll (env : Env) (c : GlobalConfig) (sysvar : InstructionsSysvar)
    (cs : List ParsedBundleCommitment) : Prop where
  direct : Ed25519.assertNoCpi env sysvar = .ok ()
  reads : SettleCommitmentBundle.readCommitments sysvar c cs.length = .ok cs

/-- The bundle is accepted, with the accounts it needs. -/
def Bundled (env : Env) (submitter : Pubkey) (sysvar : InstructionsSysvar) (n : Nat) (w w' : World) :
    Prop :=
  ∃ (remaining : List Pubkey) (count : U8), count.val = n ∧
    Step env w (.call (.settleCommitmentBundle submitter sysvar remaining count)) w'

/-- A `settle_individual` for each transaction, with the accounts it needs. -/
inductive OneByOne (env : Env) (submitter : Pubkey) : World → List InstructionsSysvar → World → Prop
  | nil {w : World} : OneByOne env submitter w [] w
  | cons {w w₁ w' : World} {sysvar : InstructionsSysvar} {sysvars : List InstructionsSysvar}
      {remaining : List Pubkey} :
      Step env w (.call (.settleIndividual submitter sysvar remaining)) w₁ →
      OneByOne env submitter w₁ sysvars w' → OneByOne env submitter w (sysvar :: sysvars) w'

/-! ### One instruction -/

/-- A single commitment that is settled: what it carries settles, for a registered token. -/
theorem settle_of_step {remaining : List Pubkey} (hc : w.globalConfig = some c)
    (hx : Presents env c sysvar x)
    (h : Step env w (.call (.settleIndividual submitter sysvar remaining)) w') :
    env.canSign submitter = true ∧ w.Registered x.parsed.tokenId ∧
      SettleIndividual.settle env w (authorities submitter x) remaining x.parsed = .ok w' := by
  have hrun := h.ran
  simp only [Action.run, Instruction.run, SettleIndividual.handler, World.getGlobalConfig, hc, okOr,
    Except.ok_bind, hx.direct, hx.reads, Except.bind_eq_ok, requireToken_eq_ok, exists_const] at hrun
  exact ⟨h.signed _ (List.mem_singleton_self _), hrun⟩

theorem step_of_settle {remaining : List Pubkey} (hc : w.globalConfig = some c)
    (hx : Presents env c sysvar x) (hs : env.canSign submitter = true)
    (ht : w.Registered x.parsed.tokenId)
    (h : SettleIndividual.settle env w (authorities submitter x) remaining x.parsed = .ok w') :
    Step env w (.call (.settleIndividual submitter sysvar remaining)) w' where
  signed k hk := by
    obtain rfl := List.mem_singleton.mp hk
    exact hs
  ran := by
    simp only [Action.run, Instruction.run, SettleIndividual.handler, World.getGlobalConfig, hc, okOr,
      Except.ok_bind, hx.direct, hx.reads, Except.bind_eq_ok, requireToken_eq_ok, exists_const]
    exact ⟨ht, h⟩

theorem bundled_iff (hc : w.globalConfig = some c) (hx : PresentsAll env c sysvar cs)
    (hne : cs ≠ []) (hlen : cs.length ≤ 255) (hcs : ∀ x ∈ cs, x.parsed.tokenId = t ∧ x.parsed.payeeId = q) :
    Bundled env submitter sysvar cs.length w w' ↔ env.canSign submitter = true ∧ w.Registered t ∧
      ∃ remaining, SettleCommitmentBundle.settle env w (authorities submitter) remaining t q cs
        = .ok w' := by
  obtain ⟨first, rest, rfl⟩ := List.exists_cons_of_ne_nil hne
  obtain ⟨⟨rfl, rfl⟩, -⟩ := List.forall_mem_cons.mp hcs
  have hrun : ∀ (remaining : List Pubkey) (count : U8), count.val = (first :: rest).length →
      (SettleCommitmentBundle.handler env w submitter sysvar remaining count = .ok w' ↔
        w.Registered first.parsed.tokenId ∧ SettleCommitmentBundle.settle env w
          (authorities submitter) remaining first.parsed.tokenId first.parsed.payeeId
          (first :: rest) = .ok w') := fun remaining count hn => by
    have hpos : 0 < (first :: rest).length := Nat.succ_pos _
    simp only [SettleCommitmentBundle.handler, World.getGlobalConfig, hc, okOr, Except.ok_bind,
      hx.direct, hn, require_of hpos, hx.reads, List.head?_cons, Except.bind_eq_ok,
      requireToken_eq_ok, exists_const]
  constructor
  · rintro ⟨remaining, count, hn, h⟩
    obtain ⟨ht, hs⟩ := (hrun remaining count hn).mp h.ran
    exact ⟨h.signed _ (List.mem_singleton_self _), ht, remaining, hs⟩
  · rintro ⟨hsig, ht, remaining, hs⟩
    refine ⟨remaining, ⟨(first :: rest).length, by omega⟩, rfl, fun k hk => ?_,
      (hrun remaining _ rfl).mpr ⟨ht, hs⟩⟩
    obtain rfl := List.mem_singleton.mp hk
    exact hsig

/-! ### A sequence of instructions -/

/-- Settling changes neither the configuration nor the registry. -/
theorem BucketsOnly.globalConfig (h : BucketsOnly w w') : w'.globalConfig = w.globalConfig := by
  rw [h]

theorem BucketsOnly.registered (h : BucketsOnly w w') : w'.Registered t ↔ w.Registered t := by
  rw [h]
  rfl

theorem OneByOne.inTurn (h : OneByOne env submitter w sysvars w') (hl : Located env w)
    (hc : w.globalConfig = some c) (hcs : List.Forall₂ (Presents env c) sysvars cs) :
    SettledInTurn env (authorities submitter) w cs w' := by
  induction h generalizing cs with
  | nil =>
      cases hcs
      exact .nil
  | cons h₁ _ ih =>
      cases hcs with
      | cons hx hcs =>
          obtain ⟨-, -, hs⟩ := settle_of_step hc hx h₁
          obtain ⟨-, -, hl₁, hb⟩ := SettleIndividual.settle_spec hl hs
          exact .cons hs (ih hl₁ (hb.globalConfig.trans hc) hcs)

theorem oneByOne_of_inTurn (h : SettledInTurn env (authorities submitter) w cs w')
    (hl : Located env w) (hc : w.globalConfig = some c)
    (hcs : List.Forall₂ (Presents env c) sysvars cs) (hs : env.canSign submitter = true)
    (ht : ∀ x ∈ cs, w.Registered x.parsed.tokenId) : OneByOne env submitter w sysvars w' := by
  induction h generalizing sysvars with
  | nil =>
      cases hcs
      exact .nil
  | cons h₁ _ ih =>
      cases hcs with
      | cons hx hcs =>
          obtain ⟨ht₀, ht⟩ := List.forall_mem_cons.mp ht
          obtain ⟨-, -, hl₁, hb⟩ := SettleIndividual.settle_spec hl h₁
          exact .cons (step_of_settle hc hx hs ht₀ h₁) (ih hl₁ (hb.globalConfig.trans hc) hcs
            fun x hx => hb.registered.mpr (ht x hx))

/-- Instructions that all succeed are signed, and for registered tokens. -/
theorem OneByOne.registered (h : OneByOne env submitter w sysvars w') (hl : Located env w)
    (hc : w.globalConfig = some c) (hcs : List.Forall₂ (Presents env c) sysvars cs) :
    ∀ x ∈ cs, env.canSign submitter = true ∧ w.Registered x.parsed.tokenId ∧
      (w.slot env x.parsed.payeeId).isSome := by
  induction h generalizing cs with
  | nil =>
      cases hcs
      simp
  | cons h₁ _ ih =>
      cases hcs with
      | cons hx hcs =>
          obtain ⟨hs, ht, hset⟩ := settle_of_step hc hx h₁
          obtain ⟨-, hsettles, hl₁, hb⟩ := SettleIndividual.settle_spec hl hset
          refine List.forall_mem_cons.mpr ⟨⟨hs, ht, ?_⟩, fun y hy => ?_⟩
          · exact (hsettles.known _ (List.mem_singleton_self _)).2.2
          · obtain ⟨hs', ht', hp⟩ := ih hl₁ (hb.globalConfig.trans hc) hcs y hy
            exact ⟨hs', hb.registered.mp ht', hsettles.slot_isSome_of hp⟩

/-! ### The bundle -/

/-- The commitments of a bundle can be settled in turn, in any order. -/
theorem Bundled.exists_oneByOne (h : Bundled env submitter sysvar cs.length w w') (hl : Located env w)
    (hc : w.globalConfig = some c) (hx : PresentsAll env c sysvar cs) (hne : cs ≠ [])
    (hlen : cs.length ≤ 255) (hcs : ∀ x ∈ cs, x.parsed.tokenId = t ∧ x.parsed.payeeId = q)
    (hn : (cs.map (·.parsed.payerId)).Nodup) (hp : cs'.Perm cs)
    (hsingle : List.Forall₂ (Presents env c) sysvars cs') :
    ∃ w₁, OneByOne env submitter w sysvars w₁ := by
  obtain ⟨hs, ht, remaining, hsettle⟩ := (bundled_iff hc hx hne hlen hcs).mp h
  obtain ⟨hacc, hset, -, -⟩ := SettleCommitmentBundle.settle_spec hl hcs hsettle
  obtain ⟨y, ys, rfl⟩ := List.exists_cons_of_ne_nil hne
  have hpayee : (w.slot env q).isSome := by
    rw [← (hcs y List.mem_cons_self).2]
    exact (hset.known _ (List.mem_map_of_mem List.mem_cons_self)).2.2
  obtain ⟨s, hsq⟩ := Option.isSome_iff_exists.mp hpayee
  have hpay : Payable env w (authorities submitter) t q (y :: ys) := by
    refine ⟨hacc, ?_⟩
    obtain ⟨s', -, hd⟩ := hset.slots q s hsq
    rw [Ledger.net_payee fun e he => ?_] at hd
    · exact ⟨s, s', hsq, hd⟩
    · obtain ⟨z, hz, rfl⟩ := List.mem_map.mp he
      have hne := (hset.known _ (List.mem_map_of_mem hz)).1
      exact ⟨(hcs z hz).2, fun hpe => hne (hpe.trans (hcs z hz).2.symm)⟩
  obtain ⟨w₁, hturn⟩ := (settledInTurn_iff hl hpayee (fun x hx => hcs x (hp.mem_iff.mp hx))
    ((hp.map _).nodup_iff.mpr hn)).mpr (hpay.perm hp.symm)
  exact ⟨w₁, oneByOne_of_inTurn hturn hl hc hsingle hs fun x hx =>
    (hcs x (hp.mem_iff.mp hx)).1 ▸ ht⟩

/-- **A bundle is its commitments, one by one**: from every reachable world, commitments of different payers for one payee and one token are accepted as a bundle exactly when they are accepted in instructions of their own, in whatever order; and then the balances and lanes come out the same, and nothing else changes. -/
theorem bundle_iff_oneByOne (submitter : Pubkey) (hw : Reached env w) (hc : w.globalConfig = some c)
    (hx : PresentsAll env c sysvar cs) (hne : cs ≠ []) (hlen : cs.length ≤ 255)
    (hn : (cs.map (·.parsed.payerId)).Nodup) (hp : cs'.Perm cs)
    (hsingle : List.Forall₂ (Presents env c) sysvars cs') :
    ((∃ w', Bundled env submitter sysvar cs.length w w') ↔
      ∃ w', OneByOne env submitter w sysvars w') ∧
    ∀ w₁ w₂, Bundled env submitter sysvar cs.length w w₁ → OneByOne env submitter w sysvars w₂ →
      w₁.ledger env = w₂.ledger env ∧ BucketsOnly w w₁ ∧ BucketsOnly w w₂ := by
  have hl := hw.located
  obtain ⟨first, rest, rfl⟩ := List.exists_cons_of_ne_nil hne
  have hcs := SettleCommitmentBundle.readCommitments_batch hx.reads
    (List.head?_cons : (first :: rest).head? = some first)
  have hcs' : ∀ x ∈ cs', x.parsed.tokenId = first.parsed.tokenId ∧
      x.parsed.payeeId = first.parsed.payeeId := fun x hx => hcs x (hp.mem_iff.mp hx)
  have hn' : (cs'.map (·.parsed.payerId)).Nodup := (hp.map _).nodup_iff.mpr hn
  refine ⟨⟨fun ⟨w', h⟩ => h.exists_oneByOne hl hc hx hne hlen hcs hn hp hsingle, ?_⟩, ?_⟩
  · rintro ⟨w', h⟩
    have hmem : first ∈ cs' := hp.mem_iff.mpr List.mem_cons_self
    obtain ⟨hs, ht, hpayee⟩ := h.registered hl hc hsingle first hmem
    have hpay := (settledInTurn_iff hl hpayee hcs' hn').mp ⟨w', h.inTurn hl hc hsingle⟩
    obtain ⟨hacc, hreceives⟩ := hpay.perm hp
    obtain ⟨remaining, w₁, hsettle⟩ := SettleCommitmentBundle.exists_settle hl hcs hn hacc hreceives
    exact ⟨w₁, (bundled_iff hc hx hne hlen hcs).mpr ⟨hs, ht, remaining, hsettle⟩⟩
  · intro w₁ w₂ h₁ h₂
    obtain ⟨-, -, remaining, hsettle⟩ := (bundled_iff hc hx hne hlen hcs).mp h₁
    obtain ⟨-, hset₁, -, hb₁⟩ := SettleCommitmentBundle.settle_spec hl hcs hsettle
    have hturn := h₂.inTurn hl hc hsingle
    have hne' : cs' ≠ [] := fun h => by simp [h] at hp
    have hset₂ := hturn.settles hl hne' hcs' hn'
    exact ⟨hset₁.unique hset₂ (hp.symm.map _), hb₁, (hturn.located hl).2⟩

namespace Localnet

/-- A third participant with fifty of token 1, and a lane to participant 1 that key 34 signs for. -/
def secondPayer : List Action :=
  [.call (.initializeParticipant (key 12) (key 2) 0 0),
    .outside (.createTokenAccount (key 61) usd (key 12)),
    .outside (.transfer (key 60) (key 61) (key 10) 50),
    .call (.deposit (key 12) indexBucket bucket (key 61) 1 50),
    .call (.createChannel (key 12) indexBucket bucket bucket (some (key 11)) 1 1 2 0 (some (key 34)))]

/-- What the two payers commit to pay. -/
def twoCommitments : List ParsedBundleCommitment :=
  [⟨⟨0, 1, 1, 60, none⟩, key 33⟩, ⟨⟨2, 1, 1, 5, none⟩, key 34⟩]

/-- Both of them in the one Ed25519 instruction that a client builds. -/
def twoSigned : InstructionsSysvar :=
  ⟨[(Ed25519.programId, (SettleCommitmentBundle.buildBundle (List.replicate 16 0)
      [(SettleCommitmentBundle.localKeypair 33, ⟨0, 1, 1, 60, none⟩),
        (SettleCommitmentBundle.localKeypair 34, ⟨2, 1, 1, 5, none⟩)]).getD []),
    (localnet.programId, [])], 1⟩

/-- Each in a transaction of its own, the later one first. -/
def eachSigned : List InstructionsSysvar :=
  [signed (key 34) (buildCommitmentMessageBytes (List.replicate 16 0) ⟨2, 1, 1, 5, none⟩),
    signed (key 33) (buildCommitmentMessageBytes (List.replicate 16 0) ⟨0, 1, 1, 60, none⟩)]

end Localnet

open Localnet in
/-- Participant 1 collects sixty, forty of them from collateral, and five. -/
theorem bundle_iff_oneByOne_two : ∃ w w₁ w₂, Bundled localnet (Localnet.key 11) twoSigned 2 w w₁ ∧
    OneByOne localnet (Localnet.key 11) w eachSigned w₂ ∧ w₁.ledger localnet = w₂.ledger localnet ∧
    (w₁.ledger localnet).available 1 1 = 65 := by
  obtain ⟨w, w₁, hw, hstep, hc⟩ := step_of_runsTo localnet (opening ++ funding ++ secondPayer)
    (.call (.settleCommitmentBundle (Localnet.key 11) twoSigned [bucket, channels 1] 2))
    (fun w w₁ => decide ((w₁.ledger localnet).available 1 1 = 65) &&
      w.globalConfig.any fun c : GlobalConfig => decide
        (SettleCommitmentBundle.readCommitments twoSigned c 2 = .ok twoCommitments) &&
      (eachSigned.zip twoCommitments.reverse).all fun (x : InstructionsSysvar × ParsedBundleCommitment) =>
        decide (SettleIndividual.readCommitment x.1 c = .ok (x.2.signerPubkey, x.2.parsed)))
    (by decide +kernel)
  simp only [Bool.and_eq_true, Option.any_eq_true, decide_eq_true_eq] at hc
  obtain ⟨havail, c, hconfig, hall, heach⟩ := hc
  have hbundled : Bundled localnet (Localnet.key 11) twoSigned twoCommitments.length w w₁ :=
    ⟨_, 2, rfl, hstep⟩
  have hsingle : List.Forall₂ (Presents localnet c) eachSigned twoCommitments.reverse := by
    simp only [eachSigned, twoCommitments, List.reverse_cons, List.reverse_nil, List.nil_append,
      List.cons_append, List.zip_cons_cons, List.zip_nil_right, List.all_cons, List.all_nil,
      Bool.and_true, Bool.and_eq_true, decide_eq_true_eq] at heach ⊢
    exact .cons ⟨rfl, heach.1⟩ (.cons ⟨rfl, heach.2⟩ .nil)
  obtain ⟨hiff, hsame⟩ := bundle_iff_oneByOne (Localnet.key 11) hw hconfig ⟨rfl, hall⟩
    (by decide) (by decide) (by decide) (List.reverse_perm _) hsingle
  obtain ⟨w₂, hone⟩ := hiff.mp ⟨w₁, hbundled⟩
  exact ⟨w, w₁, w₂, hbundled, hone, (hsame w₁ w₂ hbundled hone).1, havail⟩

end Ryvo
