import Ryvo.Messages.ClearingRoundCodec
import Ryvo.Runs.Collateral
import Ryvo.Runs.Withdrawals
import Ryvo.Settlement.InTurn
import Ryvo.Settlement.Round

/-!
# Runs — Netting

A clearing round against its entries settled one after another.  The round moves one net amount for each participant, the sequence moves every amount; so the round can do with less than the sequence, and leaves pending withdrawals alone where the sequence dips into them.

* `SettledInTurn.claims`: a sequence moves claims about and makes none.
* `Ledger.NetsTo`: the same lanes, the same totals, and at least as much withdrawing.
* `netting_of_inTurn`: where a sequence goes through, so does the round, whoever signed what, if everybody it lists has joined.
* `idle_stranger_refused`: a listed stranger stops the round even if it neither pays nor is paid, which no sequence notices.
-/

namespace Ryvo

open SettleCommitmentBundle (ParsedBundleCommitment Authorities entries)

variable {env : Env} {w w' w₁ : World} {t : U16} {p : U32} {auth : Authorities}
variable {cs : List ParsedBundleCommitment} {es : List LaneEntry}

theorem SettledInTurn.claims (h : SettledInTurn env auth w cs w') (hl : Located env w) (t : U16) :
    (w'.ledger env).claims t = (w.ledger env).claims t := by
  induction h with
  | nil => rfl
  | cons h₁ _ ih =>
      obtain ⟨-, hset, hl₁, -⟩ := SettleIndividual.settle_spec hl h₁
      rw [ih hl₁, hset.claims]

namespace Ledger

variable {L L' L₁ : Ledger}

/-- `L'` is `L₁`, but for what of the balances is being withdrawn: of that, `L'` has at least as much. -/
structure NetsTo (L' L₁ : Ledger) : Prop where
  lanes : ∀ t p q, L'.lane t p q = L₁.lane t p q
  totals : ∀ t p, L'.total t p = L₁.total t p
  withdrawing : ∀ t p, L₁.withdrawing t p ≤ L'.withdrawing t p

/-- Settling at once and settling in turn. -/
theorem Settles.netsTo (h : L.Settles t es L') (h₁ : L.Raises t es L₁) : NetsTo L' L₁ where
  lanes t' p q := by
    by_cases hm : t' = t ∧ (p, q) ∈ es.map LaneEntry.lane
    · obtain ⟨rfl, hm⟩ := hm
      obtain ⟨e, he, hk⟩ := List.mem_map.mp hm
      obtain ⟨rfl, rfl⟩ := Prod.mk.inj hk
      obtain ⟨l, hl, -, hl'⟩ := h.lanes e he
      obtain ⟨l₁, hl₁, -, hl₁'⟩ := h₁.lanes e he
      obtain rfl := Option.some.inj (hl.symm.trans hl₁)
      exact hl'.trans hl₁'.symm
    · rw [h.otherLanes t' p q hm, h₁.otherLanes t' p q hm]
  totals t' p := by
    by_cases ht : t' = t
    · subst ht
      have := h.total_eq p
      have := h₁.total_eq p
      omega
    · cases hs : L.slot p with
      | none => simp [Ledger.total, h.noSlot p hs, h₁.noSlot p hs]
      | some s =>
          obtain ⟨s', hs', hd⟩ := h.slots p s hs
          obtain ⟨s₁, hs₁, hm⟩ := h₁.slots p s hs
          have hrow := (ParticipantBucketSlot.appliedDelta hd).other t' ht
          rw [total_of_slot hs', total_of_slot hs₁, ParticipantBucketSlot.balance,
            ParticipantBucketSlot.balance, hrow, hm.other t' ht]
  withdrawing t' p := by
    cases hs : L.slot p with
    | none => simp [Ledger.withdrawing, h₁.noSlot p hs]
    | some s =>
        obtain ⟨s', hs', hd⟩ := h.slots p s hs
        obtain ⟨s₁, hs₁, hm⟩ := h₁.slots p s hs
        simp only [Ledger.withdrawing, hs', hs₁, Option.elim_some]
        by_cases ht : t' = t
        · subst ht
          exact hm.withdrawing_le_delta hd
        · have hrow := (ParticipantBucketSlot.appliedDelta hd).other t' ht
          rw [ParticipantBucketSlot.balance, ParticipantBucketSlot.balance, hrow, hm.other t' ht]

end Ledger

/-- A layout that was read is not too long. -/
theorem layout_bounds {msg : List UInt8} {config : GlobalConfig} {version : UInt8}
    {layout : ParsedClearingRoundLayout}
    (h : parseClearingRoundLayoutWithVersion msg config version = .ok layout) :
    layout.blocks.length < 2 ^ 16 ∧ layout.channelCount < 2 ^ 16 := by
  obtain ⟨-, tiles, hsize, htiles, -, hblocks, hcount⟩ := parseClearingRoundLayout_eq_ok.mp h
  have hlen : layout.blocks.length = tiles.length := by
    have := congrArg List.length (map_participantId_blocksOf tiles [])
    rwa [← hblocks, List.length_map, List.length_map] at this
  have hle : ∀ n ∈ tiles.map (·.entries.length), n ≤ 255 := fun n hn => by
    obtain ⟨tile, ht, rfl⟩ := List.mem_map.mp hn
    rw [(htiles tile ht).count]
    exact Nat.le_of_lt_succ tile.count.toNat_lt
  have hsum := List.sum_le_card_nsmul _ 255 hle
  have hmax := hsize.2
  rw [List.length_map, smul_eq_mul] at hsum
  refine ⟨by omega, ?_⟩
  rw [hcount, hblocks, map_entryCount_blocksOf htiles]
  omega

namespace SettleClearingRound

variable {α : Type} {authentication : Authentication α} {layout : ParsedClearingRoundLayout}
variable {config : GlobalConfig} {message : List UInt8} {version : UInt8}

/-- In a reachable world every slot is that of somebody. -/
theorem Reached.known (hw : Reached env w) {s : ParticipantBucketSlot} (hs : w.slot env p = some s) :
    Known env w t p := by
  have htotal := ((w.ledger env).total_le_claim t p).trans ((w.ledger env).claim_le_claims t p)
  rw [Ledger.total_of_slot (L := w.ledger env) hs] at htotal
  exact ⟨s, hs, Env.canSign_ne_default (hw.owner_signs hs), htotal.trans_lt (hw.claims_lt t)⟩

/-- **Netting agrees with the plain path**: in every reachable world, if the entries of a round can be settled one after another in some order, as single commitments are, then its token is registered and the round is accepted, whatever authenticates it; and it leaves the same lanes and the same totals, with at least as much still withdrawing. -/
theorem netting_of_inTurn (hw : Reached env w)
    (hparse : parseClearingRoundLayoutWithVersion message config version = .ok layout)
    (hes : layout.entries = .ok es) (hroster : layout.roster.Nodup)
    (hlanes : (es.map LaneEntry.lane).Nodup)
    (hslots : ∀ p ∈ layout.roster, (w.slot env p).isSome)
    (hauth : Authenticated env w authentication layout)
    (hgross : (w.ledger env).gross layout.tokenId es < u64Bound)
    (hcs : (entries cs).Perm es) (ht : ∀ c ∈ cs, c.parsed.tokenId = layout.tokenId)
    (hturn : SettledInTurn env auth w cs w₁) :
    (es ≠ [] → w.requireToken layout.tokenId = .ok ()) ∧
    ∃ remaining w', settle env w authentication remaining layout = .ok w' ∧
      (w'.ledger env).NetsTo (w₁.ledger env) := by
  have hl := hw.located
  have hraises := (hturn.raises hl ht ((hcs.map _).nodup_iff.mpr hlanes)).perm hcs
  have hclaims := hturn.claims hl layout.tokenId
  have hlt := hw.claims_lt layout.tokenId
  -- The nets go through at once: what the sequence leaves still fits, since claims only move.
  have hnets : ∀ p ∈ layout.roster, ∃ s s', w.slot env p = some s ∧
      s.withTokenDelta layout.tokenId ((w.ledger env).net layout.tokenId es p) = .ok s' :=
    fun p hp => by
      obtain ⟨s, hs⟩ := Option.isSome_iff_exists.mp (hslots p hp)
      obtain ⟨s₁, hs₁, hm⟩ := hraises.slots p s hs
      have hle := ((w.ledger env).total_le_claim layout.tokenId p).trans
        ((w.ledger env).claim_le_claims layout.tokenId p)
      have hle₁ := ((w₁.ledger env).total_le_claim layout.tokenId p).trans
        ((w₁.ledger env).claim_le_claims layout.tokenId p)
      rw [Ledger.total_of_slot (L := w.ledger env) hs] at hle
      rw [Ledger.total_of_slot hs₁, hclaims] at hle₁
      obtain ⟨s', hd⟩ := hm.exists_delta (hle.trans_lt hlt) (hle₁.trans_lt hlt)
      exact ⟨s, s', hs, hd⟩
  have hknown : ∀ p ∈ layout.roster, Known env w layout.tokenId p := fun p hp => by
    obtain ⟨s, hs⟩ := Option.isSome_iff_exists.mp (hslots p hp)
    exact Reached.known hw hs
  have hraise : ∀ e ∈ es, Raisable (w.ledger env) layout.tokenId e := fun e he => by
    obtain ⟨l, hl, hlt, -⟩ := hraises.lanes e he
    exact ⟨l, hl, hlt⟩
  obtain ⟨hblocks, hcount⟩ := layout_bounds hparse
  obtain ⟨remaining, w', hsettle⟩ := exists_settle hl hroster hes hlanes hknown hauth hraise hgross
    hnets hblocks hcount
  obtain ⟨es', hes', -, -, -, hset, -, -⟩ := settle_spec hl hsettle
  obtain rfl := Except.ok.inj (hes.symm.trans hes')
  refine ⟨fun hne => ?_, remaining, w', hsettle, hset.netsTo hraises⟩
  obtain ⟨e, he⟩ := List.exists_mem_of_ne_nil _ hne
  obtain ⟨l, hlane, -⟩ := hraise e he
  exact requireToken_eq_ok.mpr (hw.lane_registered hlane)

/-- Nobody's keys are looked at. -/
def trusting : Authentication Unit := ⟨fun _ _ => .ok (), fun _ => .ok ()⟩

theorem authenticated_trusting (env : Env) (w : World) (layout : ParsedClearingRoundLayout) :
    Authenticated env w trusting layout := by
  have h : ∀ (snapshots : List ParticipantClearingSnapshot) (a : Option Unit),
      ∃ b, snapshots.foldlM (fun aggregate snapshot => some <$> trusting.fold aggregate snapshot) a
        = .ok b := by
    intro snapshots
    induction snapshots with
    | nil =>
        intro a
        exact ⟨a, rfl⟩
    | cons _ _ ih =>
        intro a
        exact ih (some ())
  obtain ⟨b, hb⟩ := h (payingSnapshots env w layout.tokenId layout.blocks) none
  exact ⟨b, hb, rfl⟩

end SettleClearingRound

/-- A sequence that runs with the accounts it needs. -/
theorem settledInTurn_of_foldlM (auth : Authorities)
    (h : cs.foldlM (fun w c => SettleIndividual.settle env w (auth c)
      (SettleIndividual.accounts env c.parsed) c.parsed) w = .ok w') :
    SettledInTurn env auth w cs w' := by
  induction cs generalizing w with
  | nil =>
      obtain rfl := foldlM_nil_eq_ok.mp h
      exact .nil
  | cons c cs ih =>
      obtain ⟨w₁, h₁, h⟩ := foldlM_cons_eq_ok.mp h
      exact .cons h₁ (ih h)

namespace Localnet

/-- A lane back, and a withdrawal of all that participant 0 has left. -/
def lanesBothWays : List Action :=
  [.call (.createChannel (key 11) indexBucket bucket bucket (some (key 10)) 1 0 1 0 (some (key 35))),
    .outside (.createTokenAccount (key 70) usd (key 10)),
    .call (.requestWithdrawal (key 10) indexBucket bucket (key 70) 1 30 (key 70))]

/-- Sixty one way, forty of them from collateral, and twenty the other. -/
def exchanged : List ParsedBundleCommitment :=
  [⟨⟨0, 1, 1, 60, none⟩, key 33⟩, ⟨⟨1, 0, 1, 20, none⟩, key 35⟩]

/-- The same as a round. -/
def exchangedRound (domain : List UInt8) : List UInt8 :=
  buildClearingRoundMessageBytes Bls.clearingRoundMessageVersion domain 1
    [⟨0, [(1, 60)]⟩, ⟨1, [(0, 20)]⟩]

end Localnet

open Localnet SettleClearingRound in
/-- In turn, the first payment dips into the withdrawal, and the second does not refill it; the round leaves it alone. -/
theorem netting_of_inTurn_exchange : ∃ (w w' w₁ : World) (layout : ParsedClearingRoundLayout)
    (remaining : List Pubkey),
    settle localnet w trusting remaining layout = .ok w' ∧
    (w'.ledger localnet).NetsTo (w₁.ledger localnet) ∧
    (w₁.ledger localnet).withdrawing 1 0 = 10 := by
  obtain ⟨w, hw, hc⟩ := reached_of_runsTo localnet (opening ++ funding ++ lanesBothWays)
    (fun w => w.globalConfig.any fun c : GlobalConfig =>
      match parseClearingRoundLayoutWithVersion (exchangedRound c.messageDomain) c
          Bls.clearingRoundMessageVersion,
        exchanged.foldlM (fun w c => SettleIndividual.settle localnet w ⟨fun _ => true, fun _ => true⟩
          (SettleIndividual.accounts localnet c.parsed) c.parsed) w with
      | .ok layout, .ok w₁ => decide (layout.entries = .ok (entries exchanged) ∧ layout.tokenId = 1 ∧
          layout.roster = [0, 1] ∧ (w.slot localnet 0).isSome ∧ (w.slot localnet 1).isSome ∧
          (w.ledger localnet).gross 1 (entries exchanged) = 80 ∧
          (w₁.ledger localnet).withdrawing 1 0 = 10)
      | _, _ => false) (by decide +kernel)
  rw [Option.any_eq_true] at hc
  obtain ⟨c, -, hc⟩ := hc
  split at hc
  · rename_i layout w₁ hparse hturn
    obtain ⟨hes, htoken, hroster, h₀, h₁, hgross, hwith⟩ := of_decide_eq_true hc
    obtain ⟨-, remaining, w', hsettle, hnets⟩ := netting_of_inTurn hw hparse hes
      (by rw [hroster]; decide) (by decide) (by rw [hroster]; simp [h₀, h₁])
      (authenticated_trusting _ _ _) (by rw [htoken, hgross]; decide) (List.Perm.refl _)
      (by rw [htoken]; decide)
      (settledInTurn_of_foldlM (fun _ => ⟨fun _ => true, fun _ => true⟩) hturn)
    exact ⟨w, w', w₁, layout, remaining, hsettle, hnets, hwith⟩
  · cases hc

namespace Localnet

/-- The sixty alone. -/
def payment : List ParsedBundleCommitment := [⟨⟨0, 1, 1, 60, none⟩, key 33⟩]

/-- The sixty as a round that also lists participant 7, who never joined. -/
def strangerRound (domain : List UInt8) : List UInt8 :=
  buildClearingRoundMessageBytes Bls.clearingRoundMessageVersion domain 1
    [⟨0, [(1, 60)]⟩, ⟨1, []⟩, ⟨7, []⟩]

end Localnet

open Localnet SettleClearingRound in
/-- The payment goes through by itself; the round, which is well formed, is refused with any accounts and however it is authenticated. -/
theorem idle_stranger_refused : ∃ (w w₁ : World) (c : GlobalConfig) (layout : ParsedClearingRoundLayout),
    Reached localnet w ∧ w.globalConfig = some c ∧
    parseClearingRoundLayoutWithVersion (strangerRound c.messageDomain) c
      Bls.clearingRoundMessageVersion = .ok layout ∧
    layout.tokenId = 1 ∧ layout.entries = .ok (entries payment) ∧ layout.roster.Nodup ∧
    ((entries payment).map LaneEntry.lane).Nodup ∧
    (w.ledger localnet).gross layout.tokenId (entries payment) < u64Bound ∧
    SettledInTurn localnet (fun _ => ⟨fun _ => true, fun _ => true⟩) w payment w₁ ∧
    ∀ (α : Type) (authentication : Authentication α) remaining w',
      settle localnet w authentication remaining layout ≠ .ok w' := by
  obtain ⟨w, hw, hc⟩ := reached_of_runsTo localnet (opening ++ funding)
    (fun w => w.globalConfig.any fun c : GlobalConfig =>
      match parseClearingRoundLayoutWithVersion (strangerRound c.messageDomain) c
          Bls.clearingRoundMessageVersion,
        payment.foldlM (fun w c => SettleIndividual.settle localnet w ⟨fun _ => true, fun _ => true⟩
          (SettleIndividual.accounts localnet c.parsed) c.parsed) w with
      | .ok layout, .ok _ => decide (layout.tokenId = 1 ∧ layout.entries = .ok (entries payment) ∧
          layout.roster = [0, 1, 7] ∧ (w.ledger localnet).gross layout.tokenId (entries payment) = 60 ∧
          w.slot localnet 7 = none)
      | _, _ => false) (by decide +kernel)
  rw [Option.any_eq_true] at hc
  obtain ⟨c, hconfig, hc⟩ := hc
  split at hc
  · rename_i layout w₁ hparse hturn
    obtain ⟨htoken, hes, hroster, hgross, hnone⟩ := of_decide_eq_true hc
    refine ⟨w, w₁, c, layout, hw, hconfig, hparse, htoken, hes, by rw [hroster]; decide, by decide,
      by rw [hgross]; decide, settledInTurn_of_foldlM (fun _ => ⟨fun _ => true, fun _ => true⟩) hturn, ?_⟩
    intro α authentication remaining w' hsettle
    obtain ⟨-, -, -, hknown, -⟩ := settle_spec hw.located hsettle
    obtain ⟨s, hs, -⟩ := hknown 7 (by rw [hroster]; decide)
    rw [hnone] at hs
    cases hs
  · cases hc

end Ryvo
