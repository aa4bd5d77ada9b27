import Ryvo.Messages.CommitmentCodec
import Ryvo.Runs.Backing

/-!
# Runs — Collateral

What locked collateral is good for.  A lane's token is registered, and a payer with collateral in a lane has a row for its token (`Reached.hasRow`), since rows are never removed; all claims fit in `u64` (`Reached.claims_lt`).  So nothing a payer does can keep a commitment its collateral covers from being settled (`collateral_pays`).
-/

namespace Ryvo

open Finset

variable {env : Env} {w w' : World} {a : Action} {t : U16} {p q : U32} {m : Move} {ms : List Move}
variable {L L' : Ledger} {l l' : DirectionalLaneState} {s : ParticipantBucketSlot}

/-! ### What a lane presupposes -/

/-- The token of a lane is registered. -/
theorem Reached.lane_registered (hw : Reached env w) (hl : w.lane env t p q = some l) :
    w.Registered t := by
  refine Reachable.invariant (P := fun w => ∀ t p q l, w.lane env t p q = some l → w.Registered t)
    ?_ ?_ hw t p q l hl
  · rintro w ⟨clock, -, rfl⟩ t p q l hl
    rw [lane_genesis] at hl
    cases hl
  · intro w a w' hw ih h t p q l' hl'
    refine (Reached.adminChange hw h).registered ?_
    cases hl : w.lane env t p q with
    | none =>
        obtain ⟨signer, hm, -⟩ := Reached.newLane hw h hl hl'
        cases hm with
        | openLane hreg _ _ => exact hreg
        | depositFor hms _ => exact (DepositFor.onBalance hms _ (.head _)).elim
    | some l => exact ih t p q l hl

/-- Collateral grows by what is locked, out of a row. -/
theorem Ledger.LaneChange.hasRow (hc : Ledger.LaneChange t p q l m l') (h : L.TakesAll [m] L')
    (h₀ : l.lockedBalance = 0) (h₁ : 0 < l'.lockedBalance) : L.HasRow t p := by
  cases hc with
  | lock n =>
      obtain ⟨L₁, ⟨s, s', hs, ⟨_, hd⟩, -⟩, -⟩ := Ledger.takesAll_singleton.mp h
      obtain ⟨e, he, -⟩ := ParticipantBucketSlot.debitTokenAvailable_eq_ok.mp hd
      exact ⟨s, hs, by simp [he]⟩
  | keep => omega
  | requestUnlock n requestedAt _ => exact absurd h₀ h₁.ne'
  | executeUnlock _ _ => simp [DirectionalLaneState.unlocked, h₀] at h₁
  | cooperativeUnlock n _ =>
      simp [DirectionalLaneState.cooperativelyUnlocked, DirectionalLaneState.settled, h₀] at h₁
  | requestSigner _ _ _ _ => exact absurd h₀ h₁.ne'
  | executeSigner _ _ => exact absurd h₀ h₁.ne'
  | settle es e _ _ _ _ _ =>
      simp [Ledger.settledLane, DirectionalLaneState.settled, h₀] at h₁

/-- A payer with collateral in a lane has a row for its token. -/
theorem Reached.hasRow (hw : Reached env w) (hl : w.lane env t p q = some l)
    (hlocked : 0 < l.lockedBalance) : (w.ledger env).HasRow t p := by
  refine Reachable.invariant (P := fun w => ∀ t p q l, w.lane env t p q = some l →
    0 < l.lockedBalance → (w.ledger env).HasRow t p) ?_ ?_ hw t p q l hl hlocked
  · rintro w ⟨clock, -, rfl⟩ t p q l hl
    rw [lane_genesis] at hl
    cases hl
  · intro w a w' hw ih h t p q l' hl' hlocked
    cases hl : w.lane env t p q with
    | none =>
        obtain ⟨signer, -, rfl⟩ := Reached.newLane hw h hl hl'
        exact absurd rfl hlocked.ne
    | some l =>
        obtain ⟨ms, hm, hd⟩ := Reached.makes hw h
        refine hd.takes.hasRow ?_
        rcases Nat.eq_zero_or_pos l.lockedBalance with h₀ | h₀
        · rcases hm.single_or_balance with ⟨m, rfl⟩ | hb
          · obtain ⟨l₁, hl₁, hc⟩ := (Ledger.takesAll_singleton.mp hd.takes).lane hl
            obtain rfl := Option.some.inj (hl₁.symm.trans hl')
            exact hc.hasRow hd.takes h₀ hlocked
          · have he := congrFun (congrFun (congrFun (hd.takes.lane_eq hb) t) p) q
            rw [World.ledger_lane, World.ledger_lane, hl, hl', Option.some.injEq] at he
            rw [he, h₀] at hlocked
            exact absurd hlocked (lt_irrefl _)
        · exact ih t p q l hl h₀

theorem Ledger.claim_add_claim_le (L : Ledger) (t : U16) (h : p ≠ q) :
    L.claim t p + L.claim t q ≤ L.claims t := by
  rw [← sum_pair h, Ledger.claims]
  exact sum_le_sum_of_subset (subset_univ _)

/-! ### Settlement from collateral -/

/-- A commitment that the lane's collateral covers: the payer can pay it, the payee can receive it, and it costs the payer's balance nothing. -/
theorem Reached.collateral_covers (hw : Reached env w) {parsed : ParsedCommitmentMessage}
    (hl : w.lane env parsed.tokenId parsed.payerId parsed.payeeId = some l)
    (hraised : l.settledCumulative < parsed.committedAmount)
    (hcovered : parsed.committedAmount ≤ l.settledCumulative + l.lockedBalance)
    (hs : w.slot env parsed.payeeId = some s) (hroom : s.HasRoom parsed.tokenId) :
    (w.ledger env).CanPay parsed.tokenId parsed.entry ∧
      (w.ledger env).CanReceive parsed.tokenId parsed.payeeId
        ((w.ledger env).delta parsed.tokenId parsed.entry) ∧
      (w.ledger env).net parsed.tokenId [parsed.entry] parsed.payerId = 0 := by
  have hne := lane_ne hl
  have hfits := (w.ledger env).claim_add_claim_le parsed.tokenId hne
  have hlt := hw.claims_lt parsed.tokenId
  have hlocked := (w.ledger env).locked_add_total_le_claim parsed.tokenId parsed.payerId parsed.payeeId
  have hreceiver := (w.ledger env).total_le_claim parsed.tokenId parsed.payeeId
  rw [Ledger.locked_of_lane hl] at hlocked
  have hdelta : (w.ledger env).delta parsed.tokenId parsed.entry
      = parsed.committedAmount - l.settledCumulative := Ledger.delta_of_lane hl
  refine ⟨?_, ?_, ?_⟩
  · obtain ⟨sp, hsp, hrow⟩ := hw.hasRow hl (by omega)
    obtain ⟨row, hrow⟩ := Option.isSome_iff_exists.mp hrow
    rw [Ledger.total_of_slot hsp, ParticipantBucketSlot.balance_of_tokenEntry hrow] at hlocked
    exact ⟨l, sp, row, hl, hsp, hrow, hraised, by omega, by
      change parsed.committedAmount - _ ≤ _
      omega⟩
  · rw [Ledger.total_of_slot hs, BucketTokenBalance.total] at hreceiver
    rw [hdelta]
    exact ⟨s, _, hs, (ParticipantBucketSlot.withTokenDelta_credit (by omega)).mpr
      ⟨hroom, by omega, rfl⟩⟩
  · have hself : parsed.entry.payer = parsed.payerId := rfl
    have hother : parsed.entry.payee ≠ parsed.payerId := hne.symm
    have htarget : parsed.entry.target = parsed.committedAmount := rfl
    rw [Ledger.net_single (e := parsed.entry) hl, if_pos hself, if_neg hother, htarget]
    omega

/-- **Locked collateral guarantees payment.** A commitment it covers, signed and submitted by whom it has to be, is settled whatever the payer has done with its balance, leaves that balance alone, and credits the payee with the difference. -/
theorem collateral_pays (hw : Reached env w) {submitter : Pubkey} {sysvar : InstructionsSysvar}
    {config : GlobalConfig} {parsed : ParsedCommitmentMessage}
    (hl : w.lane env parsed.tokenId parsed.payerId parsed.payeeId = some l)
    (hconfig : w.globalConfig = some config) (hcpi : Ed25519.assertNoCpi env sysvar = .ok ())
    (hread : SettleIndividual.readCommitment sysvar config = .ok (l.authorizedSigner, parsed))
    (hraised : l.settledCumulative < parsed.committedAmount)
    (hcovered : parsed.committedAmount ≤ l.settledCumulative + l.lockedBalance)
    (hs : w.slot env parsed.payeeId = some s) (hroom : s.HasRoom parsed.tokenId)
    (hsubmitter : submitter = s.owner ∨ parsed.authorizedSettler = some submitter) :
    ∃ w', SettleIndividual.handler env w submitter sysvar (SettleIndividual.accounts env parsed)
      = .ok w' ∧ w'.slot env parsed.payerId = w.slot env parsed.payerId ∧
      (w.ledger env).Settles parsed.tokenId [parsed.entry] (w'.ledger env) ∧
      w'.slot env parsed.payeeId = some (s.put parsed.tokenId
        ((s.balance parsed.tokenId).credit (parsed.committedAmount - l.settledCumulative))) := by
  obtain ⟨hpay, hreceive, hnet⟩ := hw.collateral_covers hl hraised hcovered hs hroom
  have haccepts : SettleIndividual.Accepts env w
      (SettleIndividual.authority submitter l.authorizedSigner parsed) parsed := by
    refine ⟨hpay, fun l' hl' => ?_, s, hs, ?_⟩
    · obtain rfl := Option.some.inj (hl.symm.trans hl')
      exact beq_self_eq_true _
    · simpa [SettleIndividual.authority] using hsubmitter
  obtain ⟨w', hw'⟩ := SettleIndividual.exists_settle hw.located haccepts hreceive
  obtain ⟨-, hset, -, -⟩ := SettleIndividual.settle_spec hw.located hw'
  refine ⟨w', ?_, ?_, hset, ?_⟩
  · simp only [SettleIndividual.handler, World.getGlobalConfig, Except.bind_eq_ok, okOr_eq_ok,
      requireToken_eq_ok, Prod.exists]
    exact ⟨config, hconfig, (), hcpi, _, parsed, hread, (), hw.lane_registered hl, hw'⟩
  · obtain ⟨sp, hsp⟩ := Option.isSome_iff_exists.mp (hset.known _ (.head _)).2.1
    obtain ⟨sp', hsp', hd⟩ := hset.slots _ sp hsp
    rw [show parsed.entry.payer = parsed.payerId from rfl, hnet] at hd
    cases hd
    exact hsp'.trans hsp.symm
  · obtain ⟨s', hs', hd⟩ := hset.slots _ s hs
    have hgain : (w.ledger env).net parsed.tokenId [parsed.entry] parsed.payeeId
        = (parsed.committedAmount - l.settledCumulative : Nat) := by
      rw [Ledger.net_single (e := parsed.entry) hl,
        if_neg (show parsed.entry.payer ≠ parsed.payeeId from lane_ne hl), zero_add]
      exact if_pos rfl
    rw [hgain] at hd
    obtain ⟨-, -, rfl⟩ := (ParticipantBucketSlot.withTokenDelta_credit (by omega)).mp hd
    exact hs'

namespace Localnet

/-- A transaction whose first instruction has the precompile verify one message, and whose second is the program's. -/
def signed (signer : Pubkey) (message : List UInt8) : InstructionsSysvar :=
  ⟨[(Ed25519.programId, [1, 0] ++ leBytes 2 48 ++ leBytes 2 65535 ++ leBytes 2 16 ++ leBytes 2 65535
      ++ leBytes 2 112 ++ leBytes 2 message.length ++ leBytes 2 65535 ++ signer.toBytes
      ++ List.replicate 64 0 ++ message), (localnet.programId, [])], 1⟩

/-- Key 33 commits participant 0 to pay participant 1 so much of token 1. -/
def commitment (domain : List UInt8) (amount : Nat) : InstructionsSysvar :=
  signed (key 33) (buildCommitmentMessageBytes domain ⟨0, 1, 1, amount, none⟩)

end Localnet

open Localnet in
/-- With forty locked, and everything else on its way out, twenty-five are paid. -/
theorem collateral_pays_withdrawing : ∃ w w' domain, Reached localnet w ∧
    (w.ledger localnet).withdrawing 1 0 = 30 ∧ SettleIndividual.handler localnet w (key 11)
      (commitment domain 25) (SettleIndividual.accounts localnet ⟨0, 1, 1, 25, none⟩) = .ok w' ∧
    w'.slot localnet 0 = w.slot localnet 0 ∧
    (w'.ledger localnet).available 1 1 = (w.ledger localnet).available 1 1 + 25 := by
  let parsed : ParsedCommitmentMessage := ⟨0, 1, 1, 25, none⟩
  obtain ⟨w, hw, hc⟩ := reached_of_runsTo localnet (opening ++ funding ++
      [.outside (.createTokenAccount (Localnet.key 70) usd (Localnet.key 10)),
        .call (.requestWithdrawal (Localnet.key 10) indexBucket bucket (Localnet.key 70) 1 30 (Localnet.key 70))])
    (fun w => decide ((w.ledger localnet).withdrawing 1 0 = 30) &&
      (w.lane localnet 1 0 1).any (fun l : DirectionalLaneState => decide
        (l.authorizedSigner = Localnet.key 33 ∧ l.settledCumulative = 0 ∧ l.lockedBalance = 40)) &&
      (w.slot localnet 1).any (fun s : ParticipantBucketSlot => decide (s.owner = Localnet.key 11 ∧
        (Table.free (fun e : BucketTokenBalance => e.initialized) s.tokenBalances).isSome)) &&
      w.globalConfig.any (fun c : GlobalConfig => decide
        (SettleIndividual.readCommitment (commitment c.messageDomain 25) c
          = .ok (Localnet.key 33, ⟨0, 1, 1, 25, none⟩)))) (by decide +kernel)
  simp only [Bool.and_eq_true, Option.any_eq_true, decide_eq_true_eq] at hc
  obtain ⟨⟨⟨hwith, l, hl, hsigner, hsettled, hlocked⟩, s, hs, howner, hfree⟩, c, hconfig, hread⟩ := hc
  obtain ⟨w', hw', hslot, -, hpaid⟩ := collateral_pays hw hl hconfig rfl (hsigner ▸ hread)
    (by rw [hsettled]; decide) (by rw [hsettled, hlocked]; decide) hs (.inr hfree) (.inl howner.symm)
  refine ⟨w, w', c.messageDomain, hw, hwith, hw', hslot, ?_⟩
  have hbalance := ParticipantBucketSlot.balance_put_self (e := (s.balance 1).credit 25)
    (s := s) (t := 1) (.inr hfree) (s.balance_initialized 1) (s.balance_tokenId 1)
  rw [hsettled] at hpaid
  rw [Ledger.available, Ledger.available, World.ledger_slot, World.ledger_slot, hpaid, hs,
    Option.elim_some, Option.elim_some]
  exact congrArg (·.availableBalance) hbalance

end Ryvo
