import Ryvo.Actions.Settlements
import Ryvo.Actions.Vault
import Ryvo.Runs.Collateral
import Ryvo.Runs.Rounds
import Ryvo.Settlement.ByAddress

/-!
# Runs — Account binding

The three instructions that take their bucket accounts as remaining accounts, in any world the program can reach: whatever list of accounts they accept, each bucket id that comes up is bound to one index, the accounts are those of the ids in the order in which they first come up, and every access goes to the address of the participant or pair at hand.
-/

namespace Ryvo

variable {env : Env} {w : World}

/-- **Remaining accounts are bound to the buckets they are verified for.** -/
theorem remainingAccounts_bound (hw : Reached env w) :
    (∀ remaining sysvar message signature w',
      SettleClearingRound.ByIndex.handler env w remaining sysvar message signature = .ok w' →
      ∃ config layout, w.globalConfig = some config ∧
        parseClearingRoundLayoutWithVersion message config Bls.clearingRoundMessageVersion
          = .ok layout ∧
        SettleClearingRound.AccountsBound env w
          (SettleClearingRound.blsAuthentication env message signature.val) remaining layout w') ∧
    (∀ remaining submitter sysvar count w',
      SettleCommitmentBundle.ByIndex.handler env w remaining submitter sysvar count = .ok w' →
      ∃ config cs t q, w.globalConfig = some config ∧
        SettleCommitmentBundle.readCommitments sysvar config count.val = .ok cs ∧
        (∀ c ∈ cs, c.parsed.tokenId = t ∧ c.parsed.payeeId = q) ∧
        SettleCommitmentBundle.AccountsBound env w (SettleCommitmentBundle.authorities submitter)
          remaining t q cs w') ∧
    (∀ remaining funder source t participantIds amounts w',
      DepositFor.ByIndex.handler env w remaining funder source t participantIds amounts = .ok w' →
      ∃ total w₁, DepositFor.sumAmounts amounts = .ok total ∧
        w.tokenTransfer env source (env.address (.vaultTokenAccount t)) funder total = .ok w₁ ∧
        DepositFor.AccountsBound env w₁ remaining t (participantIds.zip amounts) w') := by
  have hl := hw.located
  refine ⟨fun remaining sysvar message signature w' h => ?_,
    fun remaining submitter sysvar count w' h => ?_,
    fun remaining funder source t participantIds amounts w' h => ?_⟩
  · simp only [SettleClearingRound.ByIndex.handler, World.getGlobalConfig, Except.bind_eq_ok,
      okOr_eq_ok] at h
    obtain ⟨config, hconfig, _, -, layout, hparse, _, -, hsettle⟩ := h
    exact ⟨config, layout, hconfig, hparse, SettleClearingRound.settle_placed hl hsettle⟩
  · simp only [SettleCommitmentBundle.ByIndex.handler, World.getGlobalConfig, Except.bind_eq_ok,
      okOr_eq_ok] at h
    obtain ⟨config, hconfig, _, -, _, -, cs, hread, first, hfirst, _, -, hsettle⟩ := h
    have hbatch := SettleCommitmentBundle.readCommitments_batch hread hfirst
    exact ⟨config, cs, _, _, hconfig, hread, hbatch,
      SettleCommitmentBundle.settle_placed hl (fun c hc => (hbatch c hc).1) hsettle⟩
  · simp only [DepositFor.ByIndex.handler, Except.bind_eq_ok, require_eq_ok, exists_const,
      Except.pure_eq_ok] at h
    obtain ⟨_, -, -, _, -, -, -, _, -, -, -, total, hsum, -, w₁, htransfer, p, hloop, hall, rfl⟩ := h
    exact ⟨total, w₁, hsum, htransfer, DepositFor.credits_bound
      ((sameBuckets_transfer htransfer).located hl) hloop hall⟩

/-! ### One of each -/

theorem isOk_iff {α : Type} {x : Result α} : x.isOk = true ↔ ∃ a, x = .ok a := by
  cases x with
  | error e => simp [Except.isOk, Except.toBool]
  | ok a => simp [Except.isOk, Except.toBool]

namespace Localnet

def zeroSignature : Bytes 48 := ⟨List.replicate 48 0, rfl⟩

/-- Participant 0 pays participant 1 on their lane, up to 5. -/
def round : List UInt8 :=
  [2, 5] ++ List.replicate 16 0 ++ [1, 0] ++ [2] ++ [0, 1, 1, 5] ++ [1, 0]

end Localnet

open Localnet in
/-- Both participants are in the first bucket, and their lane in the first channel bucket. -/
theorem remainingAccounts_bound_lenient : ∃ w w₁ w₂ w₃ w₀ config layout cs t q,
    SettleClearingRound.AccountsBound lenient w
      (SettleClearingRound.blsAuthentication lenient round zeroSignature.val)
      [bucket, channels 1] layout w₁ ∧
    (w.globalConfig = some config ∧
      SettleCommitmentBundle.readCommitments (commitment (List.replicate 16 0) 5) config 1 = .ok cs) ∧
    SettleCommitmentBundle.AccountsBound lenient w
      (SettleCommitmentBundle.authorities (key 11)) [bucket, channels 1] t q cs w₂ ∧
    DepositFor.AccountsBound lenient w₀ [bucket] 1 [(0, 3), (1, 4)] w₃ := by
  obtain ⟨w, hw, hc⟩ := reached_of_runsTo lenient (opening ++ funding ++ [keyRegistration])
    (fun w =>
      (SettleClearingRound.ByIndex.handler lenient w [bucket, channels 1]
        ⟨[(lenient.programId, [])], 0⟩ round zeroSignature).isOk &&
      (SettleCommitmentBundle.ByIndex.handler lenient w [bucket, channels 1] (key 11)
        (commitment (List.replicate 16 0) 5) 1).isOk &&
      (DepositFor.ByIndex.handler lenient w [bucket] (key 10) (key 60) 1 [0, 1] [3, 4]).isOk)
    (by decide +kernel)
  simp only [Bool.and_eq_true, isOk_iff] at hc
  obtain ⟨⟨⟨w₁, h₁⟩, w₂, h₂⟩, w₃, h₃⟩ := hc
  obtain ⟨hround, hbundle, hdeposit⟩ := remainingAccounts_bound hw
  obtain ⟨_, layout, -, -, hround⟩ := hround _ _ _ _ _ h₁
  obtain ⟨config, cs, t, q, hconfig, hread, -, hbundle⟩ := hbundle _ _ _ _ _ h₂
  obtain ⟨_, w₀, -, -, hdeposit⟩ := hdeposit _ _ _ _ _ _ _ h₃
  exact ⟨w, w₁, w₂, w₃, w₀, config, layout, cs, t, q, hround, ⟨hconfig, hread⟩, hbundle, hdeposit⟩

end Ryvo
