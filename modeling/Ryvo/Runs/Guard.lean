import Ryvo.Runs.Cover

/-!
# Runs — Guard

The solvency check, in the two instructions that move nothing in or only give users back what is theirs: `accrue_yield` and `execute_withdrawal_yield_bearing`.  Its error is documented as never to be seen.

* `Mints.accrueYield_eq`: after a deposit that does not bear what it leaves to others, an accrual fails with it.
* `guarded_of_covers`: in a world whose strategies are covered neither instruction does, whoever calls it and with whatever accounts.
* `guarded_iff_of_history`: so it is never seen in a run exactly when every deposit of the run bears what it leaves to others.
-/

namespace Ryvo

variable {env : Env} {w w' w₁ : World} {t : U16} {p : U32} {s s₁ s₂ : YieldStrategy} {r r' : Reserve}
variable {m : Mint} {v : TokenAccount} {snap : ReserveSnapshot} {n k c : Nat} {e : VaultError}
variable {h : List (World × Action)} {x destination feeAccount bucketKey : Pubkey}

/-- A transfer or a burn that fails does so with an error of the token program, and not with one of the program's. -/
structure TokenProgram.OwnErrors (P : TokenProgram) : Prop where
  transfer : ∀ T source destination authority amount e,
    Avoids (.vault e) (P.transfer T source destination authority amount)
  burn : ∀ T mint source authority amount e, Avoids (.vault e) (P.burn T mint source authority amount)

/-- The token program's errors carry its own codes. -/
theorem splToken_ownErrors : splToken.OwnErrors where
  transfer T source destination authority amount e := by
    simp [splToken, SplToken.transfer, SplToken.unpackAccount]
  burn T mint source authority amount e := by
    simp [splToken, SplToken.burn, SplToken.unpackAccount, SplToken.unpackMint]

/-- The solvency check fails neither an accrual nor a withdrawal. -/
structure World.Guarded (env : Env) (w : World) : Prop where
  accrue : ∀ t, AccrueYield.handler env w t ≠ .error (.vault .solvencyInvariantBroken)
  withdraw : ∀ k destination feeAccount t p,
    ExecuteWithdrawalYieldBearing.handler env w k destination feeAccount t p
      ≠ .error (.vault .solvencyInvariantBroken)

/-! ### Where it does not fail -/

theorem cusdcToUsdc_avoids : Avoids (.vault .solvencyInvariantBroken) (cusdcToUsdc n snap) := by
  simp [cusdcToUsdc]

theorem usdcToCusdc_avoids :
    Avoids (.vault .solvencyInvariantBroken) (usdcToCusdcRoundDown n snap) := by
  simp [usdcToCusdcRoundDown]

namespace YieldStrategy

theorem sharesToUsdc_avoids : Avoids (.vault .solvencyInvariantBroken) (s.sharesToUsdc n) := by
  simp [sharesToUsdc]

theorem bookValue_avoids : Avoids (.vault .solvencyInvariantBroken) (s.bookValue n) := by
  simp [bookValue, applyYieldDelta, addProtocolOwed, raiseIndex, addU64, subU64]

/-- What is owed may not fit in `u64`, but is covered. -/
theorem requireSolvent_avoids (hn : s.owes ≤ n) :
    Avoids (.vault .solvencyInvariantBroken) (s.requireSolvent n) := by
  simp only [requireSolvent, avoids_bind, avoids_require, userUnderlyingOwed, sharesToUsdc_avoids,
    true_and, addU64, avoids_checkedAdd, sharesToUsdc_eq_ok, checkedAdd_eq_ok]
  rintro _ ⟨rfl, -⟩
  refine ⟨by simp, ?_⟩
  rintro _ ⟨rfl, -⟩ -
  exact hn

/-- What is owed does not depend on the value last booked. -/
theorem requireSolvent_settled : ({ s with lastSettledUnderlying := k } : YieldStrategy).requireSolvent n
    = s.requireSolvent n := rfl

/-- The check fails where less is there than is owed, if only the figures fit. -/
theorem requireSolvent_eq_error (hfits : s.totalUserShares * s.userIndexQ64 < u128Bound)
    (hlt : s.owes < u64Bound) (hn : n < s.owes) :
    s.requireSolvent n = .error (.vault .solvencyInvariantBroken) := by
  have howed : s.userUnderlyingOwed = .ok (s.totalUserShares * s.userIndexQ64 / 2 ^ 64) :=
    sharesToUsdc_eq_ok.mpr ⟨rfl, hfits⟩
  have hadd : addU64 (s.totalUserShares * s.userIndexQ64 / 2 ^ 64) s.protocolOwedUnderlying
      = .ok s.owes := checkedAdd_eq_ok.mpr ⟨rfl, hlt⟩
  rw [requireSolvent, howed, Except.ok_bind, hadd, Except.ok_bind, require, if_neg (by omega)]

end YieldStrategy

theorem accrueInner_avoids {now : Int} :
    Avoids (.vault .solvencyInvariantBroken) (Lending.accrueInner r now) := by
  simp [Lending.accrueInner]

theorem accrueStrategy_avoids : Avoids (.vault .solvencyInvariantBroken) (accrueStrategy env w s) := by
  simp [accrueStrategy, World.getTokenAccount, Lending.invoke, Lending.accrue, World.getReserve,
    World.getMint, accrueInner_avoids, cusdcToUsdc_avoids, YieldStrategy.bookValue_avoids]

/-- The check is not the lending program's, nor the token program's. -/
theorem redeem_avoids (hT : env.tokenProgram.OwnErrors) : Avoids (.vault .solvencyInvariantBroken)
    (cpiRedeemReserveCollateral env w s destination n) := by
  simp [cpiRedeemReserveCollateral, checkReserveAccounts, World.getReserve, World.getMint,
    World.getTokenAccount, Lending.invoke, Lending.redeemReserveCollateral, accrueInner_avoids,
    Lending.mulDiv, World.tokenBurn, World.tokenTransfer, World.invokeToken, hT.transfer, hT.burn]

theorem redeemPositive_avoids (hT : env.tokenProgram.OwnErrors) :
    Avoids (.vault .solvencyInvariantBroken) (redeemPositive env w s destination n k) := by
  simp [redeemPositive, redeem_avoids hT]

theorem slotForParticipant_avoids {data : ParticipantBucket} :
    Avoids (.vault .solvencyInvariantBroken) (data.slotForParticipant p) := by
  simp [ParticipantBucket.slotForParticipant, ParticipantBucket.slotForParticipantIndex]

theorem clear_avoids : Avoids (.vault .solvencyInvariantBroken)
    (w.editParticipantBucket bucketKey (·.clearTokenWithdrawalInData p t)) := by
  simp [World.editParticipantBucket, World.getParticipantBucket, slotForParticipant_avoids,
    ParticipantBucket.clearTokenWithdrawalInData, ParticipantBucket.modifySlot,
    ParticipantBucketSlot.clearTokenWithdrawal, ParticipantBucketSlot.withTokenEntry]

namespace ExecuteWithdrawalYieldBearing

theorem feeAmount_avoids {feeBps decimals : Nat} :
    Avoids (.vault .solvencyInvariantBroken) (feeAmount feeBps decimals n) := by
  simp [feeAmount, scaledMinFee]

theorem payOut_avoids (hT : env.tokenProgram.OwnErrors) {config : GlobalConfig} {entry : TokenEntry} :
    Avoids (.vault .solvencyInvariantBroken)
      (payOut env w config entry s snap destination feeAccount n) := by
  simp [payOut, YieldStrategy.sharesToUsdc_avoids, feeAmount_avoids, usdcToCusdc_avoids,
    redeemPositive_avoids hT, YieldStrategy.removeUserShares, subU64]

/-- Shares that are paid out leave at least what is owed for the rest. -/
theorem owes_le_of_payOut {config : GlobalConfig} {entry : TokenEntry}
    (h : payOut env w config entry s snap destination feeAccount n = .ok (w', s₁))
    (hs : s.owes ≤ s.lastSettledUnderlying) : s₁.owes ≤ s₁.lastSettledUnderlying := by
  simp only [payOut, Except.bind_eq_ok, Except.pure_eq_ok, Prod.mk.injEq] at h
  obtain ⟨gross, hgross, _, -, _, -, _, -, _, -, _, -, s₂, hrem, rfl, rfl⟩ := h
  have howes := YieldStrategy.owes_remove hgross hrem
  obtain ⟨-, rfl⟩ := YieldStrategy.removeUserShares_eq_ok.mp hrem
  simp only
  omega

/-- From a vault valued at what is owed or more. -/
theorem settlePending_avoids (hT : env.tokenProgram.OwnErrors) {config : GlobalConfig}
    {entry : TokenEntry} (hv : w.tokenAccounts s.shareVault = some v)
    (hvalue : cusdcToUsdc v.amount snap = .ok s.lastSettledUnderlying)
    (hs : s.owes ≤ s.lastSettledUnderlying) : Avoids (.vault .solvencyInvariantBroken)
      (settlePending env w config entry s snap bucketKey destination feeAccount t p n) := by
  unfold settlePending
  simp only [avoids_ite, avoids_bind, avoids_pure, clear_avoids, payOut_avoids hT, cusdcToUsdc_avoids,
    World.getTokenAccount, avoids_okOr, Prod.forall, okOr_eq_ok, true_and, implies_true, and_true]
  refine ⟨fun _ w₁ _ hedit => ⟨by simp, fun a ha u hu => ?_⟩, fun _ w₁ s₁ hpay _ _ _ => ?_⟩
  · -- The vault is valued where the accrual has left it.
    rw [bucketsOnly_edit hedit] at ha
    obtain rfl := Option.some.inj (hv.symm.trans ha)
    obtain rfl := Except.ok.inj (hvalue.symm.trans hu)
    exact YieldStrategy.requireSolvent_avoids hs
  · exact YieldStrategy.requireSolvent_avoids (owes_le_of_payOut hpay hs)

/-- Every other statement fails with something else. -/
theorem handler_avoids (h : ∀ w₁ s₁ snap config entry n,
      (∃ s, w.yieldStrategies t = some s ∧ accrueStrategy env w s = .ok (w₁, s₁, snap)) →
      Avoids (.vault .solvencyInvariantBroken) (settlePending env w₁ config entry s₁ snap bucketKey
        destination feeAccount t p n)) : Avoids (.vault .solvencyInvariantBroken)
      (handler env w bucketKey destination feeAccount t p) := by
  simp [handler, World.getGlobalConfig, World.getYieldStrategy, World.getTokenAccount,
    World.getParticipantBucket, World.yieldToken, World.getTokenRegistry,
    ParticipantBucket.verifyAccountInfo, ParticipantBucket.verifyExpectedPda,
    ParticipantBucket.readTokenWithdrawalFromData, ParticipantBucketSlot.readTokenWithdrawal,
    accrueStrategy_avoids, slotForParticipant_avoids]
  -- what is left is the payment
  intros
  exact h _ _ _ _ _ _ ⟨_, ‹w.yieldStrategies t = some _›, ‹accrueStrategy env w _ = .ok _›⟩

end ExecuteWithdrawalYieldBearing

/-- The value an accrual of a covered strategy books is the vault's, and covers what is owed. -/
theorem Reached.accrued (hw : Reached env w) (hc : w.VaultCovers t) (hs : w.yieldStrategies t = some s)
    (hacc : accrueStrategy env w s = .ok (w₁, s₁, snap)) : s₁.owes ≤ s₁.lastSettledUnderlying ∧
      ∃ v, w₁.tokenAccounts s₁.shareVault = some v ∧
        cusdcToUsdc v.amount snap = .ok s₁.lastSettledUnderlying := by
  obtain ⟨r, r', m, v, ha, rfl, rfl⟩ := accrueStrategy_spec hacc
  refine ⟨(ha.covered (hw.invested hs) (hw.checked hs) (hc s hs)).1, v, ?_, ?_⟩
  · rw [Booked.shareVault_eq ha.booked]
    exact ha.vault
  · rw [ha.lastSettled]
    exact ha.value

/-- Nowhere in a world whose strategies are covered. -/
theorem guarded_of_covers (hT : env.tokenProgram.OwnErrors) (hw : Reached env w)
    (hc : ∀ t, w.VaultCovers t) : w.Guarded env where
  accrue t := by
    change Avoids _ _
    simp only [AccrueYield.handler, avoids_bind, avoids_pure, World.getYieldStrategy, avoids_okOr,
      okOr_eq_ok, accrueStrategy_avoids, Prod.forall, true_and, implies_true, and_true]
    refine ⟨by simp, fun s hs w₁ s₁ snap hacc => ?_⟩
    exact YieldStrategy.requireSolvent_avoids (hw.accrued (hc t) hs hacc).1
  withdraw k destination feeAccount t p := by
    refine ExecuteWithdrawalYieldBearing.handler_avoids fun w₁ s₁ snap config entry n hacc => ?_
    obtain ⟨s, hs, hacc⟩ := hacc
    obtain ⟨howes, v, hv, hvalue⟩ := hw.accrued (hc t) hs hacc
    exact ExecuteWithdrawalYieldBearing.settlePending_avoids hT hv hvalue howes

/-! ### Where it does -/

/-- The books do not matter. -/
theorem Stands.evolves (h : Stands w s r m v) (he : s.Evolves s₁) : Stands w s₁ r m v := by
  rw [he.keeps]
  exact ⟨h.reserve, h.mint, h.vault, h.booked⟩

/-- Right after a deposit that does not bear what it leaves to others, the vault is worth less than is owed. -/
theorem Mints.accrueYield_eq (h : Mints env w t n s s₁ s₂ r r' m v k c w') (hi : Invested env w s)
    (hm : Minted w') (hb : ¬ s₁.Bears v.amount r'.totalUnderlying m.supply n) :
    AccrueYield.handler env w' t = .error (.vault .solvencyInvariantBroken) := by
  have hlt := not_le.mp (mt (h.covers_iff hi).mp hb)
  rw [h.vaultWorth] at hlt
  obtain ⟨hproduct, hcheck, howes⟩ := YieldStrategy.requireSolvent_eq_ok.mp h.solvent
  have hheld := hm.holding_lt s.shareVault
  rw [World.holding_of h.stands.vault] at hheld
  have hfits := h.fits
  -- The accrual reads the vault as the deposit has left it.
  have hvalue : cusdcToUsdc (v.amount + c) ⟨r'.totalUnderlying + n, m.supply + c⟩
      = .ok (Pool.worth (v.amount + c) (r'.totalUnderlying + n) (m.supply + c)) := by
    refine cusdcToUsdc_eq_ok.mpr ⟨rfl, .inr (.inr ⟨?_, hlt.trans howes⟩)⟩
    exact (Nat.mul_lt_mul'' hheld hfits).trans_eq (by norm_num [u64Bound, u128Bound])
  have hst : Stands w' s₂ _ _ _ := h.stands.evolves h.evolves
  have hprogram : s₂.yieldProgram = env.yieldProgramId := by
    rw [h.evolves.keeps]
    exact h.accrues.program
  have hmint : s₂.shareMint = r'.shareMint := by
    rw [h.evolves.keeps]
    exact h.accrues.shareMint_eq
  have hacc := hst.accrueStrategy hprogram hmint hvalue (hlt.le.trans hcheck)
  simp only [AccrueYield.handler, World.getYieldStrategy, h.strategy, okOr, Except.ok_bind, hacc]
  rw [YieldStrategy.requireSolvent_settled, YieldStrategy.requireSolvent_eq_error hproduct howes hlt]
  rfl

/-- The step that took the deposit. -/
theorem Step.accrueYield_eq {ix : Instruction} (h : Step env w (.call ix) w') (hw : Reached env w)
    (hx : ix.mints = some (t, n)) (hb : ¬ (Action.call ix).Bears w) :
    AccrueYield.handler env w' t = .error (.vault .solvencyInvariantBroken) := by
  obtain ⟨s, s₁, s₂, r, r', m, v, k, c, hm⟩ := h.mints hw hx
  have hi := hw.invested hm.found
  refine hm.accrueYield_eq hi (Reached.minted (hw.next h)) fun hbears => hb ?_
  refine (h.covers_iff hw hx).mp fun s hs => ?_
  obtain rfl := Option.some.inj (hm.strategy.symm.trans hs)
  exact (hm.covers_iff hi).mpr hbears

/-! ### Runs -/

/-- **The solvency check never fails** an accrual or a withdrawal, in any world of a run, exactly when every deposit of the run bore what it left to others. -/
theorem guarded_iff_of_history (hT : env.tokenProgram.OwnErrors) (r : History env h w) :
    (∀ v ∈ worlds h w, v.Guarded env) ↔ ∀ x ∈ h, x.2.Bears x.1 := by
  constructor
  · rintro hg ⟨w₁, a⟩ hx
    obtain ⟨hw, w₂, hw₂, hstep⟩ := step_of_mem r hx
    cases a with
    | outside o => trivial
    | call ix =>
        by_contra hb
        -- only a deposit can fail to bear anything
        cases hm : ix.mints with
        | none => exact hb fun t n s ρ m v ρ' s₁ hmints => by simp [hm] at hmints
        | some tn => exact (hg w₂ hw₂).accrue tn.1 (hstep.accrueYield_eq hw hm hb)
  · intro hb v hv
    obtain ⟨hw, hc⟩ := covers_of_bears r hb v hv
    exact guarded_of_covers hT hw hc

open Localnet in
/-- Seven paid in at seven for five shares. -/
theorem guarded_of_outsiders : ∃ h w, History localnet h w ∧ (w.yieldStrategies 2).any
      (fun s : YieldStrategy => decide (s.owes = 7)) = true ∧
    ((∀ v ∈ worlds h w, v.Guarded localnet) ↔ ∀ x ∈ h, x.2.Bears x.1) := by
  obtain ⟨w, ⟨h, r⟩, hc⟩ := reached_of_runsTo localnet (opening ++ lending ++ outsiders ++ [payInto 7])
    (fun w => (w.yieldStrategies 2).any fun s : YieldStrategy => decide (s.owes = 7)) (by decide +kernel)
  exact ⟨h, w, r, hc, guarded_iff_of_history splToken_ownErrors r⟩

open Localnet in
/-- Right after four paid in at seven for five shares, the accrual fails with the error that is never to be seen. -/
theorem unguarded_of_outsiders : ∃ w, Reached localnet w ∧
    AccrueYield.handler localnet w 2 = .error (.vault .solvencyInvariantBroken) ∧
    ¬ w.Guarded localnet := by
  obtain ⟨w, hw, hc⟩ := reached_of_runsTo localnet (opening ++ lending ++ outsiders ++ [payInto 4])
    (fun w => match AccrueYield.handler localnet w 2 with
      | .error e => decide (e = .vault .solvencyInvariantBroken)
      | .ok _ => false) (by decide +kernel)
  have herr : AccrueYield.handler localnet w 2 = .error (.vault .solvencyInvariantBroken) := by
    split at hc
    · next e he => rw [he, of_decide_eq_true hc]
    · cases hc
  exact ⟨w, hw, herr, fun hg => hg.accrue 2 herr⟩

end Ryvo
