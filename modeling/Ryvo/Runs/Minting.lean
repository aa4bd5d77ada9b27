import Ryvo.Runs.Claims

/-!
# Runs — Minting

Two instructions take underlying in for shares: `deposit_yield_bearing` and `opt_in_yield`.  The shares are the amount at the strategy's index, rounded down, and a share of a strategy that has few of them may be worth a great deal.

* `fairMint_iff`: when the users' claim grows by the amount to within two units.
* `unfairMint_of_donation`: somebody sends the strategy shares of the reserve while it has one share of its own, and the next depositor loses half the deposit.
-/

namespace Ryvo

variable {env : Env} {w w' : World} {t : U16} {n k : Nat} {s s₁ s₂ : YieldStrategy} {ix : Instruction}

/-- The yield-bearing token and the amount that an instruction takes in for shares of it. -/
def Instruction.mints : Instruction → Option (U16 × Nat)
  | .depositYieldBearing _ _ _ _ t n => some (t, n)
  | .optInYield _ _ _ _ t n => some (t, n)
  | _ => none

/-- The users' claim grows by the amount, less two units at most. -/
def FairMint (s₁ s₂ : YieldStrategy) (n : Nat) : Prop :=
  ∃ owed owed', s₁.userUnderlyingOwed = .ok owed ∧ s₂.userUnderlyingOwed = .ok owed' ∧
    owed' ≤ owed + n ∧ owed + n ≤ owed' + 2

/-- What an instruction that mints shares does to the strategy: accrual, then the shares, then the check. -/
theorem Step.minted (h : Step env w (.call ix) w') (hl : Located env w) (hx : ix.mints = some (t, n)) :
    ∃ s s₁ s₂ w₁ snap k, w.yieldStrategies t = some s ∧
      accrueStrategy env w s = .ok (w₁, s₁, snap) ∧ w'.yieldStrategies t = some s₂ ∧
      DepositYieldBearing.mintShares s₁ n = .ok (s₂, k) ∧
      s₂.requireSolvent s₂.lastSettledUnderlying = .ok () := by
  have h := h.ran
  cases ix with
  | depositYieldBearing =>
      obtain ⟨p, k, s, s₁, s₂, r, r', m, a, w₂, w₃, hm⟩ := DepositYieldBearing.handler_spec hl h
      obtain ⟨rfl, rfl⟩ := Prod.mk.inj (Option.some.inj hx)
      exact ⟨s, s₁, s₂, _, _, k, hm.strategy.found, hm.accrues.ran,
        by rw [hm.result]; exact Function.update_self _ _ _, hm.minted, hm.solvent⟩
  | optInYield =>
      obtain ⟨p, k, s, s₁, s₂, r, r', m, a, w₂, w₃, w₄, hm⟩ := OptInYield.handler_spec hl h
      obtain ⟨rfl, rfl⟩ := Prod.mk.inj (Option.some.inj hx)
      exact ⟨s, s₁, s₂, _, _, k, hm.tokens.strategy.found, hm.accrues.ran,
        by rw [hm.result]; exact Function.update_self _ _ _, hm.minted, hm.solvent⟩
  | _ => cases hx

/-- What the users are owed once shares have been minted, and before. -/
theorem userUnderlyingOwed_mint (hm : DepositYieldBearing.mintShares s₁ n = .ok (s₂, k))
    (hsol : s₂.requireSolvent s₂.lastSettledUnderlying = .ok ()) :
    s₁.userUnderlyingOwed = .ok (s₁.totalUserShares * s₁.userIndexQ64 / 2 ^ 64) ∧
    s₂.userUnderlyingOwed = .ok
      ((s₁.totalUserShares + n * 2 ^ 64 / s₁.userIndexQ64) * s₁.userIndexQ64 / 2 ^ 64) := by
  obtain ⟨rfl, -, -, hadd⟩ := DepositYieldBearing.mintShares_eq_ok.mp hm
  obtain ⟨-, -, rfl⟩ := YieldStrategy.addUserShares_eq_ok.mp hadd
  obtain ⟨hfits, -, -⟩ := YieldStrategy.requireSolvent_eq_ok.mp hsol
  refine ⟨YieldStrategy.sharesToUsdc_eq_ok.mpr ⟨rfl, lt_of_le_of_lt ?_ hfits⟩,
    YieldStrategy.sharesToUsdc_eq_ok.mpr ⟨rfl, hfits⟩⟩
  exact Nat.mul_le_mul_right _ (Nat.le_add_right _ _)

/-- **When a depositor loses no more than dust**: exactly when the part of the amount that buys no whole share is no more than two units and the fraction of a unit that the users' claim had already lost to rounding.  The claim never grows by more than the amount. -/
theorem fairMint_iff (hw : Reached env w) (h : Step env w (.call ix) w')
    (hx : ix.mints = some (t, n)) : ∃ s s₁ s₂ w₁ snap, w.yieldStrategies t = some s ∧
      accrueStrategy env w s = .ok (w₁, s₁, snap) ∧ w'.yieldStrategies t = some s₂ ∧
      (FairMint s₁ s₂ n ↔ n * 2 ^ 64 % s₁.userIndexQ64 ≤
        s₁.totalUserShares * s₁.userIndexQ64 % 2 ^ 64 + 2 * 2 ^ 64) := by
  obtain ⟨s, s₁, s₂, w₁, snap, k, hs, hacc, hs₂, hm, hsol⟩ := h.minted (Reached.located hw) hx
  obtain ⟨h₁, h₂⟩ := userUnderlyingOwed_mint hm hsol
  refine ⟨s, s₁, s₂, w₁, snap, hs, hacc, hs₂, ?_⟩
  rw [← Pool.buy_iff (Nat.two_pow_pos 64)]
  constructor
  · rintro ⟨owed, owed', h₁', h₂', -, hge⟩
    obtain rfl := Except.ok.inj (h₁.symm.trans h₁')
    obtain rfl := Except.ok.inj (h₂.symm.trans h₂')
    exact hge
  · exact fun hge => ⟨_, _, h₁, h₂, Pool.buy_le (Nat.two_pow_pos 64), hge⟩

open Localnet in
/-- A hundred deposited at the first index. -/
theorem fairMint_of_deposit : ∃ w w' s s₁ s₂ w₁ snap, Reached localnet w ∧
    Step localnet w (.call (.depositYieldBearing (Localnet.key 10) indexBucket bucket (Localnet.key 60) 2 100)) w' ∧
    w.yieldStrategies 2 = some s ∧ accrueStrategy localnet w s = .ok (w₁, s₁, snap) ∧
    w'.yieldStrategies 2 = some s₂ ∧ (FairMint s₁ s₂ 100 ↔ 100 * 2 ^ 64 % s₁.userIndexQ64 ≤
      s₁.totalUserShares * s₁.userIndexQ64 % 2 ^ 64 + 2 * 2 ^ 64) := by
  obtain ⟨w, w', hw, hstep, -⟩ := step_of_runsTo localnet (opening ++ lending)
    (.call (.depositYieldBearing (Localnet.key 10) indexBucket bucket (Localnet.key 60) 2 100))
    (fun _ _ => true) (by decide +kernel)
  obtain ⟨s, s₁, s₂, w₁, snap, hs, hacc, hs₂, hiff⟩ := fairMint_iff hw hstep rfl
  exact ⟨w, w', s, s₁, s₂, w₁, snap, hw, hstep, hs, hacc, hs₂, hiff⟩

namespace Localnet

/-- Wallet 10 holds the strategy's one share, and sends the strategy a hundred shares of the reserve. -/
def donation : List Action :=
  [.call (.depositYieldBearing (key 10) indexBucket bucket (key 60) 2 1),
    .outside (.createTokenAccount (key 61) shareMint (key 10)),
    .outside (.depositReserveLiquidity reserve usd (key 60) (key 61) (key 10) 100),
    .outside (.transfer (key 61) (address (.yieldShareVault 2)) (key 10) 100)]

end Localnet

open Localnet in
/-- Of a deposit of 135 at an index of 68, the users' claim grows by 68. -/
theorem unfairMint_of_donation : ∃ w w' s s₁ s₂ w₁ snap, Reached localnet w ∧
    Step localnet w (.call (.depositYieldBearing (Localnet.key 10) indexBucket bucket (Localnet.key 60) 2 135)) w' ∧
    w.yieldStrategies 2 = some s ∧ accrueStrategy localnet w s = .ok (w₁, s₁, snap) ∧
    w'.yieldStrategies 2 = some s₂ ∧ s₁.userUnderlyingOwed = .ok 68 ∧
    s₂.userUnderlyingOwed = .ok 136 ∧ ¬ FairMint s₁ s₂ 135 := by
  obtain ⟨w, w', hw, hstep, hc⟩ := step_of_runsTo localnet (opening ++ lending ++ donation)
    (.call (.depositYieldBearing (Localnet.key 10) indexBucket bucket (Localnet.key 60) 2 135))
    (fun w w' => w.accrues localnet 2 fun s₁ _ => (w'.yieldStrategies 2).any fun s₂ : YieldStrategy =>
      decide (s₁.userUnderlyingOwed = .ok 68 ∧ s₂.userUnderlyingOwed = .ok 136)) (by decide +kernel)
  obtain ⟨s, w₁, s₁, snap, hs, hacc, hc⟩ := World.accrues_iff.mp hc
  simp only [Option.any_eq_true, decide_eq_true_eq] at hc
  obtain ⟨s₂, hs₂, h₁, h₂⟩ := hc
  refine ⟨w, w', s, s₁, s₂, w₁, snap, hw, hstep, hs, hacc, hs₂, h₁, h₂, ?_⟩
  rintro ⟨owed, owed', h₁', h₂', -, hge⟩
  obtain rfl := Except.ok.inj (h₁.symm.trans h₁')
  obtain rfl := Except.ok.inj (h₂.symm.trans h₂')
  omega

end Ryvo
