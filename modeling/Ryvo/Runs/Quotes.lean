import Ryvo.Layout.ClientReads
import Ryvo.Runs.YieldBooks

/-!
# Runs — Quotes

What clients say a yield balance is worth.  The quotes mirror the program's conversions, without its bounds, and a client may act on one long after it was made.

* `worth_quote`: both sides of the rounding.
* `quotes_of_run`: a quote is the program's figure, and what is bought at it is worth no less later on.
-/

namespace Ryvo

open Client

variable {env : Env} {w w₀ : World} {t : U16} {s s₀ : YieldStrategy} {index index' : Nat}
variable {h : List (World × Action)}

namespace Client

structure YieldStrategySnapshot where
  userIndexQ64 : Nat
  deriving DecidableEq

def usdcToAgShares (strategy : YieldStrategySnapshot) (usdc : Nat) : Except ClientError Nat :=
  if usdc = 0 then .ok 0
  else do
    require (strategy.userIndexQ64 ≠ 0) .strategyUninitialized
    pure (usdc * 2 ^ 64 / strategy.userIndexQ64)

def agSharesToUsdc (strategy : YieldStrategySnapshot) (shares : Nat) : Nat :=
  if shares = 0 then 0 else shares * strategy.userIndexQ64 / 2 ^ 64

def nextCommitmentAmountUsd (settledCumulativeShares deltaUsdc : Nat)
    (strategy : YieldStrategySnapshot) : Except ClientError Nat := do
  let newShares ← usdcToAgShares strategy deltaUsdc
  pure (settledCumulativeShares + newShares)

end Client

/-- What a client sees of a strategy. -/
def YieldStrategy.snapshot (s : YieldStrategy) : YieldStrategySnapshot := ⟨s.userIndexQ64⟩

/-! ### Rounding -/

theorem usdcToAgShares_eq (h : index ≠ 0) (usdc : Nat) :
    usdcToAgShares ⟨index⟩ usdc = .ok (usdc * 2 ^ 64 / index) := by
  rw [usdcToAgShares]
  split
  · rename_i hzero
    simp [hzero]
  · rw [require_of h]
    rfl

theorem agSharesToUsdc_eq (index shares : Nat) :
    agSharesToUsdc ⟨index⟩ shares = shares * index / 2 ^ 64 := by
  rw [agSharesToUsdc]
  split
  · rename_i hzero
    simp [hzero]
  · rfl

/-- A higher index makes no shares worth less. -/
theorem agSharesToUsdc_mono (h : index ≤ index') (shares : Nat) :
    agSharesToUsdc ⟨index⟩ shares ≤ agSharesToUsdc ⟨index'⟩ shares := by
  rw [agSharesToUsdc_eq, agSharesToUsdc_eq]
  exact Nat.div_le_div_right (Nat.mul_le_mul_left _ h)

/-- Shares bought for an amount are worth at most the amount, and fall short by less than the price of one and a unit. -/
theorem worth_quote (h : 0 < index) (usdc : Nat) :
    agSharesToUsdc ⟨index⟩ (usdc * 2 ^ 64 / index) ≤ usdc ∧
      usdc * 2 ^ 64 < (agSharesToUsdc ⟨index⟩ (usdc * 2 ^ 64 / index) + 1) * 2 ^ 64 + index := by
  rw [agSharesToUsdc_eq]
  have hle : usdc * 2 ^ 64 / index * index ≤ usdc * 2 ^ 64 := Nat.div_mul_le_self _ _
  have hlt : usdc * 2 ^ 64 < usdc * 2 ^ 64 / index * index + index := by
    have hmod := Nat.mod_lt (usdc * 2 ^ 64) h
    have hsplit := Nat.div_add_mod' (usdc * 2 ^ 64) index
    omega
  generalize usdc * 2 ^ 64 / index * index = paid at hle hlt ⊢
  omega

/-! ### Runs -/

/-- An index never falls, and the strategy stays. -/
theorem Reached.index_run (hw : Reached env w₀) (hs : w₀.yieldStrategies t = some s₀)
    (r : Run (· = w₀) (Step env) h w) : Reached env w ∧
      ∃ s, w.yieldStrategies t = some s ∧ s₀.userIndexQ64 ≤ s.userIndexQ64 := by
  refine Run.history (P := fun _ w => Reached env w ∧
    ∃ s, w.yieldStrategies t = some s ∧ s₀.userIndexQ64 ≤ s.userIndexQ64) ?_ ?_ r
  · rintro w rfl
    exact ⟨hw, s₀, hs, le_rfl⟩
  · rintro _ w a w' - ⟨hw, s, hs, hle⟩ hstep
    obtain ⟨s', hs', hbooks⟩ := hw.booksStep hstep hs
    exact ⟨hw.next hstep, s', hs', hle.trans hbooks.evolves.index_le⟩

/-- Everybody's shares can be valued. -/
theorem Reached.sharesToUsdc_claim (hw : Reached env w) (hs : w.yieldStrategies t = some s)
    (p : U32) : s.sharesToUsdc ((w.ledger env).claim t p)
      = .ok (agSharesToUsdc s.snapshot ((w.ledger env).claim t p)) := by
  obtain ⟨h, r⟩ := hw
  have hchecked := ((books_of_history r t).2 s hs).checked
  obtain ⟨hfits, -, -⟩ := YieldStrategy.requireSolvent_eq_ok.mp hchecked
  have hle : (w.ledger env).claim t p ≤ s.totalUserShares := by
    rw [(Reached.totalUserShares_eq r.reachable hs).1]
    exact (w.ledger env).claim_le_claims t p
  exact YieldStrategy.sharesToUsdc_eq_ok.mpr
    ⟨agSharesToUsdc_eq _ _, (Nat.mul_le_mul_right _ hle).trans_lt hfits⟩

/-- A quote made at `s₀`, and what has become of it at `s`. -/
structure Quotes (env : Env) (w : World) (t : U16) (s₀ s : YieldStrategy) : Prop where
  /-- A commitment over an amount is one over the shares the program would count for it. -/
  commitment : ∀ usdc < u64Bound, ∃ shares, s₀.usdcToShares usdc = .ok shares ∧
    (∀ settled, nextCommitmentAmountUsd settled usdc s₀.snapshot = .ok (settled + shares)) ∧
    agSharesToUsdc s₀.snapshot shares ≤ usdc ∧
    usdc * 2 ^ 64 < (agSharesToUsdc s₀.snapshot shares + 1) * 2 ^ 64 + s₀.userIndexQ64
  later : ∀ shares, agSharesToUsdc s₀.snapshot shares ≤ agSharesToUsdc s.snapshot shares
  holdings : ∀ p, s.sharesToUsdc ((w.ledger env).claim t p)
    = .ok (agSharesToUsdc s.snapshot ((w.ledger env).claim t p))

/-- **Quotes hold.**  In every reached world a client's quote is the program's own figure, rounded by less than the price of a share and a unit; whatever happens then, the shares it was made for are worth no less, and what the client says anybody's holding is worth is what the program would say. -/
theorem quotes_of_run (hw : Reached env w₀) (hs : w₀.yieldStrategies t = some s₀)
    (r : Run (· = w₀) (Step env) h w) :
    ∃ s, w.yieldStrategies t = some s ∧ Quotes env w t s₀ s := by
  obtain ⟨hw', s, hs', hle⟩ := hw.index_run hs r
  have hindex : 2 ^ 64 ≤ s₀.userIndexQ64 :=
    YieldStrategy.q64One_eq ▸ (hw.wired.strategies t s₀ hs).index
  have hpos : 0 < s₀.userIndexQ64 := (Nat.two_pow_pos 64).trans_le hindex
  refine ⟨s, hs', fun usdc husdc => ?_, agSharesToUsdc_mono hle, hw'.sharesToUsdc_claim hs'⟩
  have hshares : usdc * 2 ^ 64 / s₀.userIndexQ64 < u64Bound :=
    (Nat.div_le_of_le_mul (by rw [Nat.mul_comm]; exact Nat.mul_le_mul_right _ hindex)).trans_lt husdc
  refine ⟨_, YieldStrategy.usdcToShares_eq_ok.mpr ⟨rfl, hshares⟩, fun settled => ?_,
    worth_quote hpos usdc⟩
  rw [nextCommitmentAmountUsd, YieldStrategy.snapshot, usdcToAgShares_eq hpos.ne']
  rfl

open Localnet in
/-- What a hundred bought before the year was accrued is worth more than a hundred afterwards. -/
theorem quotes_of_year : ∃ w w' s₀ s shares, Step localnet w (.call (.accrueYield 2)) w' ∧
    w.yieldStrategies 2 = some s₀ ∧ w'.yieldStrategies 2 = some s ∧
    s₀.usdcToShares 100 = .ok shares ∧ 100 < agSharesToUsdc s.snapshot shares ∧
    Quotes localnet w' 2 s₀ s := by
  obtain ⟨w, w', hw, hstep, hc⟩ := step_of_runsTo localnet (opening ++ lending ++ aYear.dropLast)
    (.call (.accrueYield 2)) (fun w w' => (w.yieldStrategies 2).any fun s₀ : YieldStrategy =>
      (w'.yieldStrategies 2).any fun s : YieldStrategy =>
        (s₀.usdcToShares 100).toOption.any fun shares =>
          decide (100 < agSharesToUsdc s.snapshot shares)) (by decide +kernel)
  obtain ⟨s₀, hs₀, hc⟩ := (Option.any_eq_true ..).mp hc
  obtain ⟨s, hs, hc⟩ := (Option.any_eq_true ..).mp hc
  obtain ⟨shares, hshares, hworth⟩ := (Option.any_eq_true ..).mp hc
  obtain ⟨s', hs', hquotes⟩ := quotes_of_run hw hs₀ (.next (.start rfl) hstep)
  obtain rfl : s = s' := Option.some.inj (hs.symm.trans hs')
  exact ⟨w, w', s₀, s, shares, hstep, hs₀, hs, Except.toOption_eq_some.mp hshares,
    of_decide_eq_true hworth, hquotes⟩

end Ryvo
