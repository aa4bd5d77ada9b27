import Ryvo.Runs.Backing

/-!
# Runs — Conversions

Opting in moves an amount of a plain token to the lending program for shares of the strategy, and opting out takes it back.  Both start with an accrual, and `OptInYield.Made.stands` and `OptOutYield.Made.stands` say where they leave the strategy at its reserve.

* `OptOutYield.Made.accrues_after`: right after an opt-out there is nothing to attribute.
* `handsBack_iff`: what rounding keeps from somebody who opts out is never attributed, and only a loss of one unit is within what the next accrual was to make up for.
-/

namespace Ryvo

variable {env : Env} {w w' w₁ w₂ w₃ w₄ : World} {t u : U16} {p : U32} {n k b x owed : Nat}
variable {s s₁ s₂ : YieldStrategy} {r r' : Reserve} {m : Mint} {a : TokenAccount}
variable {k₀ k₁ owner : Pubkey} {snap : ReserveSnapshot}

/-! ### Where the strategy stands -/

theorem OptInYield.Made.stands
    (h : OptInYield.Made env w k₀ owner u t n p k s s₁ s₂ r r' m a w₂ w₃ w₄ w')
    (hW : Wired env w) (hr : Reserves env w) :
    ∃ c, 0 < c ∧ Lending.sharesToMint n m.supply r'.totalUnderlying = .ok c ∧
      Stands w' s { r' with totalUnderlying := r'.totalUnderlying + n }
        { m with supply := m.supply + c } { a with amount := a.amount + c } := by
  have hwired := hW.strategies _ s h.tokens.strategy.found
  obtain ⟨c, hd⟩ := h.accrues.deposited h.debited.1 h.paid
  have hst := h.accrues.kept h.debited.1
  have h₃ := hd.stands hst h.accrues.shareMint_eq (hwired.vaultOf_ne u)
    (hwired.key ▸ h.accrues.liquidityVault_ne hr _)
  have h₄ := h.credited.1.stands h₃
  rw [h.result]
  exact ⟨c, hd.mintedPos, (hd.rate hst.booked).1, ⟨h₄.reserve, h₄.mint, h₄.vault, h₄.booked⟩⟩

theorem OptOutYield.Made.stands
    (h : OptOutYield.Made env w k₀ owner u t n p b x s s₁ s₂ r r' m a w₂ w₃ w₄ w')
    (hW : Wired env w) (hr : Reserves env w) : b ≤ a.amount ∧ b ≤ m.supply ∧
      Stands w' s { r' with totalUnderlying := r'.totalUnderlying - x }
        { m with supply := m.supply - b } { a with amount := a.amount - b } := by
  have hwired := hW.strategies _ s h.tokens.strategy.found
  have hd := h.accrues.redeemed h.debited.1 h.redeemed
  have hst := h.accrues.kept h.debited.1
  -- What the program credits is what the lending program paid.
  obtain ⟨owed, -, -, -, -, hx, -⟩ := OptOutYield.redemption_eq_ok.mp h.converted
  obtain ⟨hx, -⟩ := cusdcToUsdc_eq_ok.mp hx
  rw [← show x = b * r'.totalUnderlying / m.supply from hx] at hd
  have h₃ := hd.stands hst h.accrues.shareMint_eq (hwired.vaultOf_ne u)
    (hwired.key ▸ h.accrues.liquidityVault_ne hr _)
  have h₄ := h.credited.1.stands h₃
  rw [h.result]
  exact ⟨hd.le_vault hst, hd.le, ⟨h₄.reserve, h₄.mint, h₄.vault, h₄.booked⟩⟩

/-- The strategy's shares are some of the reserve's. -/
theorem Accrues.le_supply (h : Accrues env w s r r' m a s₁) (hwired : WiredStrategy env w t s)
    (hm : Minted w) : a.amount ≤ m.supply := by
  obtain ⟨v, hv, hvm, -⟩ := hwired.vault
  obtain rfl := Option.some.inj (hv.symm.trans h.vault)
  exact hm.holding_le h.vault (hvm ▸ h.mint)

namespace OptOutYield.Made

/-- Opting out takes off the vault at least what it pays out, and at most what the shares are worth. -/
theorem worth (h : Made env w k₀ owner u t n p b x s s₁ s₂ r r' m a w₂ w₃ w₄ w') (hW : Wired env w)
    (hr : Reserves env w) (hm : Minted w) (howed : s₁.sharesToUsdc n = .ok owed) :
    Pool.worth (a.amount - b) (r'.totalUnderlying - x) (m.supply - b) + x
      ≤ Pool.worth a.amount r'.totalUnderlying m.supply ∧
    Pool.worth a.amount r'.totalUnderlying m.supply
      ≤ Pool.worth (a.amount - b) (r'.totalUnderlying - x) (m.supply - b) + owed := by
  obtain ⟨hba, hbs, -⟩ := h.stands hW hr
  have hle := h.accrues.le_supply (hW.strategies _ s h.tokens.strategy.found) hm
  obtain ⟨owed', howed', -, hb, hb₀, hx, -⟩ := redemption_eq_ok.mp h.converted
  obtain rfl := Except.ok.inj (howed.symm.trans howed')
  obtain ⟨rfl, -⟩ := cusdcToUsdc_eq_ok.mp hx
  have hpaid : Pool.worth b r'.totalUnderlying m.supply * m.supply ≤ b * r'.totalUnderlying :=
    Nat.div_mul_le_self _ _
  exact ⟨Pool.worth_redeem_own_le hpaid hba hle (by omega),
    Pool.worth_redeem_own hpaid hba hle (usdcToCusdc_le hb)⟩

/-- Right after an opt-out, and in no time, an accrual succeeds and attributes nothing. -/
theorem accrues_after (h : Made env w k₀ owner u t n p b x s s₁ s₂ r r' m a w₂ w₃ w₄ w')
    (hW : Wired env w) (hr : Reserves env w) (hm : Minted w)
    (hsol : s₁.requireSolvent s₁.lastSettledUnderlying = .ok ()) :
    ∃ w₅ v, AccrueYield.handler env w' t = .ok w₅ ∧
      w₅.yieldStrategies t = some { s₂ with lastSettledUnderlying := v } := by
  obtain ⟨hba, hbs, hst⟩ := h.stands hW hr
  obtain ⟨owed, howed, -, -, hb₀, -, -⟩ := redemption_eq_ok.mp h.converted
  obtain ⟨hxv, hvo⟩ := h.worth hW hr hm howed
  obtain ⟨-, hs₂⟩ := YieldStrategy.removeUserShares_eq_ok.mp h.removed
  obtain ⟨e₁, e₂, e₃, -⟩ := h.accrues.booked.accounts
  have hlast := h.accrues.lastSettled
  have hprog : s₁.yieldProgram = s.yieldProgram := by rw [h.accrues.booked.keeps]
  set v := Pool.worth (a.amount - b) (r'.totalUnderlying - x) (m.supply - b) with hv
  -- The vault's new value is computed within the bounds that its value before was.
  have hvalue : cusdcToUsdc (a.amount - b) ⟨r'.totalUnderlying - x, m.supply - b⟩ = .ok v := by
    obtain ⟨-, hz | hz | ⟨h₁, h₂⟩⟩ := cusdcToUsdc_eq_ok.mp h.accrues.value
    · simp only at hz
      omega
    · omega
    · refine cusdcToUsdc_eq_ok.mpr ⟨hv, .inr (.inr ⟨lt_of_le_of_lt ?_ h₁, by omega⟩)⟩
      exact Nat.mul_le_mul (Nat.sub_le _ _) (Nat.sub_le _ _)
  have hst₂ : Stands w' s₂ { r' with totalUnderlying := r'.totalUnderlying - x }
      { m with supply := m.supply - b } { a with amount := a.amount - b } := by
    rw [hs₂]
    exact ⟨e₁ ▸ hst.reserve, e₃ ▸ hst.mint, e₂ ▸ hst.vault, hst.booked⟩
  have hprog₂ : s₂.yieldProgram = env.yieldProgramId := by
    rw [hs₂]
    exact hprog.trans h.accrues.program
  have hacc := hst₂.accrueStrategy hprog₂ (by rw [hs₂]; exact e₃.trans h.accrues.shareMint_eq) hvalue
    (by rw [hs₂]; simp only; omega)
  have hsol₂ : s₂.requireSolvent v = .ok () :=
    YieldStrategy.requireSolvent_remove hsol howed h.removed (hlast ▸ hvo)
  have hs' : w'.yieldStrategies t = some s₂ := by
    rw [h.result]
    exact Function.update_self _ _ _
  exact ⟨_, v, AccrueYield.handler_of hs' hacc hsol₂, Function.update_self _ _ _⟩

end OptOutYield.Made

/-! ### Dust -/

/-- What the users and the protocol are owed grows by `d`, less one unit at most. -/
def HandsBack (s₁ s₂ : YieldStrategy) (d : Nat) : Prop :=
  ∃ owed owed', s₁.userUnderlyingOwed = .ok owed ∧ s₂.userUnderlyingOwed = .ok owed' ∧
    owed + s₁.protocolOwedUnderlying + d ≤ owed' + s₂.protocolOwedUnderlying + 1

/-- An accrual that attributes nothing hands back one unit at most. -/
theorem handsBack_same {d v : Nat} (h : s.userUnderlyingOwed = .ok owed) :
    HandsBack s { s with lastSettledUnderlying := v } d ↔ d ≤ 1 := by
  constructor
  · rintro ⟨o, o', h₁, h₂, hle⟩
    obtain rfl := Except.ok.inj (h₁.symm.trans h)
    obtain rfl := Except.ok.inj (h₂.symm.trans h)
    simp only at hle
    omega
  · exact fun hd => ⟨owed, owed, h, h, by simp only; omega⟩

/-- What an opt-out leaves, and what the accrual right after it does to that. -/
structure OptedOut (env : Env) (w' : World) (t : U16) (n : Nat) (s₁ : YieldStrategy)
    (snap : ReserveSnapshot) (owed received : Nat) (s₂ s₃ : YieldStrategy) : Prop where
  owes : s₁.sharesToUsdc n = .ok owed
  pays : ∃ burned, OptOutYield.redemption s₁ snap n = .ok (burned, received)
  strategy : w'.yieldStrategies t = some s₂
  accrues : ∃ w₂, Step env w' (.call (.accrueYield t)) w₂ ∧ w₂.yieldStrategies t = some s₃

theorem Step.optedOut {n : U64}
    (h : Step env w (.call (.optOutYield owner k₀ k₁ t u n)) w') (hw : Reached env w)
    (hs : w.yieldStrategies t = some s) (hacc : accrueStrategy env w s = .ok (w₁, s₁, snap))
    (hsol : s₁.requireSolvent s₁.lastSettledUnderlying = .ok ()) :
    ∃ owed burned s₂ v, OptedOut env w' t n.val s₁ snap owed (Pool.worth burned snap.totalUnderlying
        snap.shareSupply) s₂ { s₂ with lastSettledUnderlying := v } ∧
      burned = owed * snap.shareSupply / snap.totalUnderlying ∧ 0 < snap.shareSupply ∧
      ∃ rest, s₂.userUnderlyingOwed = .ok rest := by
  obtain ⟨p, b, x, s₀, s₁', s₂, r, r', m, a, w₂, w₃, w₄, hm⟩ :=
    OptOutYield.handler_spec (Reached.located hw) h.ran
  obtain rfl := Option.some.inj (hs.symm.trans hm.tokens.strategy.found)
  obtain ⟨rfl, rfl, rfl⟩ : w₁ = w.setReserve s.reserve r' ∧ s₁ = s₁' ∧
      snap = ⟨r'.totalUnderlying, m.supply⟩ := by
    simpa using hacc.symm.trans hm.accrues.ran
  obtain ⟨w₅, v, hrun, hs₃⟩ :=
    hm.accrues_after (Reached.wired hw) (Reached.reserves hw) (Reached.minted hw) hsol
  obtain ⟨hba, hbs, -⟩ := hm.stands (Reached.wired hw) (Reached.reserves hw)
  obtain ⟨owed, howed, hpos, hb, hb₀, hx, -⟩ := OptOutYield.redemption_eq_ok.mp hm.converted
  obtain ⟨rfl, -⟩ := cusdcToUsdc_eq_ok.mp hx
  obtain ⟨hfits, -⟩ := YieldStrategy.requireSolvent_eq_ok.mp hm.solvent
  refine ⟨owed, b, s₂, v, ⟨howed, ⟨b, hm.converted⟩, ?_,
    w₅, ⟨by rintro k ⟨⟩, hrun⟩, hs₃⟩, ((usdcToCusdc_eq_ok hpos).mp hb).1, by simp only; omega,
    _, YieldStrategy.sharesToUsdc_eq_ok.mpr ⟨rfl, hfits⟩⟩
  rw [hm.result]
  exact Function.update_self _ _ _

/-- **Dust is handed back by the next accrual** exactly where there is at most one unit of it: where what is left over when the amount owed is converted to the reserve's shares is worth one share at most. -/
theorem handsBack_iff {n : U64} (hw : Reached env w)
    (h : Step env w (.call (.optOutYield owner k₀ k₁ t u n)) w') (hs : w.yieldStrategies t = some s)
    (hacc : accrueStrategy env w s = .ok (w₁, s₁, snap))
    (hsol : s₁.requireSolvent s₁.lastSettledUnderlying = .ok ()) :
    ∃ owed received s₂ s₃, OptedOut env w' t n.val s₁ snap owed received s₂ s₃ ∧
      ((received < owed → HandsBack s₂ s₃ (owed - received)) ↔
        n.val * s₁.userIndexQ64 / 2 ^ 64 * snap.shareSupply % snap.totalUnderlying ≤ snap.shareSupply) := by
  obtain ⟨owed, burned, s₂, v, hout, hb, hpos, rest, hrest⟩ := h.optedOut hw hs hacc hsol
  refine ⟨owed, _, s₂, _, hout, ?_⟩
  obtain ⟨rfl, -⟩ := YieldStrategy.sharesToUsdc_eq_ok.mp hout.owes
  rw [handsBack_same hrest, hb]
  have hdust := @Pool.dust_iff (n.val * s₁.userIndexQ64 / 2 ^ 64) snap.shareSupply snap.totalUnderlying 1 hpos
  rw [Nat.one_mul] at hdust
  rw [← hdust]
  constructor <;> intro h <;> omega

namespace Localnet

/-- Wallet 10 opts out of so many of the strategy's shares. -/
def optOut (n : U64) : Action := .call (.optOutYield (key 10) indexBucket bucket 2 1 n)

/-- A run to an opt-out from a solvent strategy, with the index and the reserve it finds. -/
theorem step_optOut (actions : List Action) (n : U64) (index : Nat) (snap : ReserveSnapshot)
    (h : (World.genesis 1).runsTo localnet actions (fun w => w.runsTo localnet [optOut n] fun _ =>
      w.accrues localnet 2 fun s₁ snap₁ => decide (s₁.requireSolvent s₁.lastSettledUnderlying = .ok () ∧
        s₁.userIndexQ64 = index ∧ snap₁ = snap)) = true) :
    ∃ w w' s w₁ s₁, Reached localnet w ∧ Step localnet w (optOut n) w' ∧
      w.yieldStrategies 2 = some s ∧ accrueStrategy localnet w s = .ok (w₁, s₁, snap) ∧
      s₁.requireSolvent s₁.lastSettledUnderlying = .ok () ∧ s₁.userIndexQ64 = index := by
  obtain ⟨w, w', hw, hstep, hc⟩ := step_of_runsTo localnet actions (optOut n) _ h
  obtain ⟨s, w₁, s₁, snap₁, hs, hacc, hc⟩ := World.accrues_iff.mp hc
  obtain ⟨hsol, hindex, rfl⟩ := of_decide_eq_true hc
  exact ⟨w, w', s, w₁, s₁, hw, hstep, hs, hacc, hsol, hindex⟩

end Localnet

open Localnet in
/-- Forty of a hundred, at the rate they came in at: there is no dust. -/
theorem handsBack_of_deposit : ∃ w' s₁ snap owed received s₂ s₃,
    OptedOut localnet w' 2 40 s₁ snap owed received s₂ s₃ ∧
      ((received < owed → HandsBack s₂ s₃ (owed - received)) ↔
        40 * s₁.userIndexQ64 / 2 ^ 64 * snap.shareSupply % snap.totalUnderlying ≤ snap.shareSupply) := by
  obtain ⟨w, w', s, w₁, s₁, hw, hstep, hs, hacc, hsol, -⟩ := step_optOut (opening ++ lending ++
    [.call (.depositYieldBearing (Localnet.key 10) indexBucket bucket (Localnet.key 60) 2 100)]) 40
    (2 ^ 64) ⟨100, 100⟩ (by decide +kernel)
  obtain ⟨owed, received, s₂, s₃, h⟩ := handsBack_iff hw hstep hs hacc hsol
  exact ⟨w', s₁, _, owed, received, s₂, s₃, h⟩

open Localnet in
/-- Five shares of the reserve are worth seven.  Whoever opts out of three fifths is owed four and receives two, and the next accrual attributes nothing. -/
theorem dust_of_optOut : ∃ w w' s w₁ s₁ snap s₂ s₃, Reached localnet w ∧
    Step localnet w (.call (.optOutYield (Localnet.key 10) indexBucket bucket 2 1 3)) w' ∧
    w.yieldStrategies 2 = some s ∧ accrueStrategy localnet w s = .ok (w₁, s₁, snap) ∧
    s₁.requireSolvent s₁.lastSettledUnderlying = .ok () ∧
    OptedOut localnet w' 2 3 s₁ snap 4 2 s₂ s₃ ∧ ¬ HandsBack s₂ s₃ 2 := by
  obtain ⟨w, w', s, w₁, s₁, hw, hstep, hs, hacc, hsol, hindex⟩ := step_optOut (opening ++ lending ++
    [.call (.depositYieldBearing (Localnet.key 10) indexBucket bucket (Localnet.key 60) 2 5),
      .outside (.tick 31536000)]) 3 25825441703193372262 ⟨7, 5⟩ (by decide +kernel)
  obtain ⟨owed, burned, s₂, v, hout, rfl, -, rest, hrest⟩ := hstep.optedOut hw hs hacc hsol
  obtain ⟨rfl, -⟩ := YieldStrategy.sharesToUsdc_eq_ok.mp hout.owes
  simp only [hindex] at hout
  refine ⟨w, w', s, w₁, s₁, _, s₂, _, hw, hstep, hs, hacc, hsol, hout, ?_⟩
  rw [handsBack_same hrest]
  decide

end Ryvo
