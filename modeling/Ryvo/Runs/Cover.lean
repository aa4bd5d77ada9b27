import Ryvo.Books.Redemptions
import Ryvo.Runs.Conversions
import Ryvo.Runs.Minting
import Ryvo.Runs.Signers
import Ryvo.Runs.Worth
import Ryvo.Runs.YieldBooks

/-!
# Runs — Cover

Whether a strategy's shares of its reserve are worth what it owes.  The closing check of every instruction compares what is owed with the value last booked, and only an accrual looks at the vault.  A deposit is booked in full; but the lending program mints whole shares for it, and what buys no whole share is left to all who hold shares of the reserve.

* `Step.covers_iff`: right after a deposit the vault is worth what the strategy owes exactly when the others' part of that fits in what the vault was worth beyond the books (`Bears`).
* `Step.covers`: every other step keeps the strategy covered.
* `covers_iff_of_history`: so a strategy is covered throughout a run exactly when every deposit of the run bears it.
-/

namespace Ryvo

variable {env : Env} {R : Rights env} {w w' w₁ w₂ w₃ w₄ : World} {a : Action} {t u : U16} {p : U32}
variable {ix : Instruction} {s s₁ s₂ : YieldStrategy} {r r' : Reserve} {m : Mint} {v : TokenAccount}
variable {snap : ReserveSnapshot} {n k c net fee c₁ c₂ x b : Nat} {h : List (World × Action)}
variable {k₀ owner source destination feeAccount : Pubkey}

/-! ### What is owed -/

namespace YieldStrategy

/-- What the strategy owes, to the users and to the protocol. -/
def owes (s : YieldStrategy) : Nat :=
  s.totalUserShares * s.userIndexQ64 / 2 ^ 64 + s.protocolOwedUnderlying

/-- What the index keeps back of a deposit of `n`. -/
def unbought (s : YieldStrategy) (n : Nat) : Nat :=
  Pool.unbought s.totalUserShares n s.userIndexQ64 (2 ^ 64)

/-- The part of a deposit of `n` that buys no whole share of the reserve, as far as it falls to the others, is no more than what the vault is worth beyond the books, with what the index keeps back. -/
def Bears (s : YieldStrategy) (held total supply n : Nat) : Prop :=
  (supply - held) * (n * supply % total)
    ≤ (held * total + s.unbought n * supply - s.owes * supply) * (supply + n * supply / total)

/-- There is nobody else to leave anything to. -/
theorem bears_of_sole {held total supply : Nat} (h : supply ≤ held) : s.Bears held total supply n := by
  simp [Bears, Nat.sub_eq_zero_of_le h]

/-- Nothing is left of what buys whole shares. -/
theorem bears_of_dvd {held total supply : Nat} (h : total ∣ n * supply) :
    s.Bears held total supply n := by
  simp [Bears, Nat.mod_eq_zero_of_dvd h]

/-- A deposit adds to what is owed all but what the index keeps back. -/
theorem owes_mint (hm : DepositYieldBearing.mintShares s n = .ok (s₁, k)) :
    s₁.owes + s.unbought n = s.owes + n := by
  obtain ⟨rfl, -, -, hadd⟩ := DepositYieldBearing.mintShares_eq_ok.mp hm
  obtain ⟨-, -, rfl⟩ := addUserShares_eq_ok.mp hadd
  have := @Pool.buy_unbought n s.totalUserShares s.userIndexQ64 (2 ^ 64) (Nat.two_pow_pos 64)
  simp only [owes, unbought]
  omega

/-- The closing check, in numbers. -/
theorem owes_le_of_check (h : s.requireSolvent n = .ok ()) : s.owes ≤ n :=
  (requireSolvent_eq_ok.mp h).2.1

/-- Shares that leave take what they are owed off what is owed. -/
theorem owes_remove (hg : s.sharesToUsdc n = .ok x) (hr : s.removeUserShares n c = .ok s₁) :
    s₁.owes + x ≤ s.owes := by
  obtain ⟨rfl, -⟩ := sharesToUsdc_eq_ok.mp hg
  obtain ⟨hn, rfl⟩ := removeUserShares_eq_ok.mp hr
  have := @Pool.sell_le n s.totalUserShares s.userIndexQ64 (2 ^ 64) hn
  simp only [owes]
  omega

/-- A claimed fee is no longer owed. -/
theorem owes_claim (h : s.takeProtocolOwed n = .ok s₁) : s₁.owes + n = s.owes := by
  obtain ⟨hn, rfl⟩ := takeProtocolOwed_eq_ok.mp h
  simp only [owes]
  omega

/-- What is booked beyond the last value is all that is attributed. -/
theorem Booked.owes_le (hb : s.Booked n s₁) : s₁.owes ≤ s.owes + (n - s.lastSettledUnderlying) := by
  have h := Nat.div_le_div_right (c := 2 ^ 64) hb.attributed
  rwa [Nat.add_mul_div_right _ _ (Nat.two_pow_pos 64), Nat.add_mul_div_right _ _ (Nat.two_pow_pos 64),
    Nat.add_mul_div_right _ _ (Nat.two_pow_pos 64)] at h

/-- Nothing is attributed of what has not grown. -/
theorem Booked.owes_eq (hb : s.Booked n s₁) (hn : n ≤ s.lastSettledUnderlying) : s₁.owes = s.owes := by
  obtain ⟨hi, ho⟩ := hb.nothing hn
  rw [owes, owes, hi, ho, hb.keeps]

end YieldStrategy

/-- The strategy's shares of its reserve are worth what it owes. -/
def World.VaultCovers (w : World) (t : U16) : Prop :=
  ∀ s, w.yieldStrategies t = some s → s.owes ≤ w.vaultWorth s

/-- A deposit for shares of a strategy bears what it leaves to others, with the interest due booked and the vault's growth attributed. -/
def Action.Bears (w : World) : Action → Prop
  | .call ix => ∀ t n s r m v r' s₁, ix.mints = some (t, n) → w.yieldStrategies t = some s →
      w.reserves s.reserve = some r → w.mints s.shareMint = some m →
      w.tokenAccounts s.shareVault = some v → Lending.accrueInner r w.clock = .ok r' →
      s.bookValue (Pool.worth v.amount r'.totalUnderlying m.supply) = .ok s₁ →
      s₁.Bears v.amount r'.totalUnderlying m.supply n
  | .outside _ => True

/-! ### Deposits -/

/-- What a deposit for shares does: accrual, the shares of the reserve, the shares of the strategy. -/
structure Mints (env : Env) (w : World) (t : U16) (n : Nat) (s s₁ s₂ : YieldStrategy) (r r' : Reserve)
    (m : Mint) (v : TokenAccount) (k c : Nat) (w' : World) : Prop where
  found : w.yieldStrategies t = some s
  accrues : Accrues env w s r r' m v s₁
  positive : 0 < n
  minted : DepositYieldBearing.mintShares s₁ n = .ok (s₂, k)
  solvent : s₂.requireSolvent s₂.lastSettledUnderlying = .ok ()
  strategy : w'.yieldStrategies t = some s₂
  bought : Lending.sharesToMint n m.supply r'.totalUnderlying = .ok c
  fits : r'.totalUnderlying + n < u64Bound
  stands : Stands w' s { r' with totalUnderlying := r'.totalUnderlying + n }
    { m with supply := m.supply + c } { v with amount := v.amount + c }

/-- The two instructions that take a deposit for shares do this. -/
theorem Step.mints (h : Step env w (.call ix) w') (hw : Reached env w) (hx : ix.mints = some (t, n)) :
    ∃ s s₁ s₂ r r' m v k c, Mints env w t n s s₁ s₂ r r' m v k c w' := by
  have hran := h.ran
  cases ix with
  | depositYieldBearing depositor _ _ source =>
      obtain ⟨p, k, s, s₁, s₂, r, r', m, v, w₂, w₃, hm⟩ :=
        DepositYieldBearing.handler_spec hw.located hran
      obtain ⟨rfl, rfl⟩ := Prod.mk.inj (Option.some.inj hx)
      have hwired := hw.wired.strategies _ s hm.strategy.found
      have hkept : BucketsOnly (w.setReserve s.reserve r') (w.setReserve s.reserve r') := rfl
      obtain ⟨c, hd⟩ := hm.accrues.deposited hkept hm.paid
      have hst := hm.accrues.stands
      -- The depositor signs, and the share vault is the config's.
      have hsource : source ≠ s.shareVault := by
        rintro rfl
        obtain ⟨b, hb, ho, -⟩ := hd.sourceOwner
        obtain ⟨b', hb', -, ho'⟩ := hwired.vault
        obtain rfl := Option.some.inj (hb.symm.trans hb')
        exact Env.canSign_ne_address (h.signed _ (.head _)) _ (ho.symm.trans ho')
      have h₃ := hm.credited.1.stands (hd.stands hst hm.accrues.shareMint_eq hsource
        (hwired.key ▸ hm.accrues.liquidityVault_ne hw.reserves _))
      obtain ⟨hbought, hfits, -⟩ := hd.rate hst.booked
      refine ⟨s, s₁, s₂, r, r', m, v, k, c, hm.strategy.found, hm.accrues, hm.positive, hm.minted,
        hm.solvent, ?_, hbought, hfits, ?_⟩ <;> rw [hm.result]
      · exact Function.update_self _ _ _
      · exact ⟨h₃.reserve, h₃.mint, h₃.vault, h₃.booked⟩
  | optInYield =>
      obtain ⟨p, k, s, s₁, s₂, r, r', m, v, w₂, w₃, w₄, hm⟩ := OptInYield.handler_spec hw.located hran
      obtain ⟨rfl, rfl⟩ := Prod.mk.inj (Option.some.inj hx)
      -- What is paid in comes out of the vault of the plain token.
      obtain ⟨c, -, hbought, hst⟩ := hm.stands hw.wired hw.reserves
      obtain ⟨c', hd⟩ := hm.accrues.deposited hm.debited.1 hm.paid
      obtain ⟨-, hfits, -⟩ := hd.rate (hm.accrues.kept hm.debited.1).booked
      exact ⟨s, s₁, s₂, r, r', m, v, k, c, hm.tokens.strategy.found, hm.accrues, hm.positive, hm.minted,
        hm.solvent, by rw [hm.result]; exact Function.update_self _ _ _, hbought, hfits, hst⟩
  | _ => cases hx

namespace Mints

theorem evolves (h : Mints env w t n s s₁ s₂ r r' m v k c w') : s.Evolves s₂ := by
  obtain ⟨-, -, -, hadd⟩ := DepositYieldBearing.mintShares_eq_ok.mp h.minted
  exact h.accrues.booked.evolves.trans (YieldStrategy.evolves_addUserShares hadd)

theorem vaultWorth (h : Mints env w t n s s₁ s₂ r r' m v k c w') :
    w'.vaultWorth s₂ = Pool.worth (v.amount + c) (r'.totalUnderlying + n) (m.supply + c) := by
  rw [h.evolves.vaultWorth]
  exact h.stands.vaultWorth h.accrues.shareMint_eq

/-- The deposit is booked in full. -/
theorem owes_le (h : Mints env w t n s s₁ s₂ r r' m v k c w') :
    s₂.owes ≤ Pool.worth v.amount r'.totalUnderlying m.supply + n := by
  have hle := YieldStrategy.owes_le_of_check h.solvent
  obtain ⟨-, -, -, hadd⟩ := DepositYieldBearing.mintShares_eq_ok.mp h.minted
  obtain ⟨-, -, rfl⟩ := YieldStrategy.addUserShares_eq_ok.mp hadd
  rwa [← h.accrues.lastSettled]

theorem covers_iff (h : Mints env w t n s s₁ s₂ r r' m v k c w') (hi : Invested env w s) :
    s₂.owes ≤ w'.vaultWorth s₂ ↔ s₁.Bears v.amount r'.totalUnderlying m.supply n := by
  have hst := h.accrues.stands
  have hi' : Invested env (w.setReserve s.reserve r') s := hi.ops (.single (h.accrues.op (R := Rights.none env)))
  have hrate := hi'.reserves.supply_le s.reserve
  have hheld := hi'.le_supply
  rw [World.pool_of hst.reserve (h.accrues.shareMint_eq ▸ hst.mint)] at hrate hheld
  rw [World.holding_of hst.vault] at hheld
  simp only at hrate hheld
  have hle := h.owes_le
  have hmint := YieldStrategy.owes_mint h.minted
  have hbought := h.bought
  rw [h.vaultWorth]
  rcases Nat.eq_zero_or_pos m.supply with hS | hS
  · -- Nobody else has a share: the deposit, and all that is in the reserve, is the vault's.
    rw [Lending.sharesToMint, if_pos (.inl hS), Except.ok.injEq] at hbought
    have hz : v.amount = 0 := by omega
    rw [hz, hS, hbought, Nat.zero_add, Pool.worth, Nat.mul_div_cancel_left _ (hbought ▸ h.positive)]
    rw [hz, hS, Pool.worth, Nat.zero_mul, Nat.zero_div] at hle
    exact iff_of_true (by omega) (YieldStrategy.bears_of_sole le_rfl)
  · -- Otherwise the shares minted are the quotient, and what they do not buy is its remainder.
    obtain ⟨-, -, rfl⟩ := Lending.mulDiv_eq_ok.mp (by
      rwa [Lending.sharesToMint, if_neg (by omega)] at hbought)
    have hcovered : s₂.owes * m.supply ≤ v.amount * r'.totalUnderlying + n * m.supply := by
      have hmul := Nat.mul_le_mul_right m.supply hle
      have hdiv := Nat.div_mul_le_self (v.amount * r'.totalUnderlying) m.supply
      rw [Pool.worth, Nat.add_mul] at hmul
      omega
    rw [Pool.le_worth_deposit_iff hS hheld hcovered, YieldStrategy.Bears]
    have hmul := congrArg (· * m.supply) hmint
    simp only [Nat.add_mul] at hmul
    rw [show v.amount * r'.totalUnderlying + n * m.supply - s₂.owes * m.supply
      = v.amount * r'.totalUnderlying + s₁.unbought n * m.supply - s₁.owes * m.supply by omega]

end Mints

/-- **A deposit leaves the strategy covered** exactly when it bears what it leaves to others. -/
theorem Step.covers_iff (h : Step env w (.call ix) w') (hw : Reached env w)
    (hx : ix.mints = some (t, n)) : w'.VaultCovers t ↔ (Action.call ix).Bears w := by
  obtain ⟨s, s₁, s₂, r, r', m, v, k, c, hm⟩ := h.mints hw hx
  have hiff := hm.covers_iff (hw.invested hm.found)
  have hbook := hm.accrues.bookedValue
  rw [hm.accrues.lastSettled] at hbook
  constructor
  · intro hc t' n' s' r₀ m' v' r₁ s₁' hx' hs hr hmint hv hac hb
    -- What the condition is about is what the step has found.
    obtain ⟨rfl, rfl⟩ := Prod.mk.inj (Option.some.inj (hx.symm.trans hx'))
    obtain rfl := Option.some.inj (hm.found.symm.trans hs)
    obtain rfl := Option.some.inj (hm.accrues.reserve.symm.trans hr)
    obtain rfl := Option.some.inj (hm.accrues.mint.symm.trans hmint)
    obtain rfl := Option.some.inj (hm.accrues.vault.symm.trans hv)
    obtain rfl := Except.ok.inj (hm.accrues.accrued.symm.trans hac)
    obtain rfl := Except.ok.inj (hbook.symm.trans hb)
    exact hiff.mp (hc s₂ hm.strategy)
  · intro hb s hs
    obtain rfl := Option.some.inj (hm.strategy.symm.trans hs)
    exact hiff.mpr (hb t n _ r m v r' s₁ hx hm.found hm.accrues.reserve hm.accrues.mint
      hm.accrues.vault hm.accrues.accrued hbook)

/-! ### Redemptions -/

/-- A redemption takes the shares it burns out of the vault, and no more. -/
theorem Leg.holding_le (h : Leg env w s destination c r m x w') (hv : r.liquidityVault ≠ s.shareVault) :
    w.holding s.shareVault ≤ w'.holding s.shareVault + c := by
  cases h with
  | redeemed hd =>
      have := hd.moved.holding s.shareVault
      rw [if_pos rfl, if_neg hv.symm] at this
      split_ifs at this <;> omega
  | nothing hc _ hw =>
      rw [hw]
      exact Nat.le_add_right _ _

/-- Two redemptions out of the vault, the second at the rate the first has left, take off the vault no more than they are made for. -/
theorem Finds.redeems (hf : Finds w s snap r m) (hi : Invested env w s) (hi' : Invested env w₂ s)
    (h₁ : usdcToCusdcRoundDown net snap = .ok c₁) (h₂ : usdcToCusdcRoundDown fee snap = .ok c₂)
    (hr₁ : redeemPositive env w s destination net c₁ = .ok w₁)
    (hr₂ : redeemPositive env w₁ s feeAccount fee c₂ = .ok w₂)
    (hle : net + fee ≤ w.vaultWorth s) : w.vaultWorth s ≤ w₂.vaultWorth s + (net + fee) := by
  have hheld := hi.le_supply
  have hrate := hi.reserves.supply_le s.reserve
  have hheld₂ := hi'.le_supply
  have hvault : r.liquidityVault ≠ s.shareVault := by
    obtain ⟨y, hy⟩ := hi.key
    rw [hy, (hi.reserves.located _ r hf.reserve).2]
    exact env.lending_ne_address _ y
  have hpool := World.pool_of hf.reserve (hf.shareMint ▸ hf.mint)
  obtain ⟨hleg₁, hres₁, hm₁, hclock⟩ := Leg.of hf.reserve hf.shareMint hf.mint hf.booked h₁ hr₁
  obtain ⟨hleg₂, hres₂, hm₂, -⟩ := Leg.of hres₁ hf.shareMint hm₁ (hclock ▸ hf.booked) h₂ hr₂
  have hpool₂ := World.pool_of hres₂ (hf.shareMint ▸ hm₂)
  have hholds₁ := hleg₁.holding_le hvault
  have hholds₂ := hleg₂.holding_le hvault
  have hs₁ := usdcToCusdc_le h₁
  have hs₂ := usdcToCusdc_le h₂
  rw [hf.snapshot] at hs₁ hs₂
  simp only [World.vaultWorth, hpool, hpool₂] at hheld hrate hheld₂ hle hs₁ hs₂ ⊢
  have hp₁ := Nat.div_mul_le_self (c₁ * r.totalUnderlying) m.supply
  have hp₂ := Nat.div_mul_le_self (c₂ * (r.totalUnderlying - c₁ * r.totalUnderlying / m.supply))
    (m.supply - c₁)
  generalize w.holding s.shareVault = A at *
  generalize r.totalUnderlying = T at *
  generalize m.supply = S at *
  generalize hpaid₁ : c₁ * T / S = p₁ at *
  generalize hpaid₂ : c₂ * (T - p₁) / (S - c₁) = p₂ at *
  rcases Nat.eq_zero_or_pos S with hS | hS
  · simp [hS, Pool.worth]
  -- The shares burned are worth no more than what they are burned for, and that no more than the vault.
  have hboth : (c₁ + c₂) * T ≤ (net + fee) * S := by
    rw [Nat.add_mul, Nat.add_mul]
    exact Nat.add_le_add hs₁ hs₂
  have hburned : c₁ + c₂ ≤ A := by
    refine Nat.le_of_mul_le_mul_right ?_ (hS.trans_le hrate)
    calc (c₁ + c₂) * T ≤ (net + fee) * S := hboth
      _ ≤ Pool.worth A T S * S := Nat.mul_le_mul_right _ hle
      _ ≤ A * T := Nat.div_mul_le_self _ _
  have hpT : p₁ ≤ T := by
    rw [← hpaid₁]
    exact Nat.div_le_of_le_mul (Nat.mul_le_mul_right _ (by omega))
  have htwice : (p₁ + p₂) * S ≤ (c₁ + c₂) * T := by
    refine Pool.redeem_twice hp₁ hp₂ (by omega) (fun hz => ?_) hpT
    rw [← hpaid₂, hz, Nat.zero_mul, Nat.zero_div]
  refine (Pool.worth_redeem_own htwice hburned hheld hboth).trans (Nat.add_le_add_right ?_ _)
  exact Pool.worth_mono (by omega) (by omega) (by omega) hheld₂

/-! ### The other instructions -/

/-- The accrual of a covered strategy values the vault at what it is worth, and at what is owed or more. -/
theorem Accrues.covered (h : Accrues env w s r r' m v s₁) (hi : Invested env w s) (hcheck : s.Checked)
    (hc : s.owes ≤ w.vaultWorth s) : s₁.owes ≤ s₁.lastSettledUnderlying ∧
      (w.setReserve s.reserve r').vaultWorth s₁ = s₁.lastSettledUnderlying := by
  have hworth := h.stands.vaultWorth h.shareMint_eq
  have hbooked := h.booked
  rw [← h.lastSettled] at hworth hbooked
  have hgrown := (h.op (R := Rights.none env)).vaultWorth_le hi id
  rw [hworth] at hgrown
  refine ⟨?_, by rw [hbooked.evolves.vaultWorth, hworth]⟩
  -- A vault worth less than was booked attributes nothing, and the books come down to it.
  rcases Nat.le_total s₁.lastSettledUnderlying s.lastSettledUnderlying with hle | hle
  · rw [hbooked.owes_eq hle]
    exact hc.trans hgrown
  · have hbefore := YieldStrategy.owes_le_of_check hcheck
    have hafter := hbooked.owes_le
    omega

/-- What is owed falls by at least what the vault's worth falls by. -/
theorem covers_of_worth (hs : w'.yieldStrategies t = some s₂) (h₁ : s₁.owes ≤ n)
    (howes : s₂.owes + x ≤ s₁.owes) (hworth : n ≤ w'.vaultWorth s₂ + x) : w'.VaultCovers t := by
  intro s hs'
  obtain rfl := Option.some.inj (hs.symm.trans hs')
  omega

/-- Nothing leaves the vault. -/
theorem AccrueYield.Made.covers (h : Made env w t s s₁ r r' m v w') (hi : Invested env w s)
    (hcheck : s.Checked) (hc : s.owes ≤ w.vaultWorth s) : w'.VaultCovers t := by
  obtain ⟨hcovered, hworth⟩ := h.accrues.covered hi hcheck hc
  rw [h.result]
  exact covers_of_worth (x := 0) (Function.update_self _ _ _) hcovered le_rfl hworth.ge

/-- The fee is a part of the gross amount. -/
theorem ExecuteWithdrawalYieldBearing.feeAmount_le {feeBps decimals : Nat}
    (h : feeAmount feeBps decimals n = .ok x) : x ≤ n := by
  simp only [feeAmount, Except.bind_eq_ok, Except.pure_eq_ok] at h
  obtain ⟨minFee, -, product, -, pct, -, rfl⟩ := h
  exact withdrawalFee_le pct minFee n

/-- The shares are paid what they are owed, or less. -/
theorem ExecuteWithdrawalYieldBearing.Made.covers {e : BucketTokenBalance}
    (h : Made env w destination feeAccount t p e s s₁ s₂ r r' m v w₂ w₃ w') (hi : Invested env w s)
    (hR : R.spends s.shareVault (env.address .globalConfig)) (hcheck : s.Checked)
    (hc : s.owes ≤ w.vaultWorth s) : w'.VaultCovers t := by
  obtain ⟨hcovered, hworth⟩ := h.accrues.covered hi hcheck hc
  have hs₂ : w'.yieldStrategies t = some s₂ := by
    rw [h.result]
    exact Function.update_self _ _ _
  have hlast : w'.vaultWorth s₂ = w₂.vaultWorth s₂ := by
    rw [h.result]
    exact h.cleared.vaultWorth
  have hi₁ := (hi.ops (.single (h.accrues.op (R := R)))).evolves h.accrues.booked.evolves
  have hi₂ := hi₁.ops (h.moves R hR).1.ops
  cases h.paid with
  | drained _ hw he _ =>
      refine covers_of_worth (x := 0) hs₂ hcovered (by rw [he]; exact le_rfl) ?_
      rw [hlast, hw, he, hworth]
      exact le_rfl
  | paid _ hp _ =>
      obtain ⟨c, te, -, hp⟩ := hp
      simp only [payOut, Except.bind_eq_ok, Except.pure_eq_ok, Prod.mk.injEq] at hp
      obtain ⟨gross, hgross, f, hfee, c₁, hc₁, c₂, hc₂, w₄, hr₁, w₅, hr₂, s₃, hrem, rfl, rfl⟩ := hp
      have howes := YieldStrategy.owes_remove hgross hrem
      have hsum := Nat.sub_add_cancel (feeAmount_le hfee)
      have hpaid := h.accrues.finds.redeems hi₁ hi₂ hc₁ hc₂ hr₁ hr₂ (by rw [hworth]; omega)
      rw [hworth, hsum] at hpaid
      refine covers_of_worth hs₂ hcovered howes ?_
      rwa [hlast, (YieldStrategy.evolves_removeUserShares hrem).vaultWorth]

theorem ClaimProtocolYieldFee.Made.covers
    (h : Made env w destination t n k s s₁ s₂ r r' m v w₂ w') (hi : Invested env w s)
    (hR : R.spends s.shareVault (env.address .globalConfig)) (hl : Located env w)
    (hcheck : s.Checked) (hc : s.owes ≤ w.vaultWorth s) : w'.VaultCovers t := by
  obtain ⟨hcovered, hworth⟩ := h.accrues.covered hi hcheck hc
  have hs₂ : w'.yieldStrategies t = some s₂ := by
    rw [h.result]
    exact Function.update_self _ _ _
  have hlast : w'.vaultWorth s₂ = w₂.vaultWorth s₂ := by
    rw [h.result]
    rfl
  have hi₁ := (hi.ops (.single (h.accrues.op (R := R)))).evolves h.accrues.booked.evolves
  have hd : Does R [] (w.setReserve s.reserve r') w₂ := .redeems (h.accrues.does (R := R) hl).located
    (by rwa [Booked.shareVault_eq h.accrues.booked]) h.redeemed
  have hf := h.accrues.finds
  have hpos := (redeemed_of_cpi hf.reserve hf.shareMint hf.mint hf.booked h.redeemed).positive
  -- One redemption is two, the second for nothing.
  have hr₁ : redeemPositive env (w.setReserve s.reserve r') s₁ destination n k = .ok w₂ := by
    rw [redeemPositive, if_pos ⟨h.positive, hpos⟩, h.redeemed]
  have hr₂ : redeemPositive env w₂ s₁ destination 0 0 = .ok w₂ := by simp [redeemPositive]
  have howes := YieldStrategy.owes_claim h.taken
  have hpaid := hf.redeems hi₁ (hi₁.ops hd.ops) h.converted (by simp [usdcToCusdcRoundDown]) hr₁ hr₂
    (by rw [hworth]; omega)
  rw [hworth, add_zero] at hpaid
  refine covers_of_worth hs₂ hcovered howes.le ?_
  rwa [hlast, (YieldStrategy.evolves_takeProtocolOwed h.taken).vaultWorth]

/-- The vault loses no more than the shares given back were owed. -/
theorem OptOutYield.Made.covers
    (h : Made env w k₀ owner u t n p b x s s₁ s₂ r r' m v w₂ w₃ w₄ w') (hw : Reached env w)
    (hcheck : s.Checked) (hc : s.owes ≤ w.vaultWorth s) : w'.VaultCovers t := by
  obtain ⟨hcovered, -⟩ := h.accrues.covered (hw.invested h.tokens.strategy.found) hcheck hc
  obtain ⟨owed, howed, -⟩ := OptOutYield.redemption_eq_ok.mp h.converted
  obtain ⟨-, -, hst⟩ := h.stands hw.wired hw.reserves
  obtain ⟨-, hworth⟩ := h.worth hw.wired hw.reserves hw.minted howed
  refine covers_of_worth (by rw [h.result]; exact Function.update_self _ _ _) hcovered
    (YieldStrategy.owes_remove howed h.removed) ?_
  rw [(h.accrues.booked.evolves.trans (YieldStrategy.evolves_removeUserShares h.removed)).vaultWorth,
    hst.vaultWorth h.accrues.shareMint_eq, h.accrues.lastSettled]
  exact hworth

/-! ### Steps -/

/-- Every step that bears what it leaves to others keeps every strategy covered. -/
theorem Step.covers (h : Step env w a w') (hw : Reached env w) (hb : a.Bears w)
    (hcheck : ∀ s, w.yieldStrategies t = some s → s.Checked) (hc : w.VaultCovers t) : w'.VaultCovers t := by
  by_cases ht : a.strategy = some t
  · have hran := h.ran
    have hl := hw.located
    let R : Rights env := a.rights env w
    cases a with
    | outside o => cases ht
    | call ix =>
        cases ix with
        | registerYieldBearingToken =>
            obtain rfl := Option.some.inj ht
            obtain ⟨s, e, r, w₁, -, rfl, -, hf, rfl⟩ := RegisterYieldBearingToken.handler_spec hran
            intro s' hs'
            obtain rfl : s = s' := by simpa using hs'
            simp [YieldStrategy.owes, hf.shares, hf.owed]
        | accrueYield =>
            obtain rfl := Option.some.inj ht
            obtain ⟨s, s₁, r, r', m, v, hm⟩ := AccrueYield.handler_spec hran
            exact hm.covers (hw.invested hm.found) (hcheck s hm.found) (hc s hm.found)
        | depositYieldBearing =>
            obtain rfl := Option.some.inj ht
            exact (h.covers_iff hw rfl).mpr hb
        | optInYield =>
            obtain rfl := Option.some.inj ht
            exact (h.covers_iff hw rfl).mpr hb
        | executeWithdrawalYieldBearing =>
            obtain rfl : t = _ := (Option.some.inj ht).symm
            obtain ⟨e, s, s₁, s₂, r, r', m, v, w₂, w₃, hm⟩ :=
              ExecuteWithdrawalYieldBearing.handler_spec hl hran
            have hs := hm.strategy.found
            exact hm.covers (R := R) (hw.invested hs) (.inr ⟨rfl, s, hs, rfl⟩)
              (hcheck s hs) (hc s hs)
        | claimProtocolYieldFee =>
            obtain rfl := Option.some.inj ht
            obtain ⟨k, s, s₁, s₂, r, r', m, v, w₂, hm⟩ := ClaimProtocolYieldFee.handler_spec hran
            exact hm.covers (R := R) (hw.invested hm.found)
              (.inr ⟨rfl, s, hm.found, rfl⟩) hl (hcheck s hm.found) (hc s hm.found)
        | optOutYield =>
            obtain rfl := Option.some.inj ht
            obtain ⟨p, b, x, s, s₁, s₂, r, r', m, v, w₂, w₃, w₄, hm⟩ := OptOutYield.handler_spec hl hran
            have hs := hm.tokens.strategy.found
            exact hm.covers hw (hcheck s hs) (hc s hs)
        | _ => cases ht
  · -- A step of somebody else's leaves the books alone, and the vault worth no less.
    obtain ⟨ms, -, hd⟩ := hw.makes h
    intro s hs
    rw [Ops.strategy_eq hd.ops ht] at hs
    exact (hc s hs).trans (h.vaultWorth_le hw hs ht)

/-! ### Runs -/

theorem Reached.checked (hw : Reached env w) (hs : w.yieldStrategies t = some s) : s.Checked := by
  obtain ⟨h, r⟩ := hw
  exact ((books_of_history r t).2 s hs).checked

/-- Every step of a run was one, from a reached world to a world of the run. -/
theorem step_of_mem (r : History env h w) (hx : (w₁, a) ∈ h) :
    Reached env w₁ ∧ ∃ w₂ ∈ worlds h w, Step env w₁ a w₂ := by
  induction r with
  | start => cases hx
  | next r hstep ih =>
      rcases List.mem_cons.mp hx with he | hx
      · obtain ⟨rfl, rfl⟩ := Prod.mk.inj he
        exact ⟨r.reachable, _, .head _, hstep⟩
      · obtain ⟨hw, w₂, hw₂, hs⟩ := ih hx
        exact ⟨hw, w₂, .tail _ hw₂, hs⟩

theorem covers_of_bears (r : History env h w) (hb : ∀ x ∈ h, x.2.Bears x.1) :
    ∀ v ∈ worlds h w, Reached env v ∧ ∀ t, v.VaultCovers t := by
  induction r with
  | start hinit =>
      intro v hv
      obtain rfl := List.mem_singleton.mp hv
      refine ⟨.start hinit, fun t s hs => ?_⟩
      obtain ⟨clock, -, rfl⟩ := hinit
      cases hs
  | next r hstep ih =>
      obtain ⟨ha, hb⟩ := List.forall_mem_cons.mp hb
      have hall := ih hb
      obtain ⟨hw, hc⟩ := hall _ (.head _)
      refine List.forall_mem_cons.mpr ⟨⟨hw.next hstep, fun t => ?_⟩, hall⟩
      exact hstep.covers hw ha (fun s hs => hw.checked hs) (hc t)

/-- **Solvency of the vault itself**: in every world of a run every strategy's shares of its reserve are worth what it owes, exactly when every deposit of the run bore what it left to others. -/
theorem covers_iff_of_history (r : History env h w) :
    (∀ v ∈ worlds h w, ∀ t, v.VaultCovers t) ↔ ∀ x ∈ h, x.2.Bears x.1 := by
  constructor
  · rintro hc ⟨w₁, a⟩ hx
    obtain ⟨hw, w₂, hw₂, hstep⟩ := step_of_mem r hx
    cases a with
    | outside o => trivial
    | call ix =>
        intro t n s ρ m v ρ' s₁ hmints
        exact (hstep.covers_iff hw hmints).mp (hc w₂ hw₂ t) t n s ρ m v ρ' s₁ hmints
  · intro hb v hv
    exact (covers_of_bears r hb v hv).2

namespace Localnet

/-- Wallet 10 puts five in the reserve for shares of its own, and a year goes by: five shares are worth seven. -/
def outsiders : List Action :=
  [.outside (.createTokenAccount (key 61) shareMint (key 10)),
    .outside (.depositReserveLiquidity reserve usd (key 60) (key 61) (key 10) 5),
    .outside (.tick 31536000)]

/-- Wallet 10 pays in for shares of the strategy. -/
def payInto (n : U64) : Action := .call (.depositYieldBearing (key 10) indexBucket bucket (key 60) 2 n)

end Localnet

open Localnet in
/-- Seven paid in at seven for five shares. -/
theorem covers_of_outsiders : ∃ h w, History localnet h w ∧ (w.yieldStrategies 2).any
      (fun s : YieldStrategy => decide (s.owes = 7 ∧ w.vaultWorth s = 7)) = true ∧
    ((∀ v ∈ worlds h w, ∀ t, v.VaultCovers t) ↔ ∀ x ∈ h, x.2.Bears x.1) := by
  obtain ⟨w, ⟨h, r⟩, hc⟩ := reached_of_runsTo localnet (opening ++ lending ++ outsiders ++ [payInto 7])
    (fun w => (w.yieldStrategies 2).any fun s : YieldStrategy =>
      decide (s.owes = 7 ∧ w.vaultWorth s = 7)) (by decide +kernel)
  exact ⟨h, w, r, hc, covers_iff_of_history r⟩

open Localnet in
/-- Four paid in at seven for five shares get two shares: the vault is worth three, and the strategy owes four. -/
theorem uncovered_of_outsiders : ∃ w w' s, Reached localnet w ∧ Step localnet w (payInto 4) w' ∧
    w'.yieldStrategies 2 = some s ∧ w'.vaultWorth s = 3 ∧ s.owes = 4 ∧ ¬ w'.VaultCovers 2 := by
  obtain ⟨w, w', hw, hstep, hc⟩ := step_of_runsTo localnet (opening ++ lending ++ outsiders) (payInto 4)
    (fun _ w' => (w'.yieldStrategies 2).any fun s : YieldStrategy =>
      decide (w'.vaultWorth s = 3 ∧ s.owes = 4)) (by decide +kernel)
  simp only [Option.any_eq_true, decide_eq_true_eq] at hc
  obtain ⟨s, hs, hworth, howes⟩ := hc
  refine ⟨w, w', s, hw, hstep, hs, hworth, howes, fun h => ?_⟩
  have := h s hs
  omega

end Ryvo
