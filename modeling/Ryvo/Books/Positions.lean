import Ryvo.Books.Strategy

/-!
# Books — Positions

Where a strategy stands at its reserve once interest is booked: the reserve, its share mint and the strategy's vault of shares (`Stands`).  From there a call to the lending program moves the three at the rate they stand at, and an accrual finds the vault worth what it is worth.

* `Accrues.stands`: an accrual leaves the strategy standing.
* `Accrues.deposited`, `Accrues.redeemed`: what a call made after it does.
* `Deposited.stands`, `Redeemed.stands`: where that leaves the strategy.
-/

namespace Ryvo

variable {env : Env} {w w₁ w₂ w₃ : World} {s s₁ : YieldStrategy} {r r' : Reserve} {m : Mint}
variable {a : TokenAccount} {n k paid : Nat} {source destination owner mint shares ρ : Pubkey}

/-- The strategy's reserve with its interest booked, the mint of its shares and the strategy's vault. -/
structure Stands (w : World) (s : YieldStrategy) (r : Reserve) (m : Mint) (a : TokenAccount) : Prop where
  reserve : w.reserves s.reserve = some r
  mint : w.mints s.shareMint = some m
  vault : w.tokenAccounts s.shareVault = some a
  booked : w.clock ≤ r.lastAccrualTs

theorem Stands.unique {m₁ : Mint} {a₁ : TokenAccount} (h : Stands w s r m a)
    (h₁ : Stands w s r' m₁ a₁) : r' = r ∧ m₁ = m ∧ a₁ = a :=
  ⟨Option.some.inj (h₁.reserve.symm.trans h.reserve), Option.some.inj (h₁.mint.symm.trans h.mint),
    Option.some.inj (h₁.vault.symm.trans h.vault)⟩

/-- Nothing else about the world matters. -/
theorem Stands.congr (h : Stands w s r m a) (hr : w₁.reserves s.reserve = w.reserves s.reserve)
    (hm : w₁.mints s.shareMint = w.mints s.shareMint)
    (ha : w₁.tokenAccounts s.shareVault = w.tokenAccounts s.shareVault) (hc : w₁.clock = w.clock) :
    Stands w₁ s r m a :=
  ⟨hr.trans h.reserve, hm.trans h.mint, ha.trans h.vault, hc ▸ h.booked⟩

theorem BucketsOnly.stands (hb : BucketsOnly w w₁) (h : Stands w s r m a) : Stands w₁ s r m a := by
  rw [hb]
  exact ⟨h.reserve, h.mint, h.vault, h.booked⟩

/-! ### After an accrual -/

theorem Accrues.stands (h : Accrues env w s r r' m a s₁) :
    Stands (w.setReserve s.reserve r') s r' m a :=
  ⟨Function.update_self _ _ _, h.mint, h.vault, (Lending.accrued h.accrued).booked⟩

/-- Interest that is booked is not booked again. -/
theorem Accrues.again {m₁ : Mint} {a₁ : TokenAccount} {r₀ : Reserve}
    (h : Accrues env w s r r' m a s₁) (hst : Stands w s r₀ m₁ a₁) : r₀ = r ∧ r' = r ∧ m₁ = m ∧ a₁ = a := by
  obtain rfl := Option.some.inj (hst.reserve.symm.trans h.reserve)
  exact ⟨rfl, (Lending.accrued h.accrued).again hst.booked,
    Option.some.inj (hst.mint.symm.trans h.mint), Option.some.inj (hst.vault.symm.trans h.vault)⟩

/-- The accounts of a strategy whose vault was booked. -/
theorem YieldStrategy.Booked.accounts {value : Nat} (h : s.Booked value s₁) :
    s₁.reserve = s.reserve ∧ s₁.shareVault = s.shareVault ∧ s₁.shareMint = s.shareMint ∧
      s₁.underlyingMint = s.underlyingMint := by
  rw [h.keeps]
  exact ⟨rfl, rfl, rfl, rfl⟩

/-- What is booked is what the vault is worth. -/
theorem Accrues.lastSettled (h : Accrues env w s r r' m a s₁) :
    s₁.lastSettledUnderlying = Pool.worth a.amount r'.totalUnderlying m.supply := by
  rw [h.booked.keeps]

theorem Accrues.shareMint_eq (h : Accrues env w s r r' m a s₁) : s.shareMint = r'.shareMint := by
  rw [h.shareMint, (Lending.accrued h.accrued).shareMint_eq]

/-- The reserve's vault is the lending program's own. -/
theorem Accrues.liquidityVault_ne (h : Accrues env w s r r' m a s₁) (hr : Reserves env w)
    (x : Seeds) : r'.liquidityVault ≠ env.address x := by
  rw [(Lending.accrued h.accrued).liquidityVault_eq, (hr.located _ r h.reserve).2]
  exact env.lending_ne_address _ x

/-- The value of the vault fits where it is computed. -/
theorem Accrues.value (h : Accrues env w s r r' m a s₁) :
    cusdcToUsdc a.amount ⟨r'.totalUnderlying, m.supply⟩
      = .ok (Pool.worth a.amount r'.totalUnderlying m.supply) := by
  have hran := h.ran
  simp only [accrueStrategy, World.getTokenAccount, Lending.invoke, Except.bind_eq_ok, okOr_eq_ok,
    require_eq_ok, exists_const, Prod.exists, Except.pure_eq_ok, Prod.mk.injEq] at hran
  obtain ⟨a₁, ha, w₂, T, S, -, u, hvalue, s₂, -, -, -, hsnap⟩ := hran
  obtain rfl := Option.some.inj (ha.symm.trans h.vault)
  rw [hsnap] at hvalue
  obtain ⟨rfl, -⟩ := cusdcToUsdc_eq_ok.mp hvalue
  exact hvalue

/-- Where interest is booked, and the vault is worth no more than was booked, an accrual attributes nothing. -/
theorem Stands.accrueStrategy (h : Stands w s r m a) (hp : s.yieldProgram = env.yieldProgramId)
    (hm : s.shareMint = r.shareMint) {u : Nat}
    (hv : cusdcToUsdc a.amount ⟨r.totalUnderlying, m.supply⟩ = .ok u) (hu : u ≤ s.lastSettledUnderlying) :
    accrueStrategy env w s = .ok (w.setReserve s.reserve r, { s with lastSettledUnderlying := u },
      ⟨r.totalUnderlying, m.supply⟩) := by
  have hacc : Lending.accrue w s.reserve s.shareMint
      = .ok (w.setReserve s.reserve r, r.totalUnderlying, m.supply) := by
    simp only [Lending.accrue, World.getReserve, World.getMint, Except.bind_eq_ok, okOr_eq_ok,
      require_eq_ok, exists_const, Except.pure_eq_ok]
    exact ⟨r, h.reserve, hm, m, h.mint, r, by rw [Lending.accrueInner, if_pos h.booked], rfl⟩
  simp only [Ryvo.accrueStrategy, World.getTokenAccount, Lending.invoke, Except.bind_eq_ok, okOr_eq_ok,
    require_eq_ok, exists_const, Prod.exists, Except.pure_eq_ok]
  exact ⟨a, h.vault, _, _, _, ⟨hp, hacc⟩, u, hv, _, YieldStrategy.bookValue_of_le hu, rfl⟩

/-- A strategy stands where its accrual left it when only buckets have been written since. -/
theorem Accrues.kept (h : Accrues env w s r r' m a s₁)
    (hb : BucketsOnly (w.setReserve s.reserve r') w₂) : Stands w₂ s r' m a := hb.stands h.stands

theorem Accrues.deposited (h : Accrues env w s r r' m a s₁)
    (hb : BucketsOnly (w.setReserve s.reserve r') w₂)
    (hc : cpiDepositReserveLiquidity env w₂ s₁ source owner n = .ok w₃) :
    ∃ k, Lending.Deposited env w₂ s.reserve s.underlyingMint source s.shareVault owner n r' m k w₃ := by
  obtain ⟨hr, hm, -, -⟩ := h.kept hb
  obtain ⟨e₁, e₂, e₃, e₄⟩ := h.booked.accounts
  obtain ⟨r₁, hr₁, hsm, -, hd⟩ := cpiDeposit_spec hc
  rw [e₁, e₂, e₄] at hd
  obtain ⟨r₂, m₂, k, hd⟩ := Lending.deposit_spec hd
  obtain rfl := Option.some.inj (hr.symm.trans hd.found)
  rw [e₁] at hr₁
  obtain rfl := Option.some.inj (hr.symm.trans hr₁)
  have hm₂ := hd.mintFound
  rw [← hsm, e₃] at hm₂
  obtain rfl := Option.some.inj (hm.symm.trans hm₂)
  exact ⟨k, hd⟩

theorem Accrues.redeemed (h : Accrues env w s r r' m a s₁)
    (hb : BucketsOnly (w.setReserve s.reserve r') w₂)
    (hc : cpiRedeemReserveCollateral env w₂ s₁ destination n = .ok w₃) :
    Lending.Redeemed env w₂ s.reserve s.underlyingMint s.shareVault destination
      (env.address .globalConfig) n r' m (n * r'.totalUnderlying / m.supply) w₃ := by
  obtain ⟨hr, hm, -, hlast⟩ := h.kept hb
  obtain ⟨e₁, e₂, e₃, e₄⟩ := h.booked.accounts
  obtain ⟨r₁, hr₁, hsm, -, hd⟩ := cpiRedeem_spec hc
  rw [e₁, e₂, e₄] at hd
  obtain ⟨r₂, m₂, paid, hd⟩ := Lending.redeem_spec hd
  obtain rfl := Option.some.inj (hr.symm.trans hd.found)
  rw [e₁] at hr₁
  obtain rfl := Option.some.inj (hr.symm.trans hr₁)
  have hm₂ := hd.mintFound
  rw [← hsm, e₃] at hm₂
  obtain rfl := Option.some.inj (hm.symm.trans hm₂)
  obtain ⟨r₃, hr₃, hpaid, -⟩ := hd.accrued
  obtain rfl := (Lending.accrued hr₃).again hlast
  rwa [← hpaid]

namespace Lending

theorem Deposited.rate (h : Deposited env w ρ mint source shares owner n r m k w₁)
    (hlast : w.clock ≤ r.lastAccrualTs) : sharesToMint n m.supply r.totalUnderlying = .ok k ∧
      r.totalUnderlying + n < u64Bound ∧
      w₁.reserves ρ = some { r with totalUnderlying := r.totalUnderlying + n } := by
  obtain ⟨r', hr', hmint, hlt, hres⟩ := h.accrued
  obtain rfl := (Lending.accrued hr').again hlast
  exact ⟨hmint, hlt, by rw [hres, Function.update_self]⟩

/-- The account keeps its mint and its owner, and has what it holds. -/
theorem account_eq {δ : Pubkey → Int} (h : Moved δ w w₁) (ha : w.tokenAccounts ρ = some a)
    (hn : (n : Int) = a.amount + δ ρ) : w₁.tokenAccounts ρ = some { a with amount := n } := by
  obtain ⟨x, hx, hxn⟩ := h.account ρ a ha
  obtain rfl : x = n := by omega
  exact hx

theorem Deposited.stands (h : Deposited env w s.reserve mint source s.shareVault owner n r m k w₁)
    (hst : Stands w s r m a) (hm : s.shareMint = r.shareMint) (hs : source ≠ s.shareVault)
    (hv : r.liquidityVault ≠ s.shareVault) :
    Stands w₁ s { r with totalUnderlying := r.totalUnderlying + n }
      { m with supply := m.supply + k } { a with amount := a.amount + k } where
  reserve := (h.rate hst.booked).2.2
  mint := by rw [h.mints, hm, Function.update_self]
  vault := account_eq h.moved hst.vault (by rw [if_neg hs.symm, if_neg hv.symm, if_pos rfl]; omega)
  booked := by
    rw [h.frame]
    exact hst.booked

theorem Redeemed.rate (h : Redeemed env w ρ mint shares destination owner n r m paid w₁)
    (hlast : w.clock ≤ r.lastAccrualTs) : paid = n * r.totalUnderlying / m.supply ∧
      paid ≤ r.totalUnderlying ∧
      w₁.reserves ρ = some { r with totalUnderlying := r.totalUnderlying - paid } := by
  obtain ⟨r', hr', hpaid, hle, hres⟩ := h.accrued
  obtain rfl := (Lending.accrued hr').again hlast
  exact ⟨hpaid, hle, by rw [hres, Function.update_self]⟩

theorem Redeemed.le_vault
    (h : Redeemed env w s.reserve mint s.shareVault destination owner n r m paid w₁)
    (hst : Stands w s r m a) : n ≤ a.amount := by
  obtain ⟨a', ha', -, -, hle⟩ := h.sharesOwner
  obtain rfl := Option.some.inj (hst.vault.symm.trans ha')
  exact hle

theorem Redeemed.stands
    (h : Redeemed env w s.reserve mint s.shareVault destination owner n r m paid w₁)
    (hst : Stands w s r m a) (hm : s.shareMint = r.shareMint) (hd : destination ≠ s.shareVault)
    (hv : r.liquidityVault ≠ s.shareVault) :
    Stands w₁ s { r with totalUnderlying := r.totalUnderlying - paid }
      { m with supply := m.supply - n } { a with amount := a.amount - n } where
  reserve := (h.rate hst.booked).2.2
  mint := by rw [h.mints, hm, Function.update_self]
  vault := by
    refine account_eq h.moved hst.vault ?_
    rw [if_neg hd.symm, if_neg hv.symm, if_pos rfl]
    have := h.le_vault hst
    omega
  booked := by
    rw [h.frame]
    exact hst.booked

end Lending

end Ryvo
