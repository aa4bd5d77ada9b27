import Ryvo.Books.Tokens
import Ryvo.Support.Pools

/-!
# Books — The lending program

What each of its instructions leaves behind: the reserve's total, the share mint's supply and the amounts that moved.
-/

namespace Ryvo.Lending

variable {env : Env} {w w' : World} {r r' : Reserve} {now : Int} {total supply : Nat}
variable {reserve underlyingMint shareMint source shares owner : Pubkey} {amount : Nat}

/-- The reserve with its interest booked. -/
structure Accrued (r : Reserve) (now : Int) (r' : Reserve) : Prop where
  keeps : r' = { r with totalUnderlying := r'.totalUnderlying, lastAccrualTs := r'.lastAccrualTs }
  grows : r.totalUnderlying ≤ r'.totalUnderlying
  booked : now ≤ r'.lastAccrualTs
  again : now ≤ r.lastAccrualTs → r' = r

theorem accrued (h : accrueInner r now = .ok r') : Accrued r now r' := by
  unfold accrueInner at h
  split at h
  · cases h
    exact ⟨rfl, le_rfl, by assumption, fun _ => rfl⟩
  split at h
  · cases h
    exact ⟨rfl, le_rfl, le_rfl, fun hle => by omega⟩
  · simp only [Except.bind_eq_ok, checkedMul_eq_ok, checkedAdd_eq_ok, tryFrom_eq_ok,
      Except.pure_eq_ok] at h
    obtain ⟨_, ⟨rfl, -⟩, _, ⟨rfl, -⟩, _, ⟨rfl, -⟩, _, ⟨rfl, -⟩, rfl⟩ := h
    exact ⟨rfl, Nat.le_add_right _ _, le_rfl, fun hle => by omega⟩

theorem Accrued.underlyingMint_eq (h : Accrued r now r') : r'.underlyingMint = r.underlyingMint := by
  rw [h.keeps]

theorem Accrued.shareMint_eq (h : Accrued r now r') : r'.shareMint = r.shareMint := by rw [h.keeps]

theorem Accrued.liquidityVault_eq (h : Accrued r now r') : r'.liquidityVault = r.liquidityVault := by
  rw [h.keeps]

/-- Interest booked at this time is not booked again. -/
theorem accrueInner_again (h : accrueInner r now = .ok r') : accrueInner r' now = .ok r' := by
  rw [accrueInner, if_pos (accrued h).booked]

theorem mulDiv_eq_ok {a b c n : Nat} {e : Error} :
    mulDiv a b c e = .ok n ↔ a * b < u128Bound ∧ a * b / c < u64Bound ∧ n = a * b / c := by
  simp only [mulDiv, Except.bind_eq_ok, checkedMul_eq_ok, tryFrom_eq_ok]
  constructor
  · rintro ⟨_, ⟨rfl, h⟩, rfl, h'⟩
    exact ⟨h, h', rfl⟩
  · rintro ⟨h, h', rfl⟩
    exact ⟨_, ⟨rfl, h⟩, rfl, h'⟩

/-- The shares minted are worth at most the amount. -/
theorem sharesToMint_le {minted : Nat} (h : sharesToMint amount supply total = .ok minted) :
    minted * total ≤ amount * supply ∨ supply = 0 ∨ total = 0 := by
  unfold sharesToMint at h
  split at h
  · exact .inr (by assumption)
  · obtain ⟨-, -, rfl⟩ := mulDiv_eq_ok.mp h
    exact .inl (Nat.div_mul_le_self _ _)

theorem accrue_spec (h : accrue w reserve shareMint = .ok (w', total, supply)) : ∃ r r' m,
    w.reserves reserve = some r ∧ shareMint = r.shareMint ∧ w.mints shareMint = some m ∧
      accrueInner r w.clock = .ok r' ∧ w' = w.setReserve reserve r' ∧
      total = r'.totalUnderlying ∧ supply = m.supply := by
  simp only [accrue, World.getReserve, World.getMint, Except.bind_eq_ok, okOr_eq_ok, require_eq_ok,
    exists_const, Except.pure_eq_ok, Prod.mk.injEq] at h
  obtain ⟨r, hr, hs, m, hm, r', hr', rfl, rfl, rfl⟩ := h
  exact ⟨r, r', m, hr, hs, hm, hr', rfl, rfl, rfl⟩

theorem updateApyBps_spec {newApyBps : Nat} (h : updateApyBps w reserve owner newApyBps = .ok w') :
    ∃ r r', w.reserves reserve = some r ∧ accrueInner r w.clock = .ok r' ∧
      w' = w.setReserve reserve { r' with apyBps := newApyBps } := by
  simp only [updateApyBps, World.getReserve, Except.bind_eq_ok, okOr_eq_ok, require_eq_ok,
    exists_const, Except.pure_eq_ok] at h
  obtain ⟨r, hr, -, -, r', hr', rfl⟩ := h
  exact ⟨r, r', hr, hr', rfl⟩

theorem initializeReserve_spec {apyBps : Nat}
    (h : initializeReserve env w underlyingMint owner apyBps = .ok w') :
    ∃ m w₁ w₂ r, w.mints underlyingMint = some m ∧
      w.reserves (env.lendingAddress (.reserve underlyingMint)) = none ∧
      w.createMint env (env.lendingAddress (.shareMint underlyingMint))
        (env.lendingAddress (.reserve underlyingMint)) none m.decimals = .ok w₁ ∧
      w₁.createTokenAccount env (env.lendingAddress (.liquidityVault underlyingMint)) underlyingMint
        (env.lendingAddress (.reserve underlyingMint)) = .ok w₂ ∧
      (r.underlyingMint = underlyingMint ∧
        r.shareMint = env.lendingAddress (.shareMint underlyingMint) ∧
        r.liquidityVault = env.lendingAddress (.liquidityVault underlyingMint) ∧
        r.totalUnderlying = 0) ∧
      w' = w₂.setReserve (env.lendingAddress (.reserve underlyingMint)) r := by
  simp only [initializeReserve, World.getMint, Except.bind_eq_ok, okOr_eq_ok, require_eq_ok,
    exists_const, Except.pure_eq_ok] at h
  obtain ⟨hn, m, hm, w₁, h₁, w₂, h₂, -, rfl⟩ := h
  exact ⟨m, w₁, w₂, _, hm, hn, h₁, h₂, ⟨rfl, rfl, rfl, rfl⟩, rfl⟩

/-- What a deposit leaves behind. -/
structure Deposited (env : Env) (w : World) (reserve underlyingMint source shares owner : Pubkey)
    (amount : Nat) (r : Reserve) (m : Mint) (minted : Nat) (w' : World) : Prop where
  seeds : reserve = env.lendingAddress (.reserve underlyingMint)
  found : w.reserves reserve = some r
  underlying : r.underlyingMint = underlyingMint
  mintFound : w.mints r.shareMint = some m
  authority : m.mintAuthority = reserve
  positive : 0 < amount
  sourceOwner : ∃ a, w.tokenAccounts source = some a ∧ a.owner = owner ∧ amount ≤ a.amount
  sharesMint : ∃ a, w.tokenAccounts shares = some a ∧ a.mint = r.shareMint
  accrued : ∃ r', accrueInner r w.clock = .ok r' ∧
    sharesToMint amount m.supply r'.totalUnderlying = .ok minted ∧
    r'.totalUnderlying + amount < u64Bound ∧
    w'.reserves = Function.update w.reserves reserve
      (some { r' with totalUnderlying := r'.totalUnderlying + amount })
  mintedPos : 0 < minted
  mints : w'.mints = Function.update w.mints r.shareMint
    (some { m with supply := m.supply + minted })
  moved : Moved (fun k => (if k = r.liquidityVault then (amount : Int) else 0)
    - (if k = source then (amount : Int) else 0) + if k = shares then (minted : Int) else 0) w w'
  frame : w' = { w with
    mints := w'.mints, tokenAccounts := w'.tokenAccounts, reserves := w'.reserves }
  kept : Minted w → Minted w'

theorem deposit_spec (h : depositReserveLiquidity env w reserve underlyingMint source shares owner
    amount = .ok w') : ∃ r m minted,
      Deposited env w reserve underlyingMint source shares owner amount r m minted w' := by
  simp only [depositReserveLiquidity, World.getReserve, World.getMint, World.getTokenAccount,
    Except.bind_eq_ok, okOr_eq_ok, require_eq_ok, exists_const, checkedAdd_eq_ok] at h
  obtain ⟨r, hr, hseeds, m, hm, src, hsrc, -, hown, dst, hdst, hdm, hpos, hu, r', hr', minted, hmint,
    hmpos, _, ⟨rfl, hlt⟩, w₁, ht, hmt⟩ := h
  obtain ⟨⟨a, -, ha, -, hle, -, hao, -⟩, hw₁, hd₁⟩ := tokenTransfer_spec ht
  obtain ⟨⟨m', -, hm', -, -, hauth, -, hms⟩, hw', hd₂⟩ := tokenMintTo_spec hmt
  have hac := Lending.accrued hr'
  have hmints : w₁.mints = w.mints := by rw [hw₁]; rfl
  have hres : w₁.reserves = Function.update w.reserves reserve
      (some { r' with totalUnderlying := r'.totalUnderlying + amount }) := by rw [hw₁]; rfl
  rw [hac.shareMint_eq] at hm' hms
  rw [hmints, hm, Option.some.injEq] at hm'
  subst hm'
  refine ⟨r, m, minted, hseeds, hr, hu, hm, hauth, hpos, ⟨a, ha, hao, hle⟩, ⟨dst, hdst, hdm⟩,
    ⟨r', hr', hmint, hlt, ?_⟩, hmpos, by rw [hms, hmints], ?_, ?_, fun hk => ?_⟩
  · rw [hw', hres]
  · rw [← hac.liquidityVault_eq]
    exact Moved.trans ⟨hd₁.account, hd₁.noAccount⟩ hd₂
  · rw [hw', hw₁]
    rfl
  · have hk' : Minted (w.setReserve reserve
        { r' with totalUnderlying := r'.totalUnderlying + amount }) := ⟨hk.mint, hk.lt, hk.supply⟩
    exact (hk'.transfer ht).mintTo hmt

/-- What a redemption leaves behind. -/
structure Redeemed (env : Env) (w : World) (reserve underlyingMint shares destination owner : Pubkey)
    (burned : Nat) (r : Reserve) (m : Mint) (paid : Nat) (w' : World) : Prop where
  seeds : reserve = env.lendingAddress (.reserve underlyingMint)
  found : w.reserves reserve = some r
  underlying : r.underlyingMint = underlyingMint
  mintFound : w.mints r.shareMint = some m
  positive : 0 < burned
  le : burned ≤ m.supply
  sharesOwner : ∃ a, w.tokenAccounts shares = some a ∧ a.owner = owner ∧ a.mint = r.shareMint ∧
    burned ≤ a.amount
  vaultOwner : 0 < paid → ∃ a, w.tokenAccounts r.liquidityVault = some a ∧ a.owner = reserve
  destinationMint : ∃ a, w.tokenAccounts destination = some a ∧ a.mint = underlyingMint
  accrued : ∃ r', accrueInner r w.clock = .ok r' ∧ paid = burned * r'.totalUnderlying / m.supply ∧
    paid ≤ r'.totalUnderlying ∧
    w'.reserves = Function.update w.reserves reserve
      (some { r' with totalUnderlying := r'.totalUnderlying - paid })
  mints : w'.mints = Function.update w.mints r.shareMint
    (some { m with supply := m.supply - burned })
  moved : Moved (fun k => (if k = shares then -(burned : Int) else 0)
    + ((if k = destination then (paid : Int) else 0)
      - if k = r.liquidityVault then (paid : Int) else 0)) w w'
  frame : w' = { w with
    mints := w'.mints, tokenAccounts := w'.tokenAccounts, reserves := w'.reserves }
  kept : Minted w → Minted w'

theorem redeem_spec {destination : Pubkey} {burned : Nat} (h : redeemReserveCollateral env w reserve
    underlyingMint shares destination owner burned = .ok w') : ∃ r m paid,
      Redeemed env w reserve underlyingMint shares destination owner burned r m paid w' := by
  simp only [redeemReserveCollateral, World.getReserve, World.getMint, World.getTokenAccount,
    Except.bind_eq_ok, okOr_eq_ok, require_eq_ok, exists_const, checkedSub_eq_ok, mulDiv_eq_ok] at h
  obtain ⟨r, hr, hseeds, m, hm, src, hsrc, hsm, dst, hdst, hdm, hpos, hu, r', hr', -, hle, paid,
    ⟨-, -, hpaid⟩, _, ⟨rfl, hple⟩, w₁, hb, hlast⟩ := h
  obtain ⟨⟨m', a, hm', ha, -, hao, hba, -, hms⟩, hw₁, hd₁⟩ := tokenBurn_spec hb
  have hac := Lending.accrued hr'
  have hsh := hac.shareMint_eq
  have hlv := hac.liquidityVault_eq
  rw [hsh] at hm' hms
  have hm'' : w.mints r.shareMint = some m' := hm'
  rw [hm, Option.some.injEq] at hm''
  subst hm''
  have ha' : w.tokenAccounts shares = some a := ha
  obtain rfl := Option.some.inj (hsrc.symm.trans ha')
  have hres : w₁.reserves = Function.update w.reserves reserve
      (some { r' with totalUnderlying := r'.totalUnderlying - paid }) := by rw [hw₁]; rfl
  have hmints : w₁.mints = Function.update w.mints r.shareMint
      (some { m with supply := m.supply - burned }) := hms
  have hd₁' : Moved (fun k => if k = shares then -(burned : Int) else 0) w w₁ :=
    ⟨hd₁.account, hd₁.noAccount⟩
  have hk₁ : Minted w → Minted w₁ := fun hk => Minted.burn (w := w.setReserve reserve
    { r' with totalUnderlying := r'.totalUnderlying - paid }) ⟨hk.mint, hk.lt, hk.supply⟩ hb
  by_cases hp : 0 < paid
  · rw [if_pos hp] at hlast
    obtain ⟨⟨v, d, hv, -, -, -, hvo, -⟩, hw', hd₂⟩ := tokenTransfer_spec hlast
    rw [hlv] at hv hd₂
    obtain ⟨v₀, hv₀, hvo₀⟩ : ∃ v₀, w.tokenAccounts r.liquidityVault = some v₀ ∧ v₀.owner = v.owner := by
      cases hk : w.tokenAccounts r.liquidityVault with
      | none => simp [(hd₁'.noAccount _ hk).1] at hv
      | some v₀ =>
          obtain ⟨n, h₁, -⟩ := hd₁'.account _ v₀ hk
          rw [hv, Option.some.injEq] at h₁
          exact ⟨v₀, rfl, by rw [h₁]⟩
    refine ⟨r, m, paid, hseeds, hr, hu, hm, hpos, hle, ⟨src, hsrc, hao, hsm, hba⟩,
      fun _ => ⟨v₀, hv₀, hvo₀.trans hvo⟩, ⟨dst, hdst, hdm⟩, ⟨r', hr', hpaid, hple, ?_⟩, ?_, hd₁'.trans hd₂, ?_,
      fun hk => (hk₁ hk).transfer hlast⟩
    · rw [hw', hres]
    · rw [hw', hmints]
    · rw [hw', hw₁]
      rfl
  · rw [if_neg hp, Except.pure_eq_ok] at hlast
    subst hlast
    obtain rfl : paid = 0 := by omega
    refine ⟨r, m, 0, hseeds, hr, hu, hm, hpos, hle, ⟨src, hsrc, hao, hsm, hba⟩,
      fun h => absurd h (lt_irrefl _), ⟨dst, hdst, hdm⟩,
      ⟨r', hr', hpaid, hple, hres⟩, hmints, ?_, ?_, hk₁⟩
    · exact hd₁'.of_eq rfl fun k => by simp
    · rw [hw₁]
      rfl

end Ryvo.Lending
