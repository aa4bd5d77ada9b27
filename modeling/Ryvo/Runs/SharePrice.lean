import Ryvo.Books.Accrual
import Ryvo.Runs.Backing
import Ryvo.Support.SharePool

/-!
# Runs — Share price

The lending program among everything else on its chain.  Anybody calls it, with any key; whatever else happens writes neither its reserves nor the mints it has authority over (`Market`).  A reserve and the supply of its shares are a share pool, and what happens to a pool is a step of it (`Market.pool_step`).

* `sharePrice`: the pools of a reached world, the price of a share over the next step, the arithmetic of a redemption, and what a deposit gets back when it is redeemed at once.
* `roundTrip_gains`: the redemptions of others leave dust behind, and whoever redeems last takes it.
* `market_of_outside`: what wallets do on the chain is of this kind, unless they burn.
-/

namespace Ryvo

variable {env : Env} {w w' w₁ w₂ w₃ : World} {ρ mint : Pubkey} {r r' : Reserve} {m : Mint} {n k : Nat}

/-- The total of a reserve and the supply of its shares.  Where there is no reserve there is nothing. -/
def World.pool (w : World) (ρ : Pubkey) : SharePool :=
  (w.reserves ρ).elim ⟨0, 0⟩ fun r => ⟨r.totalUnderlying, w.supply r.shareMint⟩

theorem World.pool_of (hr : w.reserves ρ = some r) (hm : w.mints r.shareMint = some m) :
    w.pool ρ = ⟨r.totalUnderlying, m.supply⟩ := by
  rw [pool, hr, Option.elim_some, supply_of hm]

theorem World.pool_none (hr : w.reserves ρ = none) : w.pool ρ = ⟨0, 0⟩ := by
  rw [pool, hr, Option.elim_none]

namespace Lending

/-- Something else happens. -/
structure Elsewhere (env : Env) (w w' : World) : Prop where
  reserves : w'.reserves = w.reserves
  clock : w.clock ≤ w'.clock
  mints : ∀ k m l, w.mints k = some m → m.mintAuthority = env.lendingAddress l → w'.mints k = some m

/-- The lending program is called, or something else happens. -/
inductive Market (env : Env) : World → World → Prop
  | initializeReserve {w w' : World} {mint authority : Pubkey} {apyBps : Nat} :
      initializeReserve env w mint authority apyBps = .ok w' → Market env w w'
  | accrue {w w' : World} {reserve shareMint : Pubkey} {total supply : Nat} :
      accrue w reserve shareMint = .ok (w', total, supply) → Market env w w'
  | updateApyBps {w w' : World} {reserve authority : Pubkey} {apyBps : Nat} :
      updateApyBps w reserve authority apyBps = .ok w' → Market env w w'
  | deposit {w w' : World} {reserve mint source shares owner : Pubkey} {amount : Nat} :
      depositReserveLiquidity env w reserve mint source shares owner amount = .ok w' → Market env w w'
  | redeem {w w' : World} {reserve mint shares destination owner : Pubkey} {burned : Nat} :
      redeemReserveCollateral env w reserve mint shares destination owner burned = .ok w' →
      Market env w w'
  | elsewhere {w w' : World} : Elsewhere env w w' → Market env w w'

/-- The worlds that lead from one in which there are no reserves yet. -/
def Open (env : Env) (w : World) : Prop :=
  ∃ w₀, (∀ ρ, w₀.reserves ρ = none) ∧ Relation.ReflTransGen (Market env) w₀ w

/-! ### What a call rewrites -/

/-- One reserve and the supply of its shares, as a step of their pool. -/
structure Rewrites (w : World) (ρ : Pubkey) (r r' : Reserve) (m : Mint) (n : Nat) (w' : World) :
    Prop where
  found : w.reserves ρ = some r
  mintFound : w.mints r.shareMint = some m
  reserves : w'.reserves = Function.update w.reserves ρ (some r')
  mints : w'.mints = Function.update w.mints r.shareMint (some { m with supply := n })
  clock : w'.clock = w.clock
  underlyingMint : r'.underlyingMint = r.underlyingMint
  shareMint : r'.shareMint = r.shareMint
  liquidityVault : r'.liquidityVault = r.liquidityVault
  stamped : r'.lastAccrualTs = max r.lastAccrualTs w.clock
  step : SharePool.Step ⟨r.totalUnderlying, m.supply⟩ ⟨r'.totalUnderlying, n⟩
  fits : r.totalUnderlying < u64Bound → r'.totalUnderlying < u64Bound

/-- A new reserve, and the mint of its shares. -/
structure Opens (env : Env) (w : World) (ρ : Pubkey) (r : Reserve) (m : Mint) (w' : World) : Prop where
  missing : w.reserves ρ = none
  reserves : w'.reserves = Function.update w.reserves ρ (some r)
  mints : w'.mints = Function.update w.mints r.shareMint (some m)
  noMint : w.mints r.shareMint = none
  clock : w'.clock = w.clock
  located : ρ = env.lendingAddress (.reserve r.underlyingMint)
  liquidityVault : r.liquidityVault = env.lendingAddress (.liquidityVault r.underlyingMint)
  authority : m.mintAuthority = ρ
  empty : r.totalUnderlying = 0 ∧ m.supply = 0

theorem due_eq_zero {now : Int} (h : r.totalUnderlying = 0) : due r now / partsPerUnit = 0 := by
  simp [due, h]

/-- Interest, as the pool earns it. -/
theorem accrueInner_earns {now : Int} (h : accrueInner r now = .ok r') :
    ∃ i, (r.totalUnderlying = 0 → i = 0) ∧ r'.totalUnderlying = r.totalUnderlying + i :=
  ⟨_, due_eq_zero, (accrueInner_spec h).1⟩

theorem accrueInner_fits {now : Int} (h : accrueInner r now = .ok r')
    (hr : r.totalUnderlying < u64Bound) : r'.totalUnderlying < u64Bound := by
  unfold accrueInner at h
  split at h
  · cases h
    exact hr
  split at h
  · cases h
    exact hr
  · simp only [Except.bind_eq_ok, tryFrom_eq_ok, Except.pure_eq_ok] at h
    obtain ⟨_, -, _, -, _, -, _, ⟨rfl, hfits⟩, rfl⟩ := h
    exact hfits

theorem sharesToMint_eq {amount supply total : Nat} (h : sharesToMint amount supply total = .ok n) :
    n = SharePool.bought ⟨total, supply⟩ amount := by
  unfold sharesToMint at h
  unfold SharePool.bought
  split at h
  case isTrue hz => rw [if_pos hz, Except.ok.inj h]
  case isFalse hz => rw [if_neg hz, (mulDiv_eq_ok.mp h).2.2]

theorem accrue_rewrites {shareMint : Pubkey} {total supply : Nat}
    (h : accrue w ρ shareMint = .ok (w', total, supply)) : ∃ r r' m, Rewrites w ρ r r' m m.supply w' := by
  obtain ⟨r, r', m, hr, rfl, hm, hac, rfl, -, -⟩ := accrue_spec h
  have ha := accrued hac
  obtain ⟨i, hi, htotal⟩ := accrueInner_earns hac
  exact ⟨r, r', m, hr, hm, rfl, (Function.update_eq_self_iff.mpr hm.symm).symm, rfl, ha.underlyingMint_eq,
    ha.shareMint_eq, ha.liquidityVault_eq, (accrueInner_spec hac).2.2,
    ⟨i, hi, .inl (by rw [htotal]; rfl)⟩, accrueInner_fits hac⟩

theorem updateApyBps_rewrites {authority : Pubkey} {apyBps : Nat}
    (h : updateApyBps w ρ authority apyBps = .ok w') (hres : Reserves env w) :
    ∃ r r' m, Rewrites w ρ r r' m m.supply w' := by
  obtain ⟨r, r', hr, hac, rfl⟩ := updateApyBps_spec h
  obtain ⟨m, hm, -⟩ := hres.shares ρ r hr
  have ha := accrued hac
  obtain ⟨i, hi, htotal⟩ := accrueInner_earns hac
  have hfits := accrueInner_fits hac
  exact ⟨r, _, m, hr, hm, rfl, (Function.update_eq_self_iff.mpr hm.symm).symm, rfl, ha.underlyingMint_eq,
    ha.shareMint_eq, ha.liquidityVault_eq, (accrueInner_spec hac).2.2,
    ⟨i, hi, .inl (by rw [htotal]; rfl)⟩, hfits⟩

variable {source shares destination owner : Pubkey} {amount burned : Nat}

theorem Deposited.rewrites (h : Deposited env w ρ mint source shares owner amount r m n w') :
    ∃ r', Rewrites w ρ r r' m (m.supply + n) w' := by
  obtain ⟨r', hac, hn, hlt, hres⟩ := h.accrued
  have ha := Lending.accrued hac
  obtain ⟨i, hi, htotal⟩ := accrueInner_earns hac
  have hbought := sharesToMint_eq hn
  rw [htotal] at hbought
  refine ⟨_, h.found, h.mintFound, hres, h.mints, by rw [h.frame], ha.underlyingMint_eq,
    ha.shareMint_eq, ha.liquidityVault_eq, (accrueInner_spec hac).2.2, ⟨i, hi, .inr ?_⟩, fun _ => hlt⟩
  rw [hbought, htotal]
  exact .deposit h.positive (hbought ▸ h.mintedPos)

theorem Redeemed.rewrites (h : Redeemed env w ρ mint shares destination owner burned r m n w') :
    ∃ r', Rewrites w ρ r r' m (m.supply - burned) w' := by
  obtain ⟨r', hac, hn, hle, hres⟩ := h.accrued
  have ha := Lending.accrued hac
  obtain ⟨i, hi, htotal⟩ := accrueInner_earns hac
  rw [htotal] at hn
  refine ⟨_, h.found, h.mintFound, hres, h.mints, by rw [h.frame], ha.underlyingMint_eq,
    ha.shareMint_eq, ha.liquidityVault_eq, (accrueInner_spec hac).2.2, ⟨i, hi, .inr ?_⟩,
    fun hr => (Nat.sub_le _ _).trans_lt (accrueInner_fits hac hr)⟩
  rw [hn, htotal]
  exact .redeem h.positive h.le

theorem initializeReserve_opens {apyBps : Nat}
    (h : initializeReserve env w mint owner apyBps = .ok w') : ∃ ρ r m, Opens env w ρ r m w' := by
  obtain ⟨m, w₁, w₂, r, -, hn, h₁, h₂, ⟨hu, hs, hv, ht⟩, rfl⟩ := initializeReserve_spec h
  obtain ⟨hno, -, rfl⟩ := createMint_spec h₁
  obtain ⟨-, -, -, rfl⟩ := createTokenAccount_spec h₂
  exact ⟨_, r, _, hn, rfl, by rw [hs]; rfl, by rw [hs]; exact hno, rfl, by rw [hu], by rw [hv, hu], rfl,
    ht, rfl⟩

/-- All that can happen. -/
theorem Market.cases (h : Market env w w') (hres : Reserves env w) :
    (∃ ρ r r' m n, Rewrites w ρ r r' m n w') ∨ (∃ ρ r m, Opens env w ρ r m w') ∨
      Elsewhere env w w' := by
  cases h with
  | initializeReserve h => exact .inr (.inl (initializeReserve_opens h))
  | accrue h =>
      obtain ⟨r, r', m, hw⟩ := accrue_rewrites h
      exact .inl ⟨_, r, r', m, _, hw⟩
  | updateApyBps h =>
      obtain ⟨r, r', m, hw⟩ := updateApyBps_rewrites h hres
      exact .inl ⟨_, r, r', m, _, hw⟩
  | deposit h =>
      obtain ⟨r, m, n, hd⟩ := deposit_spec h
      obtain ⟨r', hw⟩ := hd.rewrites
      exact .inl ⟨_, r, r', m, _, hw⟩
  | redeem h =>
      obtain ⟨r, m, n, hd⟩ := redeem_spec h
      obtain ⟨r', hw⟩ := hd.rewrites
      exact .inl ⟨_, r, r', m, _, hw⟩
  | elsewhere h => exact .inr (.inr h)

/-! ### Pools take steps -/

theorem Rewrites.pool (h : Rewrites w ρ r r' m n w') :
    w.pool ρ = ⟨r.totalUnderlying, m.supply⟩ ∧ w'.pool ρ = ⟨r'.totalUnderlying, n⟩ := by
  refine ⟨World.pool_of h.found h.mintFound, ?_⟩
  have hr : w'.reserves ρ = some r' := by rw [h.reserves, Function.update_self]
  have hm : w'.mints r'.shareMint = some { m with supply := n } := by
    rw [h.mints, h.shareMint, Function.update_self]
  exact World.pool_of hr hm

/-- A pool whose reserve and mint stay as they are stays as it is. -/
theorem pool_kept {ρ' : Pubkey} (hr : w'.reserves ρ' = w.reserves ρ')
    (hm : ∀ r, w.reserves ρ' = some r → w'.mints r.shareMint = w.mints r.shareMint) :
    w'.pool ρ' = w.pool ρ' := by
  unfold World.pool
  rw [hr]
  cases h : w.reserves ρ' with
  | none => rfl
  | some r => simp only [Option.elim_some, World.supply, hm r h]

/-- Two reserves do not share a mint: it has one authority. -/
theorem Rewrites.pool_ne (h : Rewrites w ρ r r' m n w') (hres : Reserves env w) {ρ' : Pubkey}
    (hne : ρ' ≠ ρ) : w'.pool ρ' = w.pool ρ' := by
  refine pool_kept (by rw [h.reserves, Function.update_of_ne hne]) fun r₁ h₁ => ?_
  rw [h.mints, Function.update_of_ne]
  rintro he
  obtain ⟨m₀, hm₀, hauth₀, -⟩ := hres.shares ρ r h.found
  obtain ⟨m₁, hm₁, hauth₁, -⟩ := hres.shares ρ' r₁ h₁
  rw [he, hm₀, Option.some.injEq] at hm₁
  subst hm₁
  exact hne (hauth₁.symm.trans hauth₀)

theorem Opens.pool_eq (h : Opens env w ρ r m w') (hres : Reserves env w) (ρ' : Pubkey) :
    w'.pool ρ' = w.pool ρ' := by
  by_cases hne : ρ' = ρ
  · subst hne
    have hr : w'.reserves ρ' = some r := by rw [h.reserves, Function.update_self]
    have hm : w'.mints r.shareMint = some m := by rw [h.mints, Function.update_self]
    rw [World.pool_of hr hm, World.pool_none h.missing, h.empty.1, h.empty.2]
  · refine pool_kept (by rw [h.reserves, Function.update_of_ne hne]) fun r₁ h₁ => ?_
    obtain ⟨m₁, hm₁, -⟩ := hres.shares ρ' r₁ h₁
    rw [h.mints, Function.update_of_ne]
    rintro he
    rw [he, h.noMint] at hm₁
    cases hm₁

theorem Elsewhere.pool_eq (h : Elsewhere env w w') (hres : Reserves env w) (ρ : Pubkey) :
    w'.pool ρ = w.pool ρ := by
  refine pool_kept (by rw [h.reserves]) fun r hr => ?_
  obtain ⟨m, hm, hauth, -⟩ := hres.shares ρ r hr
  rw [hm, h.mints _ m _ hm (hauth.trans (hres.located ρ r hr).1)]

/-- **What happens to a pool is a step of it.** -/
theorem Market.pool_step (h : Market env w w') (hres : Reserves env w) (ρ : Pubkey) :
    (w.pool ρ).Step (w'.pool ρ) := by
  obtain ⟨ρ', r, r', m, n, hw⟩ | ⟨ρ', r, m, hw⟩ | hw := h.cases hres
  · by_cases hne : ρ = ρ'
    · subst hne
      rw [hw.pool.1, hw.pool.2]
      exact hw.step
    · rw [hw.pool_ne hres hne]
      exact .refl _
  · rw [hw.pool_eq hres]
    exact .refl _
  · rw [hw.pool_eq hres]
    exact .refl _

/-! ### Open worlds -/

/-- What holds of every open world: reserves where they belong, totals that fit, and sound pools. -/
structure Listed (env : Env) (w : World) : Prop where
  reserves : Reserves env w
  fits : ∀ ρ r, w.reserves ρ = some r → r.totalUnderlying < u64Bound
  sound : ∀ ρ, (w.pool ρ).Sound

theorem Listed.start (h : ∀ ρ, w.reserves ρ = none) : Listed env w where
  reserves := ⟨fun ρ r hr => by simp [h] at hr, fun ρ r hr => by simp [h] at hr⟩
  fits ρ r hr := by simp [h] at hr
  sound ρ := by
    rw [World.pool_none (h ρ)]
    exact ⟨Iff.rfl, le_rfl⟩

theorem Rewrites.reserves_of (h : Rewrites w ρ r r' m n w') (hres : Reserves env w)
    (hle : n ≤ r'.totalUnderlying) : Reserves env w' :=
  hres.rewrite h.found h.mintFound h.reserves h.mints h.underlyingMint h.shareMint h.liquidityVault hle

theorem Opens.reserves_of (h : Opens env w ρ r m w') (hres : Reserves env w) : Reserves env w' := by
  have found : ∀ ρ' r', w'.reserves ρ' = some r' → ρ' = ρ ∧ r' = r ∨ w.reserves ρ' = some r' := by
    intro ρ' r' hr
    rw [h.reserves] at hr
    by_cases hne : ρ' = ρ
    · rw [hne, Function.update_self, Option.some.injEq] at hr
      exact .inl ⟨hne, hr.symm⟩
    · rw [Function.update_of_ne hne] at hr
      exact .inr hr
  refine ⟨fun ρ' r' hr => ?_, fun ρ' r' hr => ?_⟩
  · obtain ⟨rfl, rfl⟩ | hr := found ρ' r' hr
    · exact ⟨h.located, h.liquidityVault⟩
    · exact hres.located ρ' r' hr
  · obtain ⟨rfl, rfl⟩ | hr := found ρ' r' hr
    · exact ⟨m, by rw [h.mints, Function.update_self], h.authority, by rw [h.empty.2]; exact Nat.zero_le _⟩
    · obtain ⟨m', hm', hauth, hle⟩ := hres.shares ρ' r' hr
      refine ⟨m', ?_, hauth, hle⟩
      rw [h.mints, Function.update_of_ne, hm']
      rintro he
      rw [he, h.noMint] at hm'
      cases hm'

theorem Elsewhere.reserves_of (h : Elsewhere env w w') (hres : Reserves env w) : Reserves env w' :=
  hres.of_le h.reserves fun ρ r m hr hm hauth =>
    ⟨m.supply, h.mints _ m _ hm (hauth.trans (hres.located ρ r hr).1), le_rfl⟩

theorem Market.listed (h : Market env w w') (hw : Listed env w) : Listed env w' := by
  have hsound : ∀ ρ, (w'.pool ρ).Sound := fun ρ => (h.pool_step hw.reserves ρ).sound (hw.sound ρ)
  obtain ⟨ρ, r, r', m, n, hc⟩ | ⟨ρ, r, m, hc⟩ | hc := h.cases hw.reserves
  · refine ⟨hc.reserves_of hw.reserves ?_, fun ρ' r₁ hr => ?_, hsound⟩
    · have := (hsound ρ).supply_le
      rwa [hc.pool.2] at this
    · rw [hc.reserves] at hr
      by_cases hne : ρ' = ρ
      · rw [hne, Function.update_self, Option.some.injEq] at hr
        exact hr ▸ hc.fits (hw.fits ρ r hc.found)
      · rw [Function.update_of_ne hne] at hr
        exact hw.fits ρ' r₁ hr
  · refine ⟨hc.reserves_of hw.reserves, fun ρ' r₁ hr => ?_, hsound⟩
    rw [hc.reserves] at hr
    by_cases hne : ρ' = ρ
    · rw [hne, Function.update_self, Option.some.injEq] at hr
      rw [← hr, hc.empty.1]
      exact Nat.two_pow_pos _
    · rw [Function.update_of_ne hne] at hr
      exact hw.fits ρ' r₁ hr
  · exact ⟨hc.reserves_of hw.reserves, fun ρ r hr => hw.fits ρ r (hc.reserves ▸ hr), hsound⟩

theorem Open.listed (h : Open env w) : Listed env w := by
  obtain ⟨w₀, h₀, hrun⟩ := h
  induction hrun with
  | refl => exact .start h₀
  | tail _ hstep ih => exact hstep.listed ih

/-! ### A deposit and its redemption -/

/-- Interest up to now has been booked. -/
def Booked (w : World) (ρ : Pubkey) : Prop :=
  ∃ r, w.reserves ρ = some r ∧ w.clock ≤ r.lastAccrualTs

theorem Rewrites.booked (h : Rewrites w ρ r r' m n w') : Booked w' ρ := by
  refine ⟨r', by rw [h.reserves, Function.update_self], ?_⟩
  rw [h.stamped, h.clock]
  exact le_max_right _ _

theorem Market.booked (h : Market env w w') (hres : Reserves env w) (hclock : w'.clock = w.clock)
    (hb : Booked w ρ) : Booked w' ρ := by
  obtain ⟨r₀, hr₀, hle⟩ := hb
  obtain ⟨ρ', r, r', m, n, hc⟩ | ⟨ρ', r, m, hc⟩ | hc := h.cases hres
  · by_cases hne : ρ = ρ'
    · exact hne ▸ hc.booked
    · exact ⟨r₀, by rw [hc.reserves, Function.update_of_ne hne, hr₀], hclock ▸ hle⟩
  · have hne : ρ ≠ ρ' := by
      rintro rfl
      simp [hc.missing] at hr₀
    exact ⟨r₀, by rw [hc.reserves, Function.update_of_ne hne, hr₀], hclock ▸ hle⟩
  · exact ⟨r₀, by rw [hc.reserves, hr₀], hclock ▸ hle⟩

/-- No time passes, at least `k` shares stay out, and the steps leave `d` in the pool. -/
inductive Between (env : Env) (ρ : Pubkey) (k : Nat) (w : World) : ℚ → World → Prop
  | start : Between env ρ k w 0 w
  | next {d : ℚ} {w₁ w₂ : World} : Between env ρ k w d w₁ → Market env w₁ w₂ → w₂.clock = w₁.clock →
      k ≤ (w₂.pool ρ).supply →
      Between env ρ k w (d + SharePool.left (w₁.pool ρ) (w₂.pool ρ)) w₂

variable {d : ℚ}

/-- What somebody's shares gain in between. -/
theorem Between.worth_le (h : Between env ρ k w d w') (hw : Listed env w) (hk : 0 < k)
    (hout : k ≤ (w.pool ρ).supply) (hb : Booked w ρ) :
    Listed env w' ∧ Booked w' ρ ∧ k ≤ (w'.pool ρ).supply ∧
      (w'.pool ρ).worth k ≤ (w.pool ρ).worth k + d := by
  induction h with
  | start => exact ⟨hw, hb, hout, by simp⟩
  | next _ hstep hclock hout' ih =>
      obtain ⟨hw₁, hb₁, hout₁, hle⟩ := ih
      refine ⟨hstep.listed hw₁, hstep.booked hw₁.reserves hclock hb₁, hout', ?_⟩
      have := SharePool.worth_step (hw₁.sound ρ) (hstep.pool_step hw₁.reserves ρ)
        (hk.trans_le hout₁) (hk.trans_le hout') hout'
      linarith

/-- A deposit, in the pool with its interest. -/
theorem Deposited.pool (h : Deposited env w ρ mint source shares owner amount r m n w') :
    ∃ r' p, accrueInner r w.clock = .ok r' ∧ p = (⟨r'.totalUnderlying, m.supply⟩ : SharePool) ∧
      n = p.bought amount ∧ w'.pool ρ = ⟨p.total + amount, p.supply + n⟩ := by
  obtain ⟨r', hac, hn, -, hres⟩ := h.accrued
  obtain ⟨r₁, hre⟩ := h.rewrites
  have htotal : r₁.totalUnderlying = r'.totalUnderlying + amount := by
    have := congrFun (hre.reserves.symm.trans hres) ρ
    simp only [Function.update_self, Option.some.injEq] at this
    rw [this]
  exact ⟨r', _, hac, rfl, sharesToMint_eq hn, by rw [hre.pool.2, htotal]⟩

/-- A redemption, in the pool with its interest. -/
theorem Redeemed.pool (h : Redeemed env w ρ mint shares destination owner burned r m n w') :
    ∃ r' p, accrueInner r w.clock = .ok r' ∧ p = (⟨r'.totalUnderlying, m.supply⟩ : SharePool) ∧
      n = p.paid burned ∧ w'.pool ρ = ⟨p.total - n, p.supply - burned⟩ := by
  obtain ⟨r', hac, hn, -, hres⟩ := h.accrued
  obtain ⟨r₁, hre⟩ := h.rewrites
  have htotal : r₁.totalUnderlying = r'.totalUnderlying - n := by
    have := congrFun (hre.reserves.symm.trans hres) ρ
    simp only [Function.update_self, Option.some.injEq] at this
    rw [this]
  exact ⟨r', _, hac, rfl, hn, by rw [hre.pool.2, htotal]⟩

/-- Once interest is booked, the pool with its interest is the pool. -/
theorem Booked.pool (hb : Booked w ρ) (hr : w.reserves ρ = some r) (hm : w.mints r.shareMint = some m)
    (hac : accrueInner r w.clock = .ok r') :
    w.pool ρ = ⟨r'.totalUnderlying, m.supply⟩ := by
  obtain ⟨r₀, hr₀, hstamp⟩ := hb
  obtain rfl := Option.some.inj (hr₀.symm.trans hr)
  rw [(Lending.accrued hac).again hstamp]
  exact World.pool_of hr hm

/-- The shares minted, and what they are worth. -/
theorem Deposited.worth_le (h : Deposited env w ρ mint source shares owner amount r m n w')
    (hw : Listed env w) : (w'.pool ρ).supply = (w.pool ρ).supply + n ∧
      (w'.pool ρ).worth n ≤ amount := by
  obtain ⟨r', p, hac, rfl, hn, hpool'⟩ := h.pool
  have hpool := World.pool_of h.found h.mintFound
  obtain ⟨i, hi, htotal⟩ := accrueInner_earns hac
  have hsound : SharePool.Sound ⟨r'.totalUnderlying, m.supply⟩ := by
    have := hw.sound ρ
    rw [hpool] at this
    rw [htotal]
    exact this.earn hi
  refine ⟨by rw [hpool', hpool], ?_⟩
  rw [hpool', hn]
  exact SharePool.worth_bought_le hsound (hn ▸ h.mintedPos)

/-- What is paid, once interest has been booked. -/
theorem Redeemed.paid_le (h : Redeemed env w ρ mint shares destination owner burned r m n w')
    (hb : Booked w ρ) : (w.pool ρ).total = (w'.pool ρ).total + n ∧ (n : ℚ) ≤ (w.pool ρ).worth burned := by
  obtain ⟨r', p, hac, rfl, hn, hpool'⟩ := h.pool
  have hle := SharePool.paid_le (p := ⟨r'.totalUnderlying, m.supply⟩) h.le
  rw [hpool', hb.pool h.found h.mintFound hac, hn]
  exact ⟨(Nat.sub_add_cancel hle).symm, SharePool.paid_le_worth⟩

theorem Redeemed.left_lt (h : Redeemed env w ρ mint shares destination owner burned r m n w')
    (hb : Booked w ρ) : SharePool.left (w.pool ρ) (w'.pool ρ) < 1 := by
  obtain ⟨r', p, hac, rfl, rfl, hpool'⟩ := h.pool
  rw [hpool', hb.pool h.found h.mintFound hac]
  exact SharePool.left_redeem_lt h.le (h.positive.trans_le h.le)

theorem Deposited.left_lt (h : Deposited env w ρ mint source shares owner amount r m n w')
    (hw : Listed env w) (hb : Booked w ρ) (hS : 0 < (w.pool ρ).supply) :
    SharePool.left (w.pool ρ) (w'.pool ρ) < (w.pool ρ).worth 1 := by
  obtain ⟨r', p, hac, rfl, rfl, hpool'⟩ := h.pool
  have hT := hS.trans_le (hw.sound ρ).supply_le
  rw [hb.pool h.found h.mintFound hac] at hS hT ⊢
  rw [hpool']
  exact SharePool.left_deposit_lt hS hT

/-- What holds of the pools of a world, whatever led to it and whatever happens next. -/
structure SharePrice (env : Env) (w : World) : Prop where
  empty : ∀ ρ, (w.pool ρ).total = 0 ↔ (w.pool ρ).supply = 0
  covered : ∀ ρ, (w.pool ρ).supply ≤ (w.pool ρ).total
  /-- The price of a share does not fall. -/
  rises : ∀ w', Market env w w' → ∀ ρ, 0 < (w.pool ρ).supply → 0 < (w'.pool ρ).supply →
    (w.pool ρ).total * (w'.pool ρ).supply ≤ (w'.pool ρ).total * (w.pool ρ).supply
  /-- Once interest is booked, the arithmetic of a redemption succeeds. -/
  redeems : ∀ ρ r m r' b e, w.reserves ρ = some r → w.mints r.shareMint = some m →
    accrueInner r w.clock = .ok r' → 0 < b → b ≤ m.supply → ∃ paid total,
      mulDiv b r'.totalUnderlying m.supply e = .ok paid ∧
      checkedSub r'.totalUnderlying paid e = .ok total
  /-- Shares redeemed as soon as they are minted pay the deposit, and what others leave in between. -/
  roundTrip : ∀ ρ mint source shares owner n w₁ k d w₂ mint' shares' destination owner' w₃,
    depositReserveLiquidity env w ρ mint source shares owner n = .ok w₁ →
    (w₁.pool ρ).supply = (w.pool ρ).supply + k → Between env ρ k w₁ d w₂ →
    redeemReserveCollateral env w₂ ρ mint' shares' destination owner' k = .ok w₃ →
    ∃ paid : Nat, (w₂.pool ρ).total = (w₃.pool ρ).total + paid ∧
      w₃.holding destination ≤ w₂.holding destination + paid ∧ (paid : ℚ) ≤ n + d
  /-- A redemption leaves less than a unit in the pool. -/
  redeemLeaves : ∀ ρ mint shares destination owner b w', Booked w ρ →
    redeemReserveCollateral env w ρ mint shares destination owner b = .ok w' →
    SharePool.left (w.pool ρ) (w'.pool ρ) < 1
  /-- A deposit leaves less than the price of a share. -/
  depositLeaves : ∀ ρ mint source shares owner n w', Booked w ρ → 0 < (w.pool ρ).supply →
    depositReserveLiquidity env w ρ mint source shares owner n = .ok w' →
    SharePool.left (w.pool ρ) (w'.pool ρ) < (w.pool ρ).worth 1

theorem Redeemed.holding_le (h : Redeemed env w ρ mint shares destination owner burned r m n w') :
    w'.holding destination ≤ w.holding destination + n := by
  have := h.moved.holding destination
  simp only [if_true] at this
  split_ifs at this <;> omega

/-- **The price of a share never falls**, in whatever order the lending program is called, by whom and when; and a deposit redeemed at once pays no more than was put in, but for what others leave in the pool in between. -/
theorem sharePrice (h : Open env w) : SharePrice env w where
  empty ρ := (h.listed.sound ρ).empty
  covered ρ := (h.listed.sound ρ).supply_le
  rises w' hstep ρ _ _ := (hstep.pool_step h.listed.reserves ρ).rate (h.listed.sound ρ)
  redeems ρ r m r' b e hr hm hac hpos hle := by
    have hfits := accrueInner_fits hac (h.listed.fits ρ r hr)
    obtain ⟨m', hm', -, hcovered⟩ := h.listed.reserves.shares ρ r hr
    obtain rfl := Option.some.inj (hm.symm.trans hm')
    have hsupply : m.supply < u64Bound :=
      lt_of_le_of_lt (hcovered.trans (Lending.accrued hac).grows) hfits
    have hpaid : b * r'.totalUnderlying / m.supply ≤ r'.totalUnderlying :=
      SharePool.paid_le (p := ⟨r'.totalUnderlying, m.supply⟩) hle
    refine ⟨_, _, mulDiv_eq_ok.mpr ⟨?_, hpaid.trans_lt hfits, rfl⟩, checkedSub_eq_ok.mpr ⟨rfl, hpaid⟩⟩
    have hlt : b * r'.totalUnderlying < u64Bound * u64Bound :=
      Nat.mul_lt_mul_of_lt_of_lt (hle.trans_lt hsupply) hfits
    exact hlt.trans_eq (by norm_num [u64Bound, u128Bound])
  roundTrip ρ mint source shares owner n w₁ k d w₂ mint' shares' destination owner' w₃ hdep hk hbet
      hred := by
    obtain ⟨r, m, k', hd⟩ := deposit_spec hdep
    obtain ⟨r', m', paid, hp⟩ := redeem_spec hred
    obtain ⟨hk', hworth⟩ := hd.worth_le h.listed
    have hpos := hd.mintedPos
    obtain rfl : k = k' := by omega
    obtain ⟨r₁, hre⟩ := hd.rewrites
    have hlisted := (Market.deposit hdep).listed h.listed
    obtain ⟨-, hb, -, hle⟩ := hbet.worth_le hlisted hpos (by omega) hre.booked
    obtain ⟨htotal, hpaid⟩ := hp.paid_le hb
    exact ⟨paid, htotal, hp.holding_le, by linarith⟩
  redeemLeaves ρ mint shares destination owner b w' hb hred := by
    obtain ⟨r, m, n, hd⟩ := redeem_spec hred
    exact hd.left_lt hb
  depositLeaves ρ mint source shares owner n w' hb hS hdep := by
    obtain ⟨r, m, k, hd⟩ := deposit_spec hdep
    exact hd.left_lt h.listed hb hS

/-! ### Calls from outside -/

theorem Elsewhere.of_eq (hr : w'.reserves = w.reserves) (hm : w'.mints = w.mints)
    (hc : w.clock ≤ w'.clock) : Elsewhere env w w' :=
  ⟨hr, hc, fun k m _ hk _ => by rw [hm, hk]⟩

/-- What wallets do on the chain is of this kind, unless they burn. -/
theorem market_of_outside {o : Outside} (h : Step env w (.outside o) w')
    (hb : ∀ mint source authority n, o ≠ .burn mint source authority n) : Market env w w' := by
  obtain ⟨hs, h⟩ := h
  cases o with
  | tick seconds =>
      cases h
      exact .elsewhere (.of_eq rfl rfl (by simp))
  | transfer =>
      obtain ⟨-, hw, -⟩ := tokenTransfer_spec h
      exact .elsewhere (.of_eq (by rw [hw]) (by rw [hw]) (by rw [hw]))
  | mintTo mint destination authority n =>
      obtain ⟨⟨m, -, hm, -, -, hauth, -, hms⟩, hw, -⟩ := tokenMintTo_spec h
      refine .elsewhere ⟨by rw [hw], by rw [hw], fun k m' l hk hl => ?_⟩
      rw [hms, Function.update_of_ne, hk]
      rintro rfl
      obtain rfl := Option.some.inj (hm.symm.trans hk)
      exact Env.canSign_ne_lending (hs authority (.head _)) l (hauth.symm.trans hl)
  | burn mint source authority n => exact absurd rfl (hb mint source authority n)
  | freezeAccount | thawAccount =>
      obtain ⟨a, -, rfl⟩ := tokenToggleFreeze_spec h
      exact .elsewhere (.of_eq rfl rfl le_rfl)
  | closeAccount =>
      obtain ⟨a, -, -, -, rfl⟩ := tokenClose_spec h
      exact .elsewhere (.of_eq rfl rfl le_rfl)
  | createMint k authority freezeAuthority decimals =>
      obtain ⟨hn, -, rfl⟩ := createMint_spec h
      refine .elsewhere ⟨rfl, le_rfl, fun k' m' l hk hl => ?_⟩
      rw [World.setMint_mints, Function.update_of_ne (by rintro rfl; simp [hn] at hk), hk]
  | createTokenAccount =>
      obtain ⟨-, -, -, rfl⟩ := createTokenAccount_spec h
      exact .elsewhere (.of_eq rfl rfl le_rfl)
  | initializeReserve => exact .initializeReserve h
  | accrueReserve =>
      simp only [Action.run, Outside.run, Except.bind_eq_ok, Except.pure_eq_ok, Prod.exists] at h
      obtain ⟨w₁, total, supply, h, rfl⟩ := h
      exact .accrue h
  | updateApyBps => exact .updateApyBps h
  | depositReserveLiquidity => exact .deposit h
  | redeemReserveCollateral => exact .redeem h

theorem Open.next (h : Open env w) (hstep : Market env w w') : Open env w' := by
  obtain ⟨w₀, h₀, hrun⟩ := h
  exact ⟨w₀, h₀, hrun.tail hstep⟩

theorem Open.perform {os : List Outside} (h : Open env w)
    (hb : ∀ o ∈ os, ∀ mint source authority n, o ≠ .burn mint source authority n)
    (hp : w.perform env (os.map .outside) = .ok w') : Open env w' := by
  refine foldlM_inv h (fun w a w' ha hw hs => ?_) hp
  obtain ⟨o, ho, rfl⟩ := List.mem_map.mp ha
  simp only [Except.bind_eq_ok, require_eq_ok, exists_const, List.all_eq_true] at hs
  exact hw.next (market_of_outside ⟨hs.1, hs.2⟩ (hb o ho))

end Lending

namespace Localnet

/-- Wallet 10 has seven of the mint of token 1, wallet 11 has two and puts them in the reserve, and a year goes by; somebody funds the interest. -/
def market : List Outside :=
  [.createMint usd (key 9) none 6, .initializeReserve usd (key 9) 5000,
    .createTokenAccount (key 60) usd (key 10), .createTokenAccount (key 61) shareMint (key 10),
    .createTokenAccount (key 62) usd (key 11), .createTokenAccount (key 63) shareMint (key 11),
    .mintTo usd (key 60) (key 9) 7, .mintTo usd (key 62) (key 9) 2,
    .depositReserveLiquidity reserve usd (key 62) (key 63) (key 11) 2, .tick 31536000,
    .accrueReserve reserve shareMint,
    .mintTo usd (lendingAddress (.liquidityVault usd)) (key 9) 1]

theorem market_burns_nothing : ∀ o ∈ market, ∀ mint source authority n,
    o ≠ .burn mint source authority n := by
  simp [market]

/-- Wallet 10 pays three in. -/
def payIn : Outside := .depositReserveLiquidity reserve usd (key 60) (key 61) (key 10) 3

/-- Wallet 11 takes one share out. -/
def takeOne : Outside := .redeemReserveCollateral reserve usd (key 63) (key 62) (key 11) 1

/-- Wallet 10 takes its two shares out. -/
def takeTwo : Outside := .redeemReserveCollateral reserve usd (key 61) (key 60) (key 10) 2

end Localnet

open Localnet in
/-- Two shares, worth three. -/
theorem sharePrice_market : ∃ w, Lending.Open localnet w ∧ w.pool reserve = ⟨3, 2⟩ ∧
    Lending.SharePrice localnet w := by
  obtain ⟨w, hw, hc⟩ := World.runsTo_iff.mp (show (World.genesis 1).runsTo localnet
    (market.map .outside) (fun w => decide (w.pool reserve = ⟨3, 2⟩)) = true by decide +kernel)
  have hopen : Lending.Open localnet w :=
    Lending.Open.perform ⟨.genesis 1, fun _ => rfl, .refl⟩ market_burns_nothing hw
  exact ⟨w, hopen, of_decide_eq_true hc, Lending.sharePrice hopen⟩

open Localnet in
/-- Three paid in for two shares, which pay four once the other two shares have been redeemed one at a time. -/
theorem roundTrip_gains : ∃ w w₁ w₂ w₃ d, Lending.Open localnet w ∧
    Lending.depositReserveLiquidity localnet w reserve usd (Localnet.key 60) (Localnet.key 61)
      (Localnet.key 10) 3 = .ok w₁ ∧
    (w₁.pool reserve).supply = (w.pool reserve).supply + 2 ∧
    Lending.Between localnet reserve 2 w₁ d w₂ ∧
    Lending.redeemReserveCollateral localnet w₂ reserve usd (Localnet.key 61) (Localnet.key 60)
      (Localnet.key 10) 2 = .ok w₃ ∧
    (w₂.pool reserve).total = (w₃.pool reserve).total + 4 ∧
    w₃.holding (Localnet.key 60) = w₂.holding (Localnet.key 60) + 4 := by
  obtain ⟨w, hw, hc⟩ := World.runsTo_iff.mp (show (World.genesis 1).runsTo localnet
    (market.map .outside) (fun w => w.runsTo localnet [.outside payIn] fun w₁ =>
      w₁.runsTo localnet [.outside takeOne] fun w' => w'.runsTo localnet [.outside takeOne] fun w₂ =>
      w₂.runsTo localnet [.outside takeTwo] fun w₃ => decide (
        (w₁.pool reserve).supply = (w.pool reserve).supply + 2 ∧
        (w'.clock = w₁.clock ∧ 2 ≤ (w'.pool reserve).supply) ∧
        (w₂.clock = w'.clock ∧ 2 ≤ (w₂.pool reserve).supply) ∧
        (w₂.pool reserve).total = (w₃.pool reserve).total + 4 ∧
        w₃.holding (Localnet.key 60) = w₂.holding (Localnet.key 60) + 4)) = true by decide +kernel)
  have hopen : Lending.Open localnet w :=
    Lending.Open.perform ⟨.genesis 1, fun _ => rfl, .refl⟩ market_burns_nothing hw
  obtain ⟨w₁, h₁, hc⟩ := World.runsTo_singleton.mp hc
  obtain ⟨w', h', hc⟩ := World.runsTo_singleton.mp hc
  obtain ⟨w₂, h₂, hc⟩ := World.runsTo_singleton.mp hc
  obtain ⟨w₃, h₃, hc⟩ := World.runsTo_singleton.mp hc
  obtain ⟨hk, ⟨hclock, hout⟩, ⟨hclock', hout'⟩, htotal, hpaid⟩ := of_decide_eq_true hc
  have hbetween := (Lending.Between.start.next (.redeem h'.ran) hclock hout).next (.redeem h₂.ran)
    hclock' hout'
  exact ⟨w, w₁, w₂, w₃, _, hopen, h₁.ran, hk, hbetween, h₃.ran, htotal, hpaid⟩

end Ryvo
