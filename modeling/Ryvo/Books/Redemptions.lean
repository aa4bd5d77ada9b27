import Ryvo.Books.Positions

/-!
# Books — Redemptions

What a withdrawal of a yield-bearing token takes out of the reserve.  The amounts to redeem are converted to the reserve's shares at the rate the accrual has found; the lending program pays at the rate it stands at, and that is a higher one when the second amount is redeemed.

* `redeem_within_one_iff`: what converting an amount and redeeming it loses.
* `withdrawals_within`: the two redemptions of a withdrawal, and the one of a claim, are paid for by the amount they are booked at.
-/

namespace Ryvo

variable {env : Env} {w w' w₁ : World} {s s' : YieldStrategy} {r r₁ : Reserve} {m m₁ : Mint}
variable {a : TokenAccount} {snap : ReserveSnapshot} {A c c₁ c₂ p p₁ p₂ net fee gross n u : Nat}
variable {destination : Pubkey}

/-- What the lending program pays for its shares. -/
theorem mulDiv_eq_worth {T S : Nat} {e : Error} (hT : T < u64Bound) (hS : S < u64Bound)
    (h : c ≤ S) : Lending.mulDiv c T S e = .ok (Pool.worth c T S) := by
  have hle : c * T / S ≤ T := Nat.div_le_of_le_mul (Nat.mul_le_mul_right _ h)
  have hprod : c * T < u128Bound := by
    have := Nat.mul_lt_mul'' (lt_of_le_of_lt h hS) hT
    simp only [u64Bound, u128Bound] at this ⊢
    omega
  exact Lending.mulDiv_eq_ok.mpr ⟨hprod, by omega, rfl⟩

/-- Converting an amount to the reserve's shares, at a rate of at least one. -/
theorem usdcToCusdc_of (hrate : snap.shareSupply ≤ snap.totalUnderlying)
    (hfits : snap.totalUnderlying < u64Bound) (hu : u ≤ snap.totalUnderlying) :
    usdcToCusdcRoundDown u snap = .ok (u * snap.shareSupply / snap.totalUnderlying) := by
  have hle : u * snap.shareSupply / snap.totalUnderlying ≤ u :=
    Nat.div_le_of_le_mul (by rw [Nat.mul_comm u]; exact Nat.mul_le_mul_right _ hrate)
  rcases Nat.eq_zero_or_pos u with rfl | hu₀
  · simp [usdcToCusdcRoundDown]
  · have hprod : u * snap.shareSupply < u128Bound := by
      have := Nat.mul_lt_mul'' (lt_of_le_of_lt hu hfits) (lt_of_le_of_lt hrate hfits)
      simp only [u64Bound, u128Bound] at this ⊢
      omega
    exact (usdcToCusdc_eq_ok hu₀).mpr ⟨rfl, by omega, hprod, by omega⟩

/-- The shares an amount converts to are some of all there are. -/
theorem converted_le (hu : u ≤ snap.totalUnderlying) :
    u * snap.shareSupply / snap.totalUnderlying ≤ snap.shareSupply :=
  Nat.div_le_of_le_mul (Nat.mul_le_mul_right _ hu)

/-! ### One redemption -/

/-- An amount, the shares it converts to and what the lending program pays for them at the same rate. -/
structure RoundTrip (snap : ReserveSnapshot) (usdc cusdc paid : Nat) : Prop where
  converted : usdcToCusdcRoundDown usdc snap = .ok cusdc
  valued : cusdcToUsdc cusdc snap = .ok paid
  paid : Lending.mulDiv cusdc snap.totalUnderlying snap.shareSupply (.mockYield .mathOverflow)
    = .ok paid

theorem roundTrip (hrate : snap.shareSupply ≤ snap.totalUnderlying)
    (hfits : snap.totalUnderlying < u64Bound) (hu : u ≤ snap.totalUnderlying) :
    RoundTrip snap u (u * snap.shareSupply / snap.totalUnderlying)
      (Pool.worth (u * snap.shareSupply / snap.totalUnderlying) snap.totalUnderlying
        snap.shareSupply) := by
  have hpaid := @mulDiv_eq_worth _ _ _ (.mockYield .mathOverflow) hfits (by omega) (converted_le hu)
  obtain ⟨h₁, h₂, -⟩ := Lending.mulDiv_eq_ok.mp hpaid
  exact ⟨usdcToCusdc_of hrate hfits hu, cusdcToUsdc_eq_ok.mpr ⟨rfl, .inr (.inr ⟨h₁, h₂⟩)⟩, hpaid⟩

/-- **A redemption under-pays by at most one unit** exactly where converting the amount to the reserve's shares leaves a remainder worth at most one of them.  It never over-pays. -/
theorem redeem_within_one_iff (hpos : 0 < snap.shareSupply)
    (hrate : snap.shareSupply ≤ snap.totalUnderlying) (hfits : snap.totalUnderlying < u64Bound)
    (hu : u ≤ snap.totalUnderlying) : ∃ c p, RoundTrip snap u c p ∧ p ≤ u ∧
      (u - 1 ≤ p ∧ p ≤ u ↔ u * snap.shareSupply % snap.totalUnderlying ≤ snap.shareSupply) := by
  have htrip := roundTrip hrate hfits hu
  have hle : Pool.worth (u * snap.shareSupply / snap.totalUnderlying) snap.totalUnderlying
      snap.shareSupply ≤ u := by
    refine Nat.div_le_of_le_mul ?_
    rw [Nat.mul_comm snap.shareSupply]
    exact Nat.div_mul_le_self _ _
  have hdust := @Pool.dust_iff u snap.shareSupply snap.totalUnderlying 1 hpos
  rw [Nat.one_mul] at hdust
  refine ⟨_, _, htrip, hle, ?_⟩
  rw [← hdust]
  constructor
  · intro h
    omega
  · intro h
    exact ⟨by omega, hle⟩

/-- Three units at one to one. -/
theorem redeem_at_par : ∃ c p, RoundTrip ⟨5, 5⟩ 3 c p ∧ p ≤ 3 := by
  obtain ⟨c, p, h, hle, -⟩ := @redeem_within_one_iff ⟨5, 5⟩ 3 (by decide) (by decide) (by decide) (by decide)
  exact ⟨c, p, h, hle⟩

/-- At seven for five shares, four convert to two shares, and two shares are paid two. -/
theorem redeem_loses_two : RoundTrip ⟨7, 5⟩ 4 2 2 ∧ ¬ ∀ snap u c p, 0 < snap.shareSupply →
    snap.shareSupply ≤ snap.totalUnderlying → snap.totalUnderlying < u64Bound →
    u ≤ snap.totalUnderlying → RoundTrip snap u c p → u - 1 ≤ p ∧ p ≤ u := by
  have htrip : RoundTrip ⟨7, 5⟩ 4 2 2 := ⟨by decide, by decide, by decide⟩
  refine ⟨htrip, fun h => ?_⟩
  exact absurd (h _ _ _ _ (by decide) (by decide) (by decide) (by decide) htrip).1 (by decide)

/-! ### Two in a row -/

/-- `net` and `fee` redeemed one after the other out of a vault of `A` shares, both converted at `snap`: what is burned, who is paid at most what, and what the rest of the vault is worth. -/
structure PaysWithin (snap : ReserveSnapshot) (A net fee c₁ c₂ p₁ p₂ : Nat) : Prop where
  net_shares : usdcToCusdcRoundDown net snap = .ok c₁
  fee_shares : usdcToCusdcRoundDown fee snap = .ok c₂
  net_paid : Lending.mulDiv c₁ snap.totalUnderlying snap.shareSupply (.mockYield .mathOverflow)
    = .ok p₁
  fee_paid : Lending.mulDiv c₂ (snap.totalUnderlying - p₁) (snap.shareSupply - c₁)
    (.mockYield .mathOverflow) = .ok p₂
  burned : c₁ + c₂ ≤ A
  user : p₁ ≤ net
  both : p₁ + p₂ ≤ net + fee
  total : p₁ + p₂ ≤ snap.totalUnderlying
  vault : ∃ v, cusdcToUsdc (A - (c₁ + c₂))
      ⟨snap.totalUnderlying - (p₁ + p₂), snap.shareSupply - (c₁ + c₂)⟩ = .ok v ∧
    Pool.worth A snap.totalUnderlying snap.shareSupply - (net + fee) ≤ v

theorem paysWithin (hpos : 0 < snap.shareSupply) (hrate : snap.shareSupply ≤ snap.totalUnderlying)
    (hfits : snap.totalUnderlying < u64Bound) (hA : A ≤ snap.shareSupply)
    (hgross : net + fee ≤ Pool.worth A snap.totalUnderlying snap.shareSupply) :
    ∃ c₁ c₂ p₁ p₂, PaysWithin snap A net fee c₁ c₂ p₁ p₂ := by
  obtain ⟨T, S⟩ := snap
  simp only at hpos hrate hfits hA hgross
  have hworth : Pool.worth A T S * S ≤ A * T := Nat.div_mul_le_self _ _
  have hT : Pool.worth A T S ≤ T := Nat.div_le_of_le_mul (Nat.mul_le_mul_right _ hA)
  -- What each amount converts to is worth no more than the amount, so the two fit in the vault.
  have h₁ : net * S / T * T ≤ net * S := Nat.div_mul_le_self _ _
  have h₂ : fee * S / T * T ≤ fee * S := Nat.div_mul_le_self _ _
  have hnet := @usdcToCusdc_of ⟨T, S⟩ net hrate hfits (by simp only; omega)
  have hfee := @usdcToCusdc_of ⟨T, S⟩ fee hrate hfits (by simp only; omega)
  have hfeez : fee * S / T = 0 → fee * S / T * T = 0 := fun h => by rw [h, Nat.zero_mul]
  simp only at hnet hfee
  generalize net * S / T = c₁ at h₁ hnet
  generalize fee * S / T = c₂ at h₂ hfee
  have hboth : (c₁ + c₂) * T ≤ (net + fee) * S := by
    rw [Nat.add_mul, Nat.add_mul]
    exact Nat.add_le_add h₁ h₂
  have hburned : c₁ + c₂ ≤ A := by
    refine Nat.le_of_mul_le_mul_right (hboth.trans ?_) (show 0 < T by omega)
    exact (Nat.mul_le_mul_right S hgross).trans hworth
  have hp₁ : Pool.worth c₁ T S * S ≤ c₁ * T := Nat.div_mul_le_self _ _
  have hp₂ : Pool.worth c₂ (T - Pool.worth c₁ T S) (S - c₁) * (S - c₁)
      ≤ c₂ * (T - Pool.worth c₁ T S) := Nat.div_mul_le_self _ _
  have hle₁ : Pool.worth c₁ T S ≤ T :=
    Nat.div_le_of_le_mul (Nat.mul_le_mul_right _ (by omega))
  have hpaid₁ := @mulDiv_eq_worth c₁ T S (.mockYield .mathOverflow) hfits (by omega) (by omega)
  have hpaid₂ := @mulDiv_eq_worth c₂ (T - Pool.worth c₁ T S) (S - c₁) (.mockYield .mathOverflow)
    (by omega) (by omega) (by omega)
  have hle₂ : Pool.worth c₂ (T - Pool.worth c₁ T S) (S - c₁) ≤ T - Pool.worth c₁ T S :=
    Nat.div_le_of_le_mul (Nat.mul_le_mul_right _ (by omega))
  have hzero : c₂ = 0 → Pool.worth c₂ (T - Pool.worth c₁ T S) (S - c₁) = 0 := by
    intro hz
    simp [hz, Pool.worth]
  generalize Pool.worth c₂ (T - Pool.worth c₁ T S) (S - c₁) = p₂ at hp₂ hpaid₂ hle₂ hzero
  generalize Pool.worth c₁ T S = p₁ at hp₁ hp₂ hle₁ hpaid₁ hpaid₂ hle₂
  have htwice := Pool.redeem_twice hp₁ hp₂ (by omega) hzero hle₁
  -- The vault is left as one redemption of both would leave it.
  have hleft := Pool.worth_redeem_own htwice hburned hA hboth
  refine ⟨c₁, c₂, p₁, p₂, hnet, hfee, hpaid₁, hpaid₂, hburned,
    Nat.le_of_mul_le_mul_right (hp₁.trans h₁) hpos,
    Nat.le_of_mul_le_mul_right (htwice.trans hboth) hpos, by simp only; omega, _,
    cusdcToUsdc_eq_ok.mpr ⟨rfl, ?_⟩, by simp only; omega⟩
  have hvalue := @mulDiv_eq_worth (A - (c₁ + c₂)) (T - (p₁ + p₂)) (S - (c₁ + c₂))
    (.mockYield .mathOverflow) (by omega) (by omega) (by omega)
  obtain ⟨h, h', -⟩ := Lending.mulDiv_eq_ok.mp hvalue
  exact .inr (.inr ⟨h, h'⟩)

/-! ### In the handlers -/

/-- What one call to redeem did to the reserve, its share mint and the accounts; no call is made for nothing. -/
inductive Leg (env : Env) (w : World) (s : YieldStrategy) (destination : Pubkey) (shares : Nat)
    (r : Reserve) (m : Mint) (paid : Nat) (w' : World) : Prop
  | redeemed : Lending.Redeemed env w s.reserve s.underlyingMint s.shareVault destination
      (env.address .globalConfig) shares r m paid w' → Leg ..
  | nothing : shares = 0 → paid = 0 → w' = w → Leg ..

theorem redeemed_of_cpi (hr : w.reserves s.reserve = some r) (hs : s.shareMint = r.shareMint)
    (hm : w.mints s.shareMint = some m) (hb : w.clock ≤ r.lastAccrualTs)
    (h : cpiRedeemReserveCollateral env w s destination c = .ok w') :
    Lending.Redeemed env w s.reserve s.underlyingMint s.shareVault destination
      (env.address .globalConfig) c r m (c * r.totalUnderlying / m.supply) w' := by
  obtain ⟨r₁, hr₁, -, -, h⟩ := cpiRedeem_spec h
  obtain rfl := Option.some.inj (hr.symm.trans hr₁)
  obtain ⟨r₂, m₂, paid, hd⟩ := Lending.redeem_spec h
  obtain rfl := Option.some.inj (hr.symm.trans hd.found)
  obtain rfl := Option.some.inj (hm.symm.trans (hs ▸ hd.mintFound))
  obtain ⟨rfl, -⟩ := hd.rate hb
  exact hd

/-- A leg pays at the rate the reserve stands at, and moves the rate. -/
theorem Leg.of (hr : w.reserves s.reserve = some r) (hs : s.shareMint = r.shareMint)
    (hm : w.mints s.shareMint = some m) (hb : w.clock ≤ r.lastAccrualTs)
    (hu : usdcToCusdcRoundDown u snap = .ok c)
    (h : redeemPositive env w s destination u c = .ok w') :
    Leg env w s destination c r m (c * r.totalUnderlying / m.supply) w' ∧
      w'.reserves s.reserve = some { r with
        totalUnderlying := r.totalUnderlying - c * r.totalUnderlying / m.supply } ∧
      w'.mints s.shareMint = some { m with supply := m.supply - c } ∧ w'.clock = w.clock := by
  unfold redeemPositive at h
  split at h
  · have hd := redeemed_of_cpi hr hs hm hb h
    refine ⟨.redeemed hd, (hd.rate hb).2.2, ?_, by rw [hd.frame]⟩
    rw [hd.mints, hs, Function.update_self]
  · rename_i hn
    cases h
    obtain rfl : c = 0 := by
      by_contra hc
      refine hn ⟨?_, by omega⟩
      by_contra hz
      obtain rfl : u = 0 := by omega
      rw [usdcToCusdcRoundDown, if_pos rfl, Except.ok.injEq] at hu
      exact hc hu.symm
    rw [Nat.zero_mul, Nat.zero_div]
    exact ⟨.nothing rfl rfl rfl, hr, hm, rfl⟩

/-- The reserve and the mint a withdrawal finds, as its accrual has left them. -/
structure Finds (w : World) (s : YieldStrategy) (snap : ReserveSnapshot) (r : Reserve) (m : Mint) : Prop where
  reserve : w.reserves s.reserve = some r
  mint : w.mints s.shareMint = some m
  shareMint : s.shareMint = r.shareMint
  booked : w.clock ≤ r.lastAccrualTs
  snapshot : snap = ⟨r.totalUnderlying, m.supply⟩

theorem Accrues.finds {r' : Reserve} {s₁ : YieldStrategy} (h : Accrues env w s r r' m a s₁) :
    Finds (w.setReserve s.reserve r') s₁ ⟨r'.totalUnderlying, m.supply⟩ r' m := by
  obtain ⟨hr, hm, -, hb⟩ := h.stands
  obtain ⟨e₁, -, e₃, -⟩ := h.booked.accounts
  exact ⟨by rw [e₁]; exact hr, by rw [e₃]; exact hm, e₃.trans h.shareMint_eq, hb, rfl⟩

/-- Two calls to redeem, the second at the rate the first has left, and what is left of the reserve and its shares after both. -/
structure Legs (env : Env) (w : World) (s : YieldStrategy) (snap : ReserveSnapshot)
    (destination feeRecipient : Pubkey) (c₁ c₂ p₁ p₂ : Nat) (w' : World) : Prop where
  calls : ∃ w₁ r m r₁ m₁, Leg env w s destination c₁ r m p₁ w₁ ∧
    Leg env w₁ s feeRecipient c₂ r₁ m₁ p₂ w'
  reserve : ∃ r, w'.reserves s.reserve = some r ∧
    r.totalUnderlying = snap.totalUnderlying - (p₁ + p₂)
  mint : ∃ m, w'.mints s.shareMint = some m ∧ m.supply = snap.shareSupply - (c₁ + c₂)

/-- The amounts decide which calls are made. -/
theorem Legs.of_pays (hf : Finds w s snap r m) (hp : PaysWithin snap A net fee c₁ c₂ p₁ p₂)
    (h₁ : redeemPositive env w s destination net c₁ = .ok w₁)
    (h₂ : redeemPositive env w₁ s feeRecipient fee c₂ = .ok w') :
    Legs env w s snap destination feeRecipient c₁ c₂ p₁ p₂ w' := by
  have hp₁ := (Lending.mulDiv_eq_ok.mp hp.net_paid).2.2
  have hp₂ := (Lending.mulDiv_eq_ok.mp hp.fee_paid).2.2
  obtain ⟨hr, hm, hs, hb, rfl⟩ := hf
  obtain ⟨hleg₁, hr₁, hm₁, hclock⟩ := Leg.of hr hs hm hb hp.net_shares h₁
  obtain ⟨hleg₂, hr₂, hm₂, -⟩ := Leg.of hr₁ hs hm₁ (hclock ▸ hb) hp.fee_shares h₂
  simp only at hp₁ hp₂
  rw [← hp₁] at hleg₁
  rw [← hp₁, ← hp₂] at hleg₂ hr₂
  exact ⟨⟨w₁, _, _, _, _, hleg₁, hleg₂⟩, ⟨_, hr₂, by simp only; omega⟩, ⟨_, hm₂, by simp only; omega⟩⟩

/-- The accrual at the head of a handler: the strategy it leaves, the rate it finds, and the shares in the vault. -/
structure Opens (env : Env) (w : World) (t : U16) (snap : ReserveSnapshot) (A : Nat)
    (s₁ : YieldStrategy) (w₁ : World) : Prop where
  accrual : ∃ s, w.yieldStrategies t = some s ∧ accrueStrategy env w s = .ok (w₁, s₁, snap)
  vault : ∃ a, w₁.tokenAccounts s₁.shareVault = some a ∧ a.amount = A

theorem Opens.finds (h : Opens env w t snap A s w₁) : ∃ r m, Finds w₁ s snap r m ∧
    s.lastSettledUnderlying = Pool.worth A snap.totalUnderlying snap.shareSupply ∧
    w₁.participantBuckets = w.participantBuckets := by
  obtain ⟨s₀, -, hacc⟩ := h.accrual
  obtain ⟨b, hb, rfl⟩ := h.vault
  obtain ⟨r, r', m, a, ha, rfl, rfl⟩ := accrueStrategy_spec hacc
  have hvault : s.shareVault = s₀.shareVault := by rw [ha.booked.keeps]
  rw [World.setReserve_tokenAccounts, hvault, ha.vault] at hb
  obtain rfl := Option.some.inj hb
  exact ⟨r', m, ha.finds, ha.lastSettled, rfl⟩

/-- The books at the end of a handler: the strategy's, with whatever the calls have left of the rest. -/
structure Closes (w₁ : World) (t : U16) (booked : Nat) (s₂ : YieldStrategy) (w' : World) : Prop where
  strategy : w'.yieldStrategies t = some s₂
  settled : s₂.lastSettledUnderlying = booked
  accounts : w'.tokenAccounts = w₁.tokenAccounts
  reserves : w'.reserves = w₁.reserves
  mints : w'.mints = w₁.mints

/-- Nothing converts to nothing, and nothing is paid for it. -/
theorem PaysWithin.claim (h : PaysWithin snap A gross 0 c₁ c₂ p₁ p₂) :
    PaysWithin snap A gross 0 c₁ 0 p₁ 0 := by
  obtain rfl : 0 = c₂ := by
    have := h.fee_shares
    rwa [usdcToCusdcRoundDown, if_pos rfl, Except.ok.injEq] at this
  obtain rfl : p₂ = 0 := by
    rw [(Lending.mulDiv_eq_ok.mp h.fee_paid).2.2, Nat.zero_mul, Nat.zero_div]
  exact h

namespace ExecuteWithdrawalYieldBearing

variable {t : U16} {p : U32} {k feeAccount : Pubkey}

/-- What the bucket at `k` has pending for a participant. -/
def Pending (w : World) (k : Pubkey) (t : U16) (p : U32) (n : Nat) : Prop :=
  ∃ data e, w.participantBuckets k = some data ∧ data.readTokenWithdrawalFromData p t = .ok e ∧
    e.withdrawingBalance = n

/-- An execution makes the two calls, for the net amount and the fee. -/
theorem handler_legs (ho : Opens env w t snap A s w₁) (hn : Pending w k t p n)
    (hg : s.sharesToUsdc n = .ok gross)
    (hpays : ∀ net fee, net + fee = gross → ∃ c₁ c₂ p₁ p₂, PaysWithin snap A net fee c₁ c₂ p₁ p₂)
    (h : handler env w k destination feeAccount t p = .ok w') :
    ∃ net fee c₁ c₂ p₁ p₂ w₂ s', net + fee = gross ∧ PaysWithin snap A net fee c₁ c₂ p₁ p₂ ∧
      Legs env w₁ s snap destination feeAccount c₁ c₂ p₁ p₂ w₂ ∧
      Closes w₂ t (Pool.worth A snap.totalUnderlying snap.shareSupply - gross) s' w' ∧
      s'.totalUserShares + n = s.totalUserShares := by
  obtain ⟨r, m, hf, hbooked, hbuckets⟩ := ho.finds
  obtain ⟨s₀, hs₀, hacc⟩ := ho.accrual
  obtain ⟨data, e, hdata, he, rfl⟩ := hn
  simp only [handler, World.getYieldStrategy, World.getParticipantBucket, Except.bind_eq_ok, okOr_eq_ok,
    Prod.exists, Except.pure_eq_ok, require_eq_ok, exists_const] at h
  obtain ⟨c, -, s₀', hs₀', d, -, -, f, -, -, -, te, -, -, -, _, -, w₁', s₁, snap', hacc', data', hdata',
    e', he', -, -, -, -, w₃, s', hpay, rfl⟩ := h
  obtain rfl := Option.some.inj (hs₀.symm.trans hs₀')
  obtain ⟨rfl, rfl, rfl⟩ : w₁ = w₁' ∧ s = s₁ ∧ snap = snap' := by
    simpa using Except.ok.inj (hacc.symm.trans hacc')
  rw [hbuckets, hdata] at hdata'
  obtain rfl := Option.some.inj hdata'
  obtain rfl := Except.ok.inj (he.symm.trans he')
  unfold settlePending at hpay
  split at hpay
  · -- Settlements have drained it: nothing is worth nothing.
    rename_i hz
    rw [hz] at hg ⊢
    simp only [YieldStrategy.sharesToUsdc, Except.bind_eq_ok, checkedMul_eq_ok, tryFrom_eq_ok] at hg
    obtain ⟨_, ⟨rfl, -⟩, rfl, -⟩ := hg
    simp only [Except.bind_eq_ok, Prod.exists, Except.pure_eq_ok, Prod.mk.injEq,
      World.editParticipantBucket] at hpay
    obtain ⟨_, _, ⟨_, -, _, _, -, rfl, -⟩, _, -, _, -, _, -, rfl, rfl⟩ := hpay
    obtain ⟨c₁, c₂, p₁, p₂, hp⟩ := hpays 0 0 (by simp)
    have hnone : ∀ {destination : Pubkey} {c : Nat},
        redeemPositive env w₁ s destination 0 c = .ok w₁ := by simp [redeemPositive]
    refine ⟨0, 0, c₁, c₂, p₁, p₂, w₁, s, by simp, hp, .of_pays hf hp hnone hnone,
      ⟨Function.update_self _ _ _, by simpa using hbooked, rfl, rfl, rfl⟩, rfl⟩
  · simp only [Except.bind_eq_ok, Prod.exists, Except.pure_eq_ok, Prod.mk.injEq, payOut, feeAmount,
      World.editParticipantBucket] at hpay
    obtain ⟨w₂, s₂, ⟨gross', hg', fee, ⟨minFee, -, product, -, pct, -, rfl⟩, c₁, hc₁, c₂, hc₂, w₄, h₁,
      w₅, h₂, s₃, hrem, rfl, rfl⟩, _, _, ⟨_, -, _, _, -, rfl, -⟩, _, -, rfl, rfl⟩ := hpay
    obtain rfl := Except.ok.inj (hg.symm.trans hg')
    have hle := withdrawalFee_le pct minFee gross
    obtain ⟨c₁', c₂', p₁, p₂, hp⟩ := hpays _ _ (Nat.sub_add_cancel hle)
    obtain rfl := Except.ok.inj (hc₁.symm.trans hp.net_shares)
    obtain rfl := Except.ok.inj (hc₂.symm.trans hp.fee_shares)
    obtain ⟨hshares, hs₃⟩ := YieldStrategy.removeUserShares_eq_ok.mp hrem
    refine ⟨_, _, c₁, c₂, p₁, p₂, w₅, s₃, Nat.sub_add_cancel hle, hp, .of_pays hf hp h₁ h₂,
      ⟨Function.update_self _ _ _, ?_, rfl, rfl, rfl⟩, ?_⟩ <;> rw [hs₃]
    · exact congrArg (· - gross) hbooked
    · exact Nat.sub_add_cancel hshares

end ExecuteWithdrawalYieldBearing

namespace ClaimProtocolYieldFee

/-- A claim makes one call, for the amount. -/
theorem handler_legs {t : U16} {owner feeAccount : Pubkey} (ho : Opens env w t snap A s w₁)
    (hp : PaysWithin snap A gross 0 c 0 p 0)
    (h : handler env w owner feeAccount t gross = .ok w') :
    ∃ w₂ s', Legs env w₁ s snap feeAccount feeAccount c 0 p 0 w₂ ∧
      Closes w₂ t (Pool.worth A snap.totalUnderlying snap.shareSupply - gross) s' w' ∧
      s'.protocolOwedUnderlying + gross = s.protocolOwedUnderlying := by
  obtain ⟨r, m, hf, hbooked, -⟩ := ho.finds
  obtain ⟨s₀, hs₀, hacc⟩ := ho.accrual
  simp only [handler, World.getYieldStrategy, Except.bind_eq_ok, okOr_eq_ok, Prod.exists,
    Except.pure_eq_ok, require_eq_ok, exists_const] at h
  obtain ⟨_, -, s₀', hs₀', f, -, -, -, hgross, -, -, w₁', s₁, snap', hacc', -, c', hc, w₂, hred, s₂,
    htake, _, -, rfl⟩ := h
  obtain rfl := Option.some.inj (hs₀.symm.trans hs₀')
  obtain ⟨rfl, rfl, rfl⟩ : w₁ = w₁' ∧ s = s₁ ∧ snap = snap' := by
    simpa using Except.ok.inj (hacc.symm.trans hacc')
  obtain rfl := Except.ok.inj (hc.symm.trans hp.net_shares)
  obtain ⟨howed, hs₂⟩ := YieldStrategy.takeProtocolOwed_eq_ok.mp htake
  have hpos : 0 < c' := (redeemed_of_cpi hf.reserve hf.shareMint hf.mint hf.booked hred).positive
  have h₁ : redeemPositive env w₁ s feeAccount gross c' = .ok w₂ := by
    rw [redeemPositive, if_pos ⟨hgross, hpos⟩, hred]
  have h₂ : redeemPositive env w₂ s feeAccount 0 0 = .ok w₂ := by simp [redeemPositive]
  refine ⟨w₂, s₂, .of_pays hf hp h₁ h₂, ⟨Function.update_self _ _ _, ?_, rfl, rfl, rfl⟩, ?_⟩ <;>
    rw [hs₂]
  · exact congrArg (· - gross) hbooked
  · exact Nat.sub_add_cancel howed

end ClaimProtocolYieldFee

/-- **A yield withdrawal never pays out more than it books.**  Whatever part of the vault's value is withdrawn, and however it is split between the user and the fee, the two redemptions burn no more than the vault has, pay the user no more than the net amount and both together no more than the gross, and leave the vault worth what is booked for it; `execute_withdrawal_yield_bearing` makes these redemptions and books the gross amount.  So it is with the one redemption of `claim_protocol_yield_fee`. -/
theorem withdrawals_within (hpos : 0 < snap.shareSupply)
    (hrate : snap.shareSupply ≤ snap.totalUnderlying) (hfits : snap.totalUnderlying < u64Bound)
    (hA : A ≤ snap.shareSupply)
    (hgross : gross ≤ Pool.worth A snap.totalUnderlying snap.shareSupply) :
    (∀ net fee, net + fee = gross → ∃ c₁ c₂ p₁ p₂, PaysWithin snap A net fee c₁ c₂ p₁ p₂) ∧
    (∃ c p, PaysWithin snap A gross 0 c 0 p 0) ∧
    (∀ env w t s w₁ k p n destination feeAccount w', Opens env w t snap A s w₁ →
      ExecuteWithdrawalYieldBearing.Pending w k t p n → s.sharesToUsdc n = .ok gross →
      ExecuteWithdrawalYieldBearing.handler env w k destination feeAccount t p = .ok w' →
      ∃ net fee c₁ c₂ p₁ p₂ w₂ s', net + fee = gross ∧ PaysWithin snap A net fee c₁ c₂ p₁ p₂ ∧
        Legs env w₁ s snap destination feeAccount c₁ c₂ p₁ p₂ w₂ ∧
        Closes w₂ t (Pool.worth A snap.totalUnderlying snap.shareSupply - gross) s' w' ∧
        s'.totalUserShares + n = s.totalUserShares) ∧
    ∀ env w t s w₁ owner feeAccount w', Opens env w t snap A s w₁ →
      ClaimProtocolYieldFee.handler env w owner feeAccount t gross = .ok w' →
      ∃ c p w₂ s', PaysWithin snap A gross 0 c 0 p 0 ∧
        Legs env w₁ s snap feeAccount feeAccount c 0 p 0 w₂ ∧
        Closes w₂ t (Pool.worth A snap.totalUnderlying snap.shareSupply - gross) s' w' ∧
        s'.protocolOwedUnderlying + gross = s.protocolOwedUnderlying := by
  have hsplit : ∀ net fee, net + fee = gross →
      ∃ c₁ c₂ p₁ p₂, PaysWithin snap A net fee c₁ c₂ p₁ p₂ := by
    intro net fee h
    exact paysWithin hpos hrate hfits hA (h ▸ hgross)
  have hclaim : ∃ c p, PaysWithin snap A gross 0 c 0 p 0 := by
    obtain ⟨c, _, p, _, h⟩ := hsplit gross 0 rfl
    exact ⟨c, p, h.claim⟩
  refine ⟨hsplit, hclaim, ?_, ?_⟩
  · intro env w t s w₁ k p n destination feeAccount w' ho hn hg h
    exact ExecuteWithdrawalYieldBearing.handler_legs ho hn hg hsplit h
  · intro env w t s w₁ owner feeAccount w' ho h
    obtain ⟨c, p, hp⟩ := hclaim
    obtain ⟨w₂, s', hrest⟩ := ClaimProtocolYieldFee.handler_legs ho hp h
    exact ⟨c, p, w₂, s', hp, hrest⟩

/-- A reserve at seven for five, a vault of four shares and five to withdraw, one of them the fee. -/
theorem withdrawals_at_seven_to_five : ∃ c₁ c₂ p₁ p₂, PaysWithin ⟨7, 5⟩ 4 4 1 c₁ c₂ p₁ p₂ :=
  (@withdrawals_within ⟨7, 5⟩ 4 5 (by decide) (by decide) (by decide) (by decide) (by decide)).1 4 1 rfl

end Ryvo
