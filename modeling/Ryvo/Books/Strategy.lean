import Ryvo.Books.Ops
import Ryvo.Instructions.Yield

/-!
# Books — The strategy

The strategy's conversions and counters, each with the condition under which it succeeds, and what its accrual and its calls to the lending program leave behind.

`Booked` is the attribution: nothing where the vault's value has not grown, and otherwise the growth, split between the index and the protocol.
-/

namespace Ryvo

variable {env : Env} {R : Rights env} {w w' : World} {t : U16} {n u : Nat}
variable {snap : ReserveSnapshot} {s s₁ s' : YieldStrategy}

/-! ### Conversions -/

theorem cusdcToUsdc_eq_ok : cusdcToUsdc n snap = .ok u ↔
    u = Pool.worth n snap.totalUnderlying snap.shareSupply ∧ (snap.shareSupply = 0 ∨ n = 0 ∨
      n * snap.totalUnderlying < u128Bound ∧ u < u64Bound) := by
  unfold cusdcToUsdc Pool.worth
  split
  · rename_i h
    have hz : n * snap.totalUnderlying / snap.shareSupply = 0 := by
      rcases h with h | h <;> simp [h]
    rw [hz, Except.ok.injEq]
    exact ⟨fun e => ⟨e.symm, by tauto⟩, fun e => e.1.symm⟩
  · rename_i h
    simp only [Except.bind_eq_ok, checkedMul_eq_ok, tryFrom_eq_ok]
    constructor
    · rintro ⟨_, ⟨rfl, h₁⟩, rfl, h₂⟩
      exact ⟨rfl, .inr (.inr ⟨h₁, h₂⟩)⟩
    · rintro ⟨rfl, h₁⟩
      obtain ⟨h₁, h₂⟩ : _ ∧ _ := (h₁.resolve_left (by tauto)).resolve_left (by tauto)
      exact ⟨_, ⟨rfl, h₁⟩, rfl, h₂⟩

theorem usdcToCusdc_eq_ok (hu : 0 < u) : usdcToCusdcRoundDown u snap = .ok n ↔
    n = u * snap.shareSupply / snap.totalUnderlying ∧ 0 < snap.totalUnderlying ∧
      u * snap.shareSupply < u128Bound ∧ n < u64Bound := by
  rw [usdcToCusdcRoundDown, if_neg hu.ne']
  simp only [Except.bind_eq_ok, require_eq_ok, exists_const, checkedMul_eq_ok, tryFrom_eq_ok]
  constructor
  · rintro ⟨hT, _, ⟨rfl, h₁⟩, rfl, h₂⟩
    exact ⟨rfl, hT, h₁, h₂⟩
  · rintro ⟨rfl, hT, h₁, h₂⟩
    exact ⟨hT, _, ⟨rfl, h₁⟩, rfl, h₂⟩

/-- The reserve's shares an amount converts to are worth at most the amount. -/
theorem usdcToCusdc_le (h : usdcToCusdcRoundDown u snap = .ok n) :
    n * snap.totalUnderlying ≤ u * snap.shareSupply := by
  rcases Nat.eq_zero_or_pos u with rfl | hu
  · rw [usdcToCusdcRoundDown, if_pos rfl, Except.ok.injEq] at h
    simp [← h]
  · obtain ⟨rfl, -⟩ := (usdcToCusdc_eq_ok hu).mp h
    exact Nat.div_mul_le_self _ _

namespace YieldStrategy

theorem sharesToUsdc_eq_ok : s.sharesToUsdc n = .ok u ↔
    u = n * s.userIndexQ64 / 2 ^ 64 ∧ n * s.userIndexQ64 < u128Bound := by
  simp only [sharesToUsdc, Except.bind_eq_ok, checkedMul_eq_ok, tryFrom_eq_ok]
  constructor
  · rintro ⟨_, ⟨rfl, h⟩, rfl, -⟩
    exact ⟨rfl, h⟩
  · rintro ⟨rfl, h⟩
    exact ⟨_, ⟨rfl, h⟩, rfl, Nat.div_lt_of_lt_mul h⟩

theorem usdcToShares_eq_ok : s.usdcToShares u = .ok n ↔
    n = u * 2 ^ 64 / s.userIndexQ64 ∧ n < u64Bound := by
  rw [usdcToShares, tryFrom_eq_ok]
  constructor <;> rintro ⟨rfl, h⟩ <;> exact ⟨rfl, h⟩

theorem requireSolvent_eq_ok {a : Unit} : s.requireSolvent n = .ok a ↔
    s.totalUserShares * s.userIndexQ64 < u128Bound ∧
      s.totalUserShares * s.userIndexQ64 / 2 ^ 64 + s.protocolOwedUnderlying ≤ n ∧
      s.totalUserShares * s.userIndexQ64 / 2 ^ 64 + s.protocolOwedUnderlying < u64Bound := by
  simp only [requireSolvent, userUnderlyingOwed, sharesToUsdc_eq_ok, Except.bind_eq_ok, addU64,
    checkedAdd_eq_ok, require_eq_ok]
  constructor
  · rintro ⟨_, ⟨rfl, h₁⟩, _, ⟨rfl, h₂⟩, h₃⟩
    exact ⟨h₁, h₃, h₂⟩
  · rintro ⟨h₁, h₃, h₂⟩
    exact ⟨_, ⟨rfl, h₁⟩, _, ⟨rfl, h₂⟩, h₃⟩

/-! ### Counters -/

theorem addUserShares_eq_ok : s.addUserShares n u = .ok s' ↔
    s.totalUserShares + n < u64Bound ∧ s.lastSettledUnderlying + u < u64Bound ∧
      s' = { s with
        totalUserShares := s.totalUserShares + n
        lastSettledUnderlying := s.lastSettledUnderlying + u } := by
  simp only [addUserShares, Except.bind_eq_ok, addU64, checkedAdd_eq_ok, Except.pure_eq_ok]
  constructor
  · rintro ⟨_, ⟨rfl, h₁⟩, _, ⟨rfl, h₂⟩, rfl⟩
    exact ⟨h₁, h₂, rfl⟩
  · rintro ⟨h₁, h₂, rfl⟩
    exact ⟨_, ⟨rfl, h₁⟩, _, ⟨rfl, h₂⟩, rfl⟩

theorem removeUserShares_eq_ok : s.removeUserShares n u = .ok s' ↔
    n ≤ s.totalUserShares ∧ s' = { s with
      totalUserShares := s.totalUserShares - n
      lastSettledUnderlying := s.lastSettledUnderlying - u } := by
  simp only [removeUserShares, Except.bind_eq_ok, subU64, checkedSub_eq_ok, Except.pure_eq_ok]
  constructor
  · rintro ⟨_, ⟨rfl, h⟩, rfl⟩
    exact ⟨h, rfl⟩
  · rintro ⟨h, rfl⟩
    exact ⟨_, ⟨rfl, h⟩, rfl⟩

theorem takeProtocolOwed_eq_ok : s.takeProtocolOwed u = .ok s' ↔
    u ≤ s.protocolOwedUnderlying ∧ s' = { s with
      protocolOwedUnderlying := s.protocolOwedUnderlying - u
      lastSettledUnderlying := s.lastSettledUnderlying - u } := by
  simp only [takeProtocolOwed, Except.bind_eq_ok, subU64, checkedSub_eq_ok, Except.pure_eq_ok]
  constructor
  · rintro ⟨_, ⟨rfl, h⟩, rfl⟩
    exact ⟨h, rfl⟩
  · rintro ⟨h, rfl⟩
    exact ⟨_, ⟨rfl, h⟩, rfl⟩

/-- A solvent strategy stays solvent when shares leave it and its vault loses no more than they were worth. -/
theorem requireSolvent_remove {owed value value' : Nat} (hsol : s.requireSolvent value = .ok ())
    (howed : s.sharesToUsdc n = .ok owed) (hrem : s.removeUserShares n u = .ok s')
    (hv : value ≤ value' + owed) : s'.requireSolvent value' = .ok () := by
  obtain ⟨hfits, hle, hlt⟩ := requireSolvent_eq_ok.mp hsol
  obtain ⟨rfl, -⟩ := sharesToUsdc_eq_ok.mp howed
  obtain ⟨hn, rfl⟩ := removeUserShares_eq_ok.mp hrem
  have hdrop := @Pool.sell_le n s.totalUserShares s.userIndexQ64 (2 ^ 64) hn
  have hless := Nat.mul_le_mul_right s.userIndexQ64 (Nat.sub_le s.totalUserShares n)
  exact requireSolvent_eq_ok.mpr ⟨hless.trans_lt hfits, by simp only; omega, by simp only; omega⟩

/-! ### Attribution -/

/-- The strategy with the vault's value booked. -/
structure Booked (s : YieldStrategy) (value : Nat) (s' : YieldStrategy) : Prop where
  keeps : s' = { s with
    userIndexQ64 := s'.userIndexQ64
    protocolOwedUnderlying := s'.protocolOwedUnderlying
    lastSettledUnderlying := value }
  index_le : s.userIndexQ64 ≤ s'.userIndexQ64
  nothing : value ≤ s.lastSettledUnderlying →
    s'.userIndexQ64 = s.userIndexQ64 ∧ s'.protocolOwedUnderlying = s.protocolOwedUnderlying
  attributed : s'.totalUserShares * s'.userIndexQ64 + s'.protocolOwedUnderlying * 2 ^ 64 ≤
    s.totalUserShares * s.userIndexQ64 + s.protocolOwedUnderlying * 2 ^ 64
      + (value - s.lastSettledUnderlying) * 2 ^ 64

theorem addProtocolOwed_eq_ok : s.addProtocolOwed u = .ok s' ↔
    s.protocolOwedUnderlying + u < u64Bound ∧
      s' = { s with protocolOwedUnderlying := s.protocolOwedUnderlying + u } := by
  simp only [addProtocolOwed, Except.bind_eq_ok, addU64, checkedAdd_eq_ok, Except.pure_eq_ok]
  constructor
  · rintro ⟨_, ⟨rfl, h⟩, rfl⟩
    exact ⟨h, rfl⟩
  · rintro ⟨h, rfl⟩
    exact ⟨_, ⟨rfl, h⟩, rfl⟩

theorem raiseIndex_eq_ok : s.raiseIndex u = .ok s' ↔
    (0 < u → s.userIndexQ64 + u * 2 ^ 64 / s.totalUserShares < u128Bound) ∧
      s' = { s with userIndexQ64 := s.userIndexQ64 + u * 2 ^ 64 / s.totalUserShares } := by
  unfold raiseIndex
  split
  · rename_i hu
    simp only [Except.bind_eq_ok, checkedAdd_eq_ok, Except.pure_eq_ok, hu, forall_const]
    constructor
    · rintro ⟨_, ⟨rfl, h⟩, rfl⟩
      exact ⟨h, rfl⟩
    · rintro ⟨h, rfl⟩
      exact ⟨_, ⟨rfl, h⟩, rfl⟩
  · rename_i hu
    obtain rfl : u = 0 := by omega
    simp only [Except.pure_eq_ok, lt_irrefl, false_imp_iff, Nat.zero_mul, Nat.zero_div, Nat.add_zero,
      true_and]
    exact eq_comm

/-- What is attributed of `n`: at most `n`, the rest of the rounding of the index is nobody's. -/
theorem applyYieldDelta_spec (h : s.applyYieldDelta n = .ok s') :
    s' = { s with
      userIndexQ64 := s'.userIndexQ64, protocolOwedUnderlying := s'.protocolOwedUnderlying } ∧
    s.userIndexQ64 ≤ s'.userIndexQ64 ∧
    s'.totalUserShares * s'.userIndexQ64 + s'.protocolOwedUnderlying * 2 ^ 64 ≤
      s.totalUserShares * s.userIndexQ64 + s.protocolOwedUnderlying * 2 ^ 64 + n * 2 ^ 64 := by
  unfold applyYieldDelta at h
  split at h
  · cases h
    exact ⟨rfl, le_rfl, Nat.le_add_right _ _⟩
  split at h
  · obtain ⟨-, rfl⟩ := addProtocolOwed_eq_ok.mp h
    exact ⟨rfl, le_rfl, by simp only; ring_nf; exact le_rfl⟩
  · simp only [Except.bind_eq_ok, checkedMul_eq_ok, tryFrom_eq_ok, subU64, checkedSub_eq_ok,
      raiseIndex_eq_ok] at h
    obtain ⟨_, ⟨rfl, -⟩, cut, ⟨hcut, -⟩, _, ⟨rfl, hle⟩, s₂, ⟨-, rfl⟩, h⟩ := h
    -- The users' part goes into the index, rounded down; the protocol's into its claim.
    have hdiv : s.totalUserShares * ((n - cut) * 2 ^ 64 / s.totalUserShares) ≤ (n - cut) * 2 ^ 64 :=
      Nat.mul_div_le _ _
    have hsplit : (n - cut) * 2 ^ 64 + cut * 2 ^ 64 = n * 2 ^ 64 := by
      rw [← Nat.add_mul, Nat.sub_add_cancel hle]
    split at h
    · obtain ⟨-, rfl⟩ := addProtocolOwed_eq_ok.mp h
      refine ⟨rfl, Nat.le_add_right _ _, ?_⟩
      simp only [Nat.mul_add, Nat.add_mul]
      omega
    · rw [Except.pure_eq_ok] at h
      subst h
      refine ⟨rfl, Nat.le_add_right _ _, ?_⟩
      simp only [Nat.mul_add]
      omega

theorem booked (h : s.bookValue n = .ok s') : Booked s n s' := by
  unfold bookValue at h
  split at h
  · rename_i hlt
    simp only [Except.bind_eq_ok, Except.pure_eq_ok] at h
    obtain ⟨s₁, h, rfl⟩ := h
    obtain ⟨hk, hi, ha⟩ := applyYieldDelta_spec h
    exact ⟨by rw [hk], hi, fun hle => absurd hlt (by omega), ha⟩
  · simp only [Except.ok_bind, Except.pure_eq_ok] at h
    subst h
    exact ⟨rfl, le_rfl, fun _ => ⟨rfl, rfl⟩, Nat.le_add_right _ _⟩

/-- A value that has not grown can always be booked. -/
theorem bookValue_of_le (h : n ≤ s.lastSettledUnderlying) :
    s.bookValue n = .ok { s with lastSettledUnderlying := n } := by
  simp [bookValue, Nat.not_lt.mpr h]

end YieldStrategy

/-! ### Shares in and out -/

theorem DepositYieldBearing.mintShares_eq_ok {k : Nat} : DepositYieldBearing.mintShares s n = .ok (s₁, k) ↔
    k = n * 2 ^ 64 / s.userIndexQ64 ∧ 0 < k ∧ k < u64Bound ∧ s.addUserShares k n = .ok s₁ := by
  simp only [DepositYieldBearing.mintShares, Except.bind_eq_ok, require_eq_ok, exists_const, Except.pure_eq_ok,
    YieldStrategy.usdcToShares_eq_ok, Prod.mk.injEq]
  constructor
  · rintro ⟨_, ⟨rfl, h₁⟩, h₂, _, h₃, rfl, rfl⟩
    exact ⟨rfl, h₂, h₁, h₃⟩
  · rintro ⟨rfl, h₂, h₁, h₃⟩
    exact ⟨_, ⟨rfl, h₁⟩, h₂, _, h₃, rfl, rfl⟩

theorem OptOutYield.redemption_eq_ok {burned received : Nat} :
    OptOutYield.redemption s snap n = .ok (burned, received) ↔ ∃ owed, s.sharesToUsdc n = .ok owed ∧ 0 < owed ∧
      usdcToCusdcRoundDown owed snap = .ok burned ∧ 0 < burned ∧
      cusdcToUsdc burned snap = .ok received ∧ 0 < received := by
  simp only [OptOutYield.redemption, Except.bind_eq_ok, require_eq_ok, exists_const, Except.pure_eq_ok,
    Prod.mk.injEq]
  constructor
  · rintro ⟨owed, h₁, h₂, b, h₃, h₄, c, h₅, h₆, rfl, rfl⟩
    exact ⟨owed, h₁, h₂, h₃, h₄, h₅, h₆⟩
  · rintro ⟨owed, h₁, h₂, h₃, h₄, h₅, h₆⟩
    exact ⟨owed, h₁, h₂, _, h₃, h₄, _, h₅, h₆, rfl, rfl⟩

/-! ### Calls to the lending program -/

/-- What accrual leaves behind: the reserve's interest booked, and the strategy's vault at its value. -/
structure Accrues (env : Env) (w : World) (s : YieldStrategy) (r r' : Reserve) (m : Mint)
    (a : TokenAccount) (s₁ : YieldStrategy) : Prop where
  program : s.yieldProgram = env.yieldProgramId
  vault : w.tokenAccounts s.shareVault = some a
  reserve : w.reserves s.reserve = some r
  shareMint : s.shareMint = r.shareMint
  mint : w.mints s.shareMint = some m
  accrued : Lending.accrueInner r w.clock = .ok r'
  booked : YieldStrategy.Booked s (Pool.worth a.amount r'.totalUnderlying m.supply) s₁
  ran : accrueStrategy env w s
    = .ok (w.setReserve s.reserve r', s₁, ⟨r'.totalUnderlying, m.supply⟩)

theorem accrueStrategy_spec {w₁ : World} (h : accrueStrategy env w s = .ok (w₁, s₁, snap)) :
    ∃ r r' m a, Accrues env w s r r' m a s₁ ∧ w₁ = w.setReserve s.reserve r' ∧
      snap = ⟨r'.totalUnderlying, m.supply⟩ := by
  have hran := h
  simp only [accrueStrategy, World.getTokenAccount, Lending.invoke, Except.bind_eq_ok, okOr_eq_ok,
    require_eq_ok, exists_const, Prod.exists, Except.pure_eq_ok, Prod.mk.injEq] at h
  obtain ⟨a, ha, w₂, T, S, ⟨hprog, hacc⟩, value, hvalue, s₂, hbook, rfl, rfl, rfl⟩ := h
  obtain ⟨r, r', m, hr, hsm, hm, hr', rfl, rfl, rfl⟩ := Lending.accrue_spec hacc
  obtain ⟨rfl, -⟩ := cusdcToUsdc_eq_ok.mp hvalue
  exact ⟨r, r', m, a, ⟨hprog, ha, hr, hsm, hm, hr', YieldStrategy.booked hbook, hran⟩, rfl, rfl⟩

theorem Accrues.op {r r' : Reserve} {m : Mint} {a : TokenAccount}
    (h : Accrues env w s r r' m a s₁) : Op R w (w.setReserve s.reserve r') :=
  @Op.setReserve env R w r r' s.reserve r'.apyBps h.reserve h.accrued

theorem cpiDeposit_spec {source owner : Pubkey}
    (h : cpiDepositReserveLiquidity env w s source owner n = .ok w') :
    ∃ r, w.reserves s.reserve = some r ∧ s.shareMint = r.shareMint ∧
      s.liquidityVault = r.liquidityVault ∧ Lending.depositReserveLiquidity env w s.reserve
        s.underlyingMint source s.shareVault owner n = .ok w' := by
  simp only [cpiDepositReserveLiquidity, checkReserveAccounts, World.getReserve, Lending.invoke,
    Except.bind_eq_ok, okOr_eq_ok, require_eq_ok, exists_const] at h
  obtain ⟨⟨r, hr, h₁, h₂⟩, -, h⟩ := h
  exact ⟨r, hr, h₁, h₂, h⟩

theorem cpiRedeem_spec {destination : Pubkey}
    (h : cpiRedeemReserveCollateral env w s destination n = .ok w') :
    ∃ r, w.reserves s.reserve = some r ∧ s.shareMint = r.shareMint ∧
      s.liquidityVault = r.liquidityVault ∧ Lending.redeemReserveCollateral env w s.reserve
        s.underlyingMint s.shareVault destination (env.address .globalConfig) n = .ok w' := by
  simp only [cpiRedeemReserveCollateral, checkReserveAccounts, World.getReserve, Lending.invoke,
    Except.bind_eq_ok, okOr_eq_ok, require_eq_ok, exists_const] at h
  obtain ⟨⟨r, hr, h₁, h₂⟩, -, h⟩ := h
  exact ⟨r, hr, h₁, h₂, h⟩

end Ryvo
