import Ryvo.Books.Strategy

/-!
# Books — Solvency

A strategy is solvent when the value last booked covers what its index owes the users and what it owes the protocol.  Nothing the strategy computes for itself breaks that.

* `attribution`: attributing what the vault has grown owes no more than that, and at most one unit less.
* `shareOps_solvent`: shares minted, burned or opted out, and a claim of the protocol, leave a strategy that its closing check accepts.

Both rest on `Solvent.iff`, which says the same in numbers: a user's share is owed `userIndexQ64` parts in `2 ^ 64`.
-/

namespace Ryvo

namespace YieldStrategy

variable {s s' : YieldStrategy} {snap : ReserveSnapshot} {n u owed gross burned received : Nat}

structure Solvent (s : YieldStrategy) : Prop where
  index : q64One ≤ s.userIndexQ64
  fits : s.lastSettledUnderlying < u64Bound
  covers : ∃ owed, s.userUnderlyingOwed = .ok owed ∧
    owed + s.protocolOwedUnderlying ≤ s.lastSettledUnderlying

theorem q64One_eq : q64One = 2 ^ 64 := by norm_num [q64One]

theorem Solvent.iff : s.Solvent ↔ 2 ^ 64 ≤ s.userIndexQ64 ∧ s.lastSettledUnderlying < u64Bound ∧
    s.totalUserShares * s.userIndexQ64 / 2 ^ 64 + s.protocolOwedUnderlying
      ≤ s.lastSettledUnderlying := by
  constructor
  · intro h
    obtain ⟨owed, howed, hle⟩ := h.covers
    obtain ⟨rfl, -⟩ := sharesToUsdc_eq_ok.mp howed
    exact ⟨q64One_eq ▸ h.index, h.fits, hle⟩
  · intro ⟨hindex, hfits, hle⟩
    -- What is owed fits in `u64`, so the product before the shift fits in `u128`.
    have hlt : s.totalUserShares * s.userIndexQ64 < u128Bound := by
      have := Nat.lt_mul_div_succ (s.totalUserShares * s.userIndexQ64) (Nat.two_pow_pos 64)
      simp only [u64Bound, u128Bound] at hfits ⊢
      omega
    exact ⟨q64One_eq ▸ hindex, hfits, _, sharesToUsdc_eq_ok.mpr ⟨rfl, hlt⟩, hle⟩

/-- The closing check accepts a solvent strategy. -/
theorem Solvent.guard (h : s.Solvent) : s.requireSolvent s.lastSettledUnderlying = .ok () := by
  obtain ⟨owed, howed, hle⟩ := h.covers
  obtain ⟨rfl, hlt⟩ := sharesToUsdc_eq_ok.mp howed
  have := h.fits
  exact requireSolvent_eq_ok.mpr ⟨hlt, hle, by omega⟩

/-- No share is owed less than one unit. -/
theorem Solvent.shares_le (h : s.Solvent) :
    s.totalUserShares ≤ s.totalUserShares * s.userIndexQ64 / 2 ^ 64 :=
  (Nat.le_div_iff_mul_le (Nat.two_pow_pos 64)).mpr (Nat.mul_le_mul_left _ (Solvent.iff.mp h).1)

/-! ### Attribution -/

/-- The cut is a part of what there is to cut. -/
theorem cut_le (h : s.protocolYieldShareBps ≤ maxProtocolYieldShareBps) :
    n * s.protocolYieldShareBps / 10000 ≤ n := by
  refine Nat.div_le_of_le_mul ?_
  rw [Nat.mul_comm 10000]
  exact Nat.mul_le_mul_left n (h.trans (by decide))

/-- An attribution of `n` succeeds, owes at most `n` more and at least `n` less one. -/
structure Attributed (s : YieldStrategy) (n : Nat) (s' : YieldStrategy) (owed owed' : Nat) : Prop where
  ran : s.applyYieldDelta n = .ok s'
  before : s.userUnderlyingOwed = .ok owed
  after : s'.userUnderlyingOwed = .ok owed'
  index_le : s.userIndexQ64 ≤ s'.userIndexQ64
  protocol_le : s.protocolOwedUnderlying ≤ s'.protocolOwedUnderlying
  upper : owed' + s'.protocolOwedUnderlying ≤ owed + s.protocolOwedUnderlying + n
  lower : owed + s.protocolOwedUnderlying + n ≤ owed' + s'.protocolOwedUnderlying + 1
  unshared : s.totalUserShares = 0 →
    owed' + s'.protocolOwedUnderlying = owed + s.protocolOwedUnderlying + n

/-- With no shares outstanding the protocol takes it all. -/
theorem attributed_unshared (h : s.Solvent) (hN : s.totalUserShares = 0)
    (hfits : s.lastSettledUnderlying + n < u64Bound) :
    Attributed s n { s with protocolOwedUnderlying := s.protocolOwedUnderlying + n } 0 0 := by
  obtain ⟨-, -, hle⟩ := Solvent.iff.mp h
  have howed : ∀ x, ({ s with protocolOwedUnderlying := x } : YieldStrategy).userUnderlyingOwed
      = .ok 0 := by
    intro x
    exact sharesToUsdc_eq_ok.mpr ⟨by simp [hN], by simp [hN]⟩
  refine ⟨?_, howed s.protocolOwedUnderlying, howed _, le_rfl, Nat.le_add_right _ _, ?_, ?_, ?_⟩
  · unfold applyYieldDelta
    split
    · rename_i hn
      simp [hn]
    · rw [addProtocolOwed_eq_ok]
      exact ⟨by omega, rfl⟩
  all_goals simp only; omega

theorem attributed_shared (h : s.Solvent) (hN : 0 < s.totalUserShares) (hn : n ≠ 0)
    (hbps : s.protocolYieldShareBps ≤ maxProtocolYieldShareBps)
    (hfits : s.lastSettledUnderlying + n < u64Bound) : ∃ s' owed owed', Attributed s n s' owed owed' := by
  obtain ⟨owed, howed, hle⟩ := h.covers
  obtain ⟨rfl, -⟩ := sharesToUsdc_eq_ok.mp howed
  have hshares := h.shares_le
  have hcut := cut_le (n := n) hbps
  have hproduct : n * s.protocolYieldShareBps < u128Bound := by
    have := Nat.mul_le_mul_left n (hbps.trans (show maxProtocolYieldShareBps ≤ 10000 by decide))
    simp only [u64Bound, u128Bound] at hfits ⊢
    omega
  generalize hc : n * s.protocolYieldShareBps / 10000 = cut at hcut
  have hN' : s.totalUserShares ≤ 2 ^ 64 := by
    simp only [u64Bound] at hfits
    omega
  have hup := @Pool.raise_le (n - cut) s.totalUserShares s.userIndexQ64 (2 ^ 64) (Nat.two_pow_pos 64)
  have hlow := @Pool.le_raise (n - cut) s.totalUserShares s.userIndexQ64 (2 ^ 64) hN hN'
  -- The new index, like the old one, is at most what all the shares are owed.
  have howed' : s.totalUserShares * (s.userIndexQ64 + (n - cut) * 2 ^ 64 / s.totalUserShares)
      < u128Bound := by
    have hlt := lt_of_le_of_lt hup (show _ < u64Bound by omega)
    have := (Nat.div_lt_iff_lt_mul (Nat.two_pow_pos 64)).mp hlt
    simp only [u64Bound, u128Bound] at this ⊢
    omega
  have hindex : s.userIndexQ64 + (n - cut) * 2 ^ 64 / s.totalUserShares < u128Bound :=
    lt_of_le_of_lt (Nat.le_mul_of_pos_left _ hN) howed'
  refine ⟨{ s with
    userIndexQ64 := s.userIndexQ64 + (n - cut) * 2 ^ 64 / s.totalUserShares
    protocolOwedUnderlying := s.protocolOwedUnderlying + cut }, _, _, ?_, howed,
    sharesToUsdc_eq_ok.mpr ⟨rfl, howed'⟩, Nat.le_add_right _ _, Nat.le_add_right _ _,
    by simp only; omega, by simp only; omega, fun hz => absurd hz hN.ne'⟩
  rw [applyYieldDelta, if_neg hn, if_neg hN.ne']
  simp only [Except.bind_eq_ok, checkedMul_eq_ok, tryFrom_eq_ok, subU64, checkedSub_eq_ok,
    raiseIndex_eq_ok]
  refine ⟨_, ⟨rfl, hproduct⟩, cut, ⟨hc.symm, by omega⟩, _, ⟨rfl, hcut⟩, _,
    ⟨fun _ => hindex, rfl⟩, ?_⟩
  split
  · exact addProtocolOwed_eq_ok.mpr ⟨by simp only; omega, rfl⟩
  · rename_i hz
    obtain rfl : cut = 0 := by omega
    rfl

theorem attributed (h : s.Solvent) (hbps : s.protocolYieldShareBps ≤ maxProtocolYieldShareBps)
    (hfits : s.lastSettledUnderlying + n < u64Bound) : ∃ s' owed owed', Attributed s n s' owed owed' := by
  rcases Nat.eq_zero_or_pos s.totalUserShares with hN | hN
  · exact ⟨_, _, _, attributed_unshared h hN hfits⟩
  · by_cases hn : n = 0
    · obtain ⟨owed, howed, -⟩ := h.covers
      subst hn
      exact ⟨s, owed, owed, by rw [applyYieldDelta, if_pos rfl], howed, howed, le_rfl, le_rfl, by omega,
        by omega, fun _ => rfl⟩
    · exact attributed_shared h hN hn hbps hfits

/-- The strategy with the growth attributed is solvent at the new value. -/
theorem Attributed.solvent {owed' : Nat} (hs : s.Solvent) (h : Attributed s n s' owed owed')
    (hfits : s.lastSettledUnderlying + n < u64Bound) :
    Solvent { s' with lastSettledUnderlying := s.lastSettledUnderlying + n } := by
  obtain ⟨o, ho, hle⟩ := hs.covers
  obtain rfl := Except.ok.inj (ho.symm.trans h.before)
  have hup := h.upper
  exact ⟨hs.index.trans h.index_le, hfits, owed', h.after, by simp only; omega⟩

/-! ### Shares in and out -/

/-- No operation is paid for by saturating: the booked value is what it was, with the amount added or taken off; and the strategy it leaves passes the closing check. -/
structure Leaves (s' : YieldStrategy) (booked : Nat) : Prop where
  booked : s'.lastSettledUnderlying = booked
  solvent : s'.Solvent
  guard : s'.requireSolvent s'.lastSettledUnderlying = .ok ()

theorem Leaves.of (hv : s'.lastSettledUnderlying = n) (h : s'.Solvent) : Leaves s' n :=
  ⟨hv, h, h.guard⟩

/-- An amount worth no share is refused; any other is minted. -/
theorem Solvent.minted (h : s.Solvent) (hfits : s.lastSettledUnderlying + n < u64Bound) :
    (n * 2 ^ 64 < s.userIndexQ64 ∧
        DepositYieldBearing.mintShares s n = .error (.vault .amountMustBePositive)) ∨
      ∃ s' k, DepositYieldBearing.mintShares s n = .ok (s', k) ∧
        Leaves s' (s.lastSettledUnderlying + n) := by
  obtain ⟨hindex, -, hle⟩ := Solvent.iff.mp h
  have hk : n * 2 ^ 64 / s.userIndexQ64 ≤ n :=
    Nat.div_le_of_le_mul (by rw [Nat.mul_comm]; exact Nat.mul_le_mul_right n hindex)
  have hconv : s.usdcToShares n = .ok (n * 2 ^ 64 / s.userIndexQ64) :=
    usdcToShares_eq_ok.mpr ⟨rfl, by omega⟩
  by_cases hlt : n * 2 ^ 64 < s.userIndexQ64
  · refine .inl ⟨hlt, ?_⟩
    rw [DepositYieldBearing.mintShares, hconv, Nat.div_eq_of_lt hlt]
    rfl
  · refine .inr ⟨{ s with
      totalUserShares := s.totalUserShares + n * 2 ^ 64 / s.userIndexQ64
      lastSettledUnderlying := s.lastSettledUnderlying + n }, n * 2 ^ 64 / s.userIndexQ64, ?_, ?_⟩
    · have hpos : 0 < n * 2 ^ 64 / s.userIndexQ64 := Nat.div_pos (by omega) (by omega)
      have hshares := h.shares_le
      exact DepositYieldBearing.mintShares_eq_ok.mpr
        ⟨rfl, hpos, by omega, addUserShares_eq_ok.mpr ⟨by omega, hfits, rfl⟩⟩
    · have hbuy := @Pool.buy_le n s.totalUserShares s.userIndexQ64 (2 ^ 64) (Nat.two_pow_pos 64)
      exact .of rfl (Solvent.iff.mpr ⟨hindex, hfits, by simp only; omega⟩)

/-- Shares leave with what they are owed, or with less. -/
theorem Solvent.removed (h : s.Solvent) (hn : n ≤ s.totalUserShares)
    (hgross : s.sharesToUsdc n = .ok gross) (hu : u ≤ gross) :
    ∃ s', s.removeUserShares n u = .ok s' ∧ s'.lastSettledUnderlying + u = s.lastSettledUnderlying ∧
      Leaves s' (s.lastSettledUnderlying - u) := by
  obtain ⟨hindex, hfits, hle⟩ := Solvent.iff.mp h
  obtain ⟨rfl, -⟩ := sharesToUsdc_eq_ok.mp hgross
  have hdrop := @Pool.sell_le n s.totalUserShares s.userIndexQ64 (2 ^ 64) hn
  exact ⟨_, removeUserShares_eq_ok.mpr ⟨hn, rfl⟩, by simp only; omega,
    .of rfl (Solvent.iff.mpr ⟨hindex, by simp only; omega, by simp only; omega⟩)⟩

/-- Any part of the shares can be valued. -/
theorem Solvent.sharesToUsdc (h : s.Solvent) (hn : n ≤ s.totalUserShares) :
    ∃ gross, s.sharesToUsdc n = .ok gross := by
  obtain ⟨owed, howed, -⟩ := h.covers
  obtain ⟨-, hlt⟩ := sharesToUsdc_eq_ok.mp howed
  exact ⟨_, sharesToUsdc_eq_ok.mpr ⟨rfl, (Nat.mul_le_mul_right _ hn).trans_lt hlt⟩⟩

/-- What an opt-out receives is at most what its shares are owed. -/
theorem redemption_le (h : OptOutYield.redemption s snap n = .ok (burned, received)) :
    ∃ gross, s.sharesToUsdc n = .ok gross ∧ received ≤ gross := by
  obtain ⟨gross, hgross, -, hburn, -, hpaid, -⟩ := OptOutYield.redemption_eq_ok.mp h
  obtain ⟨rfl, -⟩ := cusdcToUsdc_eq_ok.mp hpaid
  refine ⟨gross, hgross, Nat.div_le_of_le_mul ?_⟩
  rw [Nat.mul_comm snap.shareSupply]
  exact usdcToCusdc_le hburn

theorem Solvent.claimed (h : s.Solvent) (hu : u ≤ s.protocolOwedUnderlying) :
    ∃ s', s.takeProtocolOwed u = .ok s' ∧ s'.lastSettledUnderlying + u = s.lastSettledUnderlying ∧
      Leaves s' (s.lastSettledUnderlying - u) := by
  obtain ⟨hindex, hfits, hle⟩ := Solvent.iff.mp h
  exact ⟨_, takeProtocolOwed_eq_ok.mpr ⟨hu, rfl⟩, by simp only; omega,
    .of rfl (Solvent.iff.mpr ⟨hindex, by simp only; omega, by simp only; omega⟩)⟩

/-- Everything an accrued strategy's handlers do to it. -/
structure ShareOps (s : YieldStrategy) : Prop where
  /-- `deposit_yield_bearing` and `opt_in_yield`. -/
  mint : ∀ amount, s.lastSettledUnderlying + amount < u64Bound →
    (amount * 2 ^ 64 < s.userIndexQ64 ∧
        DepositYieldBearing.mintShares s amount = .error (.vault .amountMustBePositive)) ∨
      ∃ s' k, DepositYieldBearing.mintShares s amount = .ok (s', k) ∧
        Leaves s' (s.lastSettledUnderlying + amount)
  /-- `execute_withdrawal_yield_bearing`. -/
  burn : ∀ shares ≤ s.totalUserShares, ∃ gross s', s.sharesToUsdc shares = .ok gross ∧
    s.removeUserShares shares gross = .ok s' ∧
    s'.lastSettledUnderlying + gross = s.lastSettledUnderlying ∧
    Leaves s' (s.lastSettledUnderlying - gross)
  /-- `opt_out_yield`, at whatever rate the reserve stands. -/
  optOut : ∀ shares ≤ s.totalUserShares, ∀ snap burned received,
    OptOutYield.redemption s snap shares = .ok (burned, received) →
    ∃ s', s.removeUserShares shares received = .ok s' ∧
      s'.lastSettledUnderlying + received = s.lastSettledUnderlying ∧
      Leaves s' (s.lastSettledUnderlying - received)
  /-- `claim_protocol_yield_fee`. -/
  claim : ∀ amount ≤ s.protocolOwedUnderlying, ∃ s', s.takeProtocolOwed amount = .ok s' ∧
    s'.lastSettledUnderlying + amount = s.lastSettledUnderlying ∧
    Leaves s' (s.lastSettledUnderlying - amount)

end YieldStrategy

open YieldStrategy in
/-- **Attribution conserves value.**  Whatever the vault of a solvent strategy has grown by, the accrual attributes it without overflow: neither the index nor the protocol's claim falls, what is owed in all grows by at most the growth and by at least one unit less, exactly where nobody holds shares; and the strategy is solvent at the vault's new value. -/
theorem attribution {s : YieldStrategy} {delta : Nat} (h : s.Solvent)
    (hbps : s.protocolYieldShareBps ≤ maxProtocolYieldShareBps)
    (hfits : s.lastSettledUnderlying + delta < u64Bound) :
    ∃ s' owed owed', Attributed s delta s' owed owed' ∧
      s.bookValue (s.lastSettledUnderlying + delta)
        = .ok { s' with lastSettledUnderlying := s.lastSettledUnderlying + delta } ∧
      Solvent { s' with lastSettledUnderlying := s.lastSettledUnderlying + delta } := by
  obtain ⟨s', owed, owed', ha⟩ := attributed h hbps hfits
  refine ⟨s', owed, owed', ha, ?_, ha.solvent h hfits⟩
  unfold bookValue
  split
  · rw [Nat.add_sub_cancel_left, ha.ran]
    rfl
  · -- Nothing has grown, and `apply_yield_delta` is not called.
    obtain rfl : delta = 0 := by omega
    have hran := ha.ran
    rw [applyYieldDelta, if_pos rfl, Except.ok.injEq] at hran
    rw [hran]
    rfl

namespace YieldStrategy

/-- Nine hundred shares at the opening index, and a hundred owed to the protocol. -/
def sample : YieldStrategy where
  tokenId := 2
  protocolYieldShareBps := defaultProtocolYieldShareBps
  underlyingMint := Pubkey.default
  yieldProgram := Pubkey.default
  reserve := Pubkey.default
  shareMint := Pubkey.default
  shareVault := Pubkey.default
  liquidityVault := Pubkey.default
  userIndexQ64 := q64One
  lastSettledUnderlying := 1000
  totalUserShares := 900
  protocolOwedUnderlying := 100

theorem sample_solvent : sample.Solvent :=
  ⟨le_rfl, by decide, 900, by decide, by decide⟩

end YieldStrategy

open YieldStrategy in
/-- Seven units of yield on the sample. -/
theorem attribution_of_sample : ∃ s' owed owed', Attributed sample 7 s' owed owed' := by
  obtain ⟨s', owed, owed', h, -⟩ := @attribution sample 7 sample_solvent (by decide) (by decide)
  exact ⟨s', owed, owed', h⟩

open YieldStrategy in
/-- **No share operation trips the guard.**  From a solvent strategy every amount of shares minted, burned or opted out and every claim of the protocol leaves a solvent strategy: nothing overflows, nothing saturates, and the closing check passes. -/
theorem shareOps_solvent {s : YieldStrategy} (h : s.Solvent) : ShareOps s where
  mint _ hfits := h.minted hfits
  burn shares hn := by
    obtain ⟨gross, hgross⟩ := h.sharesToUsdc hn
    obtain ⟨s', hs', hv, hl⟩ := h.removed hn hgross le_rfl
    exact ⟨gross, s', hgross, hs', hv, hl⟩
  optOut shares hn snap burned received hr := by
    obtain ⟨gross, hgross, hle⟩ := redemption_le hr
    exact h.removed hn hgross hle
  claim _ hu := h.claimed hu

open YieldStrategy in
theorem shareOps_of_sample : ShareOps sample := shareOps_solvent sample_solvent

end Ryvo
