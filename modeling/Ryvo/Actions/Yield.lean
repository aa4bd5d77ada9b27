import Ryvo.Actions.Vault
import Ryvo.Books.Strategy

/-!
# Actions — Yield

What the instructions of yield-bearing tokens do, step by step: accrual, the moves of the ledger, the calls to the lending program and the counters they end with.
-/

namespace Ryvo

variable {env : Env} {R : Rights env} {w w' w₁ w₂ w₃ w₄ : World} {k₀ k₁ k₂ owner source : Pubkey}
variable {t u : U16} {p : U32} {n k : Nat} {s s₁ s₂ : YieldStrategy} {r r' : Reserve} {m : Mint}
variable {a : TokenAccount}

/-- `yieldToken` finds the yield-bearing tokens. -/
theorem yieldToken_eq_ok {e : TokenEntry} : w.yieldToken t = .ok e ↔ w.HasToken t .yieldBearing e := by
  simp only [World.yieldToken, World.getTokenRegistry, Except.bind_eq_ok, okOr_eq_ok, require_eq_ok,
    exists_const, Except.pure_eq_ok, World.HasToken]
  constructor
  · rintro ⟨r, hr, e, he, hk, rfl⟩
    refine ⟨r, hr, he, ?_⟩
    cases h : e.kind <;> simp_all [TokenEntry.isYieldBearing]
  · rintro ⟨r, hr, he, hk⟩
    exact ⟨r, hr, e, he, by simp [TokenEntry.isYieldBearing, hk], rfl⟩

/-- The strategy of the token, and the token. -/
structure StrategyOf (w : World) (t : U16) (s : YieldStrategy) : Prop where
  found : w.yieldStrategies t = some s
  tokenId : s.tokenId = t
  token : ∃ e, w.HasToken t .yieldBearing e

/-! ### Steps -/

/-- Editing a slot writes one bucket. -/
theorem bucketsOnly_edit {α : Type} {f : ParticipantBucket → Result (ParticipantBucket × α)} {x : α}
    (h : w.editParticipantBucket k₀ f = .ok (w', x)) : BucketsOnly w w' := by
  simp only [World.editParticipantBucket, Except.bind_eq_ok, Prod.exists, Except.pure_eq_ok,
    Prod.mk.injEq] at h
  obtain ⟨_, -, _, _, -, rfl, -⟩ := h
  rfl

/-- The reserves are no bucket of the program's. -/
theorem sameBuckets_setReserve {k : Pubkey} : SameBuckets w (w.setReserve k r) := ⟨rfl, rfl⟩

/-- An accrual writes the reserve, and makes no move. -/
theorem Accrues.does (h : Accrues env w s r r' m a s₁) (hl : Located env w) :
    Does R [] w (w.setReserve s.reserve r') := .op h.op sameBuckets_setReserve hl

/-- A strategy's books are the strategy's to write. -/
theorem Does.strategy (hl : Located env w) (hR : R.strategy t) :
    Does R [] w (w.setYieldStrategy t s) := .op (.strategy hR) ⟨rfl, rfl⟩ hl

/-- A deposit with the lending program touches no bucket. -/
theorem sameBuckets_deposit {reserve mint shares : Pubkey}
    (h : Lending.depositReserveLiquidity env w reserve mint source shares owner n = .ok w') :
    SameBuckets w w' := by
  obtain ⟨_, _, _, hd⟩ := Lending.deposit_spec h
  rw [hd.frame]
  exact ⟨rfl, rfl⟩

/-- Neither does a redemption. -/
theorem sameBuckets_redeem {reserve mint shares destination : Pubkey}
    (h : Lending.redeemReserveCollateral env w reserve mint shares destination owner n = .ok w') :
    SameBuckets w w' := by
  obtain ⟨_, _, _, hd⟩ := Lending.redeem_spec h
  rw [hd.frame]
  exact ⟨rfl, rfl⟩

/-- What a call that deposits does, for the payer. -/
theorem Does.pays (hl : Located env w) (hR : R.spends source owner)
    (h : cpiDepositReserveLiquidity env w s source owner n = .ok w') : Does R [] w w' := by
  obtain ⟨_, -, -, -, h⟩ := cpiDeposit_spec h
  exact .op (.deposit hR h) (sameBuckets_deposit h) hl

/-- What a call that redeems does, for the share vault. -/
theorem Does.redeems {destination : Pubkey} (hl : Located env w)
    (hR : R.spends s.shareVault (env.address .globalConfig))
    (h : cpiRedeemReserveCollateral env w s destination n = .ok w') : Does R [] w w' := by
  obtain ⟨_, -, -, -, h⟩ := cpiRedeem_spec h
  exact .op (.redeem hR h) (sameBuckets_redeem h) hl

namespace AccrueYield

/-- An accrual by itself: the vault is valued, and the books pass the closing check. -/
structure Made (env : Env) (w : World) (t : U16) (s s₁ : YieldStrategy) (r r' : Reserve) (m : Mint)
    (a : TokenAccount) (w' : World) : Prop where
  found : w.yieldStrategies t = some s
  accrues : Accrues env w s r r' m a s₁
  solvent : s₁.requireSolvent s₁.lastSettledUnderlying = .ok ()
  result : w' = (w.setReserve s.reserve r').setYieldStrategy t s₁

/-- Whoever calls it. -/
theorem handler_spec (h : handler env w t = .ok w') :
    ∃ s s₁ r r' m a, Made env w t s s₁ r r' m a w' := by
  simp only [handler, World.getYieldStrategy, Except.bind_eq_ok, okOr_eq_ok, Prod.exists,
    Except.pure_eq_ok] at h
  obtain ⟨s, hs, w₁, s₁, snap, hacc, _, hsol, rfl⟩ := h
  obtain ⟨r, r', m, a, hac, rfl, rfl⟩ := accrueStrategy_spec hacc
  exact ⟨s, s₁, r, r', m, a, hs, hac, hsol, rfl⟩

/-- And an accrual that passes the check is all it takes. -/
theorem handler_of {w₁ : World} {snap : ReserveSnapshot} (hs : w.yieldStrategies t = some s)
    (hacc : accrueStrategy env w s = .ok (w₁, s₁, snap))
    (hsol : s₁.requireSolvent s₁.lastSettledUnderlying = .ok ()) :
    handler env w t = .ok (w₁.setYieldStrategy t s₁) := by
  simp only [handler, World.getYieldStrategy, Except.bind_eq_ok, okOr_eq_ok, Prod.exists,
    Except.pure_eq_ok]
  exact ⟨s, hs, w₁, s₁, snap, hacc, (), hsol, rfl⟩

theorem Made.does (h : Made env w t s s₁ r r' m a w') (hl : Located env w) (hR : R.strategy t) :
    Does R [] w w' := by
  rw [h.result]
  exact (h.accrues.does hl).trans (.strategy (h.accrues.does (R := R) hl).located hR)

end AccrueYield

namespace DepositYieldBearing

/-- A deposit: accrue, pay the lending program, mint shares of the strategy, credit them. -/
structure Made (env : Env) (w : World) (k₀ owner source : Pubkey) (t : U16) (amount : Nat) (p : U32)
    (k : Nat) (s s₁ s₂ : YieldStrategy) (r r' : Reserve) (m : Mint) (a : TokenAccount)
    (w₂ w₃ w' : World) : Prop where
  strategy : StrategyOf w t s
  positive : 0 < amount
  accrues : Accrues env w s r r' m a s₁
  paid : cpiDepositReserveLiquidity env (w.setReserve s.reserve r') s₁ source owner amount = .ok w₂
  minted : mintShares s₁ amount = .ok (s₂, k)
  signer : w.participantIdForOwner env k₀ owner = .ok p
  credited : BucketsOnly w₂ w₃ ∧ ∀ R : Rights env, Does R [.credit t p k] w₂ w₃
  solvent : s₂.requireSolvent s₂.lastSettledUnderlying = .ok ()
  result : w' = w₃.setYieldStrategy t s₂

/-- What an accepted deposit did, step by step. -/
theorem handler_spec (hl : Located env w) (h : handler env w owner k₀ k₁ source t n = .ok w') :
    ∃ p k s s₁ s₂ r r' m a w₂ w₃, Made env w k₀ owner source t n p k s s₁ s₂ r r' m a w₂ w₃ w' := by
  simp only [handler, World.getYieldStrategy, Except.bind_eq_ok, okOr_eq_ok, Prod.exists,
    Except.pure_eq_ok, require_eq_ok, exists_const, yieldToken_eq_ok] at h
  obtain ⟨c, -, s, hs, d, -, -, -, hn, ht, e, he, w₁, s₁, snap, hacc, w₂, hpay, s₂, k, hmint, p, hauth,
    w₃, u, hedit, _, hsol, rfl⟩ := h
  obtain ⟨r, r', m, a, hac, rfl, rfl⟩ := accrueStrategy_spec hacc
  have hl₁ : Located env (w.setReserve s.reserve r') := sameBuckets_setReserve.located hl
  obtain ⟨-, -, -, -, hdep⟩ := cpiDeposit_spec hpay
  have hsame := sameBuckets_deposit hdep
  have hl₂ := hsame.located hl₁
  obtain ⟨hp, rfl, -⟩ := (authenticated_eq_ok hl₂).mp hauth
  obtain ⟨-, hk, -, -⟩ := mintShares_eq_ok.mp hmint
  refine ⟨p, k, s, s₁, s₂, r, r', m, a, w₂, w₃, ⟨hs, ht, e, he⟩, hn, hac, hpay, hmint, ?_,
    ⟨bucketsOnly_edit hedit, fun R => .credit hl₂ hk hedit⟩, hsol, rfl⟩
  obtain ⟨_, _, _, hd⟩ := Lending.deposit_spec hdep
  rw [hd.frame] at hp
  exact hp

/-- As moves of the ledger: one credit. -/
theorem Made.does (h : Made env w k₀ owner source t n p k s s₁ s₂ r r' m a w₂ w₃ w')
    (hl : Located env w) (hR : R.strategy t) (hR' : R.spends source owner) :
    Does R [.credit t p k] w w' := by
  rw [h.result]
  have h₁ : Does R [] w (w.setReserve s.reserve r') := h.accrues.does hl
  have h₂ : Does R [] _ w₂ := .pays h₁.located hR' h.paid
  exact ((h₁.trans h₂).trans (h.credited.2 R)).trans (.strategy (h.credited.2 R).located hR)

/-- The minted shares are counted. -/
theorem mintShares_totalUserShares (h : mintShares s n = .ok (s₁, k)) :
    s₁.totalUserShares = s.totalUserShares + k := by
  obtain ⟨-, -, -, h⟩ := mintShares_eq_ok.mp h
  obtain ⟨-, -, rfl⟩ := YieldStrategy.addUserShares_eq_ok.mp h
  rfl

/-- The count stays a `u64`. -/
theorem mintShares_lt (h : mintShares s n = .ok (s₁, k)) : s₁.totalUserShares < u64Bound := by
  obtain ⟨-, -, -, h⟩ := mintShares_eq_ok.mp h
  obtain ⟨hlt, -, rfl⟩ := YieldStrategy.addUserShares_eq_ok.mp h
  exact hlt

/-- The accrual before leaves the count alone. -/
theorem Made.totalUserShares_eq (h : Made env w k₀ owner source t n p k s s₁ s₂ r r' m a w₂ w₃ w') :
    s₂.totalUserShares = s.totalUserShares + k := by
  rw [mintShares_totalUserShares h.minted, h.accrues.booked.keeps]

end DepositYieldBearing

namespace RequestWithdrawalYieldBearing

/-- A request is one move, and leaves the strategy alone. -/
theorem handler_spec {destination : Pubkey} (hl : Located env w)
    (h : handler env w owner k₀ k₁ k₂ t n destination = .ok w') :
    ∃ p unlockAt, w.participantIdForOwner env k₀ owner = .ok p ∧
      Does R [.request t p n destination unlockAt] w w' := by
  simp only [handler, Except.bind_eq_ok, require_eq_ok, exists_const, Prod.exists,
    Except.pure_eq_ok] at h
  obtain ⟨c, -, d, -, -, -, e, -, s, -, -, -, p, ha, unlockAt, -, _, u, hedit, rfl⟩ := h
  obtain ⟨hp, rfl, -⟩ := (authenticated_eq_ok hl).mp ha
  exact ⟨p, unlockAt, hp, .request hl hedit⟩

end RequestWithdrawalYieldBearing


/-! ### Withdrawals -/

/-- An accrual does not move the share vault. -/
theorem Booked.shareVault_eq {value : Nat} (h : YieldStrategy.Booked s value s₁) :
    s₁.shareVault = s.shareVault := by rw [h.keeps]

/-- Nothing is redeemed for nothing. -/
theorem redeemPositive_does {destination : Pubkey} {usdc cusdc : Nat} (hl : Located env w)
    (hR : R.spends s.shareVault (env.address .globalConfig))
    (h : redeemPositive env w s destination usdc cusdc = .ok w') : Does R [] w w' := by
  unfold redeemPositive at h
  split at h
  · exact .redeems hl hR h
  · cases h
    exact .nil hl

namespace ExecuteWithdrawalYieldBearing

/-- The shares leave the strategy's count, whatever they were worth. -/
theorem payOut_spec {c : GlobalConfig} {e : TokenEntry} {snap : ReserveSnapshot}
    {destination fee : Pubkey} (hl : Located env w)
    (hR : R.spends s.shareVault (env.address .globalConfig))
    (h : payOut env w c e s snap destination fee n = .ok (w', s₁)) :
    Does R [] w w' ∧ ∃ gross, s.sharesToUsdc n = .ok gross ∧ s.removeUserShares n gross = .ok s₁ := by
  simp only [payOut, Except.bind_eq_ok, Except.pure_eq_ok, Prod.mk.injEq] at h
  obtain ⟨gross, hgross, f, -, x, -, y, -, w₁, h₁, w₂, h₂, s₂, hs, rfl, rfl⟩ := h
  have hd := redeemPositive_does hl hR h₁
  exact ⟨hd.trans (redeemPositive_does hd.located hR h₂), gross, hgross, hs⟩

/-- The two ways to end: a pending amount settlements have drained is cleared and nothing else; any other is paid out. -/
inductive Paid (env : Env) (w : World) (t : U16) (p : U32) (n : Nat) (s₁ : YieldStrategy)
    (snap : ReserveSnapshot) (destination fee : Pubkey) (s₂ : YieldStrategy) (w₂ w₃ : World) : Prop
  | drained : n = 0 → w₂ = w → s₂ = s₁ → (∃ a u, w₃.tokenAccounts s₁.shareVault = some a ∧
      cusdcToUsdc a.amount snap = .ok u ∧ s₁.requireSolvent u = .ok ()) → Paid ..
  | paid : n ≠ 0 → (∃ c e, w.HasToken t .yieldBearing e ∧
      payOut env w c e s₁ snap destination fee n = .ok (w₂, s₂)) →
      s₂.requireSolvent s₂.lastSettledUnderlying = .ok () → Paid ..

/-- Either the shares are worth nothing and are struck off, or they are paid out. -/
theorem settlePending_spec {c : GlobalConfig} {e : TokenEntry} {snap : ReserveSnapshot}
    {destination fee : Pubkey} (hl : Located env w) (he : w.HasToken t .yieldBearing e)
    (h : settlePending env w c e s₁ snap (slotKey env p) destination fee t p n = .ok (w₃, s₂)) :
    ∃ w₂, Paid env w t p n s₁ snap destination fee s₂ w₂ w₃ ∧ BucketsOnly w₂ w₃ ∧
      ∀ R : Rights env, R.spends s₁.shareVault (env.address .globalConfig) →
        Does R [] w w₂ ∧ Does R [.clear t p] w₂ w₃ := by
  unfold settlePending at h
  split at h
  · rename_i hn
    simp only [Except.bind_eq_ok, Prod.exists, Except.pure_eq_ok, Prod.mk.injEq,
      World.getTokenAccount, okOr_eq_ok] at h
    obtain ⟨_, u, hedit, a, ha, v, hv, _, hsol, rfl, rfl⟩ := h
    exact ⟨w, .drained hn rfl rfl ⟨a, v, ha, hv, hsol⟩, bucketsOnly_edit hedit,
      fun R _ => ⟨.nil hl, .clear hl hedit⟩⟩
  · rename_i hn
    simp only [Except.bind_eq_ok, Prod.exists, Except.pure_eq_ok, Prod.mk.injEq] at h
    obtain ⟨w₂, _, hpay, _, u, hedit, _, hsol, rfl, rfl⟩ := h
    refine ⟨w₂, .paid hn ⟨c, e, he, hpay⟩ hsol, bucketsOnly_edit hedit, fun R hR => ?_⟩
    have hd := (payOut_spec hl hR hpay).1
    exact ⟨hd, .clear hd.located hedit⟩

/-- A withdrawal: accrue, pay out what is pending, clear it. -/
structure Made (env : Env) (w : World) (destination fee : Pubkey) (t : U16) (p : U32)
    (e : BucketTokenBalance) (s s₁ s₂ : YieldStrategy) (r r' : Reserve) (m : Mint) (a : TokenAccount)
    (w₂ w₃ w' : World) : Prop where
  strategy : StrategyOf w t s
  row : ∃ slot, w.slot env p = some slot ∧ slot.tokenEntry t = some e
  matured : Matured w e destination
  accrues : Accrues env w s r r' m a s₁
  paid : Paid env (w.setReserve s.reserve r') t p e.withdrawingBalance s₁
    ⟨r'.totalUnderlying, m.supply⟩ destination fee s₂ w₂ w₃
  cleared : BucketsOnly w₂ w₃
  moves : ∀ R : Rights env, R.spends s.shareVault (env.address .globalConfig) →
    Does R [] (w.setReserve s.reserve r') w₂ ∧ Does R [.clear t p] w₂ w₃
  result : w' = w₃.setYieldStrategy t s₂

/-- What an executed withdrawal did, step by step. -/
theorem handler_spec {destination fee : Pubkey} (hl : Located env w)
    (h : handler env w k₀ destination fee t p = .ok w') : ∃ e s s₁ s₂ r r' m a w₂ w₃,
      Made env w destination fee t p e s s₁ s₂ r r' m a w₂ w₃ w' := by
  simp only [handler, World.getYieldStrategy, Except.bind_eq_ok, okOr_eq_ok, Prod.exists,
    Except.pure_eq_ok, require_eq_ok, exists_const, yieldToken_eq_ok] at h
  obtain ⟨c, -, s, hs, d, -, -, f, -, -, -, te, hte, -, ht, _, hver, w₁, s₁, snap, hacc, data, hdata,
    e, he, hun, hdest, -, hmat, w₃, s₂, hpay, rfl⟩ := h
  obtain ⟨r, r', m, a, hac, rfl, rfl⟩ := accrueStrategy_spec hacc
  obtain ⟨rfl, -⟩ := (verifyParticipantBucket hl).mp hver
  have hl₁ : Located env (w.setReserve s.reserve r') := sameBuckets_setReserve.located hl
  have hrow := readWithdrawal_eq_ok.mp ⟨data, hdata, he⟩
  obtain ⟨w₂, hpaid, hclear, hmoves⟩ := settlePending_spec hl₁ hte hpay
  exact ⟨e, s, s₁, s₂, r, r', m, a, w₂, w₃, ⟨hs, ht, te, hte⟩, hrow, ⟨hun, hdest, hmat⟩, hac, hpaid,
    hclear, fun R hR => hmoves R (by rwa [Booked.shareVault_eq hac.booked]), rfl⟩

/-- As moves of the ledger: one row is cleared. -/
theorem Made.does {destination fee : Pubkey} {e : BucketTokenBalance}
    (h : Made env w destination fee t p e s s₁ s₂ r r' m a w₂ w₃ w') (hl : Located env w)
    (hR : R.strategy t) (hR' : R.spends s.shareVault (env.address .globalConfig)) :
    Does R [.clear t p] w w' := by
  rw [h.result]
  obtain ⟨h₁, h₂⟩ := h.moves R hR'
  exact (((h.accrues.does hl).trans h₁).trans h₂).trans (.strategy h₂.located hR)

/-- The pending shares leave the strategy's count. -/
theorem Made.totalUserShares_eq {destination fee : Pubkey} {e : BucketTokenBalance}
    (h : Made env w destination fee t p e s s₁ s₂ r r' m a w₂ w₃ w') :
    s₂.totalUserShares + e.withdrawingBalance = s.totalUserShares := by
  have hs₁ : s₁.totalUserShares = s.totalUserShares := by rw [h.accrues.booked.keeps]
  cases h.paid with
  | drained hn _ hs _ => rw [hs, hn, add_zero, hs₁]
  | paid _ hp _ =>
      obtain ⟨c, te, -, hp⟩ := hp
      simp only [payOut, Except.bind_eq_ok, Except.pure_eq_ok, Prod.mk.injEq] at hp
      obtain ⟨gross, -, f, -, x, -, y, -, w₁, -, w₂, -, s₂, hs, rfl, rfl⟩ := hp
      obtain ⟨hle, rfl⟩ := YieldStrategy.removeUserShares_eq_ok.mp hs
      rw [hs₁] at hle
      simp only [hs₁]
      omega

end ExecuteWithdrawalYieldBearing

namespace ClaimProtocolYieldFee

/-- A claim of the protocol's yield: accrue, redeem, strike it off what is owed. -/
structure Made (env : Env) (w : World) (destination : Pubkey) (t : U16) (amount n : Nat)
    (s s₁ s₂ : YieldStrategy) (r r' : Reserve) (m : Mint) (a : TokenAccount) (w₂ w' : World) :
    Prop where
  found : w.yieldStrategies t = some s
  tokenId : s.tokenId = t
  positive : 0 < amount
  accrues : Accrues env w s r r' m a s₁
  converted : usdcToCusdcRoundDown amount ⟨r'.totalUnderlying, m.supply⟩ = .ok n
  redeemed : cpiRedeemReserveCollateral env (w.setReserve s.reserve r') s₁ destination n = .ok w₂
  taken : s₁.takeProtocolOwed amount = .ok s₂
  solvent : s₂.requireSolvent s₂.lastSettledUnderlying = .ok ()
  result : w' = w₂.setYieldStrategy t s₂

/-- What an accepted claim did, step by step. -/
theorem handler_spec {fee : Pubkey} (h : handler env w owner fee t n = .ok w') :
    ∃ k s s₁ s₂ r r' m a w₂, Made env w fee t n k s s₁ s₂ r r' m a w₂ w' := by
  simp only [handler, World.getYieldStrategy, Except.bind_eq_ok, okOr_eq_ok, Prod.exists,
    Except.pure_eq_ok, require_eq_ok, exists_const] at h
  obtain ⟨c, -, s, hs, f, -, -, -, hn, ht, -, w₁, s₁, snap, hacc, -, k, hk, w₂, hred, s₂, htake, _,
    hsol, rfl⟩ := h
  obtain ⟨r, r', m, a, hac, rfl, rfl⟩ := accrueStrategy_spec hacc
  exact ⟨k, s, s₁, s₂, r, r', m, a, w₂, hs, ht, hn, hac, hk, hred, htake, hsol, rfl⟩

/-- No participant's balance moves. -/
theorem Made.does {destination : Pubkey}
    (h : Made env w destination t n k s s₁ s₂ r r' m a w₂ w') (hl : Located env w)
    (hR : R.strategy t) (hR' : R.spends s.shareVault (env.address .globalConfig)) :
    Does R [] w w' := by
  rw [h.result]
  have h₁ : Does R [] w (w.setReserve s.reserve r') := h.accrues.does hl
  have h₂ : Does R [] _ w₂ :=
    .redeems h₁.located (by rwa [Booked.shareVault_eq h.accrues.booked]) h.redeemed
  exact (h₁.trans h₂).trans (.strategy h₂.located hR)

end ClaimProtocolYieldFee

/-! ### Conversions of a balance -/

/-- The strategy of `t` and a plain token `u` over the same underlying. -/
structure OptTokens (env : Env) (w : World) (u t : U16) (s : YieldStrategy) : Prop where
  ne : u ≠ t
  strategy : StrategyOf w t s
  plain : ∃ e v, w.HasToken u .plain e ∧ e.mint = s.underlyingMint ∧
    w.tokenAccounts (vaultOf env u) = some v ∧ v.mint = s.underlyingMint

/-- The two tokens of a conversion differ, and share an underlying mint. -/
theorem optTokens_spec (h : w.optTokens env u t = .ok s) : OptTokens env w u t s := by
  simp only [World.optTokens, World.strategyOf, World.getYieldStrategy, World.getTokenAccount,
    Except.bind_eq_ok, okOr_eq_ok, require_eq_ok, exists_const, Except.pure_eq_ok, plainToken_eq_ok,
    yieldToken_eq_ok] at h
  obtain ⟨hne, _, ⟨_, hs, ht, rfl⟩, v, hv, hvm, e, he, hem, te, hte, rfl⟩ := h
  exact ⟨hne, ⟨hs, ht, te, hte⟩, e, v, he, hem, hv, hvm⟩

namespace OptInYield

/-- Opting in: accrue, take the plain balance, pay it from the vault to the lending program, credit shares. -/
structure Made (env : Env) (w : World) (k₀ owner : Pubkey) (u t : U16) (amount : Nat) (p : U32) (k : Nat)
    (s s₁ s₂ : YieldStrategy) (r r' : Reserve) (m : Mint) (a : TokenAccount) (w₂ w₃ w₄ w' : World) :
    Prop where
  tokens : OptTokens env w u t s
  positive : 0 < amount
  signer : w.participantIdForOwner env k₀ owner = .ok p
  accrues : Accrues env w s r r' m a s₁
  debited : BucketsOnly (w.setReserve s.reserve r') w₂ ∧
    ∀ R : Rights env, Does R [.debit u p amount] (w.setReserve s.reserve r') w₂
  paid : cpiDepositReserveLiquidity env w₂ s₁ (vaultOf env u) (env.address .globalConfig) amount
    = .ok w₃
  minted : DepositYieldBearing.mintShares s₁ amount = .ok (s₂, k)
  credited : BucketsOnly w₃ w₄ ∧ ∀ R : Rights env, Does R [.credit t p k] w₃ w₄
  solvent : s₂.requireSolvent s₂.lastSettledUnderlying = .ok ()
  result : w' = w₄.setYieldStrategy t s₂

/-- What an accepted conversion did, step by step. -/
theorem handler_spec (hl : Located env w) (h : handler env w owner k₀ k₁ u t n = .ok w') :
    ∃ p k s s₁ s₂ r r' m a w₂ w₃ w₄, Made env w k₀ owner u t n p k s s₁ s₂ r r' m a w₂ w₃ w₄ w' := by
  simp only [handler, Except.bind_eq_ok, Prod.exists, Except.pure_eq_ok, require_eq_ok,
    exists_const] at h
  obtain ⟨c, -, hn, s, htok, p, hauth, w₁, s₁, snap, hacc, w₂, x, hdebit, w₃, hpay, s₂, k, hmint, w₄, y,
    hcredit, _, hsol, rfl⟩ := h
  obtain ⟨r, r', m, a, hac, rfl, rfl⟩ := accrueStrategy_spec hacc
  obtain ⟨hp, rfl, -⟩ := (authenticated_eq_ok hl).mp hauth
  have hl₁ : Located env (w.setReserve s.reserve r') := sameBuckets_setReserve.located hl
  have hd : ∀ R : Rights env, Does R [.debit u p n] (w.setReserve s.reserve r') w₂ := fun R =>
    .debit hl₁ hdebit
  obtain ⟨-, -, -, -, hdep⟩ := cpiDeposit_spec hpay
  have hl₃ : Located env w₃ := (sameBuckets_deposit hdep).located
    (hd ⟨fun _ _ => False, fun _ => False, False, fun _ _ => id⟩).located
  obtain ⟨-, hk, -, -⟩ := DepositYieldBearing.mintShares_eq_ok.mp hmint
  exact ⟨p, k, s, s₁, s₂, r, r', m, a, w₂, w₃, w₄, optTokens_spec htok, hn, hp, hac,
    ⟨bucketsOnly_edit hdebit, hd⟩, hpay, hmint,
    ⟨bucketsOnly_edit hcredit, fun R => .credit hl₃ hk hcredit⟩, hsol, rfl⟩

/-- As moves of the ledger: a debit in one token and a credit in the other. -/
theorem Made.does (h : Made env w k₀ owner u t n p k s s₁ s₂ r r' m a w₂ w₃ w₄ w')
    (hl : Located env w) (hR : R.strategy t)
    (hR' : R.spends (vaultOf env u) (env.address .globalConfig)) :
    Does R [.debit u p n, .credit t p k] w w' := by
  rw [h.result]
  have h₁ : Does R [] w (w.setReserve s.reserve r') := h.accrues.does hl
  have h₂ := h.debited.2 R
  have h₃ : Does R [] w₂ w₃ := .pays h₂.located hR' h.paid
  exact (((h₁.trans h₂).trans h₃).trans (h.credited.2 R)).trans
    (.strategy (h.credited.2 R).located hR)

/-- The minted shares are counted. -/
theorem Made.totalUserShares_eq (h : Made env w k₀ owner u t n p k s s₁ s₂ r r' m a w₂ w₃ w₄ w') :
    s₂.totalUserShares = s.totalUserShares + k := by
  rw [DepositYieldBearing.mintShares_totalUserShares h.minted, h.accrues.booked.keeps]

end OptInYield

namespace OptOutYield

/-- Opting out: accrue, take the shares, redeem what they are worth into the vault, credit that. -/
structure Made (env : Env) (w : World) (k₀ owner : Pubkey) (u t : U16) (shares : Nat) (p : U32)
    (burned received : Nat) (s s₁ s₂ : YieldStrategy) (r r' : Reserve) (m : Mint) (a : TokenAccount)
    (w₂ w₃ w₄ w' : World) : Prop where
  tokens : OptTokens env w u t s
  positive : 0 < shares
  signer : w.participantIdForOwner env k₀ owner = .ok p
  accrues : Accrues env w s r r' m a s₁
  debited : BucketsOnly (w.setReserve s.reserve r') w₂ ∧
    ∀ R : Rights env, Does R [.debit t p shares] (w.setReserve s.reserve r') w₂
  converted : redemption s₁ ⟨r'.totalUnderlying, m.supply⟩ shares = .ok (burned, received)
  redeemed : cpiRedeemReserveCollateral env w₂ s₁ (vaultOf env u) burned = .ok w₃
  removed : s₁.removeUserShares shares received = .ok s₂
  credited : BucketsOnly w₃ w₄ ∧ ∀ R : Rights env, Does R [.credit u p received] w₃ w₄
  solvent : s₂.requireSolvent s₂.lastSettledUnderlying = .ok ()
  result : w' = w₄.setYieldStrategy t s₂

/-- What an accepted conversion back did, step by step. -/
theorem handler_spec (hl : Located env w) (h : handler env w owner k₀ k₁ t u n = .ok w') :
    ∃ p b x s s₁ s₂ r r' m a w₂ w₃ w₄,
      Made env w k₀ owner u t n p b x s s₁ s₂ r r' m a w₂ w₃ w₄ w' := by
  simp only [handler, Except.bind_eq_ok, Prod.exists, Except.pure_eq_ok, require_eq_ok,
    exists_const] at h
  obtain ⟨c, -, hn, s, htok, p, hauth, w₁, s₁, snap, hacc, w₂, y, hdebit, b, x, hconv, w₃, hred, s₂,
    hrem, w₄, z, hcredit, _, hsol, rfl⟩ := h
  obtain ⟨r, r', m, a, hac, rfl, rfl⟩ := accrueStrategy_spec hacc
  obtain ⟨hp, rfl, -⟩ := (authenticated_eq_ok hl).mp hauth
  have hl₁ : Located env (w.setReserve s.reserve r') := sameBuckets_setReserve.located hl
  have hd : ∀ R : Rights env, Does R [.debit t p n] (w.setReserve s.reserve r') w₂ := fun R =>
    .debit hl₁ hdebit
  obtain ⟨-, -, -, -, hrd⟩ := cpiRedeem_spec hred
  have hl₃ : Located env w₃ := (sameBuckets_redeem hrd).located
    (hd ⟨fun _ _ => False, fun _ => False, False, fun _ _ => id⟩).located
  obtain ⟨-, -, -, -, -, -, hx⟩ := redemption_eq_ok.mp hconv
  exact ⟨p, b, x, s, s₁, s₂, r, r', m, a, w₂, w₃, w₄, optTokens_spec htok, hn, hp, hac,
    ⟨bucketsOnly_edit hdebit, hd⟩, hconv, hred, hrem,
    ⟨bucketsOnly_edit hcredit, fun R => .credit hl₃ hx hcredit⟩, hsol, rfl⟩

/-- As moves of the ledger, again a debit and a credit. -/
theorem Made.does {b x : Nat}
    (h : Made env w k₀ owner u t n p b x s s₁ s₂ r r' m a w₂ w₃ w₄ w') (hl : Located env w)
    (hR : R.strategy t) (hR' : R.spends s.shareVault (env.address .globalConfig)) :
    Does R [.debit t p n, .credit u p x] w w' := by
  rw [h.result]
  have h₁ : Does R [] w (w.setReserve s.reserve r') := h.accrues.does hl
  have h₂ := h.debited.2 R
  have h₃ : Does R [] w₂ w₃ :=
    .redeems h₂.located (by rwa [Booked.shareVault_eq h.accrues.booked]) h.redeemed
  exact (((h₁.trans h₂).trans h₃).trans (h.credited.2 R)).trans
    (.strategy (h.credited.2 R).located hR)

/-- The shares leave the count, whatever they brought. -/
theorem Made.totalUserShares_eq {b x : Nat}
    (h : Made env w k₀ owner u t n p b x s s₁ s₂ r r' m a w₂ w₃ w₄ w') :
    s₂.totalUserShares + n = s.totalUserShares := by
  have hs₁ : s₁.totalUserShares = s.totalUserShares := by rw [h.accrues.booked.keeps]
  obtain ⟨hle, hs₂⟩ := YieldStrategy.removeUserShares_eq_ok.mp h.removed
  rw [hs₂]
  simp only
  omega

end OptOutYield

end Ryvo
