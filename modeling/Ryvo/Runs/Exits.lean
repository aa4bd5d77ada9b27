import Ryvo.Runs.Payouts
import Ryvo.Runs.Registry
import Mathlib.Tactic.IntervalCases

/-!
# Runs — Exits

A plain withdrawal that has matured can be executed, by whoever pays for the transaction, and pays what it should.  Nothing the program computes on the way can fail: fees are bounded and so are decimals (`feeAmount_eq`), the vault holds what everybody has a claim to, and no transfer overflows an account (`exists_transfer`).  What can stop it is the freeze authority of the token's mint: the token program moves nothing from or to a frozen account (`Unfrozen`).

* `Reached.suppliesFit`: a mint's supply is a `u64`.
* `exits_of_reached`: when an execution succeeds, exactly, and what every account holds after it.
-/

namespace Ryvo

open Finset

variable {env : Env} {w w' : World} {R : Rights env} {t : U16} {p : U32} {n : Nat}
variable {k k' source destination authority : Pubkey} {m : Mint} {a b : TokenAccount}

/-! ### Supplies -/

/-- Every supply is a `u64`. -/
def SuppliesFit (w : World) : Prop := ∀ k m, w.mints k = some m → m.supply < u64Bound

theorem SuppliesFit.of_eq (hs : SuppliesFit w) (h : w'.mints = w.mints) : SuppliesFit w' :=
  fun k m hm => hs k m (h ▸ hm)

theorem SuppliesFit.update {mint : Pubkey} {m' : Mint} (hs : SuppliesFit w)
    (h : w'.mints = Function.update w.mints mint (some m')) (hm : m'.supply < u64Bound) :
    SuppliesFit w' := by
  intro k m hk
  rw [h] at hk
  by_cases e : k = mint
  · subst e
    rw [Function.update_self] at hk
    obtain rfl := Option.some.inj hk
    exact hm
  · rw [Function.update_of_ne e] at hk
    exact hs k m hk

theorem Op.suppliesFit (h : Op R w w') (hr : Reserves env w) (hs : SuppliesFit w) : SuppliesFit w' := by
  have hr' := h.reserves hr
  cases h with
  | transfer _ h =>
      obtain ⟨-, hw, -⟩ := tokenTransfer_spec h
      exact hs.of_eq (by rw [hw])
  | mintTo _ h =>
      simp only [World.tokenMintTo, invokeToken_eq_ok, TokenProgram.mintTo_iff] at h
      obtain ⟨T, ⟨m, dst, -, -, -, -, -, hlt, -, rfl⟩, rfl⟩ := h
      exact hs.update rfl hlt
  | burn _ h =>
      obtain ⟨⟨m, src, hm, -, -, -, -, -, hms⟩, -, -⟩ := tokenBurn_spec h
      exact hs.update hms ((Nat.sub_le _ _).trans_lt (hs _ m hm))
  | toggleFreeze h =>
      obtain ⟨b, -, rfl⟩ := tokenToggleFreeze_spec h
      exact hs.of_eq rfl
  | close _ h =>
      obtain ⟨b, -, -, -, rfl⟩ := tokenClose_spec h
      exact hs.of_eq rfl
  | createMint h =>
      obtain ⟨-, -, rfl⟩ := createMint_spec h
      exact hs.update rfl (Nat.two_pow_pos _)
  | createTokenAccount h =>
      obtain ⟨-, -, -, rfl⟩ := createTokenAccount_spec h
      exact hs.of_eq rfl
  | setReserve _ _ => exact hs.of_eq rfl
  | newReserve _ _ _ _ _ _ => exact hs.of_eq rfl
  | deposit _ h =>
      obtain ⟨r, m, minted, hd⟩ := Lending.deposit_spec h
      obtain ⟨r', hacc, -, hlt, hres⟩ := hd.accrued
      have hac := Lending.accrued hacc
      -- There are no more shares than the reserve has underlying.
      obtain ⟨m', hm', -, hle⟩ := hr'.shares _ _ (by rw [hres, Function.update_self])
      change w'.mints r'.shareMint = some m' at hm'
      rw [hac.shareMint_eq, hd.mints, Function.update_self] at hm'
      obtain rfl := Option.some.inj hm'
      exact hs.update hd.mints (hle.trans_lt hlt)
  | redeem _ h =>
      obtain ⟨r, m, paid, hd⟩ := Lending.redeem_spec h
      exact hs.update hd.mints ((Nat.sub_le _ _).trans_lt (hs _ m hd.mintFound))
  | books h => exact hs.of_eq (by rw [h])
  | admin _ => exact hs.of_eq rfl
  | strategy _ => exact hs.of_eq rfl

theorem Ops.suppliesFit (h : Ops R w w') (hr : Reserves env w) (hs : SuppliesFit w) :
    SuppliesFit w' := by
  induction h with
  | refl => exact hs
  | tail h hop ih => exact hop.suppliesFit (Ops.reserves h hr) ih

theorem Reached.suppliesFit (hw : Reached env w) : SuppliesFit w := by
  refine Reachable.invariant ?_ ?_ hw
  · rintro w ⟨clock, -, rfl⟩ k m hk
    cases hk
  · intro w a w' hw hs hstep
    obtain ⟨ms, -, hd⟩ := Reached.makes hw hstep
    exact Ops.suppliesFit hd.ops (Reached.reserves hw) hs

/-! ### Transfers -/

/-- Two accounts of a mint hold no more than its supply. -/
theorem Minted.add_le_supply (h : Minted w) (ha : w.tokenAccounts k = some a)
    (hb : w.tokenAccounts k' = some b) (hne : k ≠ k') (hmint : a.mint = b.mint)
    (hm : w.mints a.mint = some m) : a.amount + b.amount ≤ m.supply := by
  have hk : w.heldAt a.mint k = a.amount := by simp [World.heldAt, ha]
  have hk' : w.heldAt a.mint k' = b.amount := by simp [World.heldAt, hb, hmint]
  rw [← h.supply _ m hm, ← hk, ← hk', ← sum_pair hne]
  exact sum_le_sum_of_subset (subset_univ _)

/-- The freeze authority of its mint has stopped the account. -/
def World.Frozen (w : World) (k : Pubkey) : Prop := ∃ a, w.tokenAccounts k = some a ∧ a.frozen = true

theorem not_frozen_iff (ha : w.tokenAccounts k = some a) : ¬ w.Frozen k ↔ a.frozen = false := by
  simp [World.Frozen, ha]

/-- Where amounts only move, nothing is frozen and nothing thaws. -/
theorem Moved.frozen {δ : Pubkey → Int} (h : Moved δ w w') (k : Pubkey) :
    w'.Frozen k ↔ w.Frozen k := by
  cases hk : w.tokenAccounts k with
  | none => simp [World.Frozen, hk, (h.noAccount k hk).1]
  | some a =>
      obtain ⟨n, h₁, -⟩ := h.account k a hk
      simp [World.Frozen, hk, h₁]

/-- A transfer succeeds when the source can pay and neither account is frozen. -/
theorem exists_transfer (h : Minted w) (hs : SuppliesFit w) (ha : w.tokenAccounts k = some a)
    (hb : w.tokenAccounts k' = some b) (hf : ¬ w.Frozen k) (hf' : ¬ w.Frozen k') (hle : n ≤ a.amount)
    (hmint : a.mint = b.mint) : ∃ w', w.tokenTransfer env k k' a.owner n = .ok w' := by
  rw [not_frozen_iff ha] at hf
  rw [not_frozen_iff hb] at hf'
  by_cases hk : k = k'
  · exact ⟨w, tokenTransfer_eq_ok.mpr ⟨a, b, ha, hb, hf, hf', hle, hmint, rfl, by rw [if_pos hk]⟩⟩
  · obtain ⟨m, hm⟩ := Option.isSome_iff_exists.mp (h.mint k a ha)
    have hadd := h.add_le_supply ha hb hk hmint hm
    have hlt := hs _ m hm
    have hroom : b.amount + n < u64Bound := by omega
    refine ⟨(w.setTokenAccount k { a with amount := a.amount - n }).setTokenAccount k'
      { b with amount := b.amount + n }, tokenTransfer_eq_ok.mpr ?_⟩
    exact ⟨a, b, ha, hb, hf, hf', hle, hmint, rfl, by rw [if_neg hk]; exact ⟨hroom, rfl⟩⟩

/-- What an account gains of `n` that go from `source` to `destination`. -/
def transferred (source destination : Pubkey) (n : Nat) (k : Pubkey) : Int :=
  (if k = destination then (n : Int) else 0) - if k = source then (n : Int) else 0

theorem transferPositive_moved (h : w.transferPositive env source destination authority n = .ok w') :
    w' = { w with tokenAccounts := w'.tokenAccounts } ∧ Moved (transferred source destination n) w w' := by
  unfold World.transferPositive at h
  split at h
  · exact (tokenTransfer_spec h).2
  · obtain rfl := Except.ok.inj h
    obtain rfl : n = 0 := by omega
    refine ⟨rfl, ?_⟩
    have hzero : transferred source destination 0 = fun _ => 0 := by
      funext k
      simp [transferred]
    rw [hzero]
    exact .zero rfl

/-- What is paid is paid between accounts that are not frozen. -/
theorem transferPositive_thawed
    (h : w.transferPositive env source destination authority n = .ok w') (hn : n ≠ 0) :
    ¬ w.Frozen source ∧ ¬ w.Frozen destination := by
  rw [World.transferPositive, if_pos (Nat.pos_of_ne_zero hn)] at h
  obtain ⟨a, b, ha, hb, hf, hf', -⟩ := tokenTransfer_eq_ok.mp h
  exact ⟨(not_frozen_iff ha).mpr hf, (not_frozen_iff hb).mpr hf'⟩

theorem exists_transferPositive (h : Minted w) (hs : SuppliesFit w)
    (ha : w.tokenAccounts source = some a) (hb : w.tokenAccounts destination = some b)
    (hf : n ≠ 0 → ¬ w.Frozen source ∧ ¬ w.Frozen destination) (hle : n ≤ a.amount)
    (hmint : a.mint = b.mint) :
    ∃ w', w.transferPositive env source destination a.owner n = .ok w' ∧ Minted w' ∧ SuppliesFit w' := by
  unfold World.transferPositive
  split
  · rename_i hn
    obtain ⟨hf, hf'⟩ := hf hn.ne'
    obtain ⟨w', hw'⟩ := exists_transfer h hs ha hb hf hf' hle hmint
    refine ⟨w', hw', h.transfer hw', hs.of_eq ?_⟩
    rw [(tokenTransfer_spec hw').2.1]
  · exact ⟨w, rfl, h, hs⟩

/-! ### The fee -/

/-- A twentieth of a token, and one unit at least. -/
def minFee (decimals : Nat) : Nat := max (10 ^ decimals / 20) 1

/-- The fee on a withdrawal of `n`. -/
def exitFee (feeBps decimals n : Nat) : Nat := withdrawalFee (n * feeBps / 10000) (minFee decimals) n

theorem exitFee_le (feeBps decimals n : Nat) : exitFee feeBps decimals n ≤ n := withdrawalFee_le _ _ _

/-- Both branches of the scaling come to the same. -/
theorem scaledMinFee_eq {d : Nat} (h : d ≤ TokenRegistry.maxTokenDecimals) :
    scaledMinFee d = .ok (minFee d) := by
  by_cases h6 : 6 ≤ d
  · obtain ⟨j, rfl⟩ := Nat.exists_eq_add_of_le h6
    have hj : 10 ^ j ≤ 10 ^ 14 := Nat.pow_le_pow_right (by decide) (by
      have : TokenRegistry.maxTokenDecimals = 20 := rfl
      omega)
    have hpos : 0 < 10 ^ j := Nat.pow_pos (by decide)
    have hscale : 10 ^ j < u64Bound := hj.trans_lt (by decide)
    have hfee : 50000 * 10 ^ j < u64Bound :=
      (Nat.mul_le_mul_left 50000 hj).trans_lt (by decide)
    have hmin : minFee (6 + j) = 50000 * 10 ^ j := by
      simp only [minFee, pow_add]
      omega
    rw [scaledMinFee, if_pos h6, hmin, Nat.add_sub_cancel_left]
    simp only [Except.bind_eq_ok, tryFrom_eq_ok, checkedMul_eq_ok]
    exact ⟨_, ⟨rfl, hscale⟩, rfl, hfee⟩
  · rw [not_le] at h6
    interval_cases d <;> rfl

/-- The fee is computed without a failure. -/
theorem feeAmount_eq {feeBps d : Nat} (hbps : feeBps ≤ GlobalConfig.maxFeeBps)
    (hd : d ≤ TokenRegistry.maxTokenDecimals) (hn : n < u64Bound) :
    ExecuteWithdrawalTimelocked.feeAmount feeBps d n = .ok (exitFee feeBps d n) := by
  have hproduct : n * feeBps ≤ n * 30 := Nat.mul_le_mul_left n hbps
  have hbig : n * feeBps < u128Bound :=
    (hproduct.trans (Nat.mul_le_mul_right 30 hn.le)).trans_lt (by decide)
  have hcast : n * feeBps / 10000 % u64Bound = n * feeBps / 10000 :=
    Nat.mod_eq_of_lt (by omega)
  simp only [ExecuteWithdrawalTimelocked.feeAmount, scaledMinFee_eq hd, Except.bind_eq_ok,
    checkedMul_eq_ok, Except.pure_eq_ok]
  exact ⟨_, rfl, _, ⟨rfl, hbig⟩, by rw [hcast, exitFee]⟩

/-! ### Payments -/

/-- What an account gains when `n` leave the token's vault, `fee` of them for the fee account. -/
def payout (env : Env) (t : U16) (destination feeAccount : Pubkey) (n fee : Nat) (k : Pubkey) : Int :=
  transferred (vaultOf env t) destination (n - fee) k + transferred (vaultOf env t) feeAccount fee k

/-- No account that is paid from or to is frozen. -/
structure Thawed (env : Env) (w : World) (t : U16) (destination feeAccount : Pubkey) (n fee : Nat) :
    Prop where
  vault : n ≠ 0 → ¬ w.Frozen (vaultOf env t)
  destination : n - fee ≠ 0 → ¬ w.Frozen destination
  feeAccount : fee ≠ 0 → ¬ w.Frozen feeAccount

theorem payout_zero (fee : Nat) (k : Pubkey) :
    payout env t destination source 0 (exitFee fee n 0) k = 0 := by
  have := Nat.le_zero.mp (exitFee_le fee n 0)
  simp [payout, transferred, this]

namespace ExecuteWithdrawalTimelocked

variable {c : GlobalConfig} {te : TokenEntry} {v d f : TokenAccount} {feeAccount : Pubkey}

theorem payOut_moved {fee : Nat}
    (h : payOut env w t destination feeAccount (n - fee) fee = .ok w') :
    w' = { w with tokenAccounts := w'.tokenAccounts } ∧
      Moved (payout env t destination feeAccount n fee) w w' := by
  obtain ⟨w₁, h₁, h₂⟩ := Except.bind_eq_ok.mp h
  obtain ⟨e₁, m₁⟩ := transferPositive_moved h₁
  obtain ⟨e₂, m₂⟩ := transferPositive_moved h₂
  exact ⟨by rw [e₂, e₁], m₁.trans m₂⟩

theorem payOut_thawed {fee : Nat}
    (h : payOut env w t destination feeAccount (n - fee) fee = .ok w') :
    Thawed env w t destination feeAccount n fee := by
  obtain ⟨w₁, h₁, h₂⟩ := Except.bind_eq_ok.mp h
  have hmoved := (transferPositive_moved h₁).2
  refine ⟨fun hn => ?_, fun hn => (transferPositive_thawed h₁ hn).2,
    fun hn => fun hf => (transferPositive_thawed h₂ hn).2 ((hmoved.frozen _).mpr hf)⟩
  -- One of the two payments is made.
  by_cases hnet : n - fee = 0
  · have hfee : fee ≠ 0 := by omega
    exact fun hf => (transferPositive_thawed h₂ hfee).1 ((hmoved.frozen _).mpr hf)
  · exact (transferPositive_thawed h₁ hnet).1

theorem exists_payOut {fee : Nat} (h : Minted w) (hs : SuppliesFit w)
    (hth : Thawed env w t destination feeAccount n fee)
    (hv : w.tokenAccounts (vaultOf env t) = some v) (ho : v.owner = env.address .globalConfig)
    (hd : w.tokenAccounts destination = some d) (hf : w.tokenAccounts feeAccount = some f)
    (hdm : v.mint = d.mint) (hfm : v.mint = f.mint) (hle : n ≤ v.amount) (hfee : fee ≤ n) :
    ∃ w', payOut env w t destination feeAccount (n - fee) fee = .ok w' := by
  have hnet : n - fee ≤ v.amount := (Nat.sub_le _ _).trans hle
  obtain ⟨w₁, h₁, hm₁, hs₁⟩ := exists_transferPositive h hs hv hd
    (fun hn => ⟨hth.vault (by omega), hth.destination hn⟩) hnet hdm
  -- The vault still has the fee.
  obtain ⟨-, hmoved⟩ := transferPositive_moved h₁
  obtain ⟨left, hv₁, hleft⟩ := hmoved.account _ v hv
  obtain ⟨kept, hf₁, -⟩ := hmoved.account _ f hf
  have hcover : fee ≤ left := by
    simp only [transferred, if_true] at hleft
    split_ifs at hleft <;> omega
  obtain ⟨w', h₂, -, -⟩ := exists_transferPositive hm₁ hs₁ hv₁ hf₁
    (fun hn => ⟨fun hz => hth.vault (by omega) ((hmoved.frozen _).mp hz),
      fun hz => hth.feeAccount hn ((hmoved.frozen _).mp hz)⟩) hcover hfm
  exact ⟨w', Except.bind_eq_ok.mpr ⟨w₁, ho ▸ h₁, ho ▸ h₂⟩⟩

theorem settlePending_moved (hbps : c.feeBps ≤ GlobalConfig.maxFeeBps)
    (hdec : te.decimals ≤ TokenRegistry.maxTokenDecimals) (hn : n < u64Bound)
    (h : settlePending env w c te t destination feeAccount n = .ok w') :
    w' = { w with tokenAccounts := w'.tokenAccounts } ∧
      Moved (payout env t destination feeAccount n (exitFee c.feeBps te.decimals n)) w w' := by
  unfold settlePending at h
  split at h
  next h₀ =>
    obtain rfl := Except.ok.inj h
    subst h₀
    have hzero : payout env t destination feeAccount 0 (exitFee c.feeBps te.decimals 0)
        = fun _ => 0 := funext fun k => payout_zero _ k
    exact ⟨rfl, hzero ▸ .zero rfl⟩
  next =>
    rw [feeAmount_eq hbps hdec hn] at h
    exact payOut_moved h

theorem settlePending_thawed (hbps : c.feeBps ≤ GlobalConfig.maxFeeBps)
    (hdec : te.decimals ≤ TokenRegistry.maxTokenDecimals) (hn : n < u64Bound)
    (h : settlePending env w c te t destination feeAccount n = .ok w') :
    Thawed env w t destination feeAccount n (exitFee c.feeBps te.decimals n) := by
  unfold settlePending at h
  split at h
  next h₀ =>
    have hfee := exitFee_le c.feeBps te.decimals n
    exact ⟨fun h => absurd h₀ h, fun h => absurd (by omega) h, fun h => absurd (by omega) h⟩
  next =>
    rw [feeAmount_eq hbps hdec hn] at h
    exact payOut_thawed h

theorem exists_settlePending (h : Minted w) (hs : SuppliesFit w)
    (hth : Thawed env w t destination feeAccount n (exitFee c.feeBps te.decimals n))
    (hbps : c.feeBps ≤ GlobalConfig.maxFeeBps)
    (hdec : te.decimals ≤ TokenRegistry.maxTokenDecimals)
    (hv : w.tokenAccounts (vaultOf env t) = some v) (ho : v.owner = env.address .globalConfig)
    (hd : w.tokenAccounts destination = some d) (hf : w.tokenAccounts feeAccount = some f)
    (hdm : v.mint = d.mint) (hfm : v.mint = f.mint) (hle : n ≤ v.amount) :
    ∃ w', settlePending env w c te t destination feeAccount n = .ok w' := by
  unfold settlePending
  split
  · exact ⟨w, rfl⟩
  · rw [feeAmount_eq hbps hdec (hle.trans_lt (h.lt _ v hv))]
    exact exists_payOut h hs hth hv ho hd hf hdm hfm hle (exitFee_le _ _ _)

end ExecuteWithdrawalTimelocked

/-! ### Executions -/

/-- A pending withdrawal of a plain token, and the accounts an execution is given: the bucket's own, the destination on record, and one of the fee recipient's. -/
structure Presented (env : Env) (w : World) (t : U16) (p : U32) (k destination feeAccount : Pubkey)
    (c : GlobalConfig) (te : TokenEntry) (e : BucketTokenBalance) : Prop where
  config : w.globalConfig = some c
  token : w.HasToken t .plain te
  row : ∃ s, w.slot env p = some s ∧ s.tokenEntry t = some e
  pending : e.withdrawalUnlockAt ≠ 0
  bucket : k = slotKey env p
  recorded : destination = e.withdrawalDestination
  destination : ∃ d, w.tokenAccounts destination = some d ∧ d.mint = te.mint
  feeAccount : ∃ f, w.tokenAccounts feeAccount = some f ∧ f.mint = te.mint ∧
    f.owner = c.feeRecipient

/-- What an execution leaves: the payment, and the row cleared. -/
structure PaidOut (env : Env) (w w' : World) (t : U16) (p : U32) (destination feeAccount : Pubkey)
    (c : GlobalConfig) (te : TokenEntry) (e : BucketTokenBalance) : Prop where
  payment : ∀ k, (w'.holding k : Int) = w.holding k + payout env t destination feeAccount
    e.withdrawingBalance (exitFee c.feeBps te.decimals e.withdrawingBalance) k
  row : (w.ledger env).Takes (.clear t p) (w'.ledger env)
  others : w' = { w with
    tokenAccounts := w'.tokenAccounts
    participantBuckets := w'.participantBuckets }

/-- No account an execution pays from or to is frozen: the vault, when anything is pending, and the accounts of whoever gets a part of it. -/
abbrev Unfrozen (env : Env) (w : World) (t : U16) (destination feeAccount : Pubkey) (c : GlobalConfig)
    (te : TokenEntry) (e : BucketTokenBalance) : Prop :=
  Thawed env w t destination feeAccount e.withdrawingBalance
    (exitFee c.feeBps te.decimals e.withdrawingBalance)

/-- Anybody's execution of a withdrawal of a plain token. -/
def Action.execute (t : U16) (p : U32) (k destination feeAccount : Pubkey) : Action :=
  .call (.executeWithdrawalTimelocked k destination feeAccount t p)

variable {c : GlobalConfig} {te : TokenEntry} {e : BucketTokenBalance} {feeAccount : Pubkey}

/-- The arguments settle what is presented. -/
theorem Presented.unique {c' : GlobalConfig} {te' : TokenEntry} {e' : BucketTokenBalance}
    (h : Presented env w t p k destination feeAccount c te e)
    (h' : Presented env w t p k destination feeAccount c' te' e') : c = c' ∧ te = te' ∧ e = e' := by
  obtain ⟨r, hr, hte, -⟩ := h.token
  obtain ⟨r', hr', hte', -⟩ := h'.token
  obtain ⟨s, hs, he⟩ := h.row
  obtain ⟨s', hs', he'⟩ := h'.row
  obtain rfl := Option.some.inj (hr.symm.trans hr')
  obtain rfl := Option.some.inj (hs.symm.trans hs')
  exact ⟨Option.some.inj (h.config.symm.trans h'.config), Option.some.inj (hte.symm.trans hte'),
    Option.some.inj (he.symm.trans he')⟩

/-- What is pending is in the vault. -/
theorem Reached.covered (hw : Reached env w) (h : Presented env w t p k destination feeAccount c te e)
    {v : TokenAccount} (hv : w.tokenAccounts (vaultOf env t) = some v) :
    e.withdrawingBalance ≤ v.amount := by
  obtain ⟨s, hs, he⟩ := h.row
  have htotal := (w.ledger env).total_le_claim t p
  have hclaims := (w.ledger env).claim_le_claims t p
  have hheld := hw.claims_le_holding h.token
  rw [Ledger.total_of_slot hs, ParticipantBucketSlot.balance_of_tokenEntry he] at htotal
  rw [World.holding_of hv] at hheld
  have hrow : e.withdrawingBalance ≤ e.total := Nat.le_add_left _ _
  omega

/-- An execution that succeeds was of something presented and matured, and pays it. -/
theorem Reached.execute_spec (hw : Reached env w)
    (h : Step env w (.execute t p k destination feeAccount) w') :
    ∃ c te e, Presented env w t p k destination feeAccount c te e ∧ e.withdrawalUnlockAt ≤ w.clock ∧
      Unfrozen env w t destination feeAccount c te e ∧
      PaidOut env w w' t p destination feeAccount c te e := by
  have hran := h.ran
  change ExecuteWithdrawalTimelocked.handler env w k destination feeAccount t p = _ at hran
  simp only [ExecuteWithdrawalTimelocked.handler, World.getGlobalConfig, World.getTokenRegistry,
    World.getTokenAccount, Except.bind_eq_ok, require_eq_ok, okOr_eq_ok, exists_const, Prod.exists,
    Except.pure_eq_ok] at hran
  obtain ⟨c, hc, v, hv, d, hd, -, f, hf, hfo, hfm, _, hver, r, hr, te, hte, hdec, hk, data, hdata, e,
    he, hun, hdest, hdm, hmat, w₁, hpay, _, u, hedit, rfl⟩ := hran
  obtain ⟨rfl, -⟩ := (verifyParticipantBucket hw.located).mp hver
  obtain ⟨s, hs, he⟩ := readWithdrawal_eq_ok.mp ⟨data, hdata, he⟩
  have hplain : te.kind = .plain := by
    cases hkind : te.kind with
    | plain => rfl
    | yieldBearing => simp [TokenEntry.isYieldBearing, hkind] at hk
  have htoken : w.HasToken t .plain te := ⟨r, hr, hte, hplain⟩
  obtain ⟨v', hv', hvm, -⟩ := hw.wired.vaults t te htoken
  obtain rfl := Option.some.inj (hv.symm.trans hv')
  have hpresented : Presented env w t p (slotKey env p) destination feeAccount c te e :=
    ⟨hc, htoken, ⟨s, hs, he⟩, hun, rfl, hdest, ⟨d, hd, hdm⟩, f, hf, hfm.trans hvm, hfo⟩
  have hlt := (hw.covered hpresented hv).trans_lt (hw.minted.lt _ v hv)
  obtain ⟨hframe, hmoved⟩ :=
    ExecuteWithdrawalTimelocked.settlePending_moved (hw.withinBounds hc).feeBps.2 hdec hlt hpay
  have hthawed :=
    ExecuteWithdrawalTimelocked.settlePending_thawed (hw.withinBounds hc).feeBps.2 hdec hlt hpay
  obtain ⟨s₁, s', hs₁, hclear, rfl⟩ := editSlot_eq_ok.mp hedit
  obtain ⟨-, -, -, -, -, htakes⟩ := hw.executed h ⟨_, _, .inl rfl⟩
  exact ⟨c, te, e, hpresented, hmat, hthawed, hmoved.holding, htakes, by rw [hframe]; rfl⟩

/-- What is presented and matured can be executed while no account is frozen. -/
theorem Reached.execute (hw : Reached env w)
    (h : Presented env w t p k destination feeAccount c te e) (hmat : e.withdrawalUnlockAt ≤ w.clock)
    (hth : Unfrozen env w t destination feeAccount c te e) :
    ∃ w', Step env w (.execute t p k destination feeAccount) w' := by
  obtain ⟨r, hr, hte, hk⟩ := h.token
  obtain ⟨v, hv, hvm, hvo⟩ := hw.wired.vaults t te h.token
  obtain ⟨d, hd, hdm⟩ := h.destination
  obtain ⟨f, hf, hfm, hfo⟩ := h.feeAccount
  obtain ⟨s, hs, he⟩ := h.row
  obtain ⟨data, hdata, hread⟩ := readWithdrawal_eq_ok.mpr ⟨s, hs, he⟩
  obtain ⟨b, hb, -⟩ := slot_eq_some.mp hs
  have hver := (verifyParticipantBucket hw.located (k := slotKey env p)).mpr ⟨rfl, by simp [hb]⟩
  have hdec := ((hw.registryValid hr).entries te (List.mem_of_find?_eq_some hte)).2.1
  have hyield : te.isYieldBearing = false := by simp [TokenEntry.isYieldBearing, hk]
  obtain ⟨w₁, hpay⟩ := ExecuteWithdrawalTimelocked.exists_settlePending hw.minted hw.suppliesFit
    hth (hw.withinBounds h.config).feeBps.2 hdec hv hvo hd hf (hvm.trans hdm.symm) (hvm.trans hfm.symm)
    (hw.covered h hv)
  obtain ⟨hframe, -⟩ := ExecuteWithdrawalTimelocked.settlePending_moved (hw.withinBounds h.config).feeBps.2
    hdec ((hw.covered h hv).trans_lt (hw.minted.lt _ v hv)) hpay
  have hs₁ : w₁.slot env p = some s := by
    rw [hframe]
    exact hs
  have hclear : s.clearTokenWithdrawal t = .ok (s.put t (ParticipantBucketSlot.cleared e), ()) :=
    ParticipantBucketSlot.clearTokenWithdrawal_eq_ok.mpr ⟨e, he, rfl⟩
  have hran : ∃ w', ExecuteWithdrawalTimelocked.handler env w k destination feeAccount t p = .ok w' := by
    simp only [ExecuteWithdrawalTimelocked.handler, World.getGlobalConfig, World.getTokenRegistry,
      World.getTokenAccount, Except.bind_eq_ok, require_eq_ok, okOr_eq_ok, exists_const, Prod.exists,
      Except.pure_eq_ok, h.bucket]
    exact ⟨_, c, h.config, v, hv, d, hd, hdm.trans hvm.symm, f, hf, hfo, hfm.trans hvm.symm, (), hver,
      r, hr, te, hte, hdec, hyield, data, hdata, e, hread, h.pending, h.recorded, hdm, hmat, w₁, hpay,
      _, (), editSlot_eq_ok.mpr ⟨s, _, hs₁, hclear, rfl⟩, rfl⟩
  obtain ⟨w', hran⟩ := hran
  exact ⟨w', fun _ hk => absurd hk List.not_mem_nil, hran⟩

/-- Time passes. -/
theorem Presented.tick (h : Presented env w t p k destination feeAccount c te e) (seconds : Nat) :
    Presented env { w with clock := w.clock + seconds } t p k destination feeAccount c te e :=
  ⟨h.config, h.token, h.row, h.pending, h.bucket, h.recorded, h.destination, h.feeAccount⟩

/-- What the executions of plain withdrawals in a world are. -/
structure Exits (env : Env) (w : World) : Prop where
  executes : ∀ t p k destination feeAccount,
    (∃ w', Step env w (.execute t p k destination feeAccount) w') ↔
      ∃ c te e, Presented env w t p k destination feeAccount c te e ∧
        e.withdrawalUnlockAt ≤ w.clock ∧ Unfrozen env w t destination feeAccount c te e
  pays : ∀ t p k destination feeAccount c te e w',
    Presented env w t p k destination feeAccount c te e →
    Step env w (.execute t p k destination feeAccount) w' →
    PaidOut env w w' t p destination feeAccount c te e
  /-- Whatever is pending can be executed when enough time has passed, unless an account is frozen. -/
  ripens : ∀ t p k destination feeAccount c te e,
    Presented env w t p k destination feeAccount c te e →
    Unfrozen env w t destination feeAccount c te e →
    ∃ seconds w₁ w', Step env w (.outside (.tick seconds)) w₁ ∧
      Step env w₁ (.execute t p k destination feeAccount) w'

/-- **Withdrawals get out**: in every reached world, a withdrawal of a plain token that has matured can be executed by anybody exactly when none of the accounts it pays from or to is frozen, whatever the fee, the token's decimals and the balances are, and it takes from the vault what was pending, for the recorded destination and the fee recipient. -/
theorem exits_of_reached (hw : Reached env w) : Exits env w where
  executes t p k destination feeAccount := by
    constructor
    · rintro ⟨w', h⟩
      obtain ⟨c, te, e, hpresented, hmat, hth, -⟩ := hw.execute_spec h
      exact ⟨c, te, e, hpresented, hmat, hth⟩
    · rintro ⟨c, te, e, hpresented, hmat, hth⟩
      exact hw.execute hpresented hmat hth
  pays t p k destination feeAccount c te e w' hpresented h := by
    obtain ⟨c', te', e', hpresented', -, -, hpaid⟩ := hw.execute_spec h
    obtain ⟨rfl, rfl, rfl⟩ := hpresented.unique hpresented'
    exact hpaid
  ripens t p k destination feeAccount c te e hpresented hth := by
    have hstep : Step env w (.outside (.tick (e.withdrawalUnlockAt - w.clock).toNat)) _ :=
      ⟨fun _ hk => absurd hk List.not_mem_nil, rfl⟩
    obtain ⟨w', h⟩ := Reached.execute (hw.next hstep) (hpresented.tick _) (by
      change e.withdrawalUnlockAt ≤ w.clock + ((e.withdrawalUnlockAt - w.clock).toNat : Int)
      omega) ⟨hth.vault, hth.destination, hth.feeAccount⟩
    exact ⟨_, _, w', hstep, h⟩

open Localnet in
/-- Key 70 is waiting for thirty. -/
theorem exits_of_maturing : ∃ w, (w.ledger localnet).withdrawing 1 0 = 30 ∧
    (∃ w', Step localnet w (.execute 1 0 bucket (Localnet.key 70) (Localnet.key 80)) w') ∧
    Exits localnet w := by
  obtain ⟨w, w', hw, hstep, hc⟩ := step_of_runsTo localnet (opening ++ funding ++ maturing)
    (.execute 1 0 bucket (Localnet.key 70) (Localnet.key 80))
    (fun w _ => (w.ledger localnet).withdrawing 1 0 = 30) (by decide +kernel)
  exact ⟨w, of_decide_eq_true hc, ⟨w', hstep⟩, exits_of_reached hw⟩

end Ryvo
