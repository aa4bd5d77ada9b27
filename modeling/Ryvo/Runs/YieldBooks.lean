import Ryvo.Books.Solvency
import Ryvo.Runs.Claims

/-!
# Runs — The strategy's books

A strategy keeps three figures besides the count of shares: the index, what the protocol is owed, and the vault's value when it was last booked.  Along a run they are what the accruals of its history come to.  Nothing but an accrual raises the index, and nothing but a claim of the fee recipient takes anything of what the protocol earned.

* `YieldStrategy.bookValue_eq`: a booking, exactly.
* `Reached.booksStep`: what a step does to the figures.
* `yieldLedger_of_history`: what they are after a run, and that the closing check holds of them.
-/

namespace Ryvo

variable {env : Env} {w w' w₁ : World} {a : Action} {t : U16} {s s₁ s' : YieldStrategy} {n v : Nat}
variable {h : List (World × Action)} {owner fee : Pubkey}

/-! ### Bookings -/

namespace YieldStrategy

/-- The protocol's part of a growth, which is all of it where nobody has a share. -/
def protocolCut (s : YieldStrategy) (n : Nat) : Nat :=
  if s.totalUserShares = 0 then n else n * s.protocolYieldShareBps / 10000

/-- What the users' part of a growth adds to the index. -/
def indexRise (s : YieldStrategy) (n : Nat) : Nat := (n - s.protocolCut n) * 2 ^ 64 / s.totalUserShares

/-- The strategy with a growth attributed. -/
def attributing (s : YieldStrategy) (n : Nat) : YieldStrategy :=
  { s with
    userIndexQ64 := s.userIndexQ64 + s.indexRise n
    protocolOwedUnderlying := s.protocolOwedUnderlying + s.protocolCut n }

theorem protocolCut_zero (s : YieldStrategy) : s.protocolCut 0 = 0 := by simp [protocolCut]

theorem attributing_zero (s : YieldStrategy) : s.attributing 0 = s := by
  simp [attributing, indexRise, protocolCut_zero]

theorem protocolCut_le (hbps : s.protocolYieldShareBps ≤ maxProtocolYieldShareBps) :
    s.protocolCut n ≤ n := by
  rw [protocolCut]
  split
  · exact le_rfl
  · exact cut_le hbps

/-- While there are shares, at least half of a growth is the users'. -/
theorem two_mul_protocolCut_le (hbps : s.protocolYieldShareBps ≤ maxProtocolYieldShareBps)
    (hshares : s.totalUserShares ≠ 0) : 2 * s.protocolCut n ≤ n := by
  rw [protocolCut, if_neg hshares]
  have hmul : n * s.protocolYieldShareBps ≤ n * 5000 := Nat.mul_le_mul_left n hbps
  have hdiv := Nat.div_mul_le_self (n * s.protocolYieldShareBps) 10000
  omega

theorem applyYieldDelta_eq (h : s.applyYieldDelta n = .ok s') : s' = s.attributing n := by
  unfold applyYieldDelta at h
  split at h
  · rename_i hn
    subst hn
    rw [attributing_zero]
    exact (Except.ok.inj h).symm
  split at h
  · rename_i hshares
    obtain ⟨-, rfl⟩ := addProtocolOwed_eq_ok.mp h
    simp [attributing, indexRise, protocolCut, hshares]
  · rename_i hshares
    simp only [Except.bind_eq_ok, checkedMul_eq_ok, tryFrom_eq_ok, subU64, checkedSub_eq_ok,
      raiseIndex_eq_ok] at h
    obtain ⟨_, ⟨rfl, -⟩, cut, ⟨hcut, -⟩, _, ⟨rfl, -⟩, s₂, ⟨-, rfl⟩, h⟩ := h
    have hpart : s.protocolCut n = cut := by rw [protocolCut, if_neg hshares, hcut]
    split at h
    · obtain ⟨-, rfl⟩ := addProtocolOwed_eq_ok.mp h
      simp [attributing, indexRise, hpart]
    · rename_i hzero
      obtain rfl : cut = 0 := by omega
      rw [Except.pure_eq_ok] at h
      subst h
      simp [attributing, indexRise, hpart]

/-- A booking attributes the growth there is, and none where there is none. -/
theorem bookValue_eq (h : s.bookValue v = .ok s') :
    s' = { s.attributing (v - s.lastSettledUnderlying) with lastSettledUnderlying := v } := by
  unfold bookValue at h
  split at h
  · simp only [Except.bind_eq_ok, Except.pure_eq_ok] at h
    obtain ⟨s₁, h, rfl⟩ := h
    rw [applyYieldDelta_eq h]
  · rename_i hle
    rw [Nat.sub_eq_zero_of_le (not_lt.mp hle), attributing_zero]
    exact (Except.ok.inj h).symm

end YieldStrategy

/-! ### Worlds -/

/-- The vault's value as an accrual books it. -/
def World.vaultValue (env : Env) (w : World) (s : YieldStrategy) : Nat :=
  match accrueStrategy env w s with
  | .ok (_, s₁, _) => s₁.lastSettledUnderlying
  | .error _ => s.lastSettledUnderlying

/-- How much the vault of a token has grown since it was last booked. -/
def World.growth (env : Env) (w : World) (t : U16) : Nat :=
  (w.yieldStrategies t).elim 0 fun s => w.vaultValue env s - s.lastSettledUnderlying

def World.protocolCut (env : Env) (w : World) (t : U16) : Nat :=
  (w.yieldStrategies t).elim 0 fun s => s.protocolCut (w.growth env t)

def World.indexRise (env : Env) (w : World) (t : U16) : Nat :=
  (w.yieldStrategies t).elim 0 fun s => s.indexRise (w.growth env t)

theorem Accrues.bookedValue {r r' : Reserve} {m : Mint} {v : TokenAccount}
    (h : Accrues env w s r r' m v s₁) : s.bookValue s₁.lastSettledUnderlying = .ok s₁ := by
  have hran := h.ran
  simp only [accrueStrategy, Except.bind_eq_ok, Prod.exists, Except.pure_eq_ok, Prod.mk.injEq] at hran
  obtain ⟨_, -, _, _, _, -, value, -, s₂, hbook, -, rfl, -⟩ := hran
  have hv : s₂.lastSettledUnderlying = value := by rw [(YieldStrategy.booked hbook).keeps]
  rw [hv]
  exact hbook

/-- The figures of an accrued strategy. -/
theorem Accrues.figures {r r' : Reserve} {m : Mint} {v : TokenAccount}
    (h : Accrues env w s r r' m v s₁) (hs : w.yieldStrategies t = some s) :
    s₁.userIndexQ64 = s.userIndexQ64 + w.indexRise env t ∧
      s₁.protocolOwedUnderlying = s.protocolOwedUnderlying + w.protocolCut env t := by
  have hvalue : w.growth env t = s₁.lastSettledUnderlying - s.lastSettledUnderlying := by
    rw [World.growth, hs, Option.elim_some, World.vaultValue, h.ran]
  have hbooked := YieldStrategy.bookValue_eq h.bookedValue
  rw [← hvalue] at hbooked
  rw [World.indexRise, World.protocolCut, hs, hbooked]
  exact ⟨rfl, rfl⟩

/-- What an action claims of a token's fees. -/
def Action.claimed (t : U16) : Action → Nat
  | .call (.claimProtocolYieldFee _ _ t' amount) => if t' = t then amount.val else 0
  | _ => 0

theorem Action.claimed_of_ne (h : a.strategy ≠ some t) : a.claimed t = 0 := by
  cases a with
  | outside o => rfl
  | call ix =>
      cases ix with
      | claimProtocolYieldFee => exact if_neg fun e => h (congrArg some e)
      | _ => rfl

/-- What a step adds, when it accrues the token. -/
def Action.accruing (a : Action) (t : U16) (n : Nat) : Nat := if a.strategy = some t then n else 0

/-- What the accruals of a history come to. -/
def accruals (h : List (World × Action)) (t : U16) (f : World → Nat) : Nat :=
  (h.map fun x => x.2.accruing t (f x.1)).sum

def feesClaimed (h : List (World × Action)) (t : U16) : Nat := (h.map fun x => x.2.claimed t).sum

theorem accruals_cons (w : World) (a : Action) (h : List (World × Action)) (t : U16) (f : World → Nat) :
    accruals ((w, a) :: h) t f = a.accruing t (f w) + accruals h t f := rfl

theorem feesClaimed_cons (w : World) (a : Action) (h : List (World × Action)) (t : U16) :
    feesClaimed ((w, a) :: h) t = a.claimed t + feesClaimed h t := rfl

/-- The closing check, against the value that is booked. -/
def YieldStrategy.Checked (s : YieldStrategy) : Prop :=
  s.requireSolvent s.lastSettledUnderlying = .ok ()

/-! ### Steps -/

/-- What a step does to the figures of a strategy. -/
structure BooksStep (env : Env) (w : World) (a : Action) (t : U16) (s s' : YieldStrategy) : Prop where
  evolves : s.Evolves s'
  index : s'.userIndexQ64 = s.userIndexQ64 + a.accruing t (w.indexRise env t)
  fees : s'.protocolOwedUnderlying + a.claimed t
    = s.protocolOwedUnderlying + a.accruing t (w.protocolCut env t)
  checked : s.Checked → s'.Checked

/-- A step that leaves the strategy alone. -/
theorem BooksStep.kept (hs : a.strategy ≠ some t) (hc : a.claimed t = 0) :
    BooksStep env w a t s s where
  evolves := .refl s
  index := by rw [Action.accruing, if_neg hs, add_zero]
  fees := by rw [Action.accruing, if_neg hs, hc]
  checked := id

/-- Shares that come in or go out leave the figures the accrual made. -/
theorem BooksStep.accrued {r r' : Reserve} {m : Mint} {v : TokenAccount}
    (hacc : Accrues env w s r r' m v s₁) (hs : w.yieldStrategies t = some s)
    (ht : a.strategy = some t) (hc : a.claimed t = 0) (hev : s₁.Evolves s')
    (hindex : s'.userIndexQ64 = s₁.userIndexQ64)
    (howed : s'.protocolOwedUnderlying = s₁.protocolOwedUnderlying) (hsol : s'.Checked) :
    BooksStep env w a t s s' where
  evolves := hacc.booked.evolves.trans hev
  index := by rw [Action.accruing, if_pos ht, hindex, (hacc.figures hs).1]
  fees := by rw [Action.accruing, if_pos ht, howed, hc, (hacc.figures hs).2, add_zero]
  checked _ := hsol

namespace ExecuteWithdrawalYieldBearing

/-- Where nothing is left to pay, the value that is checked is the one just booked. -/
theorem checked {p : U32} {destination k : Pubkey}
    (h : handler env w k destination fee t p = .ok w') :
    ∃ s', w'.yieldStrategies t = some s' ∧ s'.Checked := by
  simp only [handler, World.getYieldStrategy, Except.bind_eq_ok, okOr_eq_ok, Prod.exists,
    Except.pure_eq_ok, require_eq_ok, exists_const] at h
  obtain ⟨c, -, s₀, hs₀, d, -, -, f, -, -, -, te, -, -, ht, _, -, w₁, s₁, snap, hacc, data, -, e, -, -,
    -, -, -, w₃, s₂, hpay, rfl⟩ := h
  refine ⟨s₂, Function.update_self _ _ _, ?_⟩
  obtain ⟨r, r', m, v, hac, rfl, rfl⟩ := accrueStrategy_spec hacc
  unfold settlePending at hpay
  split at hpay
  · simp only [Except.bind_eq_ok, Prod.exists, Except.pure_eq_ok, Prod.mk.injEq,
      World.getTokenAccount, okOr_eq_ok] at hpay
    obtain ⟨w₂, u, hedit, a, ha, value, hvalue, _, hsol, rfl, rfl⟩ := hpay
    have hbuckets := bucketsOnly_edit hedit
    rw [BucketsOnly] at hbuckets
    have hvault : w₂.tokenAccounts s₁.shareVault = some v := by
      rw [hbuckets, Booked.shareVault_eq hac.booked]
      exact hac.vault
    obtain rfl := Option.some.inj (ha.symm.trans hvault)
    obtain ⟨rfl, -⟩ := cusdcToUsdc_eq_ok.mp hvalue
    rw [YieldStrategy.Checked, hac.booked.keeps]
    rw [hac.booked.keeps] at hsol
    exact hsol
  · simp only [Except.bind_eq_ok, Prod.exists, Except.pure_eq_ok, Prod.mk.injEq] at hpay
    obtain ⟨w₂, _, -, _, u, -, _, hsol, rfl, rfl⟩ := hpay
    exact hsol

end ExecuteWithdrawalYieldBearing

theorem Reached.booksStep (hw : Reached env w) (h : Step env w a w') (hs : w.yieldStrategies t = some s) :
    ∃ s', w'.yieldStrategies t = some s' ∧ BooksStep env w a t s s' := by
  have hl := hw.located
  by_cases ht : a.strategy = some t
  · have hran := h.ran
    cases a with
    | outside o => cases ht
    | call ix =>
        cases ix with
        | registerYieldBearingToken =>
            obtain rfl := Option.some.inj ht
            obtain ⟨s₀, e, r, w₁, -, -, -, hf, -⟩ := RegisterYieldBearingToken.handler_spec hran
            simp [hf.free] at hs
        | accrueYield =>
            obtain rfl := Option.some.inj ht
            obtain ⟨s₀, s₁, r, r', m, v, hm⟩ := AccrueYield.handler_spec hran
            obtain rfl := Option.some.inj (hs.symm.trans hm.found)
            exact ⟨s₁, by rw [hm.result]; exact Function.update_self _ _ _,
              .accrued hm.accrues hs ht rfl (.refl s₁) rfl rfl hm.solvent⟩
        | depositYieldBearing =>
            obtain rfl := Option.some.inj ht
            obtain ⟨p, k, s₀, s₁, s₂, r, r', m, v, w₂, w₃, hm⟩ :=
              DepositYieldBearing.handler_spec hl hran
            obtain rfl := Option.some.inj (hs.symm.trans hm.strategy.found)
            obtain ⟨-, -, -, hadd⟩ := DepositYieldBearing.mintShares_eq_ok.mp hm.minted
            obtain ⟨-, -, hs₂⟩ := YieldStrategy.addUserShares_eq_ok.mp hadd
            exact ⟨s₂, by rw [hm.result]; exact Function.update_self _ _ _,
              .accrued hm.accrues hs ht rfl (YieldStrategy.evolves_addUserShares hadd) (by rw [hs₂])
                (by rw [hs₂]) hm.solvent⟩
        | executeWithdrawalYieldBearing =>
            obtain rfl : t = _ := (Option.some.inj ht).symm
            obtain ⟨s', hs', hchecked⟩ := ExecuteWithdrawalYieldBearing.checked hran
            obtain ⟨e, s₀, s₁, s₂, r, r', m, v, w₂, w₃, hm⟩ :=
              ExecuteWithdrawalYieldBearing.handler_spec hl hran
            obtain rfl := Option.some.inj (hs.symm.trans hm.strategy.found)
            have hs₂ : w'.yieldStrategies t = some s₂ := by
              rw [hm.result]
              exact Function.update_self _ _ _
            obtain rfl := Option.some.inj (hs'.symm.trans hs₂)
            cases hm.paid with
            | drained _ _ he _ =>
                subst he
                exact ⟨s', hs', .accrued hm.accrues hs ht rfl (.refl s') rfl rfl hchecked⟩
            | paid _ hp _ =>
                obtain ⟨c, te, -, hp⟩ := hp
                simp only [ExecuteWithdrawalYieldBearing.payOut, Except.bind_eq_ok, Except.pure_eq_ok,
                  Prod.mk.injEq] at hp
                obtain ⟨gross, -, f, -, x, -, y, -, w₁, -, w₂, -, s₃, hrem, rfl, rfl⟩ := hp
                obtain ⟨-, he⟩ := YieldStrategy.removeUserShares_eq_ok.mp hrem
                exact ⟨s₃, hs', .accrued hm.accrues hs ht rfl (YieldStrategy.evolves_removeUserShares hrem)
                  (by rw [he]) (by rw [he]) hchecked⟩
        | claimProtocolYieldFee =>
            obtain rfl := Option.some.inj ht
            obtain ⟨k, s₀, s₁, s₂, r, r', m, v, w₂, hm⟩ := ClaimProtocolYieldFee.handler_spec hran
            obtain rfl := Option.some.inj (hs.symm.trans hm.found)
            obtain ⟨hle, hs₂⟩ := YieldStrategy.takeProtocolOwed_eq_ok.mp hm.taken
            obtain ⟨hindex, howed⟩ := hm.accrues.figures hs
            refine ⟨s₂, by rw [hm.result]; exact Function.update_self _ _ _,
              hm.accrues.booked.evolves.trans (YieldStrategy.evolves_takeProtocolOwed hm.taken), ?_, ?_,
              fun _ => hm.solvent⟩
            · rw [Action.accruing, if_pos ht, hs₂, ← hindex]
            · rw [Action.accruing, if_pos ht, ← howed, hs₂, Action.claimed, if_pos rfl]
              exact Nat.sub_add_cancel hle
        | optInYield =>
            obtain rfl := Option.some.inj ht
            obtain ⟨p, k, s₀, s₁, s₂, r, r', m, v, w₂, w₃, w₄, hm⟩ := OptInYield.handler_spec hl hran
            obtain rfl := Option.some.inj (hs.symm.trans hm.tokens.strategy.found)
            obtain ⟨-, -, -, hadd⟩ := DepositYieldBearing.mintShares_eq_ok.mp hm.minted
            obtain ⟨-, -, hs₂⟩ := YieldStrategy.addUserShares_eq_ok.mp hadd
            exact ⟨s₂, by rw [hm.result]; exact Function.update_self _ _ _,
              .accrued hm.accrues hs ht rfl (YieldStrategy.evolves_addUserShares hadd) (by rw [hs₂])
                (by rw [hs₂]) hm.solvent⟩
        | optOutYield =>
            obtain rfl := Option.some.inj ht
            obtain ⟨p, b, x, s₀, s₁, s₂, r, r', m, v, w₂, w₃, w₄, hm⟩ := OptOutYield.handler_spec hl hran
            obtain rfl := Option.some.inj (hs.symm.trans hm.tokens.strategy.found)
            obtain ⟨-, hs₂⟩ := YieldStrategy.removeUserShares_eq_ok.mp hm.removed
            exact ⟨s₂, by rw [hm.result]; exact Function.update_self _ _ _,
              .accrued hm.accrues hs ht rfl (YieldStrategy.evolves_removeUserShares hm.removed)
                (by rw [hs₂]) (by rw [hs₂]) hm.solvent⟩
        | _ => cases ht
  · obtain ⟨ms, -, hd⟩ := hw.makes h
    exact ⟨s, by rw [Ops.strategy_eq hd.ops ht, hs], .kept ht (Action.claimed_of_ne ht)⟩

/-! ### Runs -/

/-- Nothing is accrued or claimed before there is a strategy. -/
structure Unopened (env : Env) (h : List (World × Action)) (t : U16) : Prop where
  rises : accruals h t (·.indexRise env t) = 0
  cuts : accruals h t (·.protocolCut env t) = 0
  claimed : feesClaimed h t = 0
  absent : ∀ x ∈ h, x.1.yieldStrategies t = none

theorem Step.claimed_of_none (h : Step env w a w') (hs : w.yieldStrategies t = none) :
    a.claimed t = 0 := by
  have hran := h.ran
  cases a with
  | outside o => rfl
  | call ix =>
      cases ix with
      | claimProtocolYieldFee =>
          refine if_neg ?_
          rintro rfl
          obtain ⟨k, s₀, s₁, s₂, r, r', m, v, w₂, hm⟩ := ClaimProtocolYieldFee.handler_spec hran
          simp [hm.found] at hs
      | _ => rfl

theorem Unopened.cons (hu : Unopened env h t) (hstep : Step env w a w')
    (hs : w.yieldStrategies t = none) : Unopened env ((w, a) :: h) t where
  rises := by
    rw [accruals_cons, hu.rises, World.indexRise, hs]
    exact ite_self 0
  cuts := by
    rw [accruals_cons, hu.cuts, World.protocolCut, hs]
    exact ite_self 0
  claimed := by rw [feesClaimed_cons, hu.claimed, hstep.claimed_of_none hs]
  absent := List.forall_mem_cons.mpr ⟨hs, hu.absent⟩

/-- What the figures of a strategy are after a run. -/
structure YieldBooks (env : Env) (h : List (World × Action)) (t : U16) (s : YieldStrategy) : Prop where
  /-- The index has risen by what the accruals brought the users, and never fallen. -/
  index : s.userIndexQ64 = q64One + accruals h t (·.indexRise env t)
  /-- What the protocol is owed and what it was paid is what the accruals brought it. -/
  fees : s.protocolOwedUnderlying + feesClaimed h t = accruals h t (·.protocolCut env t)
  checked : s.Checked
  terms : ∀ x ∈ h, ∀ s₀, x.1.yieldStrategies t = some s₀ → s₀.Evolves s

/-- A strategy as it is registered. -/
theorem Unopened.yieldBooks (hu : Unopened env h t)
    (hf : RegisterYieldBearingToken.Fresh env w t s) : YieldBooks env h t s where
  index := by rw [hu.rises, hf.index, add_zero]
  fees := by rw [hu.cuts, hu.claimed, hf.owed]
  checked := by
    rw [YieldStrategy.Checked, hf.settled, YieldStrategy.requireSolvent_eq_ok, hf.shares, hf.owed]
    exact ⟨by simp, by simp, by simp⟩
  terms x hx s₀ hs₀ := by
    rw [hu.absent x hx] at hs₀
    cases hs₀

theorem YieldBooks.cons (hb : YieldBooks env h t s) (hs : w.yieldStrategies t = some s)
    (hstep : BooksStep env w a t s s') : YieldBooks env ((w, a) :: h) t s' where
  index := by
    rw [hstep.index, hb.index, accruals_cons]
    ring
  fees := by
    have := hstep.fees
    have := hb.fees
    rw [feesClaimed_cons, accruals_cons]
    omega
  checked := hstep.checked hb.checked
  terms := by
    refine List.forall_mem_cons.mpr ⟨fun s₀ hs₀ => ?_, fun x hx s₀ hs₀ => ?_⟩
    · obtain rfl := Option.some.inj (hs.symm.trans hs₀)
      exact hstep.evolves
    · exact (hb.terms x hx s₀ hs₀).trans hstep.evolves

theorem books_of_history (r : History env h w) (t : U16) :
    (w.yieldStrategies t = none → Unopened env h t) ∧
      ∀ s, w.yieldStrategies t = some s → YieldBooks env h t s := by
  refine Run.history (P := fun h w => (w.yieldStrategies t = none → Unopened env h t) ∧
    ∀ s, w.yieldStrategies t = some s → YieldBooks env h t s) ?_ ?_ r
  · rintro w ⟨clock, -, rfl⟩
    exact ⟨fun _ => ⟨rfl, rfl, rfl, by simp⟩, fun s hs => (Option.some_ne_none s hs.symm).elim⟩
  · intro h w a w' r ih hstep
    obtain ⟨hnone, hsome⟩ := ih
    cases hs : w.yieldStrategies t with
    | some s =>
        obtain ⟨s', hs', hbooks⟩ := Reached.booksStep r.reachable hstep hs
        refine ⟨fun hn => absurd (hs'.symm.trans hn) (Option.some_ne_none s'), fun s₁ hs₁ => ?_⟩
        obtain rfl := Option.some.inj (hs'.symm.trans hs₁)
        exact (hsome s hs).cons hs hbooks
    | none =>
        have hu := (hnone hs).cons hstep hs
        refine ⟨fun _ => hu, fun s' hs' => ?_⟩
        rcases Reached.strategy_cases r.reachable hstep t with he | ⟨s, _, hs₁, -⟩ | ⟨s, e, r, w₁, hnew, rfl⟩
        · simp [← he, hs'] at hs
        · simp [hs₁] at hs
        · obtain rfl : s = s' := by simpa [hnew.result] using hs'
          exact hu.yieldBooks hnew.fresh

/-- A claim is the fee recipient's, into an account of its own. -/
theorem Step.claimsFee {amount : U64} {k : Pubkey}
    (h : Step env w (.call (.claimProtocolYieldFee owner k t amount)) w') :
    ∃ c f, w.globalConfig = some c ∧ c.feeRecipient = owner ∧ w.tokenAccounts k = some f ∧
      f.owner = owner := by
  have hran := h.ran
  change ClaimProtocolYieldFee.handler env w owner k t amount.val = _ at hran
  simp only [ClaimProtocolYieldFee.handler, World.getGlobalConfig, World.getYieldStrategy,
    World.getTokenAccount, Except.bind_eq_ok, okOr_eq_ok, require_eq_ok, exists_const] at hran
  obtain ⟨c, hc, s, -, f, hf, hfo, -, -, -, howner, -⟩ := hran
  exact ⟨c, f, hc, howner.symm, hf, hfo.trans howner.symm⟩

/-- What the figures of all strategies are after a run, and where the protocol's part comes from and goes to. -/
structure YieldLedger (env : Env) (h : List (World × Action)) (w : World) : Prop where
  books : ∀ t s, w.yieldStrategies t = some s → YieldBooks env h t s
  /-- No more than the vault has grown, and half of it at most while anybody has a share. -/
  cuts : ∀ x ∈ h, ∀ t s, x.1.yieldStrategies t = some s →
    x.1.protocolCut env t ≤ x.1.growth env t ∧
      (s.totalUserShares ≠ 0 → 2 * x.1.protocolCut env t ≤ x.1.growth env t)
  claims : ∀ x ∈ h, ∀ recipient k t amount,
    x.2 = .call (.claimProtocolYieldFee recipient k t amount) →
    ∃ c f, x.1.globalConfig = some c ∧ c.feeRecipient = recipient ∧
      x.1.tokenAccounts k = some f ∧ f.owner = recipient

/-- **The books of a strategy add up**: after every run its index is one and what the accruals brought the users, what the protocol is owed and what the fee recipient was paid together are what they brought the protocol, and both are covered by the value on record. -/
theorem yieldLedger_of_history (r : History env h w) : YieldLedger env h w where
  books t s hs := (books_of_history r t).2 s hs
  cuts x hx t s hs := by
    obtain ⟨h₁, h₂, rfl⟩ := List.append_of_mem hx
    have hx : Reached env x.1 := ⟨h₂, r.suffix⟩
    have hbps := (hx.wired.strategies t s hs).bps
    rw [World.protocolCut, hs]
    exact ⟨YieldStrategy.protocolCut_le hbps, YieldStrategy.two_mul_protocolCut_le hbps⟩
  claims x hx recipient k t amount ha := by
    obtain ⟨h₁, h₂, rfl⟩ := List.append_of_mem hx
    obtain ⟨w₁, hstep, -⟩ := r.step_of_mem
    rw [ha] at hstep
    exact hstep.claimsFee

namespace Localnet

/-- A thousand in the vault for a year. -/
def aYear : List Action :=
  [.outside (.createTokenAccount (key 80) usd (key 2)),
    .call (.depositYieldBearing (key 10) indexBucket bucket (key 60) 2 1000),
    .outside (.tick 31536000),
    .call (.accrueYield 2)]

/-- Of what that brought the protocol, a hundred are claimed. -/
def claimHundred : Action := .call (.claimProtocolYieldFee (key 2) (key 80) 2 100)

end Localnet

open Localnet in
/-- Sixty-six are still owed. -/
theorem yieldLedger_of_year : ∃ h w w' s, History localnet ((w, claimHundred) :: h) w' ∧
    w'.yieldStrategies 2 = some s ∧ s.protocolOwedUnderlying = 66 ∧
    YieldLedger localnet ((w, claimHundred) :: h) w' := by
  obtain ⟨w, w', ⟨h, r⟩, hstep, hc⟩ := step_of_runsTo localnet (opening ++ lending ++ aYear) claimHundred
    (fun _ w' => (w'.yieldStrategies 2).any fun s : YieldStrategy =>
      decide (s.protocolOwedUnderlying = 66)) (by decide +kernel)
  obtain ⟨s, hs, howed⟩ := (Option.any_eq_true ..).mp hc
  exact ⟨h, w, w', s, r.next hstep, hs, of_decide_eq_true howed, yieldLedger_of_history (r.next hstep)⟩

end Ryvo
