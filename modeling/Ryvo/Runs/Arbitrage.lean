import Ryvo.Runs.Conversions

/-!
# Runs — Arbitrage

Opting in and out in no time.  The vault of a strategy is worth at most what was booked (`Settled`), and a conversion keeps it so: what it pays in or takes out bounds what it changes of the vault's worth.  So no accrual in between attributes anything, and each conversion costs whoever makes it what rounding takes.

* `Quiet.settled`: a step that converts, or leaves the strategy alone, keeps the vault settled and the index where it is.
* `Trades.wealth_le`: nobody's plain balance and shares together are worth more after it.
* `noArbitrage`: the same of whole runs.
-/

namespace Ryvo

variable {env : Env} {w w' w₀ : World} {a : Action} {t u : U16} {p q : U32} {s s₁ s' : YieldStrategy}
variable {e : TokenEntry} {r r' : Reserve} {m : Mint} {v : TokenAccount} {n : Nat}

/-! ### Quiet steps -/

/-- The instruction opts in to the strategy, opts out of it or accrues it. -/
def Instruction.Converts (t : U16) : Instruction → Prop
  | .optInYield _ _ _ _ t' _ => t' = t
  | .optOutYield _ _ _ t' _ _ => t' = t
  | .accrueYield t' => t' = t
  | _ => False

def Action.Converts (t : U16) : Action → Prop
  | .call ix => ix.Converts t
  | .outside _ => False

/-- The strategy, its vault of shares, its reserve and the reserve's shares stay. -/
structure Untouched (w w' : World) (t : U16) : Prop where
  strategy : w'.yieldStrategies t = w.yieldStrategies t
  accounts : ∀ s, w.yieldStrategies t = some s → w'.reserves s.reserve = w.reserves s.reserve ∧
    w'.mints s.shareMint = w.mints s.shareMint ∧ w'.tokenAccounts s.shareVault = w.tokenAccounts s.shareVault

/-- A step in no time that leaves the strategy alone unless it converts. -/
structure Quiet (env : Env) (t : U16) (w : World) (a : Action) (w' : World) : Prop where
  step : Step env w a w'
  clock : w'.clock = w.clock
  converts : a.Converts t ∨ Untouched w w' t

/-- The strategy's interest is booked, and its vault is worth at most what was. -/
structure Settled (w : World) (t : U16) (s : YieldStrategy) : Prop where
  found : w.yieldStrategies t = some s
  stands : ∃ r m v, Stands w s r m v ∧
    Pool.worth v.amount r.totalUnderlying m.supply ≤ s.lastSettledUnderlying ∧
    (m.supply = 0 → r.totalUnderlying = 0)

/-- Only the shares outstanding and the booked value change. -/
def Converted (s s' : YieldStrategy) : Prop :=
  s' = { s with
    lastSettledUnderlying := s'.lastSettledUnderlying, totalUserShares := s'.totalUserShares }

theorem Converted.trans (h : Converted s s₁) (h' : Converted s₁ s') : Converted s s' := by
  rw [Converted, h', h]

theorem Converted.stands (h : Converted s s') (hst : Stands w s r m v) : Stands w s' r m v := by
  rw [h]
  exact ⟨hst.reserve, hst.mint, hst.vault, hst.booked⟩

/-- An accrual of a settled strategy attributes nothing. -/
theorem Settled.accrues (hset : Settled w t s) (h : Accrues env w s r r' m v s₁) :
    Converted s s₁ ∧ (m.supply = 0 → r'.totalUnderlying = 0) := by
  obtain ⟨r₀, m₀, v₀, hst, hle, hempty⟩ := hset.stands
  obtain ⟨rfl, rfl, rfl, rfl⟩ := h.again hst
  obtain ⟨hi, ho⟩ := h.booked.nothing hle
  refine ⟨?_, hempty⟩
  rw [Converted, h.booked.keeps]
  simp only [hi, ho]

namespace Settled

theorem accrueYield (hset : Settled w t s) (hm : AccrueYield.Made env w t s s₁ r r' m v w') :
    Settled w' t s₁ ∧ Converted s s₁ := by
  obtain ⟨hc, hempty⟩ := hset.accrues hm.accrues
  have hst := hc.stands hm.accrues.stands
  rw [hm.result]
  exact ⟨⟨Function.update_self _ _ _, r', m, v, ⟨hst.reserve, hst.mint, hst.vault, hst.booked⟩,
    hm.accrues.lastSettled.ge, hempty⟩, hc⟩

variable {k₀ owner : Pubkey} {k b x : Nat} {s₂ : YieldStrategy} {w₂ w₃ w₄ : World}

/-- The amount is converted at a rate no better than the vault's: the vault's worth grows by no more. -/
theorem optInYield (hset : Settled w t s) (hw : Reached env w)
    (hm : OptInYield.Made env w k₀ owner u t n p k s s₁ s₂ r r' m v w₂ w₃ w₄ w') :
    Settled w' t s₂ ∧ Converted s s₂ := by
  obtain ⟨hc, hempty⟩ := hset.accrues hm.accrues
  obtain ⟨-, -, -, hadd⟩ := DepositYieldBearing.mintShares_eq_ok.mp hm.minted
  obtain ⟨-, -, hs₂⟩ := YieldStrategy.addUserShares_eq_ok.mp hadd
  have hc₂ : Converted s s₂ := hc.trans (by rw [Converted, hs₂])
  obtain ⟨c, hc₀, hmint, hst⟩ := hm.stands hw.wired hw.reserves
  have hrate : c * r'.totalUnderlying ≤ n * m.supply := by
    rcases Lending.sharesToMint_le hmint with hle | hz | hz
    · exact hle
    · rw [hempty hz, Nat.mul_zero]
      exact Nat.zero_le _
    · rw [hz, Nat.mul_zero]
      exact Nat.zero_le _
  have hle := hm.accrues.le_supply (hw.wired.strategies _ s hset.found) hw.minted
  refine ⟨⟨by rw [hm.result]; exact Function.update_self _ _ _, _, _, _, hc₂.stands hst, ?_,
    fun hz => by simp only at hz; omega⟩, hc₂⟩
  rw [hs₂]
  simp only [hm.accrues.lastSettled]
  exact Pool.worth_deposit_own hrate hle

/-- What is paid out comes off the vault's worth. -/
theorem optOutYield (hset : Settled w t s) (hw : Reached env w)
    (hm : OptOutYield.Made env w k₀ owner u t n p b x s s₁ s₂ r r' m v w₂ w₃ w₄ w') :
    Settled w' t s₂ ∧ Converted s s₂ := by
  obtain ⟨hc, -⟩ := hset.accrues hm.accrues
  obtain ⟨-, hs₂⟩ := YieldStrategy.removeUserShares_eq_ok.mp hm.removed
  have hc₂ : Converted s s₂ := hc.trans (by rw [Converted, hs₂])
  obtain ⟨hbv, hbs, hst⟩ := hm.stands hw.wired hw.reserves
  obtain ⟨owed, howed, -, -, hb₀, hx, -⟩ := OptOutYield.redemption_eq_ok.mp hm.converted
  obtain ⟨hworth, -⟩ := hm.worth hw.wired hw.reserves hw.minted howed
  obtain ⟨hx, -⟩ := cusdcToUsdc_eq_ok.mp hx
  refine ⟨⟨by rw [hm.result]; exact Function.update_self _ _ _, _, _, _, hc₂.stands hst, ?_,
    fun hz => ?_⟩, hc₂⟩
  · rw [hs₂]
    simp only [hm.accrues.lastSettled]
    omega
  · -- The last shares of the reserve take all there is.
    obtain rfl : b = m.supply := by
      simp only at hz
      omega
    rw [Pool.worth, Nat.mul_div_cancel_left _ hb₀] at hx
    simp only [hx, Nat.sub_self]

end Settled

/-- A quiet step leaves the strategy settled, at the same index and owing the protocol the same. -/
theorem Quiet.settled (h : Quiet env t w a w') (hw : Reached env w) (hset : Settled w t s) :
    ∃ s', Settled w' t s' ∧ Converted s s' := by
  rcases h.converts with hx | hu
  · have hstep := h.step.ran
    cases a with
    | outside o => cases hx
    | call ix =>
        cases ix with
        | accrueYield =>
            obtain rfl : t = _ := hx.symm
            obtain ⟨s₀, s₁, r, r', m, v, hm⟩ := AccrueYield.handler_spec hstep
            obtain rfl := Option.some.inj (hset.found.symm.trans hm.found)
            exact ⟨s₁, hset.accrueYield hm⟩
        | optInYield =>
            obtain rfl : t = _ := hx.symm
            obtain ⟨p, k, s₀, s₁, s₂, r, r', m, v, w₂, w₃, w₄, hm⟩ :=
              OptInYield.handler_spec hw.located hstep
            obtain rfl := Option.some.inj (hset.found.symm.trans hm.tokens.strategy.found)
            exact ⟨s₂, hset.optInYield hw hm⟩
        | optOutYield =>
            obtain rfl : t = _ := hx.symm
            obtain ⟨p, b, x, s₀, s₁, s₂, r, r', m, v, w₂, w₃, w₄, hm⟩ :=
              OptOutYield.handler_spec hw.located hstep
            obtain rfl := Option.some.inj (hset.found.symm.trans hm.tokens.strategy.found)
            exact ⟨s₂, hset.optOutYield hw hm⟩
        | _ => cases hx
  · obtain ⟨r, m, v, hst, hle, hempty⟩ := hset.stands
    obtain ⟨e₁, e₂, e₃⟩ := hu.accounts s hset.found
    exact ⟨s, ⟨hu.strategy.trans hset.found, r, m, v, hst.congr e₁ e₂ e₃ h.clock, hle, hempty⟩, rfl⟩

/-! ### What a participant has -/

/-- The index of the strategy of `t`. -/
def World.index (w : World) (t : U16) : Nat := (w.yieldStrategies t).elim 0 (·.userIndexQ64)

theorem World.index_of (h : w.yieldStrategies t = some s) : w.index t = s.userIndexQ64 := by
  simp [World.index, h]

/-- What a participant can spend in a plain token and in shares of the strategy of `t`, in the index's units. -/
def World.wealth (env : Env) (w : World) (t u : U16) (p : U32) : Nat :=
  (w.ledger env).available u p * 2 ^ 64 + (w.ledger env).available t p * w.index t

/-- A quiet step that converts, or leaves what the participant can spend in the two tokens alone. -/
structure Trades (env : Env) (t u : U16) (p : U32) (w : World) (a : Action) (w' : World) : Prop where
  quiet : Quiet env t w a w'
  converts : a.Converts t ∨
    (w'.ledger env).available u p = (w.ledger env).available u p ∧
      (w'.ledger env).available t p = (w.ledger env).available t p

/-- One balance goes down and another up, for one participant. -/
theorem Ledger.TakesAll.available_pair {L L' : Ledger} {u' t' : U16} {c : Nat}
    (h : L.TakesAll [.debit u' q n, .credit t' q c] L') (t : U16) (p : U32) :
    (L'.available t p : Int) = L.available t p + (if u' = t ∧ q = p then -(n : Int) else 0)
      + if t' = t ∧ q = p then (c : Int) else 0 := by
  obtain ⟨L₁, h₁, h₂⟩ := h
  rw [(Ledger.takesAll_singleton.mp h₂).available_credit, h₁.available_debit]

/-- What is given up is worth no less than what is got for it. -/
theorem wealth_le_of_pair {u' t' : U16} {c i : Nat} (hne : u ≠ t) (hi : w.index t = i)
    (hi' : w'.index t = i)
    (h : (w.ledger env).TakesAll [.debit u' q n, .credit t' q c] (w'.ledger env))
    (hx : (u' = u ∧ t' = t ∧ c * i ≤ n * 2 ^ 64) ∨ (u' = t ∧ t' = u ∧ c * 2 ^ 64 ≤ n * i)) :
    w'.wealth env t u p ≤ w.wealth env t u p := by
  have hu := h.available_pair u p
  have ht := h.available_pair t p
  simp only [World.wealth, hi, hi']
  zify
  rw [hu, ht]
  by_cases hp : q = p
  · rcases hx with ⟨rfl, rfl, hle⟩ | ⟨rfl, rfl, hle⟩
    · simp only [hp, hne, hne.symm, and_true, if_true, if_false, and_self]
      zify at hle
      nlinarith
    · simp only [hp, hne, hne.symm, and_true, if_true, if_false, and_self]
      zify at hle
      nlinarith
  · simp [hp]

/-- What is received is worth no more than the shares. -/
theorem OptOutYield.received_le {snap : ReserveSnapshot} {b x : Nat}
    (h : OptOutYield.redemption s snap n = .ok (b, x)) : x * 2 ^ 64 ≤ n * s.userIndexQ64 := by
  obtain ⟨owed, howed, -, hb, -, hx, -⟩ := OptOutYield.redemption_eq_ok.mp h
  obtain ⟨rfl, -⟩ := YieldStrategy.sharesToUsdc_eq_ok.mp howed
  obtain ⟨rfl, -⟩ := cusdcToUsdc_eq_ok.mp hx
  have hle : Pool.worth b snap.totalUnderlying snap.shareSupply ≤ n * s.userIndexQ64 / 2 ^ 64 :=
    Nat.div_le_of_le_mul (by rw [Nat.mul_comm snap.shareSupply]; exact usdcToCusdc_le hb)
  exact (Nat.mul_le_mul_right _ hle).trans (Nat.div_mul_le_self _ _)

/-- Nobody is better off for a step that trades. -/
theorem Trades.wealth_le (h : Trades env t u p w a w') (hw : Reached env w) (hset : Settled w t s)
    (he : w.HasToken u .plain e) (hm : e.mint = s.underlyingMint) :
    w'.wealth env t u p ≤ w.wealth env t u p := by
  obtain ⟨s', hset', hc⟩ := h.quiet.settled hw hset
  have hi := World.index_of hset.found
  have hi' : w'.index t = s.userIndexQ64 := by rw [World.index_of hset'.found, hc]
  -- The strategy converts one plain token.
  have plain : ∀ {u' : U16}, OptTokens env w u' t s → u' = u ∧ u ≠ t := by
    intro u' htok
    obtain ⟨e', v, he', hm', -⟩ := htok.plain
    obtain rfl := hw.wired.mints _ _ _ _ he' he (hm'.trans hm.symm)
    exact ⟨rfl, htok.ne⟩
  rcases h.converts with hx | ⟨hu, ht⟩
  · have hstep := h.quiet.step.ran
    let R : Rights env := Action.rights env w a
    cases a with
    | outside o => cases hx
    | call ix =>
        cases ix with
        | accrueYield =>
            obtain rfl : t = _ := hx.symm
            obtain ⟨s₀, s₁, r, r', m, v, hm⟩ := AccrueYield.handler_spec hstep
            have heq : w'.ledger env = w.ledger env := (hm.does (R := R) hw.located rfl).takes
            rw [World.wealth, World.wealth, heq, hi, hi']
        | optInYield =>
            obtain rfl : t = _ := hx.symm
            obtain ⟨q, k, s₀, s₁, s₂, r, r', m, v, w₂, w₃, w₄, hm⟩ :=
              OptInYield.handler_spec hw.located hstep
            obtain rfl := Option.some.inj (hset.found.symm.trans hm.tokens.strategy.found)
            obtain ⟨rfl, hne⟩ := plain hm.tokens
            obtain ⟨hc₁, -⟩ := hset.accrues hm.accrues
            obtain ⟨hk, -, -, -⟩ := DepositYieldBearing.mintShares_eq_ok.mp hm.minted
            rw [hc₁] at hk
            refine wealth_le_of_pair hne hi hi'
              (hm.does (R := R) hw.located rfl (.inr ⟨rfl, rfl⟩)).takes (.inl ⟨rfl, rfl, ?_⟩)
            rw [hk]
            exact Nat.div_mul_le_self _ _
        | optOutYield =>
            obtain rfl : t = _ := hx.symm
            obtain ⟨q, b, x, s₀, s₁, s₂, r, r', m, v, w₂, w₃, w₄, hm⟩ :=
              OptOutYield.handler_spec hw.located hstep
            obtain rfl := Option.some.inj (hset.found.symm.trans hm.tokens.strategy.found)
            obtain ⟨rfl, hne⟩ := plain hm.tokens
            obtain ⟨hc₁, -⟩ := hset.accrues hm.accrues
            refine wealth_le_of_pair hne hi hi'
              (hm.does (R := R) hw.located rfl (.inr ⟨rfl, _, hset.found, rfl⟩)).takes
              (.inr ⟨rfl, rfl, ?_⟩)
            have hle := OptOutYield.received_le hm.converted
            rwa [show s₁.userIndexQ64 = s.userIndexQ64 by rw [hc₁]] at hle
        | _ => cases hx
  · rw [World.wealth, World.wealth, hu, ht, hi, hi']

/-! ### Runs -/

/-- Along a run of quiet steps. -/
theorem quiet_run {h : List (World × Action)} (hw : Reached env w) (hset : Settled w t s)
    (run : Run (· = w) (Quiet env t) h w') :
    Reached env w' ∧ ∃ s', Settled w' t s' ∧ Converted s s' := by
  refine Reachable.invariant (P := fun w' => Reached env w' ∧ ∃ s', Settled w' t s' ∧ Converted s s')
    ?_ ?_ run.reachable
  · rintro _ rfl
    exact ⟨hw, s, hset, rfl⟩
  · rintro w₁ a w₂ - ⟨hw₁, s₁, hset₁, hc₁⟩ hq
    obtain ⟨s₂, hset₂, hc₂⟩ := hq.settled hw₁ hset₁
    exact ⟨hw₁.next hq.step, s₂, hset₂, hc₁.trans hc₂⟩

/-- A run of trades is a quiet run. -/
theorem trades_run {h : List (World × Action)} (run : Run (· = w) (Trades env t u p) h w') :
    Run (· = w) (Quiet env t) h w' := by
  induction run with
  | start h => exact .start h
  | next _ hstep ih => exact ih.next hstep.quiet

/-- Along a run of trades nobody gets better off. -/
theorem wealth_run {h : List (World × Action)} (hw : Reached env w) (hset : Settled w t s)
    (he : w.HasToken u .plain e) (hm : e.mint = s.underlyingMint)
    (run : Run (· = w) (Trades env t u p) h w') : ∀ x ∈ h, w'.wealth env t u p ≤ x.1.wealth env t u p := by
  refine (Run.history (P := fun h w' => w'.HasToken u .plain e ∧
    ∀ x ∈ h, w'.wealth env t u p ≤ x.1.wealth env t u p) ?_ ?_ run).2
  · rintro _ rfl
    exact ⟨he, by simp⟩
  · rintro h w₁ a w₂ run ⟨he₁, hle⟩ htr
    obtain ⟨hw₁, s₁, hset₁, hc₁⟩ := quiet_run hw hset (trades_run run)
    have hstep := htr.wealth_le hw₁ hset₁ he₁ (by rw [hm, hc₁])
    refine ⟨(hw₁.adminChange htr.quiet.step).hasToken he₁, fun x hx => ?_⟩
    rcases List.mem_cons.mp hx with rfl | hx
    · exact hstep
    · exact hstep.trans (hle x hx)

/-- A strategy that has just been accrued is settled, unless its reserve has underlying and no shares. -/
theorem Step.settled (h : Step env w₀ (.call (.accrueYield t)) w) (hs : w.yieldStrategies t = some s)
    (hempty : ∀ r m, w.reserves s.reserve = some r → w.mints s.shareMint = some m →
      m.supply = 0 → r.totalUnderlying = 0) : Settled w t s := by
  obtain ⟨s₀, s₁, r, r', m, v, hm⟩ := AccrueYield.handler_spec h.ran
  have hst := hm.accrues.stands
  obtain ⟨e₁, e₂, e₃, -⟩ := hm.accrues.booked.accounts
  rw [hm.result] at hs hempty ⊢
  obtain rfl : s₁ = s := by simpa using hs
  refine ⟨hs, r', m, v, ⟨?_, ?_, ?_, hst.booked⟩, hm.accrues.lastSettled.ge, hempty r' m ?_ ?_⟩
  · exact e₁ ▸ hst.reserve
  · exact e₃ ▸ hst.mint
  · exact e₂ ▸ hst.vault
  · exact e₁ ▸ hst.reserve
  · exact e₃ ▸ hst.mint

/-- **No arbitrage between the plain and the yield balance.** From an accrual on, while the clock stands still and nothing but its conversions and accruals touches the strategy and its reserve, nothing is attributed, and no participant's plain balance and shares together are ever worth more than they were. -/
theorem noArbitrage (hw₀ : Reached env w₀) (hacc : Step env w₀ (.call (.accrueYield t)) w)
    (hs : w.yieldStrategies t = some s)
    (hempty : ∀ r m, w.reserves s.reserve = some r → w.mints s.shareMint = some m →
      m.supply = 0 → r.totalUnderlying = 0) :
    (∀ h w', Run (· = w) (Quiet env t) h w' → ∃ s', w'.yieldStrategies t = some s' ∧
      s'.userIndexQ64 = s.userIndexQ64 ∧ s'.protocolOwedUnderlying = s.protocolOwedUnderlying) ∧
    ∀ u e p, w.HasToken u .plain e → e.mint = s.underlyingMint →
      ∀ h w', Run (· = w) (Trades env t u p) h w' →
        ∀ x ∈ h, w'.wealth env t u p ≤ x.1.wealth env t u p := by
  have hw := hw₀.next hacc
  have hset := hacc.settled hs hempty
  refine ⟨fun h w' run => ?_, fun u e p he hm h w' run => wealth_run hw hset he hm run⟩
  obtain ⟨-, s', hset', hc⟩ := quiet_run hw hset run
  exact ⟨s', hset'.found, by rw [hc], by rw [hc]⟩

theorem Step.quiet {ix : Instruction} (h : Step env w (.call ix) w') (hw : Reached env w)
    (hx : ix.Converts t) : Quiet env t w (.call ix) w' := by
  rcases (hw.adminChange h).clock with hc | ⟨seconds, hc, -⟩
  · exact ⟨h, hc, .inl hx⟩
  · cases hc

namespace Localnet

/-- A run to an accrual of token 2, and two conversions after it. -/
theorem quiet_of_runsTo (actions : List Action) (i j : Instruction) (hi : i.Converts 2)
    (hj : j.Converts 2) (check : World → World → Bool)
    (h : (World.genesis 1).runsTo localnet actions (fun w₀ => w₀.runsTo localnet
      [.call (.accrueYield 2)] fun w => w.runsTo localnet [.call i] fun w₁ =>
        w₁.runsTo localnet [.call j] (check w)) = true) :
    ∃ w₀ w w₁ w₂, Reached localnet w₀ ∧ Step localnet w₀ (.call (.accrueYield 2)) w ∧
      Quiet localnet 2 w (.call i) w₁ ∧ Quiet localnet 2 w₁ (.call j) w₂ ∧ check w w₂ = true := by
  obtain ⟨w₀, w, hw₀, hacc, hc⟩ := step_of_runsTo localnet actions _ _ h
  obtain ⟨w₁, h₁, hc⟩ := World.runsTo_singleton.mp hc
  obtain ⟨w₂, h₂, hc⟩ := World.runsTo_singleton.mp hc
  have hw := hw₀.next hacc
  exact ⟨w₀, w, w₁, w₂, hw₀, hacc, h₁.quiet hw hi, h₂.quiet (hw.next h₁) hj, hc⟩

/-- Wallet 10 owns ten of the reserve's shares, and burns them: the reserve has ten of the underlying, and no shares. -/
def burnt : List Action :=
  [.call (.deposit (key 10) indexBucket bucket (key 60) 1 70),
    .outside (.createTokenAccount (key 61) shareMint (key 10)),
    .outside (.depositReserveLiquidity reserve usd (key 60) (key 61) (key 10) 10),
    .outside (.burn shareMint (key 61) (key 10) 10)]

end Localnet

open Localnet in
/-- Forty opted in and ten opted out. -/
theorem noArbitrage_of_optIn : ∃ w h w', Run (· = w) (Trades localnet 2 1 0) h w' ∧ h.length = 2 ∧
    w.index 2 = w'.index 2 ∧ ∀ x ∈ h, w'.wealth localnet 2 1 0 ≤ x.1.wealth localnet 2 1 0 := by
  obtain ⟨w₀, w, w₁, w₂, hw₀, hacc, h₁, h₂, hc⟩ := quiet_of_runsTo
    (opening ++ lending ++ [.call (.deposit (Localnet.key 10) indexBucket bucket (Localnet.key 60) 1 70)])
    (.optInYield (Localnet.key 10) indexBucket bucket 1 2 40)
    (.optOutYield (Localnet.key 10) indexBucket bucket 2 1 10) rfl rfl
    (fun w _ => decide ((w.reserves reserve).map (·.totalUnderlying) = some 0) &&
      w.tokenRegistry.any (fun r : TokenRegistry => (r.findToken 1).any fun e : TokenEntry => decide
        (e.kind = .plain ∧ e.mint = usd)) &&
      (w.yieldStrategies 2).any fun s : YieldStrategy => decide
        (s.reserve = reserve ∧ s.underlyingMint = usd)) (by decide +kernel)
  simp only [Bool.and_eq_true, Option.any_eq_true, decide_eq_true_eq] at hc
  obtain ⟨⟨hzero, reg, hreg, e, he, hk, hmint⟩, s, hs, hρ, husd⟩ := hc
  obtain ⟨hquiet, hwealth⟩ := noArbitrage hw₀ hacc hs fun r m hr _ _ => by
    rw [hρ] at hr
    simpa [hr] using hzero
  have start : Run (· = w) (Trades localnet 2 1 0) [] w := .start rfl
  have run := (start.next ⟨h₁, .inl rfl⟩).next ⟨h₂, .inl rfl⟩
  obtain ⟨s', hs', hi, -⟩ := hquiet _ _ (trades_run run)
  exact ⟨w, _, w₂, run, rfl, by rw [World.index_of hs, World.index_of hs', hi],
    hwealth 1 e 0 ⟨reg, hreg, he, hk⟩ (hmint.trans husd.symm) _ _ run⟩

open Localnet in
/-- Where the reserve has underlying and no shares, ten opted in become the vault's whole worth of twenty, and the next accrual attributes the rest. -/
theorem attributes_of_burnt : ∃ w₀ w h w' s s', Reached localnet w₀ ∧
    Step localnet w₀ (.call (.accrueYield 2)) w ∧ Run (· = w) (Quiet localnet 2) h w' ∧
    w.yieldStrategies 2 = some s ∧ w'.yieldStrategies 2 = some s' ∧
    s.userIndexQ64 < s'.userIndexQ64 ∧ s.protocolOwedUnderlying < s'.protocolOwedUnderlying ∧
    w.wealth localnet 2 1 0 < w'.wealth localnet 2 1 0 := by
  obtain ⟨w₀, w, w₁, w₂, hw₀, hacc, h₁, h₂, hc⟩ := quiet_of_runsTo (opening ++ lending ++ burnt)
    (.optInYield (Localnet.key 10) indexBucket bucket 1 2 10) (.accrueYield 2) rfl rfl
    (fun w w' => (w.yieldStrategies 2).any fun s : YieldStrategy =>
      (w'.yieldStrategies 2).any fun s' : YieldStrategy => decide
        (s.userIndexQ64 < s'.userIndexQ64 ∧ s.protocolOwedUnderlying < s'.protocolOwedUnderlying ∧
          w.wealth localnet 2 1 0 < w'.wealth localnet 2 1 0)) (by decide +kernel)
  simp only [Option.any_eq_true, decide_eq_true_eq] at hc
  obtain ⟨s, hs, s', hs', hi, ho, hx⟩ := hc
  have start : Run (· = w) (Quiet localnet 2) [] w := .start rfl
  exact ⟨w₀, w, _, w₂, s, s', hw₀, hacc, (start.next h₁).next h₂, hs, hs', hi, ho, hx⟩

end Ryvo
