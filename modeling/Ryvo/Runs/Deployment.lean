import Ryvo.Actions.Makes

/-!
# Runs — The deployment

What a step does to the clock, the config, the registry and the owner index: `AdminChange` lists it, and everything a deployment keeps follows by cases.

* `Step.clock_le`, `Reached.clock_pos`: time does not go back.
* `Step.config`: the message domain, the chain and the timelock are settled when the config is created.
* `Step.findToken`: a registered token stays as it was registered.
-/

namespace Ryvo

variable {env : Env} {w w' : World} {a : Action}

/-- What a step does to the clock, the config, the registry and the owner index. -/
inductive AdminChange (env : Env) (w w' : World) : Action → Prop
  | kept {a : Action} : AdminKept w w' → AdminChange env w w' a
  | tick {seconds : Nat} : w' = { w with clock := w.clock + seconds } →
      AdminChange env w w' (.outside (.tick seconds))
  | initialized {a : Action} {c : GlobalConfig} : w.globalConfig = none → c.nextParticipantId = 0 →
      w' = w.setGlobalConfig c → AdminChange env w w' a
  | configured {a : Action} {c c' : GlobalConfig} : w.globalConfig = some c → UpdateConfig.Keeps c c' →
      w' = w.setGlobalConfig c' → AdminChange env w w' a
  | joined {owner fee : Pubkey} {id indexId : U32} {c : GlobalConfig} {i i' : OwnerIndexBucket} :
      InitializeParticipant.Joined env w owner c i i' w' →
      AdminChange env w w' (.call (.initializeParticipant owner fee id indexId))
  | opened {a : Action} {r : TokenRegistry} : w.tokenRegistry = none → r.tokens = [] →
      w' = w.setTokenRegistry r → AdminChange env w w' a
  | transferred {a : Action} {r r' : TokenRegistry} : w.tokenRegistry = some r → r'.tokens = r.tokens →
      w' = w.setTokenRegistry r' → AdminChange env w w' a
  | plain {a : Action} {e : TokenEntry} {r : TokenRegistry} {w₁ : World} :
      TokenRegistry.Registers env w e (.vaultTokenAccount e.id) e.mint r w₁ → e.kind = .plain →
      r.isMintRegistered e.mint = false → w' = w₁.setTokenRegistry (r.push e) →
      AdminChange env w w' a
  | yieldBearing {a : Action} {e : TokenEntry} {r : TokenRegistry} {s : YieldStrategy} {w₁ : World} :
      TokenRegistry.Registers env w e (.yieldShareVault e.id) s.shareMint r w₁ →
      e.kind = .yieldBearing → RegisterYieldBearingToken.Fresh env w e.id s →
      w' = (w₁.setTokenRegistry (r.push e)).setYieldStrategy e.id s → AdminChange env w w' a

theorem Step.adminChange (h : Step env w a w') (hl : Located env w) (hL : (w.ledger env).Paired) :
    AdminChange env w w' a := by
  by_cases hR : a.Admin
  · obtain ⟨-, h⟩ := h
    cases a with
    | outside o =>
        cases o with
        | tick seconds =>
            cases h
            exact .tick rfl
        | _ => cases hR
    | call ix =>
        cases ix with
        | initializeProgram =>
            obtain ⟨c, hn, hc, hw⟩ := Initialize.handler_spec h
            exact .initialized hn hc hw
        | updateConfig =>
            obtain ⟨c, c', hc, hk, hw⟩ := UpdateConfig.handler_spec h
            exact .configured hc hk hw
        | acceptConfigAuthority =>
            obtain ⟨c, c', hc, hk, hw⟩ := UpdateConfig.acceptConfigAuthority_spec h
            exact .configured hc hk hw
        | initializeParticipant =>
            obtain ⟨c, i, i', hj⟩ := InitializeParticipant.handler_spec hl h
            exact .joined hj
        | initializeTokenRegistry =>
            obtain ⟨r, hn, hr, hw⟩ := TokenRegistry.initializeTokenRegistry_spec h
            exact .opened hn hr hw
        | updateRegistryAuthority =>
            obtain ⟨r, r', hr, ht, hw⟩ := TokenRegistry.updateRegistryAuthority_spec h
            exact .transferred hr ht hw
        | acceptRegistryAuthority =>
            obtain ⟨r, r', hr, ht, hw⟩ := TokenRegistry.acceptRegistryAuthority_spec h
            exact .transferred hr ht hw
        | registerToken =>
            obtain ⟨e, r, w₁, hreg, rfl, rfl, hk, hm, hw⟩ := TokenRegistry.registerToken_spec h
            exact .plain hreg hk hm hw
        | registerYieldBearingToken =>
            obtain ⟨s, e, r, w₁, hreg, rfl, hk, hf, hw⟩ := RegisterYieldBearingToken.handler_spec h
            exact .yieldBearing hreg hk hf hw
        | _ => cases hR
  · obtain ⟨ms, -, hd⟩ := h.makes hl hL
    exact .kept (Ops.adminKept hd.ops hR)

theorem Reached.adminChange (hw : Reached env w) (h : Step env w a w') : AdminChange env w w' a :=
  h.adminChange hw.located hw.paired

/-! ### The clock -/

theorem TokenRegistry.Registers.frame {e : TokenEntry} {seeds : Seeds} {mint : Pubkey}
    {r : TokenRegistry} {w₁ : World} (h : TokenRegistry.Registers env w e seeds mint r w₁) :
    w₁ = w.setTokenAccount (env.address seeds) ⟨mint, env.address .globalConfig, 0, false⟩ :=
  (createTokenAccount_spec h.created).2.2.2

/-- Only the clock's own ticks move the clock. -/
theorem AdminChange.clock (h : AdminChange env w w' a) : w'.clock = w.clock ∨
    ∃ seconds, a = .outside (.tick seconds) ∧ w'.clock = w.clock + seconds := by
  cases h with
  | kept h => exact .inl h.clock
  | tick h => exact .inr ⟨_, rfl, by rw [h]⟩
  | initialized _ _ h => exact .inl (by rw [h]; rfl)
  | configured _ _ h => exact .inl (by rw [h]; rfl)
  | joined h => exact .inl (by rw [h.frame])
  | opened _ _ h => exact .inl (by rw [h]; rfl)
  | transferred _ _ h => exact .inl (by rw [h]; rfl)
  | plain hreg _ _ h => exact .inl (by rw [h, hreg.frame]; rfl)
  | yieldBearing hreg _ _ h => exact .inl (by rw [h, hreg.frame]; rfl)

theorem Reached.clock_le (hw : Reached env w) (h : Step env w a w') : w.clock ≤ w'.clock := by
  rcases (hw.adminChange h).clock with h | ⟨seconds, -, h⟩ <;> omega

theorem Reached.clock_pos (hw : Reached env w) : 0 < w.clock := by
  refine Reachable.invariant (P := fun w => 0 < w.clock) ?_ ?_ hw
  · rintro w ⟨clock, hc, rfl⟩
    exact hc
  · rintro w a w' hw hpos h
    have := Reached.clock_le hw h
    omega

/-! ### The config -/

/-- The config stays, or was just created. -/
theorem AdminChange.config (h : AdminChange env w w' a) {c : GlobalConfig}
    (hc : w.globalConfig = some c) : ∃ c', w'.globalConfig = some c' ∧ SameDeployment c c' := by
  cases h with
  | kept h => exact ⟨c, by rw [h.config, hc], .refl c⟩
  | tick h => exact ⟨c, by rw [h, ← hc], .refl c⟩
  | initialized hn _ _ => simp [hn] at hc
  | configured hc' hk h =>
      obtain rfl := Option.some.inj (hc.symm.trans hc')
      exact ⟨_, by rw [h]; rfl, hk.1⟩
  | joined h =>
      obtain rfl := Option.some.inj (hc.symm.trans h.config)
      exact ⟨{ c with nextParticipantId := Fin.ofNat _ (c.nextParticipantId.val + 1) },
        by rw [h.frame], ⟨rfl, rfl, rfl⟩⟩
  | opened _ _ h => exact ⟨c, by rw [h, ← hc]; rfl, .refl c⟩
  | transferred _ _ h => exact ⟨c, by rw [h, ← hc]; rfl, .refl c⟩
  | plain hreg _ _ h => exact ⟨c, by rw [h, hreg.frame, ← hc]; rfl, .refl c⟩
  | yieldBearing hreg _ _ h => exact ⟨c, by rw [h, hreg.frame, ← hc]; rfl, .refl c⟩

/-- An update leaves the withdrawal timelock. -/
theorem UpdateConfig.withdrawalTimelock {owner : Pubkey} {remaining : List Pubkey}
    {a f : Option Pubkey} {bps fee : Option Nat} (h : handler w owner remaining a f bps fee = .ok w') :
    ∃ c c', w.globalConfig = some c ∧ w' = w.setGlobalConfig c' ∧
      c'.withdrawalTimelockSeconds = c.withdrawalTimelockSeconds := by
  simp only [handler, World.getGlobalConfig, Except.bind_eq_ok, okOr_eq_ok, require_eq_ok,
    exists_const, Except.pure_eq_ok] at h
  obtain ⟨c, hc, -, c₁, h₁, c₂, h₂, c₃, h₃, c₄, h₄, rfl⟩ := h
  have e₁ : c₁.withdrawalTimelockSeconds = c.withdrawalTimelockSeconds := by
    cases a <;> simp only [setPendingAuthority, Except.bind_eq_ok, require_eq_ok, exists_const,
      Except.pure_eq_ok, Except.ok.injEq] at h₁
    · rw [h₁]
    · rw [← h₁.2]
  have e₂ : c₂.withdrawalTimelockSeconds = c₁.withdrawalTimelockSeconds := by
    cases f <;> simp only [setFeeRecipient, Except.bind_eq_ok, require_eq_ok, exists_const,
      Except.pure_eq_ok, Except.ok.injEq] at h₂
    · rw [h₂]
    · obtain ⟨-, -, -, -, -, rfl⟩ := h₂
      rfl
  have e₃ : c₃.withdrawalTimelockSeconds = c₂.withdrawalTimelockSeconds := by
    cases bps <;> simp only [setFeeBps, Except.bind_eq_ok, require_eq_ok, exists_const,
      Except.pure_eq_ok, Except.ok.injEq] at h₃
    · rw [h₃]
    · rw [← h₃.2]
  have e₄ : c₄.withdrawalTimelockSeconds = c₃.withdrawalTimelockSeconds := by
    cases fee <;> simp only [setRegistrationFee, Except.bind_eq_ok, require_eq_ok, exists_const,
      Except.pure_eq_ok, Except.ok.injEq] at h₄
    · rw [h₄]
    · rw [← h₄.2]
  exact ⟨c, c₄, hc, rfl, e₄.trans (e₃.trans (e₂.trans e₁))⟩

theorem GlobalConfig.withdrawalTimelockForChainId_eq {chainId : U16} {T : Int}
    (h : withdrawalTimelockForChainId chainId = .ok T) : T = 0 := by
  unfold withdrawalTimelockForChainId at h
  split at h <;> cases h
  rfl

/-- The withdrawal timelock stays, or was just set, to zero. -/
theorem Step.withdrawalTimelock (h : Step env w a w') (hw : Reached env w) {c' : GlobalConfig}
    (hc' : w'.globalConfig = some c') : c'.withdrawalTimelockSeconds = 0 ∨
      ∃ c, w.globalConfig = some c ∧ c'.withdrawalTimelockSeconds = c.withdrawalTimelockSeconds := by
  have same : w'.globalConfig = w.globalConfig → c'.withdrawalTimelockSeconds = 0 ∨
      ∃ c, w.globalConfig = some c ∧
        c'.withdrawalTimelockSeconds = c.withdrawalTimelockSeconds := fun e => .inr ⟨c', e ▸ hc', rfl⟩
  by_cases hR : a.Admin
  · obtain ⟨-, h⟩ := h
    cases a with
    | outside o =>
        cases o with
        | tick seconds =>
            cases h
            exact same rfl
        | _ => cases hR
    | call ix =>
        cases ix with
        | initializeProgram authority fee chainId bps registration initial =>
            change Initialize.handler env w authority fee chainId bps registration initial = _ at h
            simp only [Initialize.handler, Except.bind_eq_ok, require_eq_ok, exists_const,
              Prod.exists, Except.pure_eq_ok] at h
            obtain ⟨-, -, -, -, -, -, x, y, -, T, hT, T', -, rfl⟩ := h
            obtain rfl := Option.some.inj hc'
            exact .inl (GlobalConfig.withdrawalTimelockForChainId_eq hT)
        | updateConfig =>
            obtain ⟨c, c₁, hc, rfl, he⟩ := UpdateConfig.withdrawalTimelock h
            obtain rfl := Option.some.inj hc'
            exact .inr ⟨c, hc, he⟩
        | acceptConfigAuthority authority =>
            change UpdateConfig.acceptConfigAuthority w authority = _ at h
            simp only [UpdateConfig.acceptConfigAuthority, World.getGlobalConfig, Except.bind_eq_ok,
              okOr_eq_ok, require_eq_ok, exists_const, Except.pure_eq_ok] at h
            obtain ⟨c, hc, -, -, rfl⟩ := h
            obtain rfl := Option.some.inj hc'
            exact .inr ⟨c, hc, rfl⟩
        | initializeParticipant =>
            obtain ⟨c, i, i', hj⟩ := InitializeParticipant.handler_spec hw.located h
            rw [hj.frame] at hc'
            obtain rfl := Option.some.inj hc'
            exact .inr ⟨c, hj.config, rfl⟩
        | initializeTokenRegistry =>
            obtain ⟨r, -, -, rfl⟩ := TokenRegistry.initializeTokenRegistry_spec h
            exact same rfl
        | updateRegistryAuthority =>
            obtain ⟨r, r', -, -, rfl⟩ := TokenRegistry.updateRegistryAuthority_spec h
            exact same rfl
        | acceptRegistryAuthority =>
            obtain ⟨r, r', -, -, rfl⟩ := TokenRegistry.acceptRegistryAuthority_spec h
            exact same rfl
        | registerToken =>
            obtain ⟨e, r, w₁, hreg, -, -, -, -, rfl⟩ := TokenRegistry.registerToken_spec h
            refine same ?_
            rw [hreg.frame]
            rfl
        | registerYieldBearingToken =>
            obtain ⟨s, e, r, w₁, hreg, -, -, -, rfl⟩ := RegisterYieldBearingToken.handler_spec h
            refine same ?_
            rw [hreg.frame]
            rfl
        | _ => cases hR
  · obtain ⟨ms, -, hd⟩ := hw.makes h
    exact same (Ops.adminKept hd.ops hR).config

theorem Reached.withdrawalTimelock_nonneg (hw : Reached env w) {c : GlobalConfig}
    (hc : w.globalConfig = some c) : 0 ≤ c.withdrawalTimelockSeconds := by
  refine Reachable.invariant (P := fun w => ∀ c, w.globalConfig = some c →
    0 ≤ c.withdrawalTimelockSeconds) ?_ ?_ hw c hc
  · intro w hg c hc
    obtain ⟨clock, -, rfl⟩ := hg
    cases hc
  · intro w a w' hw ih h c' hc'
    rcases h.withdrawalTimelock hw hc' with h₀ | ⟨c, hc, he⟩
    · exact h₀.ge
    · exact he ▸ ih c hc

/-! ### The registry -/

/-- A registered token stays. -/
theorem AdminChange.findToken (h : AdminChange env w w' a) {r : TokenRegistry} {t : U16}
    {e : TokenEntry} (hr : w.tokenRegistry = some r) (he : r.findToken t = some e) :
    ∃ r', w'.tokenRegistry = some r' ∧ r'.findToken t = some e := by
  have pushed : ∀ {r₀ : TokenRegistry} {e₀ : TokenEntry}, w.tokenRegistry = some r₀ →
      w'.tokenRegistry = some (r₀.push e₀) → ∃ r', w'.tokenRegistry = some r' ∧
        r'.findToken t = some e := fun h₀ h₁ => by
    obtain rfl := Option.some.inj (hr.symm.trans h₀)
    exact ⟨_, h₁, TokenRegistry.findToken_push_of_some he⟩
  cases h with
  | kept h => exact ⟨r, by rw [h.registry, hr], he⟩
  | tick h => exact ⟨r, by rw [h, ← hr], he⟩
  | initialized _ _ h => exact ⟨r, by rw [h, ← hr]; rfl, he⟩
  | configured _ _ h => exact ⟨r, by rw [h, ← hr]; rfl, he⟩
  | joined h => exact ⟨r, by rw [h.frame, ← hr], he⟩
  | opened hn _ _ => simp [hn] at hr
  | transferred hr' ht h =>
      obtain rfl := Option.some.inj (hr.symm.trans hr')
      exact ⟨_, by rw [h]; rfl, by rw [← he, TokenRegistry.findToken, ht, TokenRegistry.findToken]⟩
  | plain hreg _ _ h => exact pushed hreg.registry (by rw [h]; rfl)
  | yieldBearing hreg _ _ h => exact pushed hreg.registry (by rw [h]; rfl)

theorem AdminChange.hasToken (h : AdminChange env w w' a) {t : U16} {kind : TokenKind}
    {e : TokenEntry} (ht : w.HasToken t kind e) : w'.HasToken t kind e := by
  obtain ⟨r, hr, he, hk⟩ := ht
  obtain ⟨r', hr', he'⟩ := h.findToken hr he
  exact ⟨r', hr', he', hk⟩

theorem AdminChange.registered (h : AdminChange env w w' a) {t : U16} (ht : w.Registered t) :
    w'.Registered t := by
  obtain ⟨r, e, hr, he⟩ := ht
  obtain ⟨r', hr', he'⟩ := h.findToken hr he
  exact ⟨r', e, hr', he'⟩

/-- A token has one entry. -/
theorem World.HasToken.unique {t : U16} {kind kind' : TokenKind} {e e' : TokenEntry}
    (h : w.HasToken t kind e) (h' : w.HasToken t kind' e') : kind = kind' ∧ e = e' := by
  obtain ⟨r, hr, he, hk⟩ := h
  obtain ⟨r', hr', he', hk'⟩ := h'
  obtain rfl := Option.some.inj (hr.symm.trans hr')
  obtain rfl := Option.some.inj (he.symm.trans he')
  exact ⟨hk.symm.trans hk', rfl⟩

theorem World.HasToken.registered {t : U16} {kind : TokenKind} {e : TokenEntry}
    (h : w.HasToken t kind e) : w.Registered t := by
  obtain ⟨r, hr, he, -⟩ := h
  exact ⟨r, e, hr, he⟩

end Ryvo
