import Ryvo.Runs.Deployment

/-!
# Runs — Wiring

What ties tokens to accounts.  A plain token has a vault of its mint, a yield-bearing one a strategy with a share vault and a reserve; both vaults are the config's, and no two plain tokens share a mint.  A strategy changes its counters along a run and nothing else (`Evolves`).

* `Step.strategy_cases`: what a step does to the strategy of a token.
* `Reached.wired`: the wiring of every reached world.
-/

namespace Ryvo

variable {env : Env} {w w' w₁ : World} {a : Action} {t u : U16} {s s₁ s' : YieldStrategy}
variable {e e' : TokenEntry}

/-! ### Strategies -/

namespace YieldStrategy

/-- Only the counters change, and the index does not fall. -/
structure Evolves (s s' : YieldStrategy) : Prop where
  keeps : s' = { s with
    userIndexQ64 := s'.userIndexQ64
    lastSettledUnderlying := s'.lastSettledUnderlying
    totalUserShares := s'.totalUserShares
    protocolOwedUnderlying := s'.protocolOwedUnderlying }
  index_le : s.userIndexQ64 ≤ s'.userIndexQ64

theorem Evolves.refl (s : YieldStrategy) : s.Evolves s := ⟨rfl, le_rfl⟩

theorem Evolves.trans (h : s.Evolves s₁) (h' : s₁.Evolves s') : s.Evolves s' :=
  ⟨by rw [h'.keeps, h.keeps], h.index_le.trans h'.index_le⟩

theorem Booked.evolves {value : Nat} (h : s.Booked value s') : s.Evolves s' :=
  ⟨by rw [h.keeps], h.index_le⟩

theorem evolves_addUserShares {n m : Nat} (h : s.addUserShares n m = .ok s') : s.Evolves s' := by
  obtain ⟨-, -, rfl⟩ := addUserShares_eq_ok.mp h
  exact ⟨rfl, le_rfl⟩

theorem evolves_removeUserShares {n m : Nat} (h : s.removeUserShares n m = .ok s') :
    s.Evolves s' := by
  obtain ⟨-, rfl⟩ := removeUserShares_eq_ok.mp h
  exact ⟨rfl, le_rfl⟩

theorem evolves_takeProtocolOwed {n : Nat} (h : s.takeProtocolOwed n = .ok s') : s.Evolves s' := by
  obtain ⟨-, rfl⟩ := takeProtocolOwed_eq_ok.mp h
  exact ⟨rfl, le_rfl⟩

end YieldStrategy

/-- A new strategy, with the token and the share vault it comes with. -/
structure NewStrategy (env : Env) (w : World) (e : TokenEntry) (s : YieldStrategy) (r : TokenRegistry)
    (w₁ w' : World) : Prop where
  registers : TokenRegistry.Registers env w e (.yieldShareVault e.id) s.shareMint r w₁
  kind : e.kind = .yieldBearing
  fresh : RegisterYieldBearingToken.Fresh env w e.id s
  result : w' = (w₁.setTokenRegistry (r.push e)).setYieldStrategy e.id s

/-- A strategy stays, changes its counters, or is new. -/
theorem Step.strategy_cases (h : Step env w a w') (hl : Located env w) (hL : (w.ledger env).Paired)
    (t : U16) : w'.yieldStrategies t = w.yieldStrategies t ∨
      (∃ s s', w.yieldStrategies t = some s ∧ w'.yieldStrategies t = some s' ∧ s.Evolves s') ∨
      ∃ s e r w₁, NewStrategy env w e s r w₁ w' ∧ e.id = t := by
  by_cases ht : a.strategy = some t
  · -- Whoever writes the strategy sets it last.
    have written : ∀ {w₁ : World} {s s' : YieldStrategy}, w.yieldStrategies t = some s →
        s.Evolves s' → w' = w₁.setYieldStrategy t s' →
        ∃ s s', w.yieldStrategies t = some s ∧ w'.yieldStrategies t = some s' ∧ s.Evolves s' :=
      fun {_ s s'} hs he hw => ⟨s, s', hs, by rw [hw]; exact Function.update_self _ _ _, he⟩
    have h := h.ran
    cases a with
    | outside o => cases ht
    | call ix =>
        cases ix with
        | registerYieldBearingToken =>
            obtain rfl := Option.some.inj ht
            obtain ⟨s, e, r, w₁, hreg, rfl, hk, hf, hw⟩ := RegisterYieldBearingToken.handler_spec h
            exact .inr (.inr ⟨s, e, r, w₁, ⟨hreg, hk, hf, hw⟩, rfl⟩)
        | accrueYield =>
            obtain rfl := Option.some.inj ht
            obtain ⟨s, s₁, r, r', m, a, hm⟩ := AccrueYield.handler_spec h
            exact .inr (.inl (written hm.found hm.accrues.booked.evolves hm.result))
        | depositYieldBearing =>
            obtain rfl := Option.some.inj ht
            obtain ⟨p, k, s, s₁, s₂, r, r', m, a, w₂, w₃, hm⟩ := DepositYieldBearing.handler_spec hl h
            obtain ⟨-, -, -, hadd⟩ := DepositYieldBearing.mintShares_eq_ok.mp hm.minted
            exact .inr (.inl (written hm.strategy.found
              (hm.accrues.booked.evolves.trans (YieldStrategy.evolves_addUserShares hadd)) hm.result))
        | executeWithdrawalYieldBearing =>
            obtain rfl := Option.some.inj ht
            obtain ⟨e, s, s₁, s₂, r, r', m, a, w₂, w₃, hm⟩ :=
              ExecuteWithdrawalYieldBearing.handler_spec hl h
            refine .inr (.inl (written hm.strategy.found
              (hm.accrues.booked.evolves.trans ?_) hm.result))
            cases hm.paid with
            | drained _ _ hs _ => exact hs ▸ .refl s₁
            | paid _ hp _ =>
                obtain ⟨c, te, -, hp⟩ := hp
                simp only [ExecuteWithdrawalYieldBearing.payOut, Except.bind_eq_ok, Except.pure_eq_ok,
                  Prod.mk.injEq] at hp
                obtain ⟨gross, -, f, -, x, -, y, -, w₁, -, w₂, -, s₂, hs, rfl, rfl⟩ := hp
                exact YieldStrategy.evolves_removeUserShares hs
        | claimProtocolYieldFee =>
            obtain rfl := Option.some.inj ht
            obtain ⟨k, s, s₁, s₂, r, r', m, a, w₂, hm⟩ := ClaimProtocolYieldFee.handler_spec h
            exact .inr (.inl (written hm.found
              (hm.accrues.booked.evolves.trans (YieldStrategy.evolves_takeProtocolOwed hm.taken))
              hm.result))
        | optInYield =>
            obtain rfl := Option.some.inj ht
            obtain ⟨p, k, s, s₁, s₂, r, r', m, a, w₂, w₃, w₄, hm⟩ := OptInYield.handler_spec hl h
            obtain ⟨-, -, -, hadd⟩ := DepositYieldBearing.mintShares_eq_ok.mp hm.minted
            exact .inr (.inl (written hm.tokens.strategy.found
              (hm.accrues.booked.evolves.trans (YieldStrategy.evolves_addUserShares hadd)) hm.result))
        | optOutYield =>
            obtain rfl := Option.some.inj ht
            obtain ⟨p, b, x, s, s₁, s₂, r, r', m, a, w₂, w₃, w₄, hm⟩ := OptOutYield.handler_spec hl h
            exact .inr (.inl (written hm.tokens.strategy.found
              (hm.accrues.booked.evolves.trans (YieldStrategy.evolves_removeUserShares hm.removed))
              hm.result))
        | _ => cases ht
  · obtain ⟨ms, -, hd⟩ := h.makes hl hL
    exact .inl (Ops.strategy_eq hd.ops ht)

theorem Reached.strategy_cases (hw : Reached env w) (h : Step env w a w') (t : U16) :
    w'.yieldStrategies t = w.yieldStrategies t ∨
      (∃ s s', w.yieldStrategies t = some s ∧ w'.yieldStrategies t = some s' ∧ s.Evolves s') ∨
      ∃ s e r w₁, NewStrategy env w e s r w₁ w' ∧ e.id = t :=
  h.strategy_cases hw.located hw.paired t

/-! ### The wiring -/

/-- A token account of the config's. -/
def World.ConfigHolds (env : Env) (w : World) (k mint : Pubkey) : Prop :=
  ∃ v, w.tokenAccounts k = some v ∧ v.mint = mint ∧ v.owner = env.address .globalConfig

theorem World.ConfigHolds.persists {k mint : Pubkey} (h : w.ConfigHolds env k mint)
    (hp : Persists env w w') : w'.ConfigHolds env k mint := by
  obtain ⟨v, hv, hm, ho⟩ := h
  obtain ⟨n, f, hn⟩ := hp.account k v hv (by rw [ho]; exact env.canSign_address _)
  exact ⟨_, hn, hm, ho⟩

structure WiredStrategy (env : Env) (w : World) (t : U16) (s : YieldStrategy) : Prop where
  tokenId : s.tokenId = t
  token : ∃ e, w.HasToken t .yieldBearing e
  key : s.shareVault = env.address (.yieldShareVault t)
  vault : w.ConfigHolds env s.shareVault s.shareMint
  reserve : ∃ r, w.reserves s.reserve = some r ∧ r.underlyingMint = s.underlyingMint ∧
    r.shareMint = s.shareMint ∧ r.liquidityVault = s.liquidityVault
  bps : s.protocolYieldShareBps ≤ maxProtocolYieldShareBps
  index : q64One ≤ s.userIndexQ64

structure Wired (env : Env) (w : World) : Prop where
  vaults : ∀ t e, w.HasToken t .plain e → w.ConfigHolds env (vaultOf env t) e.mint
  mints : ∀ t u e e', w.HasToken t .plain e → w.HasToken u .plain e' → e.mint = e'.mint → t = u
  strategies : ∀ t s, w.yieldStrategies t = some s → WiredStrategy env w t s
  yieldBearing : ∀ t e, w.HasToken t .yieldBearing e → (w.yieldStrategies t).isSome

theorem WiredStrategy.evolves (h : WiredStrategy env w t s) (he : s.Evolves s')
    (hp : Persists env w w') (ht : ∀ e, w.HasToken t .yieldBearing e → w'.HasToken t .yieldBearing e) :
    WiredStrategy env w' t s' := by
  obtain ⟨hid, ⟨e, hte⟩, hkey, hvault, ⟨r, hr, h₁, h₂, h₃⟩, hbps, hindex⟩ := h
  obtain ⟨r', hr', e₁, e₂, e₃⟩ := hp.reserve _ r hr
  refine ⟨?_, ⟨e, ht e hte⟩, ?_, ?_, ⟨r', ?_, ?_, ?_, ?_⟩, ?_, hindex.trans he.index_le⟩ <;> rw [he.keeps]
  · exact hid
  · exact hkey
  · exact hvault.persists hp
  · exact hr'
  · exact e₁.trans h₁
  · exact e₂.trans h₂
  · exact e₃.trans h₃
  · exact hbps

theorem hasToken_push {r : TokenRegistry} {t : U16} {kind : TokenKind} {e₀ : TokenEntry}
    (hr : w.tokenRegistry = some r) (hr' : w'.tokenRegistry = some (r.push e₀))
    (h : w'.HasToken t kind e) : w.HasToken t kind e ∨ e = e₀ ∧ e₀.id = t ∧ e₀.kind = kind := by
  obtain ⟨r₁, h₁, he, hk⟩ := h
  obtain rfl := Option.some.inj (hr'.symm.trans h₁)
  simp only [TokenRegistry.findToken, TokenRegistry.push, List.find?_append,
    Option.or_eq_some_iff] at he
  rcases he with he | ⟨-, he⟩
  · exact .inl ⟨r, hr, he, hk⟩
  · obtain ⟨hid, rfl⟩ : e₀.id = t ∧ e₀ = e := by simpa [List.find?_singleton] using he
    exact .inr ⟨rfl, hid, hk⟩

theorem isMintRegistered_of_find {r : TokenRegistry} (h : r.findToken t = some e) :
    r.isMintRegistered e.mint = true := by
  simp only [TokenRegistry.isMintRegistered, List.any_eq_true, decide_eq_true_eq]
  exact ⟨e, List.mem_of_find?_eq_some h, rfl⟩

/-- A token that is registered was registered before, or is the new one. -/
theorem AdminChange.hasToken_cases (h : AdminChange env w w' a) {kind : TokenKind}
    (ht : w'.HasToken t kind e) : w.HasToken t kind e ∨
      (kind = .plain ∧ ∃ r w₁, TokenRegistry.Registers env w e (.vaultTokenAccount t) e.mint r w₁ ∧
        e.id = t ∧ r.isMintRegistered e.mint = false ∧ w' = w₁.setTokenRegistry (r.push e)) ∨
      (kind = .yieldBearing ∧ ∃ s r w₁, NewStrategy env w e s r w₁ w' ∧ e.id = t) := by
  have same : w'.tokenRegistry = w.tokenRegistry → w.HasToken t kind e := by
    rintro hr
    obtain ⟨r, h₁, h₂⟩ := ht
    exact ⟨r, hr ▸ h₁, h₂⟩
  cases h with
  | kept h => exact .inl (same h.registry)
  | tick h => exact .inl (same (by rw [h]))
  | initialized _ _ h => exact .inl (same (by rw [h]; rfl))
  | configured _ _ h => exact .inl (same (by rw [h]; rfl))
  | joined h => exact .inl (same (by rw [h.frame]))
  | opened _ hr h =>
      obtain ⟨r, h₁, h₂, -⟩ := ht
      rw [h] at h₁
      obtain rfl := Option.some.inj h₁
      rw [TokenRegistry.findToken, hr] at h₂
      cases h₂
  | transferred hr hts h =>
      obtain ⟨r, h₁, h₂, hk⟩ := ht
      rw [h] at h₁
      obtain rfl := Option.some.inj h₁
      rw [TokenRegistry.findToken, hts] at h₂
      exact .inl ⟨_, hr, h₂, hk⟩
  | plain hreg hk hmint h =>
      obtain h₀ | ⟨rfl, rfl, rfl⟩ := hasToken_push hreg.registry (by rw [h]; rfl) ht
      · exact .inl h₀
      · exact .inr (.inl ⟨hk, _, _, hreg, rfl, hmint, h⟩)
  | yieldBearing hreg hk hf h =>
      obtain h₀ | ⟨rfl, rfl, rfl⟩ := hasToken_push hreg.registry (by rw [h]; rfl) ht
      · exact .inl h₀
      · exact .inr (.inr ⟨hk, _, _, _, ⟨hreg, hk, hf, h⟩, rfl⟩)

/-- A plain token that is registered has its vault, and its mint to itself. -/
theorem Wired.step (hW : Wired env w) (hw : Reached env w) (h : Step env w a w') : Wired env w' := by
  have hA := hw.adminChange h
  obtain ⟨ms, -, hd⟩ := hw.makes h
  have hp : Persists env w w' := Ops.persists hd.ops
  have hvault : ∀ {e : TokenEntry} {t : U16} {r : TokenRegistry} {w₁ : World},
      TokenRegistry.Registers env w e (.vaultTokenAccount t) e.mint r w₁ →
      w' = w₁.setTokenRegistry (r.push e) → w'.ConfigHolds env (vaultOf env t) e.mint := by
    rintro e t r w₁ hreg rfl
    refine ⟨⟨e.mint, env.address .globalConfig, 0, false⟩, ?_, rfl, rfl⟩
    rw [hreg.frame]
    exact Function.update_self _ _ _
  refine ⟨fun t e ht => ?_, fun t u e e' ht hu hm => ?_, fun t s hs => ?_, fun t e ht => ?_⟩
  · rcases hA.hasToken_cases ht with ht | ⟨-, r, w₁, hreg, -, -, hw'⟩ | ⟨hk, -⟩
    · exact (hW.vaults t e ht).persists hp
    · exact hvault hreg hw'
    · cases hk
  · rcases hA.hasToken_cases ht with ht | ⟨-, r, w₁, hreg, hid, hnew, hw₁⟩ | ⟨hk, -⟩ <;>
      rcases hA.hasToken_cases hu with hu | ⟨-, r', w₂, hreg', hid', hnew', hw₂⟩ | ⟨hk', -⟩
    · exact hW.mints t u e e' ht hu hm
    · obtain ⟨r₀, hr₀, he₀, -⟩ := ht
      obtain rfl := Option.some.inj (hr₀.symm.trans hreg'.registry)
      rw [← hm, isMintRegistered_of_find he₀] at hnew'
      cases hnew'
    · cases hk'
    · obtain ⟨r₀, hr₀, he₀, -⟩ := hu
      obtain rfl := Option.some.inj (hr₀.symm.trans hreg.registry)
      rw [hm, isMintRegistered_of_find he₀] at hnew
      cases hnew
    · -- Both are the one entry that was pushed.
      have hreg₁ : w'.tokenRegistry = some (r.push e) := by rw [hw₁]; rfl
      have hreg₂ : w'.tokenRegistry = some (r'.push e') := by rw [hw₂]; rfl
      obtain rfl := Option.some.inj (hreg.registry.symm.trans hreg'.registry)
      have hpush := Option.some.inj (hreg₁.symm.trans hreg₂)
      simp only [TokenRegistry.push, TokenRegistry.mk.injEq, List.append_cancel_left_eq,
        List.cons.injEq, and_true, true_and] at hpush
      rw [← hid, ← hid', hpush]
    · cases hk'
    · cases hk
    · cases hk
    · cases hk
  · rcases hw.strategy_cases h t with heq | ⟨s₀, s₁, hs₀, hs₁, he⟩ | ⟨s₀, e, r, w₁, hnew, rfl⟩
    · rw [heq] at hs
      exact (hW.strategies t s hs).evolves (.refl s) hp fun _ => hA.hasToken
    · obtain rfl := Option.some.inj (hs₁.symm.trans hs)
      exact (hW.strategies t s₀ hs₀).evolves he hp fun _ => hA.hasToken
    · obtain ⟨hreg, hk, hf, rfl⟩ := hnew
      obtain rfl : s₀ = s := by simpa using hs
      obtain ⟨-, hid, hbps, hkey, ⟨r₀, hr₀, h₁, h₂, h₃⟩, hindex, -, -, -⟩ := hf
      have hfree : r.findToken e.id = none := by
        have := hreg.fresh
        rwa [TokenRegistry.isTokenRegistered, Option.isSome_eq_false_iff,
          Option.isNone_iff_eq_none] at this
      refine ⟨hid, ⟨e, r.push e, rfl, TokenRegistry.findToken_push_self hfree, hk⟩, hkey,
        ⟨⟨s₀.shareMint, env.address .globalConfig, 0, false⟩, ?_, rfl, rfl⟩, ⟨r₀, ?_, h₁, h₂, h₃⟩, hbps,
        hindex.ge⟩
      · rw [hreg.frame, hkey]
        exact Function.update_self _ _ _
      · rw [hreg.frame]
        exact hr₀
  · rcases hA.hasToken_cases ht with ht | ⟨hk, -⟩ | ⟨-, s, r, w₁, hnew, rfl⟩
    · obtain ⟨s, hs⟩ := Option.isSome_iff_exists.mp (hW.yieldBearing t e ht)
      rcases hw.strategy_cases h t with heq | ⟨s₀, s₁, -, hs₁, -⟩ | ⟨s₀, e', r, w₁, hnew, rfl⟩
      · rw [heq, hs]; rfl
      · rw [hs₁]; rfl
      · rw [hnew.result]
        simp
    · cases hk
    · rw [hnew.result]
      simp

theorem Reached.wired (hw : Reached env w) : Wired env w := by
  refine Reachable.invariant ?_ (fun w a w' hw hW h => hW.step hw h) hw
  rintro w ⟨clock, -, rfl⟩
  have hnone : ∀ t kind e, ¬ (World.genesis clock).HasToken t kind e := by
    rintro t kind e ⟨r, hr, -⟩
    cases hr
  exact ⟨fun t e ht => absurd ht (hnone _ _ _), fun t u e e' ht => absurd ht (hnone _ _ _),
    fun t s hs => (Option.some_ne_none s hs.symm).elim, fun t e ht => absurd ht (hnone _ _ _)⟩

end Ryvo
