import Ryvo.Runs.SharePrice

/-!
# Runs — Worth

What a strategy's shares of its reserve are worth.  The price of a share of a reserve does not fall in any operation on the chain, and only the strategy's own instructions take shares out of its vault.

* `Op.noCheaper`: one operation, and the pool of any reserve.
* `Step.vaultWorth_le`: so a step that is none of the strategy's leaves its shares worth at least what they were.
-/

namespace Ryvo

variable {env : Env} {R : Rights env} {w w' : World} {a : Action} {t : U16} {ρ : Pubkey}
variable {s s' : YieldStrategy} {r : Reserve} {m : Mint} {v : TokenAccount}

/-- What the strategy's shares of its reserve are worth, rounded down. -/
def World.vaultWorth (w : World) (s : YieldStrategy) : Nat :=
  Pool.worth (w.holding s.shareVault) (w.pool s.reserve).total (w.pool s.reserve).supply

/-! ### Prices -/

/-- A share of a reserve is worth one or more. -/
theorem Reserves.supply_le (hr : Reserves env w) (ρ : Pubkey) :
    (w.pool ρ).supply ≤ (w.pool ρ).total := by
  cases h : w.reserves ρ with
  | none =>
      rw [World.pool_none h]
  | some r =>
      obtain ⟨m, hm, -, hle⟩ := hr.shares ρ r h
      rw [World.pool_of h hm]
      exact hle

/-- The mint of a reserve's shares is the lending program's. -/
theorem Reserves.mint_ne (hr : Reserves env w) (hρ : w.reserves ρ = some r) {mint : Pubkey}
    (hm : w.mints mint = some m) (hauth : R.spends mint m.mintAuthority) : r.shareMint ≠ mint := by
  rintro rfl
  obtain ⟨m', hm', hauth', -⟩ := hr.shares ρ r hρ
  obtain rfl := Option.some.inj (hm.symm.trans hm')
  rw [hauth', (hr.located ρ r hρ).1] at hauth
  exact R.noLending _ _ hauth

/-- No operation makes the shares of a reserve cheaper: what it takes out is paid for at the price. -/
theorem Op.noCheaper (h : Op R w w') (hr : Reserves env w) (ρ : Pubkey) :
    (w.pool ρ).NoCheaper (w'.pool ρ) := by
  -- A pool whose reserve and mint nobody writes.
  have kept : w'.reserves ρ = w.reserves ρ →
      (∀ r, w.reserves ρ = some r → w'.mints r.shareMint = w.mints r.shareMint) →
      (w.pool ρ).NoCheaper (w'.pool ρ) := by
    intro hρ hm
    rw [Lending.pool_kept hρ hm]
    exact .refl _
  have market : Lending.Market env w w' → (w.pool ρ).NoCheaper (w'.pool ρ) := fun hm =>
    (hm.pool_step hr ρ).noCheaper (hr.supply_le ρ)
  cases h with
  | transfer _ h =>
      obtain ⟨-, hw, -⟩ := tokenTransfer_spec h
      exact kept (by rw [hw]) fun r _ => by rw [hw]
  | mintTo hR h =>
      obtain ⟨⟨m, -, hm, -, -, rfl, -, hms⟩, hw, -⟩ := tokenMintTo_spec h
      refine kept (by rw [hw]) fun r hρ => ?_
      rw [hms, Function.update_of_ne (hr.mint_ne hρ hm hR)]
  | @burn _ mint _ _ n _ h =>
      obtain ⟨⟨m, src, hm, -, -, -, -, -, hms⟩, hw, -⟩ := tokenBurn_spec h
      have hρ : w'.reserves ρ = w.reserves ρ := by rw [hw]
      cases hres : w.reserves ρ with
      | none => exact kept hρ fun r h => by simp [hres] at h
      | some r =>
          by_cases e : r.shareMint = mint
          · -- burnt shares are the others' gain
            rw [World.pool_of hres (e ▸ hm), World.pool_of (hρ.trans hres)
              (show w'.mints r.shareMint = some { m with supply := m.supply - n } by
                rw [hms, e, Function.update_self])]
            exact .of_le le_rfl (Nat.sub_le _ _)
          · refine kept hρ fun r' hr' => ?_
            obtain rfl := Option.some.inj (hres.symm.trans hr')
            rw [hms, Function.update_of_ne e]
  | toggleFreeze h =>
      obtain ⟨b, -, rfl⟩ := tokenToggleFreeze_spec h
      exact kept rfl fun r _ => rfl
  | close _ h =>
      obtain ⟨b, -, -, -, rfl⟩ := tokenClose_spec h
      exact kept rfl fun r _ => rfl
  | createMint h =>
      obtain ⟨hn, -, rfl⟩ := createMint_spec h
      refine kept rfl fun r hρ => ?_
      obtain ⟨m, hm, -⟩ := hr.shares ρ r hρ
      rw [World.setMint_mints, Function.update_of_ne (by rintro rfl; simp [hn] at hm)]
  | createTokenAccount h =>
      rw [(createTokenAccount_spec h).2.2.2]
      exact .refl _
  | @setReserve r r' ρ' apyBps hρ' hac =>
      by_cases e : ρ = ρ'
      · subst e
        -- interest is booked before a new rate holds
        have ha := Lending.accrued hac
        obtain ⟨m, hm, -⟩ := hr.shares ρ r hρ'
        have hr' : (w.setReserve ρ { r' with apyBps }).reserves ρ = some { r' with apyBps } :=
          Function.update_self _ _ _
        rw [World.pool_of hρ' hm, World.pool_of (m := m) hr' (ha.shareMint_eq ▸ hm)]
        exact .of_le ha.grows le_rfl
      · exact kept (Function.update_of_ne e _ _) fun r _ => rfl
  | @newReserve r m hn _ _ _ _ _ =>
      by_cases e : ρ = env.lendingAddress (.reserve r.underlyingMint)
      · -- a pool without shares has no price to fall
        rw [e, World.pool_none hn]
        exact fun hpos => absurd hpos (lt_irrefl 0)
      · exact kept (Function.update_of_ne e _ _) fun r _ => rfl
  | deposit _ h => exact market (.deposit h)
  | redeem _ h => exact market (.redeem h)
  | books h =>
      rw [h]
      exact .refl _
  | admin _ => exact .refl _
  | strategy _ => exact .refl _

/-! ### Vaults -/

/-- The strategy's vault, for shares of its reserve. -/
structure Invested (env : Env) (w : World) (s : YieldStrategy) : Prop where
  minted : Minted w
  reserves : Reserves env w
  vault : w.ConfigHolds env s.shareVault s.shareMint
  reserve : ∃ r, w.reserves s.reserve = some r ∧ r.shareMint = s.shareMint
  key : ∃ x, s.shareVault = env.address x

/-- As the strategy was registered with it. -/
theorem Reached.invested (hw : Reached env w) (hs : w.yieldStrategies t = some s) :
    Invested env w s := by
  have h := hw.wired.strategies t s hs
  obtain ⟨r, hr, -, hm, -⟩ := h.reserve
  exact ⟨hw.minted, hw.reserves, h.vault, ⟨r, hr, hm⟩, _, h.key⟩

theorem Invested.ops (h : Invested env w s) (hops : Ops R w w') : Invested env w' s := by
  obtain ⟨r, hr, hm⟩ := h.reserve
  obtain ⟨r', hr', -, hm', -⟩ := (Ops.persists hops).reserve _ r hr
  exact ⟨Ops.minted hops h.minted, Ops.reserves hops h.reserves, h.vault.persists (Ops.persists hops),
    ⟨r', hr', hm'.trans hm⟩, h.key⟩

/-- The books do not matter. -/
theorem Invested.evolves (h : Invested env w s) (he : s.Evolves s') : Invested env w s' := by
  rw [he.keeps]
  exact ⟨h.minted, h.reserves, h.vault, h.reserve, h.key⟩

/-- The strategy's shares are some of the reserve's. -/
theorem Invested.le_supply (h : Invested env w s) :
    w.holding s.shareVault ≤ (w.pool s.reserve).supply := by
  obtain ⟨r, hr, hsm⟩ := h.reserve
  obtain ⟨m, hm, -⟩ := h.reserves.shares _ r hr
  obtain ⟨v, hv, hvm, -⟩ := h.vault
  rw [World.holding_of hv, World.pool_of hr hm]
  exact h.minted.holding_le hv (by rw [hvm, ← hsm]; exact hm)

/-- One operation by somebody who does not sign for the config's accounts. -/
theorem Op.vaultWorth_le (h : Op R w w') (hi : Invested env w s)
    (hR : ¬ R.spends s.shareVault (env.address .globalConfig)) :
    w.vaultWorth s ≤ w'.vaultWorth s :=
  (h.noCheaper hi.reserves s.reserve).worth_le (hi.vault.holding_le (.single h) hR)
    (hi.ops (.single h)).le_supply

theorem Ops.vaultWorth_le (h : Ops R w w') (hi : Invested env w s)
    (hR : ¬ R.spends s.shareVault (env.address .globalConfig)) : w.vaultWorth s ≤ w'.vaultWorth s := by
  induction h with
  | refl => exact le_rfl
  | tail hops h ih => exact ih.trans (h.vaultWorth_le (hi.ops hops) hR)

/-- Whoever takes shares out of the strategy's vault writes its books. -/
theorem Action.strategy_of_pays (hW : Wired env w) (hs : w.yieldStrategies t = some s)
    (h : a.Pays env w s.shareVault) : a.strategy = some t := by
  have hwired := hW.strategies t s hs
  -- Share vaults of two strategies are at different addresses.
  have same : ∀ {u : U16} {s' : YieldStrategy}, w.yieldStrategies u = some s' →
      s.shareVault = s'.shareVault → some u = some t := by
    intro u s' hs' he
    rw [hwired.key, (hW.strategies u s' hs').key, Env.address_inj, Seeds.yieldShareVault.injEq] at he
    rw [he]
  cases a with
  | outside o => cases h
  | call ix =>
      cases ix with
      | executeWithdrawalTimelocked => exact absurd h.symm (hwired.vaultOf_ne _)
      | optInYield => exact absurd h.symm (hwired.vaultOf_ne _)
      | executeWithdrawalYieldBearing =>
          obtain ⟨s', hs', he⟩ := h
          exact same hs' he
      | claimProtocolYieldFee =>
          obtain ⟨s', hs', he⟩ := h
          exact same hs' he
      | optOutYield =>
          obtain ⟨s', hs', he⟩ := h
          exact same hs' he
      | _ => cases h

/-- **Nobody else lowers what a strategy's shares are worth**, whatever happens on the chain and in the reserve. -/
theorem Step.vaultWorth_le (h : Step env w a w') (hw : Reached env w)
    (hs : w.yieldStrategies t = some s) (ht : a.strategy ≠ some t) :
    w.vaultWorth s ≤ w'.vaultWorth s := by
  obtain ⟨ms, -, hd⟩ := hw.makes h
  refine Ops.vaultWorth_le hd.ops (hw.invested hs) ?_
  rintro (hsign | ⟨-, hpays⟩)
  · exact Bool.false_ne_true ((env.canSign_address _).symm.trans hsign)
  · exact ht (Action.strategy_of_pays hw.wired hs hpays)

/-! ### Figures -/

theorem Stands.vaultWorth (h : Stands w s r m v) (hm : s.shareMint = r.shareMint) :
    w.vaultWorth s = Pool.worth v.amount r.totalUnderlying m.supply := by
  rw [World.vaultWorth, World.holding_of h.vault, World.pool_of h.reserve (hm ▸ h.mint)]

theorem YieldStrategy.Evolves.vaultWorth (h : s.Evolves s') : w.vaultWorth s' = w.vaultWorth s := by
  rw [h.keeps]
  rfl

theorem BucketsOnly.vaultWorth (h : BucketsOnly w w') : w'.vaultWorth s = w.vaultWorth s := by
  rw [h]
  rfl

end Ryvo
