import Ryvo.Books.Positions
import Ryvo.Runs.Claims
import Ryvo.Runs.Lanes

/-!
# Runs — Backing

What a plain token's vault holds against what everybody has a claim to.  The difference starts at zero and no step lowers it: an instruction that pays out of the vault lowers the claims by as much, and whoever else signs cannot take from it.

* `Step.backing`: one step.
* `Reached.claims_le_holding`, `Reached.claims_lt`: so the vault covers the claims, and they fit in `u64`.
* `backing_of_reached`: the difference along runs.
-/

namespace Ryvo

open Finset

variable {env : Env} {w w' w₁ w₂ w₃ : World} {a : Action} {t u : U16} {p q : U32} {ms : List Move}
variable {L L' : Ledger} {n : Nat} {s s₁ : YieldStrategy} {e : TokenEntry} {R : Rights env}

/-! ### The two programs' invariants -/

theorem minted_genesis {clock : Int} : Minted (.genesis clock) where
  mint k a ha := by cases ha
  lt k a ha := by cases ha
  supply k m hm := by cases hm

theorem Reached.minted (hw : Reached env w) : Minted w := by
  refine Reachable.invariant ?_ ?_ hw
  · rintro w ⟨clock, -, rfl⟩
    exact minted_genesis
  · intro w a w' hw hm h
    obtain ⟨ms, -, hd⟩ := Reached.makes hw h
    exact Ops.minted hd.ops hm

theorem Reached.reserves (hw : Reached env w) : Reserves env w := by
  refine Reachable.invariant ?_ ?_ hw
  · rintro w ⟨clock, -, rfl⟩
    exact Reserves.mk (fun ρ r h => nomatch h) fun ρ r h => nomatch h
  · intro w a w' hw hr h
    obtain ⟨ms, -, hd⟩ := Reached.makes hw h
    exact Ops.reserves hd.ops hr

/-! ### Vaults -/

theorem vaultOf_inj : vaultOf env t = vaultOf env u ↔ t = u := by
  rw [vaultOf, vaultOf, Env.address_inj, Seeds.vaultTokenAccount.injEq]

/-- A plain token's vault is no strategy's share vault. -/
theorem WiredStrategy.vaultOf_ne (h : WiredStrategy env w t s) (u : U16) :
    vaultOf env u ≠ s.shareVault := by
  rw [h.key, vaultOf, ne_eq, Env.address_inj]
  exact Seeds.noConfusion

/-- Only an exchange of the token pays out of its vault. -/
theorem Action.exchanges_of_pays (hW : Wired env w) (h : a.Pays env w (vaultOf env t)) :
    a.Exchanges t := by
  cases a with
  | outside o => cases h
  | call ix =>
      cases ix with
      | executeWithdrawalTimelocked => exact (vaultOf_inj.mp h).symm
      | executeWithdrawalYieldBearing =>
          obtain ⟨s, hs, hk⟩ := h
          exact absurd hk ((hW.strategies _ s hs).vaultOf_ne t)
      | claimProtocolYieldFee =>
          obtain ⟨s, hs, hk⟩ := h
          exact absurd hk ((hW.strategies _ s hs).vaultOf_ne t)
      | optInYield => exact .inl (vaultOf_inj.mp h).symm
      | optOutYield =>
          obtain ⟨s, hs, hk⟩ := h
          exact absurd hk ((hW.strategies _ s hs).vaultOf_ne t)
      | _ => cases h

/-- The vault is the config's, and within rights that do not pay from it nobody takes from it. -/
theorem World.ConfigHolds.holding_le {k mint : Pubkey} (h : w.ConfigHolds env k mint)
    (hops : Ops R w w') (hR : ¬ R.spends k (env.address .globalConfig)) : w.holding k ≤ w'.holding k := by
  obtain ⟨v, hv, -, ho⟩ := h
  refine Ops.holding_le hops hv (by rwa [ho]) (fun l => ?_) ?_ <;> rw [ho]
  · exact fun h => env.lending_ne_address l _ h.symm
  · exact env.canSign_address _

/-- Rights over nothing. -/
def Rights.none (env : Env) : Rights env := ⟨fun _ _ => False, fun _ => False, False, fun _ _ => id⟩

/-- Moves of the ledger alone leave the accounts alone. -/
theorem World.ConfigHolds.holding_le_of_does {k mint : Pubkey} (h : w.ConfigHolds env k mint)
    (hd : Does (Rights.none env) ms w w') : w.holding k ≤ w'.holding k :=
  h.holding_le hd.ops id

/-- A transfer that someone who signs makes into the vault. -/
theorem World.ConfigHolds.transfer {k mint source authority : Pubkey}
    (h : w.ConfigHolds env k mint) (hs : env.canSign authority = true)
    (ht : w.tokenTransfer env source k authority n = .ok w') :
    w'.ConfigHolds env k mint ∧ w.holding k + n = w'.holding k := by
  obtain ⟨⟨src, dst, hsrc, hdst, hle, hm, ho, hlt⟩, -, hd⟩ := tokenTransfer_spec ht
  obtain ⟨v, hv, hvm, hvo⟩ := h
  have hne : k ≠ source := by
    rintro rfl
    obtain rfl := Option.some.inj (hv.symm.trans hsrc)
    rw [← ho, hvo] at hs
    exact Env.canSign_ne_address hs _ rfl
  obtain ⟨x, hx, -⟩ := hd.account k v hv
  have hdelta := hd.holding k
  rw [if_pos rfl, if_neg hne] at hdelta
  exact ⟨⟨_, hx, hvm, hvo⟩, by omega⟩

/-! ### Payments to and from the lending program -/

/-- A deposit takes its amount out of the source, and no more. -/
theorem Lending.Deposited.holding_le {r : Reserve} {m : Mint} {k : Nat}
    {ρ mint source shares owner : Pubkey}
    (h : Lending.Deposited env w ρ mint source shares owner n r m k w') :
    w.holding source ≤ w'.holding source + n := by
  have := h.moved.holding source
  rw [if_pos rfl] at this
  split_ifs at this <;> omega

/-- A redemption pays its amount into the destination. -/
theorem Lending.Redeemed.holding_eq {r : Reserve} {m : Mint} {paid : Nat}
    {ρ mint shares destination owner : Pubkey}
    (h : Lending.Redeemed env w ρ mint shares destination owner n r m paid w')
    (hs : destination ≠ shares) (hv : destination ≠ r.liquidityVault) :
    w'.holding destination = w.holding destination + paid := by
  have := h.moved.holding destination
  rw [if_neg hs, if_pos rfl, if_neg hv] at this
  omega

theorem BucketsOnly.holding {k : Pubkey} (h : BucketsOnly w w') : w'.holding k = w.holding k := by
  rw [h]
  rfl

/-! ### Steps -/

/-- **No step lowers what a plain token's vault holds beyond the claims.** -/
theorem Step.backing (h : Step env w a w') (hl : Located env w) (hL : (w.ledger env).Paired)
    (hW : Wired env w) (hr : Reserves env w) (he : w.HasToken t .plain e) :
    w.holding (vaultOf env t) + (w'.ledger env).claims t
      ≤ w'.holding (vaultOf env t) + (w.ledger env).claims t := by
  have hvault := hW.vaults t e he
  by_cases hx : a.Exchanges t
  · have hsigned := h.signed
    have h := h.ran
    -- A yield-bearing token is not plain.
    have plain : ∀ {u : U16} {e' : TokenEntry}, w.HasToken u .yieldBearing e' → u ≠ t := by
      rintro u e' he' rfl
      cases (he.unique he').1
    cases a with
    | outside o => cases hx
    | call ix =>
        cases ix with
        | deposit owner k k' source t' n =>
            obtain rfl : t = t' := hx.symm
            obtain ⟨p, e', v, w₁, -, -, -, ht, hd⟩ := Deposit.handler_spec (R := Rights.none env) hl h
            obtain ⟨hvault', hheld⟩ := hvault.transfer (hsigned _ (.head _)) ht
            have hkept := hvault'.holding_le_of_does hd
            have hc := (Ledger.takesAll_singleton.mp hd.takes).claims t
            rw [Ledger.inflow, if_pos rfl, (sameBuckets_transfer ht).ledger] at hc
            omega
        | depositFor funder source remaining t' ids amounts =>
            obtain rfl : t = t' := hx.symm
            obtain ⟨e', v, w₁, -, -, ht, hd⟩ := DepositFor.handler_spec (R := Rights.none env) hl h
            obtain ⟨hvault', hheld⟩ := hvault.transfer (hsigned _ (.head _)) ht
            have hkept := hvault'.holding_le_of_does hd
            have hc := hd.takes.claims_credits t
            rw [if_pos rfl, (sameBuckets_transfer ht).ledger] at hc
            omega
        | executeWithdrawalTimelocked k destination fee t' p =>
            obtain rfl : t = t' := hx.symm
            let R : Rights env := Action.rights env w
              (.call (.executeWithdrawalTimelocked k destination fee t p))
            obtain ⟨sl, b, w₁, hsl, hb, -, -, hops, hsame, hheld, hd⟩ :=
              ExecuteWithdrawalTimelocked.handler_spec (R := R) hl (.inr ⟨rfl, rfl⟩) h
            have hkept := (hvault.persists (Ops.persists hops)).holding_le_of_does (hd (Rights.none env))
            have hc := (Ledger.takesAll_singleton.mp (hd R).takes).claims t
            rw [Ledger.inflow, if_pos rfl, hsame.ledger, withdrawing_of_row hsl hb] at hc
            omega
        | executeWithdrawalYieldBearing =>
            obtain ⟨b, s₀, s₁, s₂, r, r', m, a, w₂, w₃, hm⟩ :=
              ExecuteWithdrawalYieldBearing.handler_spec hl h
            obtain ⟨e', he'⟩ := hm.strategy.token
            exact absurd hx (plain he')
        | depositYieldBearing =>
            obtain ⟨p, k, s₀, s₁, s₂, r, r', m, a, w₂, w₃, hm⟩ := DepositYieldBearing.handler_spec hl h
            obtain ⟨e', he'⟩ := hm.strategy.token
            exact absurd hx (plain he')
        | optInYield owner k₀ k' u t' n =>
            obtain ⟨p, k, s₀, s₁, s₂, r, r', m, a, w₂, w₃, w₄, hm⟩ := OptInYield.handler_spec hl h
            obtain ⟨e', he'⟩ := hm.tokens.strategy.token
            obtain rfl : t = u := (hx.resolve_right (plain he')).symm
            have hc := (hm.does (R := Action.rights env w (.call (.optInYield owner k₀ k' t t' n))) hl rfl
              (.inr ⟨rfl, rfl⟩)).takes.claims_pair t fun _ => rfl
            rw [Ledger.inflow, Ledger.inflow, if_pos rfl, if_neg (plain he')] at hc
            obtain ⟨k, hdep⟩ := hm.accrues.deposited hm.debited.1 hm.paid
            have hheld := hdep.holding_le
            have h₁ := hm.debited.1.holding (k := vaultOf env t)
            have h₂ := hm.credited.1.holding (k := vaultOf env t)
            have h₀ : (w.setReserve s₀.reserve r').holding (vaultOf env t) = w.holding (vaultOf env t) := rfl
            have hres : w'.holding (vaultOf env t) = w₄.holding (vaultOf env t) := by rw [hm.result]; rfl
            omega
        | optOutYield owner k₀ k' t' u n =>
            obtain ⟨p, b, x, s₀, s₁, s₂, r, r', m, a, w₂, w₃, w₄, hm⟩ := OptOutYield.handler_spec hl h
            obtain ⟨e', he'⟩ := hm.tokens.strategy.token
            obtain rfl : t = u := (hx.resolve_right (plain he')).symm
            have hs := hm.tokens.strategy.found
            have hc := (hm.does (R := Action.rights env w (.call (.optOutYield owner k₀ k' t' t n))) hl rfl
              (.inr ⟨rfl, _, hs, rfl⟩)).takes.claims_pair t fun _ => rfl
            rw [Ledger.inflow, Ledger.inflow, if_pos rfl, if_neg (plain he')] at hc
            have hred := hm.accrues.redeemed hm.debited.1 hm.redeemed
            have hheld := hred.holding_eq ((hW.strategies _ _ hs).vaultOf_ne t)
              (hm.accrues.liquidityVault_ne hr _).symm
            -- What the program credits is what the lending program paid.
            obtain ⟨owed, -, -, -, -, hx, -⟩ := OptOutYield.redemption_eq_ok.mp hm.converted
            obtain ⟨hx, -⟩ := cusdcToUsdc_eq_ok.mp hx
            rw [Pool.worth] at hx
            have h₁ := hm.debited.1.holding (k := vaultOf env t)
            have h₂ := hm.credited.1.holding (k := vaultOf env t)
            have h₀ : (w.setReserve s₀.reserve r').holding (vaultOf env t) = w.holding (vaultOf env t) := rfl
            have hres : w'.holding (vaultOf env t) = w₄.holding (vaultOf env t) := by rw [hm.result]; rfl
            simp only at hx
            omega
        | _ => cases hx
  · -- Nothing is paid out of the vault, and the claims stay.
    obtain ⟨ms, hm, hd⟩ := h.makes hl hL
    have hc := (hm.claims_eq hd.takes t).resolve_right fun h => hx h.1
    have hheld := hvault.holding_le hd.ops fun hR => by
      rcases hR with hR | ⟨-, hR⟩
      · exact Env.canSign_ne_address hR _ rfl
      · exact hx (Action.exchanges_of_pays hW hR)
    omega

theorem Reached.backing (hw : Reached env w) (h : Step env w a w') (he : w.HasToken t .plain e) :
    w.holding (vaultOf env t) + (w'.ledger env).claims t
      ≤ w'.holding (vaultOf env t) + (w.ledger env).claims t :=
  h.backing hw.located hw.paired hw.wired hw.reserves he

/-- A plain token starts with an empty vault and no claims. -/
theorem Reached.backing_starts (hw : Reached env w) (h : Step env w a w')
    (hn : ∀ e, ¬ w.HasToken t .plain e) (he : w'.HasToken t .plain e) :
    w'.holding (vaultOf env t) = 0 ∧ (w'.ledger env).claims t = 0 := by
  obtain ⟨ms, hm, hd⟩ := hw.makes h
  rcases (hw.adminChange h).hasToken_cases he with h₀ | ⟨-, r, w₁, hreg, rfl, -, hw'⟩ | ⟨hk, -⟩
  · exact absurd h₀ (hn e)
  · have hun : ¬ w.Registered e.id := by
      rintro ⟨r₁, e₁, hr₁, he₁⟩
      obtain rfl := Option.some.inj (hreg.registry.symm.trans hr₁)
      have := hreg.fresh
      simp [TokenRegistry.isTokenRegistered, he₁] at this
    constructor
    · have hv : w'.tokenAccounts (vaultOf env e.id) = some ⟨e.mint, env.address .globalConfig, 0, false⟩ := by
        rw [hw', hreg.frame]
        exact Function.update_self _ _ _
      exact World.holding_of hv
    · rw [(hm.claims_eq hd.takes e.id).resolve_right fun h => hun h.2, hw.claims_unregistered hun]
  · cases hk

/-- The vault covers the claims. -/
theorem Reached.claims_le_holding (hw : Reached env w) (he : w.HasToken t .plain e) :
    (w.ledger env).claims t ≤ w.holding (vaultOf env t) := by
  refine Reachable.invariant (P := fun w => ∀ e, w.HasToken t .plain e →
    (w.ledger env).claims t ≤ w.holding (vaultOf env t)) ?_ ?_ hw e he
  · rintro w ⟨clock, -, rfl⟩ e ⟨r, hr, -⟩
    cases hr
  · intro w a w' hw ih h e' he'
    by_cases hn : ∀ e, ¬ w.HasToken t .plain e
    · obtain ⟨h₀, h₁⟩ := Reached.backing_starts hw h hn he'
      omega
    · obtain ⟨e, he⟩ := not_forall_not.mp hn
      have := Reached.backing hw h he
      have := ih e he
      omega

/-- Everybody's claims to a token together are a `u64`. -/
theorem Reached.claims_lt (hw : Reached env w) (t : U16) : (w.ledger env).claims t < u64Bound := by
  by_cases ht : w.Registered t
  · obtain ⟨r, e, hr, he⟩ := ht
    cases hk : e.kind with
    | plain => exact (hw.claims_le_holding ⟨r, hr, he, hk⟩).trans_lt (hw.minted.holding_lt _)
    | yieldBearing =>
        obtain ⟨s, hs⟩ := Option.isSome_iff_exists.mp (hw.wired.yieldBearing t e ⟨r, hr, he, hk⟩)
        obtain ⟨heq, hlt⟩ := hw.totalUserShares_eq hs
        rwa [← heq]
  · rw [hw.claims_unregistered ht]
    exact Nat.two_pow_pos _

/-! ### Runs -/

/-- What the vault holds beyond the claims. -/
def World.slack (env : Env) (w : World) (t : U16) : Int :=
  w.holding (vaultOf env t) - (w.ledger env).claims t

/-- What a run says about the vault of a plain token. -/
structure Backed (env : Env) (h : List (World × Action)) (w : World) (t : U16) : Prop where
  starts : ∀ a w' e, Step env w a w' → (∀ e, ¬ w.HasToken t .plain e) → w'.HasToken t .plain e →
    w'.slack env t = 0
  grows : ∀ x ∈ h, ∀ e, x.1.HasToken t .plain e → x.1.slack env t ≤ w.slack env t
  covers : ∀ e, w.HasToken t .plain e → ∃ v, w.tokenAccounts (vaultOf env t) = some v ∧
    ∑ p, ((w.ledger env).total t p + ∑ q, (w.ledger env).locked t p q) ≤ v.amount
  fits : ∀ p, (w.ledger env).total t p + ∑ q, (w.ledger env).locked t p q < 2 ^ 64

/-- The token stays, and the slack only grows. -/
theorem slack_of_history {h : List (World × Action)} (r : History env h w) :
    ∀ x ∈ h, x.1.HasToken t .plain e →
      w.HasToken t .plain e ∧ x.1.slack env t ≤ w.slack env t := by
  refine Run.history (P := fun h w => ∀ x ∈ h, x.1.HasToken t .plain e →
    w.HasToken t .plain e ∧ x.1.slack env t ≤ w.slack env t) (by simp) ?_ r
  intro h w a w' r ih hstep x hx he
  have hw : Reached env w := r.reachable
  obtain ⟨he₁, hle⟩ : w.HasToken t .plain e ∧ x.1.slack env t ≤ w.slack env t := by
    rcases List.mem_cons.mp hx with rfl | hx
    · exact ⟨he, le_rfl⟩
    · exact ih x hx he
  have hstep' := hw.backing hstep he₁
  refine ⟨(hw.adminChange hstep).hasToken he₁, hle.trans ?_⟩
  simp only [World.slack]
  omega

/-- **The vault of a plain token backs its claims** along every run. -/
theorem backed_of_history {h : List (World × Action)} (r : History env h w) (t : U16) :
    Backed env h w t where
  starts a w' e hstep hn he := by
    obtain ⟨h₀, h₁⟩ := Reached.backing_starts r.reachable hstep hn he
    rw [World.slack, h₀, h₁]
    rfl
  grows x hx _ he := (slack_of_history r x hx he).2
  covers e he := by
    have hw : Reached env w := r.reachable
    obtain ⟨v, hv, -⟩ := hw.wired.vaults t e he
    have hle := hw.claims_le_holding he
    simp only [Ledger.claims, Ledger.claim, World.holding_of hv] at hle
    exact ⟨v, hv, hle⟩
  fits p := by
    have hlt := ((w.ledger env).claim_le_claims t p).trans_lt (Reached.claims_lt r.reachable t)
    simp only [Ledger.claim] at hlt
    exact hlt

open Localnet in
/-- Thirty of the seventy deposited are in a balance and forty in a lane. -/
theorem backed_of_funding : ∃ h w, History localnet h w ∧ w.holding (vaultOf localnet 1) = 70 ∧
    Backed localnet h w 1 := by
  obtain ⟨w, ⟨h, r⟩, hc⟩ := reached_of_runsTo localnet (opening ++ funding)
    (fun w => w.holding (vaultOf localnet 1) = 70) (by decide +kernel)
  exact ⟨h, w, r, of_decide_eq_true hc, backed_of_history r 1⟩

end Ryvo
