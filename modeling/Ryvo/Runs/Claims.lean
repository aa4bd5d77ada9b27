import Ryvo.Machine.Localnet
import Ryvo.Runs.Wiring

/-!
# Runs — Claims

What a step changes of everybody's claims in a token: nothing, unless it is one of the instructions that take the token in or pay it out (`Exchanges`), and those know the token.

* `Reached.claims_unregistered`: nobody has a claim in a token the registry does not have.
* `shares_of_reached`: the strategy counts exactly the shares there are, in balances and in lanes.
-/

namespace Ryvo

open Finset

variable {env : Env} {w w' : World} {a : Action} {t u : U16} {p q : U32} {ms : List Move} {L L' : Ledger}
variable {n : Nat} {s : YieldStrategy} {e : TokenEntry}

/-- The instruction takes the token in or pays it out. -/
def Instruction.Exchanges (t : U16) : Instruction → Prop
  | .deposit _ _ _ _ t' _ => t' = t
  | .depositFor _ _ _ t' _ _ => t' = t
  | .executeWithdrawalTimelocked _ _ _ t' _ => t' = t
  | .executeWithdrawalYieldBearing _ _ _ t' _ => t' = t
  | .depositYieldBearing _ _ _ _ t' _ => t' = t
  | .optInYield _ _ _ u t' _ => u = t ∨ t' = t
  | .optOutYield _ _ _ t' u _ => u = t ∨ t' = t
  | _ => False

def Action.Exchanges (t : U16) : Action → Prop
  | .call ix => ix.Exchanges t
  | .outside _ => False

theorem Ledger.TakesAll.claims_credits {recipients : List (U32 × Nat)}
    (h : L.TakesAll (DepositFor.credits u recipients) L') (t : U16) :
    (L'.claims t : Int) = L.claims t + if u = t then (((recipients.map (·.2)).sum : Nat) : Int) else 0 := by
  induction recipients generalizing L with
  | nil =>
      obtain rfl := h
      simp
  | cons r rs ih =>
      obtain ⟨L₁, hm, h⟩ := h
      rw [ih h, hm.claims t, Ledger.inflow]
      by_cases ht : u = t
      · simp only [ht, if_true, List.map_cons, List.sum_cons]
        push_cast
        ring
      · simp [ht]

theorem Ledger.TakesAll.claims_pair {m m' : Move} (h : L.TakesAll [m, m'] L') (t : U16)
    (hm' : ∀ L₁ : Ledger, L₁.inflow t m' = L.inflow t m') :
    (L'.claims t : Int) = L.claims t + L.inflow t m + L.inflow t m' := by
  obtain ⟨L₁, h₁, h₂⟩ := h
  rw [(Ledger.takesAll_singleton.mp h₂).claims t, h₁.claims t, hm']

/-- Claims stay, or the action exchanges a token the registry has. -/
theorem Makes.claims_eq (hm : Makes env w a ms) (h : (w.ledger env).TakesAll ms L') (t : U16) :
    L'.claims t = (w.ledger env).claims t ∨ a.Exchanges t ∧ w.Registered t := by
  have single : ∀ {m : Move}, (w.ledger env).TakesAll [m] L' → (w.ledger env).inflow t m = 0 →
      L'.claims t = (w.ledger env).claims t := fun h h₀ => by
    have := (Ledger.takesAll_singleton.mp h).claims t
    omega
  have exchanged : ∀ {t₀ : U16} {kind : TokenKind} {e : TokenEntry} {m : Move},
      w.HasToken t₀ kind e → (w.ledger env).TakesAll [m] L' →
      (t₀ ≠ t → (w.ledger env).inflow t m = 0) →
      L'.claims t = (w.ledger env).claims t ∨ t₀ = t ∧ w.Registered t := fun {t₀ _ _ _} he h h₀ => by
    by_cases ht : t₀ = t
    · exact .inr ⟨ht, ht ▸ he.registered⟩
    · exact .inl (single h (h₀ ht))
  have converted : ∀ {u t₀ : U16} {s : YieldStrategy} {m m' : Move}, OptTokens env w u t₀ s →
      (w.ledger env).TakesAll [m, m'] L' →
      (∀ L₁ : Ledger, L₁.inflow t m' = (w.ledger env).inflow t m') →
      (u ≠ t → t₀ ≠ t → (w.ledger env).inflow t m = 0 ∧ (w.ledger env).inflow t m' = 0) →
      L'.claims t = (w.ledger env).claims t ∨ (u = t ∨ t₀ = t) ∧ w.Registered t :=
    fun {u t₀ _ _ _} htok h hm' h₀ => by
      obtain ⟨e, v, he, -⟩ := htok.plain
      obtain ⟨te, hte⟩ := htok.strategy.token
      by_cases hu : u = t
      · exact .inr ⟨.inl hu, hu ▸ he.registered⟩
      by_cases ht : t₀ = t
      · exact .inr ⟨.inr ht, ht ▸ hte.registered⟩
      · obtain ⟨h₁, h₂⟩ := h₀ hu ht
        have := h.claims_pair t hm'
        exact .inl (by omega)
  cases hm with
  | nothing =>
      obtain rfl := h
      exact .inl rfl
  | deposit _ he => exact exchanged he h fun ht => if_neg ht
  | depositFor hms he =>
      subst hms
      have := h.claims_credits t
      split at this
      · rename_i ht
        exact .inr ⟨ht, ht ▸ he.registered⟩
      · exact .inl (by omega)
  | execute _ he => exact exchanged he h fun ht => if_neg ht
  | executeYield _ he => exact exchanged he h fun ht => if_neg ht
  | depositYield _ he => exact exchanged he h fun ht => if_neg ht
  | optIn _ htok => exact converted htok h (fun _ => rfl) fun hu ht => ⟨if_neg hu, if_neg ht⟩
  | optOut _ htok => exact converted htok h (fun _ => rfl) fun hu ht => ⟨if_neg ht, if_neg hu⟩
  | _ => exact .inl (single h rfl)

/-- Nobody has a claim in a token the registry does not have. -/
theorem Reached.claims_unregistered (hw : Reached env w) (ht : ¬ w.Registered t) :
    (w.ledger env).claims t = 0 := by
  refine Reachable.invariant
    (P := fun w => ∀ t, ¬ w.Registered t → (w.ledger env).claims t = 0) ?_ ?_ hw t ht
  · rintro w ⟨clock, -, rfl⟩ t -
    rw [Ledger.claims]
    refine sum_eq_zero fun p _ => ?_
    simp only [Ledger.claim, Ledger.total, Ledger.locked, World.ledger_slot, World.ledger_lane,
      lane_genesis]
    simp [World.slot, World.genesis]
  · intro w a w' hw ih h t ht
    have ht₀ : ¬ w.Registered t := fun h₀ => ht ((Reached.adminChange hw h).registered h₀)
    obtain ⟨ms, hm, hd⟩ := Reached.makes hw h
    rcases hm.claims_eq hd.takes t with he | ⟨-, hreg⟩
    · rw [he, ih t ht₀]
    · exact absurd hreg ht₀

/-! ### Shares -/

theorem withdrawing_of_row {slot : ParticipantBucketSlot} {b : BucketTokenBalance}
    (hs : w.slot env p = some slot) (hb : slot.tokenEntry t = some b) :
    (w.ledger env).withdrawing t p = b.withdrawingBalance := by
  rw [Ledger.withdrawing, World.ledger_slot, hs, Option.elim_some,
    ParticipantBucketSlot.balance_of_tokenEntry hb]

/-- An exchange of a yield-bearing token changes the strategy's count, which stays a `u64`, by what it changes of the claims. -/
theorem Step.shares (h : Step env w a w') (hl : Located env w) (hW : Wired env w)
    (hs : w.yieldStrategies t = some s) (hx : a.Exchanges t) : ∃ s', w'.yieldStrategies t = some s' ∧
      (s'.totalUserShares : Int) - s.totalUserShares
        = (w'.ledger env).claims t - (w.ledger env).claims t ∧
      (s.totalUserShares < u64Bound → s'.totalUserShares < u64Bound) := by
  obtain ⟨e₀, he₀⟩ := (hW.strategies t s hs).token
  -- A plain token has no strategy.
  have plain : ∀ {u : U16} {e : TokenEntry}, w.HasToken u .plain e → u ≠ t := by
    rintro u e he rfl
    cases (he.unique he₀).1
  let R : Rights env := Action.rights env w a
  have hsigned := h.signed
  have h := h.ran
  cases a with
  | outside o => cases hx
  | call ix =>
      cases ix with
      | deposit =>
          obtain ⟨p, e, v, w₁, -, he, -⟩ := Deposit.handler_spec (R := R) hl h
          exact absurd hx (plain he)
      | depositFor =>
          obtain ⟨e, v, w₁, he, -⟩ := DepositFor.handler_spec (R := R) hl h
          exact absurd hx (plain he)
      | executeWithdrawalTimelocked =>
          obtain ⟨_, _, _, _, _, _, ⟨te, he⟩, -⟩ :=
            ExecuteWithdrawalTimelocked.handler_spec (R := R) hl (.inr ⟨rfl, rfl⟩) h
          exact absurd hx (plain he)
      | executeWithdrawalYieldBearing =>
          obtain rfl : t = _ := hx.symm
          obtain ⟨b, s₀, s₁, s₂, r, r', m, a, w₂, w₃, hm⟩ :=
            ExecuteWithdrawalYieldBearing.handler_spec hl h
          obtain rfl := Option.some.inj (hs.symm.trans hm.strategy.found)
          obtain ⟨slot, hslot, hb⟩ := hm.row
          have hd := hm.does (R := R) hl rfl (.inr ⟨rfl, _, hs, rfl⟩)
          have hc := (Ledger.takesAll_singleton.mp hd.takes).claims t
          rw [Ledger.inflow, if_pos rfl, withdrawing_of_row hslot hb] at hc
          have hn := hm.totalUserShares_eq
          exact ⟨s₂, by rw [hm.result]; exact Function.update_self _ _ _, by omega, by omega⟩
      | depositYieldBearing =>
          obtain rfl : t = _ := hx.symm
          obtain ⟨p, k, s₀, s₁, s₂, r, r', m, a, w₂, w₃, hm⟩ := DepositYieldBearing.handler_spec hl h
          obtain rfl := Option.some.inj (hs.symm.trans hm.strategy.found)
          have hd : Does R [.credit t p k] w w' :=
            hm.does hl rfl (.inl (hsigned _ (.head _)))
          have hc := (Ledger.takesAll_singleton.mp hd.takes).claims t
          rw [Ledger.inflow, if_pos rfl] at hc
          have hn := hm.totalUserShares_eq
          exact ⟨s₂, by rw [hm.result]; exact Function.update_self _ _ _, by omega,
            fun _ => DepositYieldBearing.mintShares_lt hm.minted⟩
      | optInYield =>
          obtain ⟨p, k, s₀, s₁, s₂, r, r', m, a, w₂, w₃, w₄, hm⟩ := OptInYield.handler_spec hl h
          obtain ⟨e, v, he, -⟩ := hm.tokens.plain
          obtain rfl : t = _ := (hx.resolve_left (plain he)).symm
          obtain rfl := Option.some.inj (hs.symm.trans hm.tokens.strategy.found)
          have hc := (hm.does (R := R) hl rfl (.inr ⟨rfl, rfl⟩)).takes.claims_pair t fun _ => rfl
          rw [Ledger.inflow, Ledger.inflow, if_neg (plain he), if_pos rfl] at hc
          have hn := hm.totalUserShares_eq
          exact ⟨s₂, by rw [hm.result]; exact Function.update_self _ _ _, by omega,
            fun _ => DepositYieldBearing.mintShares_lt hm.minted⟩
      | optOutYield =>
          obtain ⟨p, b, x, s₀, s₁, s₂, r, r', m, a, w₂, w₃, w₄, hm⟩ := OptOutYield.handler_spec hl h
          obtain ⟨e, v, he, -⟩ := hm.tokens.plain
          obtain rfl : t = _ := (hx.resolve_left (plain he)).symm
          obtain rfl := Option.some.inj (hs.symm.trans hm.tokens.strategy.found)
          have hc := (hm.does (R := R) hl rfl (.inr ⟨rfl, _, hs, rfl⟩)).takes.claims_pair t
            fun _ => rfl
          rw [Ledger.inflow, Ledger.inflow, if_neg (plain he), if_pos rfl] at hc
          have hn := hm.totalUserShares_eq
          exact ⟨s₂, by rw [hm.result]; exact Function.update_self _ _ _, by omega, by omega⟩
      | _ => cases hx

/-- Nothing else changes the count. -/
theorem Step.sameShares (h : Step env w a w') (hl : Located env w) (hL : (w.ledger env).Paired)
    (hs : w.yieldStrategies t = some s) (hx : ¬ a.Exchanges t) :
    ∃ s', w'.yieldStrategies t = some s' ∧ s'.totalUserShares = s.totalUserShares := by
  by_cases ht : a.strategy = some t
  · have h := h.ran
    cases a with
    | outside o => cases ht
    | call ix =>
        cases ix with
        | registerYieldBearingToken =>
            obtain rfl := Option.some.inj ht
            obtain ⟨s, e, r, w₁, -, -, -, hf, -⟩ := RegisterYieldBearingToken.handler_spec h
            simp [hf.free] at hs
        | accrueYield =>
            obtain rfl := Option.some.inj ht
            obtain ⟨s, s₁, r, r', m, a, hm⟩ := AccrueYield.handler_spec h
            obtain rfl := Option.some.inj (hs.symm.trans hm.found)
            exact ⟨s₁, by simp [hm.result], by rw [hm.accrues.booked.keeps]⟩
        | claimProtocolYieldFee =>
            obtain rfl := Option.some.inj ht
            obtain ⟨k, s, s₁, s₂, r, r', m, a, w₂, hm⟩ := ClaimProtocolYieldFee.handler_spec h
            obtain rfl := Option.some.inj (hs.symm.trans hm.found)
            obtain ⟨-, hs₂⟩ := YieldStrategy.takeProtocolOwed_eq_ok.mp hm.taken
            exact ⟨s₂, by simp [hm.result], by rw [hs₂, hm.accrues.booked.keeps]⟩
        | depositYieldBearing => exact absurd (Option.some.inj ht) hx
        | executeWithdrawalYieldBearing => exact absurd (Option.some.inj ht) hx
        | optInYield => exact absurd (.inr (Option.some.inj ht)) hx
        | optOutYield => exact absurd (.inr (Option.some.inj ht)) hx
        | _ => cases ht
  · obtain ⟨ms, -, hd⟩ := h.makes hl hL
    exact ⟨s, by rw [Ops.strategy_eq hd.ops ht, hs], rfl⟩

theorem NewStrategy.unregistered {r : TokenRegistry} {w₁ : World}
    (h : NewStrategy env w e s r w₁ w') : ¬ w.Registered e.id := by
  rintro ⟨r₁, e₁, hr₁, he₁⟩
  obtain rfl := Option.some.inj (h.registers.registry.symm.trans hr₁)
  have := h.registers.fresh
  simp [TokenRegistry.isTokenRegistered, he₁] at this

/-- The strategy counts everybody's claims. -/
theorem Reached.totalUserShares_eq (hw : Reached env w) (hs : w.yieldStrategies t = some s) :
    s.totalUserShares = (w.ledger env).claims t ∧ s.totalUserShares < u64Bound := by
  refine Reachable.invariant (P := fun w => ∀ t s, w.yieldStrategies t = some s →
    s.totalUserShares = (w.ledger env).claims t ∧ s.totalUserShares < u64Bound) ?_ ?_ hw t s hs
  · rintro w ⟨clock, -, rfl⟩ t s hs
    exact (Option.some_ne_none s hs.symm).elim
  · intro w a w' hw ih h t s' hs'
    obtain ⟨ms, hm, hd⟩ := Reached.makes hw h
    have hc := hm.claims_eq hd.takes t
    cases hs : w.yieldStrategies t with
    | none =>
        rcases Reached.strategy_cases hw h t with he | ⟨s, _, hs₁, -⟩ | ⟨s, e, r, w₁, hnew, rfl⟩
        · simp [← he, hs'] at hs
        · simp [hs₁] at hs
        · obtain rfl : s = s' := by simpa [hnew.result] using hs'
          rw [hc.resolve_right fun h => hnew.unregistered h.2,
            Reached.claims_unregistered hw hnew.unregistered, hnew.fresh.shares]
          exact ⟨rfl, Nat.two_pow_pos _⟩
    | some s =>
        obtain ⟨heq, hlt⟩ := ih t s hs
        by_cases hx : a.Exchanges t
        · obtain ⟨s₁, hs₁, hdiff, hlt'⟩ := h.shares (Reached.located hw) (Reached.wired hw) hs hx
          obtain rfl := Option.some.inj (hs₁.symm.trans hs')
          exact ⟨by omega, hlt' hlt⟩
        · obtain ⟨s₁, hs₁, he⟩ := h.sameShares (Reached.located hw) (Reached.paired hw) hs hx
          obtain rfl := Option.some.inj (hs₁.symm.trans hs')
          rw [hc.resolve_right fun h => hx h.1, he]
          exact ⟨heq, hlt⟩

/-- **The strategy counts exactly the shares there are**, those locked in lanes among them, and so whoever holds some can take them out of the count. -/
theorem shares_of_reached (hw : Reached env w) (he : w.HasToken t .yieldBearing e) :
    ∃ s, w.yieldStrategies t = some s ∧
      s.totalUserShares = ∑ p, (w.ledger env).total t p + ∑ p, ∑ q, (w.ledger env).locked t p q ∧
      ∀ p n received w₁ s₁ snap, n ≤ (w.ledger env).total t p →
        accrueStrategy env w s = .ok (w₁, s₁, snap) →
        ∃ s₂, s₁.removeUserShares n received = .ok s₂ := by
  obtain ⟨s, hs⟩ := Option.isSome_iff_exists.mp ((Reached.wired hw).yieldBearing t e he)
  obtain ⟨heq, -⟩ := Reached.totalUserShares_eq hw hs
  refine ⟨s, hs, ?_, fun p n received w₁ s₁ snap hn hacc => ?_⟩
  · simp only [heq, Ledger.claims, Ledger.claim, sum_add_distrib]
  · obtain ⟨r, r', m, a, hac, -, -⟩ := accrueStrategy_spec hacc
    have hs₁ : s₁.totalUserShares = s.totalUserShares := by rw [hac.booked.keeps]
    have hle := ((w.ledger env).total_le_claim t p).trans ((w.ledger env).claim_le_claims t p)
    exact ⟨_, YieldStrategy.removeUserShares_eq_ok.mpr ⟨by omega, rfl⟩⟩

open Localnet in
/-- A hundred deposited at the first index, in a count of a hundred. -/
theorem shares_of_deposit : ∃ w s, Reached localnet w ∧ w.yieldStrategies 2 = some s ∧
    s.totalUserShares = 100 ∧
    s.totalUserShares = ∑ p, (w.ledger localnet).total 2 p
      + ∑ p, ∑ q, (w.ledger localnet).locked 2 p q := by
  obtain ⟨w, hw, hc⟩ := reached_of_runsTo localnet
    (opening ++ lending ++
      [.call (.depositYieldBearing (Localnet.key 10) indexBucket bucket (Localnet.key 60) 2 100)])
    (fun w => (w.yieldStrategies 2).any (fun s : YieldStrategy => decide
      (s.totalUserShares = 100)) && (w.tokenRegistry.bind (·.findToken 2)).any
        fun e : TokenEntry => decide (e.kind = .yieldBearing)) (by decide +kernel)
  simp only [Bool.and_eq_true, Option.any_eq_true, decide_eq_true_eq] at hc
  obtain ⟨⟨s, hs, hn⟩, e, he, hk⟩ := hc
  obtain ⟨r, hr, he⟩ := Option.bind_eq_some_iff.mp he
  obtain ⟨s', hs', hsum, -⟩ := shares_of_reached hw ⟨r, hr, he, hk⟩
  obtain rfl := Option.some.inj (hs.symm.trans hs')
  exact ⟨w, s, hw, hs, hn, hsum⟩

end Ryvo
