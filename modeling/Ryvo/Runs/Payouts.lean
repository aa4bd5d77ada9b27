import Ryvo.Runs.Withdrawals

/-!
# Runs — Payouts

Who asked for a withdrawal that is paid out.  A pending withdrawal stands for the last request of the token in the history, made by the participant's owner (`Pends`); settlements may drain its amount, and touch neither its time nor its destination (`Drains`).

* `Reached.pendingChange`: what a step does to a pending withdrawal.
* `pends_of_history`: behind a pending withdrawal there is its request.
* `payouts_of_history`: so whoever executes a withdrawal, it goes where the owner said, a timelock after the owner said so, and is no more than the owner asked for.
-/

namespace Ryvo

variable {env : Env} {w w' : World} {a : Action} {t : U16} {p : U32} {n : Nat} {destination : Pubkey}
variable {e e' : BucketTokenBalance} {s s' : ParticipantBucketSlot} {h : List (World × Action)}
variable {m : Move} {ms : List Move}

/-! ### Rows -/

/-- The amount gets no larger; its time and destination stay, or the time is taken away. -/
structure Drains (e e' : BucketTokenBalance) : Prop where
  withdrawing_le : e'.withdrawingBalance ≤ e.withdrawingBalance
  kept : e'.withdrawalUnlockAt ≠ 0 → e'.withdrawalUnlockAt = e.withdrawalUnlockAt ∧
    e'.withdrawalDestination = e.withdrawalDestination

theorem Drains.refl (e : BucketTokenBalance) : Drains e e := ⟨le_rfl, fun _ => ⟨rfl, rfl⟩⟩

theorem Drains.trans {e₁ : BucketTokenBalance} (h : Drains e e₁) (h' : Drains e₁ e') : Drains e e' where
  withdrawing_le := h'.withdrawing_le.trans h.withdrawing_le
  kept hne := by
    obtain ⟨hat, hto⟩ := h'.kept hne
    obtain ⟨hat₁, hto₁⟩ := h.kept (hat ▸ hne)
    exact ⟨hat.trans hat₁, hto.trans hto₁⟩

theorem Drains.cleared (e₁ : BucketTokenBalance) : Drains e (ParticipantBucketSlot.cleared e₁) :=
  ⟨Nat.zero_le _, fun h => absurd rfl h⟩

namespace Ledger

open ParticipantBucketSlot

variable {L L' : Ledger}

theorem drains_rewrite (h : Rewrites s s' t e') (he : Drains (s.balance t) e') (t' : U16) :
    Drains (s.balance t') (s'.balance t') := by
  by_cases ht : t' = t
  · subst ht
    rwa [h.balance]
  · rw [h.other t' ht]
    exact .refl _

/-- A change of a slot drains the row, unless it is a request for it. -/
theorem SlotChange.drains (h : SlotChange p s s' m)
    (hm : ∀ n destination unlockAt, m ≠ .request t p n destination unlockAt) :
    Drains (s.balance t) (s'.balance t) := by
  cases h with
  | keep h =>
      rw [h]
      exact .refl _
  | profile h =>
      have hrow : s'.balance t = s.balance t := by simp only [balance, tokenEntry, h.1]
      rw [hrow]
      exact .refl _
  | @delta _ t' n h =>
      have hd := appliedDelta h
      by_cases ht : t = t'
      · subst ht
        exact ⟨hd.withdrawing_le, fun _ => ⟨hd.unlockAt, hd.destination⟩⟩
      · rw [hd.balance_ne ht]
        exact .refl _
  | debit h =>
      exact drains_rewrite (rewrites_debit h).2 ⟨le_rfl, fun _ => ⟨rfl, rfl⟩⟩ t
  | @request t' n destination unlockAt h =>
      obtain ⟨-, -, hr⟩ := rewrites_initiate h
      have ht : t ≠ t' := fun ht => hm n destination unlockAt (ht ▸ rfl)
      rw [hr.other t ht]
      exact .refl _
  | cancel h => exact drains_rewrite (rewrites_cancel h) (.cleared _) t
  | clear h => exact drains_rewrite (rewrites_clear h) (.cleared _) t

theorem TakesAll.drains (h : L.TakesAll ms L') (hs : L.slot p = some s)
    (hm : ∀ m ∈ ms, ∀ n destination unlockAt, m ≠ .request t p n destination unlockAt) :
    ∃ s', L'.slot p = some s' ∧ Drains (s.balance t) (s'.balance t) := by
  induction ms generalizing L s with
  | nil =>
      obtain rfl := h
      exact ⟨s, hs, .refl _⟩
  | cons m ms ih =>
      obtain ⟨L₁, hmove, h⟩ := h
      obtain ⟨hm₀, hm⟩ := List.forall_mem_cons.mp hm
      obtain ⟨s₁, hs₁, hc⟩ := hmove.slotChange hs
      obtain ⟨s', hs', hd⟩ := ih h hs₁ hm
      exact ⟨s', hs', (hc.drains hm₀).trans hd⟩

end Ledger

/-! ### Steps -/

/-- The owner of `p` asks for `n` of the token, to be paid to `destination`. -/
def RequestsWithdrawal (env : Env) (t : U16) (p : U32) (n : Nat) (destination : Pubkey)
    (x : World × Action) : Prop :=
  ∃ owner amount, x.2.Requests owner t amount destination ∧ amount.val = n ∧ x.1.OwnedBy env p owner

/-- Somebody executes the withdrawal of the token of `p`. -/
def Action.Executes (t : U16) (p : U32) (destination : Pubkey) (a : Action) : Prop :=
  ∃ k fee, a = .call (.executeWithdrawalTimelocked k destination fee t p) ∨
    a = .call (.executeWithdrawalYieldBearing k destination fee t p)

/-- The owner of `p` cancels its withdrawal of the token, or somebody executes it. -/
def EndsWithdrawal (env : Env) (t : U16) (p : U32) (x : World × Action) : Prop :=
  (∃ owner k k', x.2 = .call (.cancelWithdrawal owner k k' t) ∧ x.1.OwnedBy env p owner) ∨
    ∃ destination, x.2.Executes t p destination

/-- A slot that comes up is fresh. -/
theorem Reached.newSlot (hw : Reached env w) (h : Step env w a w') (hs : w.slot env p = none)
    (hs' : w'.slot env p = some s') : ∃ owner, s' = .fresh p owner := by
  by_cases hj : ∃ owner fee id indexId, a = .call (.initializeParticipant owner fee id indexId)
  · obtain ⟨owner, fee, id, indexId, rfl⟩ := hj
    obtain ⟨c, i, i', hjoin⟩ := InitializeParticipant.handler_spec hw.located h.ran
    obtain ⟨owner', -, rfl⟩ := hjoin.takes.newSlot hs hs'
    exact ⟨owner', rfl⟩
  · obtain ⟨ms, hm, hd⟩ := hw.makes h
    obtain ⟨s, hs₀, -⟩ :=
      (hd.takes.owners (fun p o hp => hj (hm.not_join hp)) p s'.owner).mp ⟨s', hs', rfl⟩
    rw [World.ledger_slot, hs] at hs₀
    cases hs₀

/-- What a request records, and the time it records. -/
theorem Reached.requestedAt (hw : Reached env w) (h : Step env w a w')
    (hr : RequestsWithdrawal env t p n destination (w, a)) (hs : w.slot env p = some s) :
    ∃ c s', w.globalConfig = some c ∧ w'.slot env p = some s' ∧
      (s'.balance t).withdrawingBalance = n ∧
      (s'.balance t).withdrawalUnlockAt = w.clock + c.withdrawalTimelockSeconds ∧
      (s'.balance t).withdrawalDestination = destination := by
  obtain ⟨owner, amount, ha, rfl, ho⟩ := hr
  -- Both handlers end in the same edit of the owner's slot.
  have edited : ∃ c p' unlockAt, w.globalConfig = some c ∧ w.IsOwner env owner p' ∧
      unlockAt = w.clock + c.withdrawalTimelockSeconds ∧
      (w.ledger env).Takes (.request t p' amount.val destination unlockAt) (w'.ledger env) := by
    obtain ⟨k, k', d, rfl | rfl⟩ := ha
    · have hran := h.ran
      change RequestWithdrawal.handler env w owner k k' d t amount.val destination = _ at hran
      simp only [RequestWithdrawal.handler, World.getGlobalConfig, Except.bind_eq_ok, require_eq_ok,
        okOr_eq_ok, exists_const, Prod.exists, Except.pure_eq_ok] at hran
      obtain ⟨_, -, -, c, hc, p, hauth, _, -, -, -, -, -, unlockAt, hadd, w₁, u, hedit, rfl⟩ := hran
      obtain ⟨hp, rfl, -⟩ := (authenticated_eq_ok hw.located).mp hauth
      have hd : Does (Action.rights env w (.outside (.tick 0))) _ w _ := .request hw.located hedit
      exact ⟨c, p, unlockAt, hc, ⟨_, hp⟩, (signed_eq_ok.mp hadd).1, Ledger.takesAll_singleton.mp hd.takes⟩
    · have hran := h.ran
      change RequestWithdrawalYieldBearing.handler env w owner k k' d t amount.val destination = _
        at hran
      simp only [RequestWithdrawalYieldBearing.handler, World.getGlobalConfig, Except.bind_eq_ok,
        require_eq_ok, okOr_eq_ok, exists_const, Prod.exists, Except.pure_eq_ok] at hran
      obtain ⟨c, hc, _, -, -, -, _, -, _, -, -, -, p, hauth, unlockAt, hadd, w₁, u, hedit, rfl⟩ := hran
      obtain ⟨hp, rfl, -⟩ := (authenticated_eq_ok hw.located).mp hauth
      have hd : Does (Action.rights env w (.outside (.tick 0))) _ w _ := .request hw.located hedit
      exact ⟨c, p, unlockAt, hc, ⟨_, hp⟩, (signed_eq_ok.mp hadd).1, Ledger.takesAll_singleton.mp hd.takes⟩
  obtain ⟨c, p', unlockAt, hc, hp', rfl, s₀, s', hs₀, hreq, hledger⟩ := edited
  obtain rfl : p' = p := hw.owner_unique hp' (hw.ownedBy_iff.mpr ho)
  obtain rfl := Option.some.inj (hs₀.symm.trans hs)
  obtain ⟨h₀, -, hrow⟩ := ParticipantBucketSlot.rewrites_initiate hreq
  have hslot := congrFun (congrArg Ledger.slot hledger) p'
  rw [World.ledger_slot, Ledger.slot_setSlot_self] at hslot
  refine ⟨c, s', hc, hslot, ?_, ?_, ?_⟩
  · rw [hrow.balance]
    simp only [(((hw.recorded p' s₀ hs).2 t).idle h₀).1, Nat.zero_add]
  · rw [hrow.balance]
  · rw [hrow.balance]

/-- What is executed was pending, to that destination, and matured; and it is cleared. -/
theorem Reached.executed (hw : Reached env w) (h : Step env w a w') (ha : a.Executes t p destination) :
    ∃ s e, w.slot env p = some s ∧ s.tokenEntry t = some e ∧ Matured w e destination ∧
      (w.ledger env).Takes (.clear t p) (w'.ledger env) := by
  obtain ⟨k, fee, rfl | rfl⟩ := ha
  · obtain ⟨s, e, w₁, hs, he, hm, -, -, hsame, -, hd⟩ := ExecuteWithdrawalTimelocked.handler_spec
      (R := Action.rights env w (.call (.executeWithdrawalTimelocked k destination fee t p)))
      hw.located (.inr ⟨rfl, rfl⟩) h.ran
    have htakes := Ledger.takesAll_singleton.mp
      (hd (Action.rights env w (.outside (.tick 0)))).takes
    rw [hsame.ledger] at htakes
    exact ⟨s, e, hs, he, hm, htakes⟩
  · obtain ⟨e, s, s₁, s₂, r, r', m, acc, w₂, w₃, hm⟩ :=
      ExecuteWithdrawalYieldBearing.handler_spec hw.located h.ran
    obtain ⟨slot, hslot, he⟩ := hm.row
    have hd : Does (Action.rights env w
        (.call (.executeWithdrawalYieldBearing k destination fee t p))) _ w w' :=
      hm.does hw.located rfl (.inr ⟨rfl, s, hm.strategy.found, rfl⟩)
    exact ⟨slot, e, hslot, he, hm.matured, Ledger.takesAll_singleton.mp hd.takes⟩

/-- A withdrawal that is cancelled or executed is pending no more. -/
theorem Reached.withdrawalEnded (hw : Reached env w) (h : Step env w a w')
    (he : EndsWithdrawal env t p (w, a)) (hs : w.slot env p = some s) :
    ∃ s', w'.slot env p = some s' ∧ (s'.balance t).withdrawalUnlockAt = 0 := by
  rcases he with ⟨owner, k, k', rfl, ho⟩ | ⟨destination, ha⟩
  · obtain ⟨s₀, hs₀, rfl⟩ := ho
    obtain rfl := Option.some.inj (hs₀.symm.trans hs)
    obtain ⟨e, s', -, -, hs', he'⟩ := hw.canceled hs h
    refine ⟨s', hs', ?_⟩
    rw [ParticipantBucketSlot.balance_of_tokenEntry he']
  · obtain ⟨-, -, -, -, -, s₀, s', hs₀, hclear, hledger⟩ := hw.executed h ha
    have hslot := congrFun (congrArg Ledger.slot hledger) p
    rw [World.ledger_slot, Ledger.slot_setSlot_self] at hslot
    exact ⟨s', hslot, by rw [(ParticipantBucketSlot.rewrites_clear hclear).balance]; rfl⟩

/-- What a step does to the withdrawal of a row. -/
inductive PendingChange (env : Env) (w : World) (a : Action) (t : U16) (p : U32)
    (e e' : BucketTokenBalance) : Prop
  | kept : (∀ n destination, ¬ RequestsWithdrawal env t p n destination (w, a)) →
      ¬ EndsWithdrawal env t p (w, a) → Drains e e' → PendingChange env w a t p e e'
  | requested {n : Nat} {destination : Pubkey} {c : GlobalConfig} :
      RequestsWithdrawal env t p n destination (w, a) → w.globalConfig = some c →
      e'.withdrawingBalance = n →
      e'.withdrawalUnlockAt = w.clock + c.withdrawalTimelockSeconds →
      e'.withdrawalDestination = destination → PendingChange env w a t p e e'
  | ended : EndsWithdrawal env t p (w, a) → e'.withdrawalUnlockAt = 0 →
      PendingChange env w a t p e e'

theorem Reached.pendingChange (hw : Reached env w) (h : Step env w a w')
    (hs : w.slot env p = some s) :
    ∃ s', w'.slot env p = some s' ∧ PendingChange env w a t p (s.balance t) (s'.balance t) := by
  by_cases hr : ∃ n destination, RequestsWithdrawal env t p n destination (w, a)
  · obtain ⟨n, destination, hr⟩ := hr
    obtain ⟨c, s', hc, hs', hn, hat, hto⟩ := hw.requestedAt h hr hs
    exact ⟨s', hs', .requested hr hc hn hat hto⟩
  by_cases he : EndsWithdrawal env t p (w, a)
  · obtain ⟨s', hs', hat⟩ := hw.withdrawalEnded h he hs
    exact ⟨s', hs', .ended he hat⟩
  have hr : ∀ n destination, ¬ RequestsWithdrawal env t p n destination (w, a) := fun n destination h =>
    hr ⟨n, destination, h⟩
  obtain ⟨ms, hm, hd⟩ := hw.makes h
  have hnone : ∀ m ∈ ms, ∀ n destination unlockAt, m ≠ .request t p n destination unlockAt := by
    rintro m hmem n destination unlockAt rfl
    cases hm with
    | request hp =>
        obtain ⟨rfl, rfl, rfl, rfl, -⟩ := Move.request.inj (List.mem_singleton.mp hmem)
        exact hr _ _ ⟨_, _, ⟨_, _, _, .inl rfl⟩, rfl, hw.ownedBy_iff.mp hp⟩
    | requestYield hp =>
        obtain ⟨rfl, rfl, rfl, rfl, -⟩ := Move.request.inj (List.mem_singleton.mp hmem)
        exact hr _ _ ⟨_, _, ⟨_, _, _, .inr rfl⟩, rfl, hw.ownedBy_iff.mp hp⟩
    | depositFor hms _ => exact (DepositFor.onBalance hms _ hmem).elim
    | _ => simp at hmem
  obtain ⟨s', hs', hdrains⟩ := hd.takes.drains hs hnone
  exact ⟨s', hs', .kept hr he hdrains⟩

/-! ### Histories -/

/-- The last request for the token was made by the owner, for the destination and the time on record and for as much at least; since then nothing was requested, cancelled or executed. -/
def Pends (env : Env) (h : List (World × Action)) (t : U16) (p : U32) (e : BucketTokenBalance) :
    Prop :=
  ∃ h₁ x h₂ n c, h = h₁ ++ x :: h₂ ∧ RequestsWithdrawal env t p n e.withdrawalDestination x ∧
    e.withdrawingBalance ≤ n ∧ x.1.globalConfig = some c ∧
    e.withdrawalUnlockAt = x.1.clock + c.withdrawalTimelockSeconds ∧
    ∀ y ∈ h₁, (∀ n destination, ¬ RequestsWithdrawal env t p n destination y) ∧
      ¬ EndsWithdrawal env t p y

theorem Pends.cons {x : World × Action} (hp : Pends env h t p e)
    (hr : ∀ n destination, ¬ RequestsWithdrawal env t p n destination x)
    (he : ¬ EndsWithdrawal env t p x) (hd : Drains e e') (hat : e'.withdrawalUnlockAt ≠ 0) :
    Pends env (x :: h) t p e' := by
  obtain ⟨h₁, y, h₂, n, c, rfl, hy, hn, hc, htime, hlast⟩ := hp
  obtain ⟨hat', hto⟩ := hd.kept hat
  refine ⟨x :: h₁, y, h₂, n, c, rfl, hto ▸ hy, hd.withdrawing_le.trans hn, hc, hat'.trans htime, ?_⟩
  exact List.forall_mem_cons.mpr ⟨⟨hr, he⟩, hlast⟩

/-- Behind a pending withdrawal there is the last request for the token. -/
theorem pends_of_history (r : History env h w) (hs : w.slot env p = some s)
    (hat : (s.balance t).withdrawalUnlockAt ≠ 0) : Pends env h t p (s.balance t) := by
  refine Run.history (P := fun h w => ∀ s, w.slot env p = some s →
    (s.balance t).withdrawalUnlockAt ≠ 0 → Pends env h t p (s.balance t)) ?_ ?_ r s hs hat
  · rintro w ⟨clock, -, rfl⟩ s hs
    cases hs
  · intro h w a w' r ih hstep s' hs' hat
    cases hs : w.slot env p with
    | none =>
        obtain ⟨owner, rfl⟩ := Reached.newSlot r.reachable hstep hs hs'
        rw [ParticipantBucketSlot.balance_of_none
          (ParticipantBucketSlot.tokenEntry_fresh p owner t)] at hat
        exact absurd rfl hat
    | some s =>
        obtain ⟨s₁, hs₁, hc⟩ := Reached.pendingChange r.reachable hstep hs
        obtain rfl := Option.some.inj (hs₁.symm.trans hs')
        cases hc with
        | kept hr he hd =>
            have hne : (s.balance t).withdrawalUnlockAt ≠ 0 := (hd.kept hat).1 ▸ hat
            exact (ih s hs hne).cons hr he hd hat
        | @requested n destination c hr hc hn htime hto =>
            exact ⟨[], (w, a), h, n, c, rfl, hto ▸ hr, hn.le, hc, htime, by simp⟩
        | ended _ h₀ => exact absurd h₀ hat

/-! ### Runs -/

/-- What a run says of the withdrawals that are executed next. -/
def Payouts (env : Env) (h : List (World × Action)) (w : World) : Prop :=
  ∀ a w' t p destination, Step env w a w' → a.Executes t p destination →
    ∃ s e s', w.slot env p = some s ∧ s.tokenEntry t = some e ∧ Pends env h t p e ∧
      e.withdrawalDestination = destination ∧ e.withdrawalUnlockAt ≤ w.clock ∧
      w'.slot env p = some s' ∧ s'.tokenEntry t = some (ParticipantBucketSlot.cleared e)

/-- **Nothing is paid out unasked**: along every run, a withdrawal that anybody executes was asked for by the participant's owner, for that destination and for as much at least, a timelock ago; it has been neither cancelled nor executed since, and is spent. -/
theorem payouts_of_history (r : History env h w) : Payouts env h w := by
  intro a w' t p destination hstep ha
  have hw : Reached env w := r.reachable
  obtain ⟨s, e, hs, he, hm, s₀, s', hs₀, hclear, hledger⟩ := hw.executed hstep ha
  obtain rfl := Option.some.inj (hs₀.symm.trans hs)
  have hbalance := ParticipantBucketSlot.balance_of_tokenEntry he
  have hpends := pends_of_history r hs (hbalance ▸ hm.pending)
  rw [hbalance] at hpends
  have hslot := congrFun (congrArg Ledger.slot hledger) p
  rw [World.ledger_slot, Ledger.slot_setSlot_self] at hslot
  obtain ⟨e₀, he₀, rfl⟩ := ParticipantBucketSlot.clearTokenWithdrawal_eq_ok.mp hclear
  obtain rfl := Option.some.inj (he₀.symm.trans he)
  have hi := ParticipantBucketSlot.tokenEntry_initialized he
  have ht := ParticipantBucketSlot.tokenEntry_tokenId he
  exact ⟨s₀, e₀, _, hs, he, hpends, hm.destination.symm, hm.matured, hslot,
    ParticipantBucketSlot.tokenEntry_put_self (ParticipantBucketSlot.hasRoom_of_tokenEntry he) hi ht⟩

namespace Localnet

/-- Thirty are requested for key 70, and the timelock passes. -/
def maturing : List Action :=
  [.outside (.createTokenAccount (key 70) usd (key 10)),
    .outside (.createTokenAccount (key 80) usd (key 2)),
    .call (.requestWithdrawal (key 10) indexBucket bucket (key 70) 1 30 (key 70)),
    .outside (.tick 1000000)]

end Localnet

open Localnet in
/-- A stranger's transaction executes the withdrawal. -/
theorem payouts_of_request : ∃ h w w', History localnet h w ∧
    Step localnet w (.call (.executeWithdrawalTimelocked bucket (Localnet.key 70) (Localnet.key 80) 1 0)) w' ∧
    (w.ledger localnet).withdrawing 1 0 = 30 ∧ Payouts localnet h w := by
  obtain ⟨w, w', ⟨h, r⟩, hstep, hc⟩ := step_of_runsTo localnet (opening ++ funding ++ maturing)
    (.call (.executeWithdrawalTimelocked bucket (Localnet.key 70) (Localnet.key 80) 1 0))
    (fun w _ => (w.ledger localnet).withdrawing 1 0 = 30) (by decide +kernel)
  exact ⟨h, w, w', r, hstep, of_decide_eq_true hc, payouts_of_history r⟩

end Ryvo
