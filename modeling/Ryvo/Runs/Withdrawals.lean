import Ryvo.Ledger.Withdrawals
import Ryvo.Runs.Backing
import Ryvo.Runs.Rotation

/-!
# Runs — Withdrawals

The withdrawal records along a run.  A request's time is the clock and the timelock together, never zero (`Reached.request`), and its destination is compared with the zero key; so all moves of a step are `Timed` and every reached world keeps its records.

* `Reached.recorded`: a row is the only one for its token, and its record is whole.
* `withdrawalRecords_of_reached`: so an owner can cancel exactly what is pending and gets exactly what is left of it, and a request finds nothing to add to.
-/

namespace Ryvo

variable {env : Env} {w w' : World} {a : Action} {t : U16} {p : U32} {owner : Pubkey} {n : U64}
variable {s : ParticipantBucketSlot} {e : BucketTokenBalance} {m : Move} {ms : List Move}

/-! ### Requests -/

/-- A request of either kind, for `n` of the token. -/
def Action.Requests (owner : Pubkey) (t : U16) (n : U64) (destination : Pubkey) (a : Action) : Prop :=
  ∃ k k' d, a = .call (.requestWithdrawal owner k k' d t n destination) ∨
    a = .call (.requestWithdrawalYieldBearing owner k k' d t n destination)

/-- What a request records. -/
theorem Reached.request (hw : Reached env w) (h : Step env w a w') {destination : Pubkey}
    (ha : a.Requests owner t n destination) : ∃ p unlockAt, w.IsOwner env owner p ∧ unlockAt ≠ 0 ∧
      destination ≠ Pubkey.default ∧
      (w.ledger env).Takes (.request t p n.val destination unlockAt) (w'.ledger env) := by
  have later : ∀ {c : GlobalConfig} {unlockAt : Int}, w.globalConfig = some c →
      addI64 w.clock c.withdrawalTimelockSeconds = .ok unlockAt → unlockAt ≠ 0 := by
    intro c unlockAt hc hadd
    obtain ⟨rfl, -⟩ := signed_eq_ok.mp hadd
    have hpos := hw.clock_pos
    have hlock := hw.withdrawalTimelock_nonneg hc
    omega
  obtain ⟨k, k', d, rfl | rfl⟩ := ha
  · have hran := h.ran
    change RequestWithdrawal.handler env w owner k k' d t n.val destination = _ at hran
    simp only [RequestWithdrawal.handler, World.getGlobalConfig, Except.bind_eq_ok, require_eq_ok,
      okOr_eq_ok, exists_const, Prod.exists, Except.pure_eq_ok] at hran
    obtain ⟨_, -, -, c, hc, p, ha, _, -, -, hto, -, -, unlockAt, hadd, w₁, u, hedit, rfl⟩ := hran
    obtain ⟨hp, rfl, -⟩ := (authenticated_eq_ok hw.located).mp ha
    have hd : Does (Action.rights env w (.outside (.tick 0))) _ w _ := .request hw.located hedit
    exact ⟨p, unlockAt, ⟨_, hp⟩, later hc hadd, hto, Ledger.takesAll_singleton.mp hd.takes⟩
  · have hran := h.ran
    change RequestWithdrawalYieldBearing.handler env w owner k k' d t n.val destination = _ at hran
    simp only [RequestWithdrawalYieldBearing.handler, World.getGlobalConfig, Except.bind_eq_ok,
      require_eq_ok, okOr_eq_ok, exists_const, Prod.exists, Except.pure_eq_ok] at hran
    obtain ⟨c, hc, _, -, -, hto, _, -, _, -, -, -, p, ha, unlockAt, hadd, w₁, u, hedit, rfl⟩ := hran
    obtain ⟨hp, rfl, -⟩ := (authenticated_eq_ok hw.located).mp ha
    have hd : Does (Action.rights env w (.outside (.tick 0))) _ w _ := .request hw.located hedit
    exact ⟨p, unlockAt, ⟨_, hp⟩, later hc hadd, hto, Ledger.takesAll_singleton.mp hd.takes⟩

/-! ### Records -/

/-- The moves of a step are timed. -/
theorem Reached.timed (hw : Reached env w) (h : Step env w a w') :
    ∃ ms, (∀ m ∈ ms, m.Timed) ∧ (w.ledger env).TakesAll ms (w'.ledger env) := by
  by_cases hr : ∃ owner t n destination, a.Requests owner t n destination
  · obtain ⟨owner, t, n, destination, hr⟩ := hr
    obtain ⟨p, unlockAt, -, hat, hto, hm⟩ := hw.request h hr
    refine ⟨[_], ?_, Ledger.takesAll_singleton.mpr hm⟩
    intro m hmem
    obtain rfl := List.mem_singleton.mp hmem
    exact ⟨hat, hto⟩
  · obtain ⟨ms, hm, hd⟩ := hw.makes h
    refine ⟨ms, ?_, hd.takes⟩
    intro m hmem
    cases m with
    | request t p n destination unlockAt =>
        cases hm with
        | request _ =>
            obtain ⟨rfl, -, rfl, rfl, -⟩ := Move.request.inj (List.mem_singleton.mp hmem)
            exact absurd ⟨_, _, _, _, _, _, _, .inl rfl⟩ hr
        | requestYield _ =>
            obtain ⟨rfl, -, rfl, rfl, -⟩ := Move.request.inj (List.mem_singleton.mp hmem)
            exact absurd ⟨_, _, _, _, _, _, _, .inr rfl⟩ hr
        | depositFor hms _ => exact (DepositFor.onBalance hms _ hmem).elim
        | _ => simp at hmem
    | _ => trivial

theorem Reached.recorded (hw : Reached env w) : (w.ledger env).Recorded := by
  refine Reachable.invariant (P := fun w => (w.ledger env).Recorded) ?_ ?_ hw
  · intro w hg p s hs
    obtain ⟨clock, -, rfl⟩ := hg
    cases hs
  · intro w a w' hw ih h
    obtain ⟨ms, hm, ht⟩ := Reached.timed hw h
    exact ht.recorded hm ih

theorem Reached.withdrawalRecord (hw : Reached env w) (hs : w.slot env p = some s)
    (he : s.tokenEntry t = some e) : WithdrawalRecord e := by
  have hr := (hw.recorded p s hs).2 t
  rwa [ParticipantBucketSlot.balance_of_tokenEntry he] at hr

/-! ### Cancels -/

/-- The owner of a slot signed when it joined. -/
theorem Reached.owner_signs (hw : Reached env w) (hs : w.slot env p = some s) :
    env.canSign s.owner = true := by
  refine Reachable.invariant
    (P := fun w => ∀ p s, w.slot env p = some s → env.canSign s.owner = true) ?_ ?_ hw p s hs
  · intro w hg p s hs
    obtain ⟨clock, -, rfl⟩ := hg
    cases hs
  · intro w a w' hw ih h p s' hs'
    by_cases hj : ∃ owner fee id indexId, a = .call (.initializeParticipant owner fee id indexId)
    · obtain ⟨owner, fee, id, indexId, rfl⟩ := hj
      obtain ⟨c, i, i', hjoin⟩ :=
        InitializeParticipant.handler_spec (Reached.located hw) h.ran
      cases hs : w.slot env p with
      | none =>
          obtain ⟨o, hm, rfl⟩ := hjoin.takes.newSlot hs hs'
          obtain ⟨-, rfl⟩ := Move.join.inj hm
          exact h.signed _ (.head _)
      | some s =>
          obtain ⟨s₁, hs₁, ho, -⟩ := hjoin.takes.slot hs
          obtain rfl := Option.some.inj (hs₁.symm.trans hs')
          exact ho ▸ ih p s hs
    · obtain ⟨ms, hm, hd⟩ := Reached.makes hw h
      obtain ⟨s, hs, ho⟩ :=
        (hd.takes.owners (fun p o hp => hj (hm.not_join hp)) p s'.owner).mp ⟨s', hs', rfl⟩
      exact ho ▸ ih p s hs

/-- The account of everything `p` holds of the token fits in `u64`. -/
theorem Reached.total_lt (hw : Reached env w) (hs : w.slot env p = some s)
    (he : s.tokenEntry t = some e) : e.total < u64Bound := by
  have h₁ := (w.ledger env).total_le_claim t p
  have h₂ := (w.ledger env).claim_le_claims t p
  have h₃ := hw.claims_lt t
  rw [Ledger.total_of_slot hs, ParticipantBucketSlot.balance_of_tokenEntry he] at h₁
  omega

/-- The owner of `p` cancels its withdrawal of the token, on its own accounts. -/
def Action.ownCancel (env : Env) (p : U32) (owner : Pubkey) (t : U16) : Action :=
  .call (.cancelWithdrawal owner (indexKey env owner) (slotKey env p) t)

theorem Reached.cancel (hw : Reached env w) (hs : w.slot env p = some s)
    (he : s.tokenEntry t = some e) (hat : e.withdrawalUnlockAt ≠ 0) :
    ∃ w', Step env w (Action.ownCancel env p s.owner t) w' := by
  have hcancel := ParticipantBucketSlot.cancelTokenWithdrawal_eq_ok.mpr
    ⟨e, he, hat, hw.total_lt hs he, rfl, rfl⟩
  obtain ⟨b, hb, -⟩ := slot_eq_some.mp hs
  have hid := (hw.identities.bijection hw.located).resolved p s hs
  have hauth := (authenticated_eq_ok hw.located).mpr ⟨hid, rfl, by simp [hb]⟩
  have hran : ∃ w', CancelWithdrawal.handler env w s.owner (indexKey env s.owner) (slotKey env p) t
      = .ok w' := by
    simp only [CancelWithdrawal.handler, Except.bind_eq_ok, Prod.exists, Except.pure_eq_ok]
    exact ⟨_, p, hauth, _, _, editSlot_eq_ok.mpr ⟨s, _, hs, hcancel, rfl⟩, rfl⟩
  obtain ⟨w', hran⟩ := hran
  refine ⟨w', fun k hk => ?_, hran⟩
  obtain rfl := List.mem_singleton.mp hk
  exact hw.owner_signs hs

/-- A cancel that succeeds was of something pending, and all of it comes back. -/
theorem Reached.canceled (hw : Reached env w) (hs : w.slot env p = some s) {k k' : Pubkey}
    (h : Step env w (.call (.cancelWithdrawal s.owner k k' t)) w') :
    ∃ e s', s.tokenEntry t = some e ∧ e.withdrawalUnlockAt ≠ 0 ∧ w'.slot env p = some s' ∧
      s'.tokenEntry t = some { e with
        availableBalance := e.availableBalance + e.withdrawingBalance
        withdrawingBalance := 0
        withdrawalUnlockAt := 0
        withdrawalDestination := Pubkey.default } := by
  obtain ⟨p', hp', hd⟩ := CancelWithdrawal.handler_spec
    (R := Action.rights env w (.outside (.tick 0))) hw.located h.ran
  obtain rfl : p' = p := hw.owner_unique ⟨k, hp'⟩ (hw.ownedBy_iff.mpr ⟨s, hs, rfl⟩)
  obtain ⟨s₀, s', hs₀, ⟨n, hcancel⟩, hledger⟩ := Ledger.takesAll_singleton.mp hd.takes
  obtain rfl := Option.some.inj (hs₀.symm.trans hs)
  obtain ⟨e, he, hat, -, -, rfl⟩ := ParticipantBucketSlot.cancelTokenWithdrawal_eq_ok.mp hcancel
  have hslot := congrFun (congrArg Ledger.slot hledger) p'
  rw [World.ledger_slot, Ledger.slot_setSlot_self] at hslot
  have hi := ParticipantBucketSlot.tokenEntry_initialized he
  have ht := ParticipantBucketSlot.tokenEntry_tokenId he
  exact ⟨e, _, he, hat, hslot, ParticipantBucketSlot.tokenEntry_put_self
    (ParticipantBucketSlot.hasRoom_of_tokenEntry he) hi ht⟩

/-- Nothing is requested on top of something pending. -/
theorem Reached.not_requests (hw : Reached env w) (hs : w.slot env p = some s)
    (he : s.tokenEntry t = some e) (hat : e.withdrawalUnlockAt ≠ 0) {destination : Pubkey}
    (ha : a.Requests s.owner t n destination) : ¬ Step env w a w' := by
  intro h
  obtain ⟨p', unlockAt, hp', -, -, s₀, s', hs₀, hreq, -⟩ := hw.request h ha
  obtain rfl : p' = p := hw.owner_unique hp' (hw.ownedBy_iff.mpr ⟨s, hs, rfl⟩)
  obtain rfl := Option.some.inj (hs₀.symm.trans hs)
  obtain ⟨h₀, -, -⟩ := ParticipantBucketSlot.rewrites_initiate hreq
  rw [ParticipantBucketSlot.balance_of_tokenEntry he] at h₀
  exact hat h₀

/-! ### Worlds -/

/-- What the withdrawal records of a world are, and what can be done to them. -/
structure WithdrawalRecords (env : Env) (w : World) : Prop where
  /-- Every row in use of every slot in use, first of its token or not. -/
  rows : ∀ k b i j, w.participantBuckets k = some b → (b.slots i).initialized = true →
    ((b.slots i).tokenBalances j).initialized = true → WithdrawalRecord ((b.slots i).tokenBalances j)
  cancels : ∀ p s t, w.slot env p = some s → ((∃ w', Step env w (Action.ownCancel env p s.owner t) w') ↔
    ∃ e, s.tokenEntry t = some e ∧ e.withdrawalUnlockAt ≠ 0)
  /-- Whatever settlements have left of the amount comes back, and all of it. -/
  returned : ∀ p s t w', w.slot env p = some s → Step env w (Action.ownCancel env p s.owner t) w' →
    ∃ e s', s.tokenEntry t = some e ∧ w'.slot env p = some s' ∧ s'.tokenEntry t = some { e with
      availableBalance := e.availableBalance + e.withdrawingBalance
      withdrawingBalance := 0
      withdrawalUnlockAt := 0
      withdrawalDestination := Pubkey.default }
  single : ∀ p s t e a n destination w', w.slot env p = some s → s.tokenEntry t = some e →
    e.withdrawalUnlockAt ≠ 0 → a.Requests s.owner t n destination → ¬ Step env w a w'
  /-- The sum a new request writes is the amount requested. -/
  fits : ∀ p s t e (n : U64), w.slot env p = some s → s.tokenEntry t = some e →
    e.withdrawalUnlockAt = 0 → addU64 e.withdrawingBalance n.val = .ok n.val

/-- **The withdrawal records** of every reached world are whole, whichever of their fields a step has touched. -/
theorem withdrawalRecords_of_reached (hw : Reached env w) : WithdrawalRecords env w where
  rows k b i j hb hi hj := by
    obtain ⟨h₁, h₂⟩ := hw.located.places k b i hb hi
    have hk : k = slotKey env (b.slots i).participantId := by
      rw [(hw.located.participants k b hb).1, slotKey, h₁]
    have hs : w.slot env (b.slots i).participantId = some (b.slots i) :=
      hw.located.slot_eq_some.mpr ⟨b, hk ▸ hb, by rw [h₂], hi⟩
    obtain ⟨hd, -⟩ := hw.recorded _ _ hs
    exact hw.withdrawalRecord hs (hd.lookup hj)
  cancels p s t hs := by
    constructor
    · intro h
      obtain ⟨w', h⟩ := h
      obtain ⟨e, _, he, hat, -⟩ := hw.canceled hs h
      exact ⟨e, he, hat⟩
    · intro h
      obtain ⟨e, he, hat⟩ := h
      exact hw.cancel hs he hat
  returned p s t w' hs h := by
    obtain ⟨e, s', he, -, hs', he'⟩ := hw.canceled hs h
    exact ⟨e, s', he, hs', he'⟩
  single p s t e a n destination w' hs he hat ha := hw.not_requests hs he hat ha
  fits p s t e n hs he hat := by
    obtain ⟨hn, -⟩ := (hw.withdrawalRecord hs he).idle hat
    rw [hn]
    exact checkedAdd_eq_ok.mpr ⟨(Nat.zero_add _).symm, by rw [Nat.zero_add]; exact n.isLt⟩

open Localnet in
/-- Thirty on its way out to key 70. -/
theorem withdrawalRecords_of_request : ∃ w, (w.slot localnet 0).map
      (fun s => (s.balance 1).withdrawingBalance) = some 30 ∧ WithdrawalRecords localnet w := by
  obtain ⟨w, hw, hc⟩ := reached_of_runsTo localnet (opening ++ funding ++
      [.outside (.createTokenAccount (Localnet.key 70) usd (Localnet.key 10)),
        .call (.requestWithdrawal (Localnet.key 10) indexBucket bucket (Localnet.key 70) 1 30 (Localnet.key 70))])
    (fun w => (w.slot localnet 0).map (fun s => (s.balance 1).withdrawingBalance) = some 30)
    (by decide +kernel)
  exact ⟨w, of_decide_eq_true hc, withdrawalRecords_of_reached hw⟩

end Ryvo
