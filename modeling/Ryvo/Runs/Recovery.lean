import Ryvo.Runs.Exits
import Ryvo.Runs.Unlocks
import Ryvo.Runs.Collateral
import Ryvo.Runs.Bundles

/-!
# Runs — Recovery

The way out of a plain token, which a participant can go alone.  Its owner asks for the collateral of its lanes and takes it back a timelock later, cancels what is pending, and withdraws everything; nobody else has to sign, and nothing anybody did before can stop it but a freeze of an account by the mint's freeze authority.

* `Reached.asksUnlock_iff`, `Reached.takesUnlock_iff`: when collateral can be asked for and taken back.
* `Along`: a stretch of the way, on which the two books change and no claim does.
* `recovery_of_reached`: the way leads to a world where the participant has nothing left in the token, and its destination has everything but the fee.
-/

namespace Ryvo

open Finset

variable {env : Env} {w w' w₁ : World} {t : U16} {p q : U32} {owner : Pubkey} {n : U64}
variable {l l' : DirectionalLaneState} {s s' : ParticipantBucketSlot} {c : GlobalConfig} {T : Int}
variable {a : Action} {m : Move} {d d' : Int} {e : BucketTokenBalance} {destination feeAccount : Pubkey}

/-! ### Collateral -/

/-- The address of the bucket a lane is in. -/
def laneAddress (env : Env) (t : U16) (p q : U32) : Pubkey :=
  (laneKey env t p q).getD Pubkey.default

theorem laneKey_of_lane (hl : w.lane env t p q = some l) :
    laneKey env t p q = some (laneAddress env t p q) := by
  obtain ⟨k, b, hk, -, -⟩ := lane_eq_some.mp hl
  rw [laneAddress, hk, Option.getD_some]

/-- The account of a lane that is there passes its check. -/
theorem verifyLaneBucket_of_lane (hloc : Located env w) (hl : w.lane env t p q = some l) :
    w.verifyLaneBucket env (laneAddress env t p q) t p q = .ok () := by
  obtain ⟨k, b, hk, hb, -⟩ := lane_eq_some.mp hl
  obtain rfl : laneAddress env t p q = k := by rw [laneAddress, hk, Option.getD_some]
  obtain ⟨id, hid, haddress⟩ := laneKey_eq_some.mp hk
  obtain ⟨lower, higher, sel, hc, hid⟩ := laneBucketId_eq_ok.mp hid
  have hverify := (verifyChannelBucket hloc).mpr ⟨haddress.symm, by simp [hb]⟩
  simp only [World.verifyLaneBucket, Except.bind_eq_ok, Prod.exists]
  exact ⟨lower, higher, sel, hc, id, hid, hverify⟩

/-- The owner of `p` asks for `n` of the collateral of its lane to `q`, on its own accounts. -/
def Action.askUnlock (env : Env) (t : U16) (p q : U32) (owner : Pubkey) (n : U64) : Action :=
  .call (.requestUnlockChannelFunds owner (indexKey env owner) (laneAddress env t p q) t q n)

/-- The owner of `p` takes back what it asked for. -/
def Action.takeUnlock (env : Env) (t : U16) (p q : U32) (owner : Pubkey) : Action :=
  .call (.executeUnlockChannelFunds owner (indexKey env owner) (slotKey env p)
    (laneAddress env t p q) t q)

/-- The lane after a request for `n`. -/
def DirectionalLaneState.asked (l : DirectionalLaneState) (n : Nat) (requestedAt : Int) :
    DirectionalLaneState :=
  { l with pendingUnlockAmount := n, unlockRequestedAt := requestedAt }

/-- Collateral is asked for. -/
theorem Reached.asksUnlock (hw : Reached env w) (hs : w.slot env p = some s)
    (hl : w.lane env t p q = some l) (hc : w.globalConfig = some c)
    (hT : c.effectiveChannelUnlockTimelockSeconds = .ok T) (hn : 0 < n.val)
    (hle : n.val ≤ l.lockedBalance) (hclock : w.clock + T < 2 ^ 63) :
    Step env w (.askUnlock env t p q s.owner n)
      (w.writeLane env t p q (l.asked n.val w.clock)) := by
  have hid := (hw.identities.bijection hw.located).resolved p s hs
  have hpos := hw.clock_pos
  have hT₀ := GlobalConfig.effectiveChannelUnlockTimelockSeconds_pos hT
  have hadd : addI64 w.clock T = .ok (w.clock + T) := signed_eq_ok.mpr ⟨rfl, by omega, hclock⟩
  have hreq : l.requestUnlock n.val w.clock = .ok (l.asked n.val w.clock, ()) :=
    DirectionalLaneState.requestUnlock_eq_ok.mpr ⟨hle, rfl⟩
  refine ⟨fun k hk => ?_, ?_⟩
  · obtain rfl := List.mem_singleton.mp hk
    exact hw.owner_signs hs
  · change RequestUnlockChannelFunds.handler env w s.owner (indexKey env s.owner)
      (laneAddress env t p q) t q n.val = _
    simp only [RequestUnlockChannelFunds.handler, World.getGlobalConfig, Except.bind_eq_ok,
      okOr_eq_ok, require_eq_ok, exists_const, Prod.exists, Except.pure_eq_ok]
    exact ⟨c, hc, hn, p, hid, (), verifyLaneBucket_of_lane hw.located hl, T, hT, _, hadd, _, _,
      (editLane_eq_ok (laneKey_of_lane hl)).mpr ⟨l, _, hl, hreq, rfl⟩, rfl⟩

theorem Reached.asksUnlock_iff (hw : Reached env w) (hs : w.slot env p = some s)
    (hl : w.lane env t p q = some l) (hc : w.globalConfig = some c)
    (hT : c.effectiveChannelUnlockTimelockSeconds = .ok T) :
    (∃ w', Step env w (.askUnlock env t p q s.owner n) w') ↔
      0 < n.val ∧ n.val ≤ l.lockedBalance ∧ w.clock + T < 2 ^ 63 := by
  have hkey := laneKey_of_lane hl
  have hid := (hw.identities.bijection hw.located).resolved p s hs
  constructor
  · rintro ⟨w', h⟩
    have hran := h.ran
    change RequestUnlockChannelFunds.handler env w s.owner (indexKey env s.owner)
      (laneAddress env t p q) t q n.val = _ at hran
    simp only [RequestUnlockChannelFunds.handler, World.getGlobalConfig, Except.bind_eq_ok,
      okOr_eq_ok, require_eq_ok, exists_const, Prod.exists, Except.pure_eq_ok] at hran
    obtain ⟨c', hc', hn, p', hp', _, -, T', hT', _, hadd, w₁, u, hedit, rfl⟩ := hran
    obtain rfl := Option.some.inj (hc.symm.trans hc')
    obtain rfl := Except.ok.inj (hT.symm.trans hT')
    obtain rfl : p = p' := Except.ok.inj (hid.symm.trans hp')
    obtain ⟨l₀, l', hl₀, hreq, -⟩ := (editLane_eq_ok hkey).mp hedit
    obtain rfl := Option.some.inj (hl₀.symm.trans hl)
    exact ⟨hn, (DirectionalLaneState.requestUnlock_eq_ok.mp hreq).1, (signed_eq_ok.mp hadd).2.2⟩
  · rintro ⟨hn, hle, hclock⟩
    exact ⟨_, hw.asksUnlock hs hl hc hT hn hle hclock⟩

/-- What a lane is owed back fits the payer's balance, which has a row for it. -/
theorem Reached.takesCredit (hw : Reached env w) (hs : w.slot env p = some s)
    (hl : w.lane env t p q = some l) {k : Nat} (hpos : 0 < k) (hle : k ≤ l.lockedBalance) :
    s.withTokenDelta t k = .ok (s.put t ((s.balance t).credit k)) := by
  obtain ⟨s₀, hs₀, hrow⟩ := hw.hasRow hl (hpos.trans_le hle)
  obtain rfl := Option.some.inj (hs₀.symm.trans hs)
  have hclaim := (w.ledger env).locked_add_total_le_claim t p q
  have hclaims := (w.ledger env).claim_le_claims t p
  have hlt := hw.claims_lt t
  rw [Ledger.locked_of_lane (L := w.ledger env) hl, Ledger.total_of_slot (L := w.ledger env) hs,
    BucketTokenBalance.total] at hclaim
  exact (ParticipantBucketSlot.withTokenDelta_credit hpos).mpr ⟨.inl hrow, by omega, rfl⟩

/-- What is pending was asked for on the clock. -/
theorem Reached.unlockRequestedAt_pos (hw : Reached env w) (hl : w.lane env t p q = some l)
    (hpos : 0 < l.pendingUnlockAmount) : 0 < l.unlockRequestedAt := by
  obtain ⟨h, r⟩ := hw
  obtain ⟨h₁, x, h₂, _, rfl, -, -, hclock, -⟩ := awaits_of_history r hl hpos
  have hx : Reached env x.1 := ⟨h₂, r.suffix⟩
  exact hclock ▸ hx.clock_pos

/-- What was asked for is taken back. -/
theorem Reached.takesUnlock (hw : Reached env w) (hs : w.slot env p = some s)
    (hl : w.lane env t p q = some l) (hc : w.globalConfig = some c)
    (hT : c.effectiveChannelUnlockTimelockSeconds = .ok T) (hpos : 0 < l.pendingUnlockAmount)
    (hle : l.unlockRequestedAt + T ≤ w.clock) (hlt : l.unlockRequestedAt + T < 2 ^ 63) :
    Step env w (.takeUnlock env t p q s.owner)
      ((w.writeLane env t p q l.unlocked).writeSlot env p
        (s.put t ((s.balance t).credit l.pendingUnlockAmount))) := by
  have hid := (hw.identities.bijection hw.located).resolved p s hs
  have hrecord := hw.unlockRecord hl
  have hat := hrecord.timed.mp hpos
  have hpast := hw.unlockRequestedAt_pos hl hpos
  have hT₀ := GlobalConfig.effectiveChannelUnlockTimelockSeconds_pos hT
  have hadd : addI64 l.unlockRequestedAt T = .ok (l.unlockRequestedAt + T) :=
    signed_eq_ok.mpr ⟨rfl, by omega, hlt⟩
  have hpending : l.hasPendingUnlock = true := by
    simp [DirectionalLaneState.hasPendingUnlock, hpos, hat]
  have hreleased : min l.pendingUnlockAmount l.lockedBalance = l.pendingUnlockAmount :=
    min_eq_left hrecord.le
  have hexec : l.executeUnlock
      = .ok (l.unlocked, min l.pendingUnlockAmount l.lockedBalance, l.unlocked.lockedBalance) :=
    DirectionalLaneState.executeUnlock_eq_ok.mpr ⟨hpos, hat, rfl, rfl, rfl⟩
  obtain ⟨⟨data, hdata, hcore⟩, hi⟩ := (readLaneCore_eq_ok (laneKey_of_lane hl)).mpr hl
  obtain ⟨b, hb, -⟩ := slot_eq_some.mp hs
  have hver : ExecuteUnlockChannelFunds.verifyIfReleased env w (slotKey env p) p
      (min l.pendingUnlockAmount l.lockedBalance) = .ok () := by
    rw [hreleased, ExecuteUnlockChannelFunds.verifyIfReleased, if_pos hpos]
    exact (verifyParticipantBucket hw.located).mpr ⟨rfl, by simp [hb]⟩
  have hs₁ : (w.writeLane env t p q l.unlocked).slot env p = some s := by
    rw [slot_writeLane]
    exact hs
  have hcredit : ExecuteUnlockChannelFunds.creditIfReleased (w.writeLane env t p q l.unlocked)
      (slotKey env p) p t (min l.pendingUnlockAmount l.lockedBalance)
      = .ok ((w.writeLane env t p q l.unlocked).writeSlot env p
        (s.put t ((s.balance t).credit l.pendingUnlockAmount))) := by
    simp only [hreleased, ExecuteUnlockChannelFunds.creditIfReleased, if_pos hpos, Except.bind_eq_ok,
      Prod.exists, Except.pure_eq_ok]
    exact ⟨_, (), (editDelta_eq_ok (by omega)).mpr
      ⟨s, _, hs₁, hw.takesCredit hs hl hpos hrecord.le, rfl⟩, rfl⟩
  refine ⟨fun k hk => ?_, ?_⟩
  · obtain rfl := List.mem_singleton.mp hk
    exact hw.owner_signs hs
  · change ExecuteUnlockChannelFunds.handler env w s.owner (indexKey env s.owner) (slotKey env p)
      (laneAddress env t p q) t q = _
    simp only [ExecuteUnlockChannelFunds.handler, World.getGlobalConfig, World.getChannelBucket,
      Except.bind_eq_ok, require_eq_ok, okOr_eq_ok, exists_const, Prod.exists]
    exact ⟨c, hc, p, hid, (), verifyLaneBucket_of_lane hw.located hl, data, hdata, l, hcore, hi,
      hpending, T, hT, _, hadd, hle, (), hver, _, _, _,
      (editLane_eq_ok (laneKey_of_lane hl)).mpr ⟨l, _, hl, hexec, rfl⟩, hcredit⟩

theorem Reached.takesUnlock_iff (hw : Reached env w) (hs : w.slot env p = some s)
    (hl : w.lane env t p q = some l) (hc : w.globalConfig = some c)
    (hT : c.effectiveChannelUnlockTimelockSeconds = .ok T) :
    (∃ w', Step env w (.takeUnlock env t p q s.owner) w') ↔ 0 < l.pendingUnlockAmount ∧
      l.unlockRequestedAt + T ≤ w.clock ∧ l.unlockRequestedAt + T < 2 ^ 63 := by
  have hkey := laneKey_of_lane hl
  have hid := (hw.identities.bijection hw.located).resolved p s hs
  constructor
  · rintro ⟨w', h⟩
    have hran := h.ran
    change ExecuteUnlockChannelFunds.handler env w s.owner (indexKey env s.owner) (slotKey env p)
      (laneAddress env t p q) t q = _ at hran
    simp only [ExecuteUnlockChannelFunds.handler, World.getGlobalConfig, World.getChannelBucket,
      Except.bind_eq_ok, require_eq_ok, okOr_eq_ok, exists_const, Prod.exists] at hran
    obtain ⟨c', hc', p', hp', _, -, data, hdata, core, hcore, hi, hpending, T', hT', _, hadd, hle, -⟩ :=
      hran
    obtain rfl := Option.some.inj (hc.symm.trans hc')
    obtain rfl := Except.ok.inj (hT.symm.trans hT')
    obtain rfl : p = p' := Except.ok.inj (hid.symm.trans hp')
    obtain rfl := Option.some.inj (((readLaneCore_eq_ok hkey).mp ⟨⟨data, hdata, hcore⟩, hi⟩).symm.trans hl)
    obtain ⟨rfl, -, hlt⟩ := signed_eq_ok.mp hadd
    simp only [DirectionalLaneState.hasPendingUnlock, decide_eq_true_eq, Bool.and_eq_true] at hpending
    exact ⟨hpending.1, hle, hlt⟩
  · rintro ⟨hpos, hle, hlt⟩
    exact ⟨_, hw.takesUnlock hs hl hc hT hpos hle hlt⟩

/-! ### Ways -/

/-- A step all of whose signers are `owner`. -/
def OwnStep (env : Env) (owner : Pubkey) (w w' : World) : Prop :=
  ∃ a, Step env w a w' ∧ ∀ k ∈ a.signers, k = owner

/-- The steps `owner` takes alone, one after another. -/
def OwnWay (env : Env) (owner : Pubkey) : World → World → Prop :=
  Relation.ReflTransGen (OwnStep env owner)

theorem OwnWay.reached (h : OwnWay env owner w w') (hw : Reached env w) : Reached env w' := by
  induction h with
  | refl => exact hw
  | tail _ hstep ih =>
      obtain ⟨a, hstep, -⟩ := hstep
      exact Reachable.next ih hstep

/-- A stretch of a way: all that changes is the two books and the clock, the clock by no more than `d`, and no claim does. -/
structure Along (env : Env) (owner : Pubkey) (d : Int) (w w' : World) : Prop where
  way : OwnWay env owner w w'
  others : w' = { w with
    clock := w'.clock
    participantBuckets := w'.participantBuckets
    channelBuckets := w'.channelBuckets }
  clock : w.clock ≤ w'.clock ∧ w'.clock ≤ w.clock + d
  owners : ∀ p s, w.slot env p = some s → ∃ s', w'.slot env p = some s' ∧ s'.owner = s.owner
  claims : ∀ t p, (w'.ledger env).claim t p = (w.ledger env).claim t p

namespace Along

theorem refl (env : Env) (owner : Pubkey) (w : World) : Along env owner 0 w w where
  way := .refl
  others := rfl
  clock := ⟨le_rfl, (add_zero w.clock).ge⟩
  owners _ s hs := ⟨s, hs, rfl⟩
  claims _ _ := rfl

theorem trans (h : Along env owner d w w₁) (h' : Along env owner d' w₁ w') :
    Along env owner (d + d') w w' where
  way := Relation.ReflTransGen.trans h.way h'.way
  others := by rw [h'.others, h.others]
  clock := by
    have := h.clock
    have := h'.clock
    omega
  owners p s hs := by
    obtain ⟨s₁, hs₁, ho⟩ := h.owners p s hs
    obtain ⟨s', hs', ho'⟩ := h'.owners p s₁ hs₁
    exact ⟨s', hs', ho'.trans ho⟩
  claims t p := (h'.claims t p).trans (h.claims t p)

theorem mono (h : Along env owner d w w') (hle : d ≤ d') : Along env owner d' w w' :=
  { h with clock := ⟨h.clock.1, h.clock.2.trans (by omega)⟩ }

/-- A move of the books that is nobody's gain. -/
theorem books (h : Step env w a w') (hsigners : ∀ k ∈ a.signers, k = owner) (hb : BucketsOnly w w')
    (hm : (w.ledger env).Takes m (w'.ledger env)) (hflow : ∀ t p, (w.ledger env).flow t p m = 0) :
    Along env owner 0 w w' where
  way := .single ⟨a, h, hsigners⟩
  others := by
    rw [BucketsOnly] at hb
    rw [hb]
  clock := by
    rw [BucketsOnly] at hb
    rw [hb]
    exact ⟨le_rfl, (add_zero w.clock).ge⟩
  owners p s hs := by
    obtain ⟨s', hs', ho, -⟩ := hm.slot hs
    exact ⟨s', hs', ho⟩
  claims t p := by
    have := hm.claim t p
    rw [hflow t p] at this
    omega

/-- Time passes. -/
theorem tick (env : Env) (owner : Pubkey) (w : World) (seconds : Nat) :
    Along env owner seconds w { w with clock := w.clock + seconds } where
  way := .single ⟨.outside (.tick seconds), ⟨fun _ hk => absurd hk List.not_mem_nil, rfl⟩,
    fun _ hk => absurd hk List.not_mem_nil⟩
  others := rfl
  clock := ⟨le_add_of_nonneg_right (Int.natCast_nonneg _), le_rfl⟩
  owners _ s hs := ⟨s, hs, rfl⟩
  claims _ _ := rfl

theorem globalConfig (h : Along env owner d w w') : w'.globalConfig = w.globalConfig := by
  rw [h.others]

theorem tokenAccounts (h : Along env owner d w w') : w'.tokenAccounts = w.tokenAccounts := by
  rw [h.others]

theorem hasToken {kind : TokenKind} {te : TokenEntry} (h : Along env owner d w w')
    (ht : w.HasToken t kind te) : w'.HasToken t kind te := by
  rw [h.others]
  exact ht

end Along

/-! ### Lanes -/

theorem Ledger.locked_setLane_ne' {L : Ledger} {q' : U32} (h : q' ≠ q) :
    (L.setLane t p q l).locked t p q' = L.locked t p q' := by
  rw [locked, locked, lane_setLane_ne fun h' => h h'.2.2]

/-- All the collateral of a lane is asked for. -/
theorem Reached.asksAll (hw : Reached env w) (hs : w.slot env p = some s)
    (hl : w.lane env t p q = some l) (hc : w.globalConfig = some c)
    (hT : c.effectiveChannelUnlockTimelockSeconds = .ok T) (hpos : 0 < l.lockedBalance)
    (hclock : w.clock + T < 2 ^ 63) : ∃ w', Along env s.owner 0 w w' ∧ w'.slot env p = some s ∧
      w'.lane env t p q = some (l.asked l.lockedBalance w.clock) ∧
      ∀ q', q' ≠ q → (w'.ledger env).locked t p q' = (w.ledger env).locked t p q' := by
  have hlt : l.lockedBalance < u64Bound := by
    have hlocked := (w.ledger env).locked_add_total_le_claim t p q
    have hclaim := (w.ledger env).claim_le_claims t p
    have hclaims := hw.claims_lt t
    rw [Ledger.locked_of_lane (L := w.ledger env) hl] at hlocked
    omega
  have hlane : (w.lane env t p q).isSome := Option.isSome_of_eq_some hl
  have hcreated := lane_initialized hl
  have hi : (l.asked l.lockedBalance w.clock).initialized = true := hcreated
  have hstep := hw.asksUnlock (n := ⟨l.lockedBalance, hlt⟩) hs hl hc hT hpos le_rfl hclock
  refine ⟨_, .books (m := .requestUnlock t p q l.lockedBalance w.clock) hstep ?_
    bucketsOnly_writeLane ?_ fun _ _ => rfl, ?_, ?_, ?_⟩
  · exact fun k hk => List.mem_singleton.mp hk
  · exact editLane_writeLane hl hi (DirectionalLaneState.requestUnlock_eq_ok.mpr ⟨le_rfl, rfl⟩)
  · rw [slot_writeLane]
    exact hs
  · exact lane_writeLane_self hlane hi
  · intro q' hq
    rw [ledger_writeLane hlane hi, Ledger.locked_setLane_ne' hq]

/-- All the collateral of a lane is taken back. -/
theorem Reached.takesAll (hw : Reached env w) (hs : w.slot env p = some s)
    (hl : w.lane env t p q = some l) (hc : w.globalConfig = some c)
    (hT : c.effectiveChannelUnlockTimelockSeconds = .ok T) (hpos : 0 < l.lockedBalance)
    (hall : l.pendingUnlockAmount = l.lockedBalance) (hle : l.unlockRequestedAt + T ≤ w.clock)
    (hlt : l.unlockRequestedAt + T < 2 ^ 63) : ∃ w', Along env s.owner 0 w w' ∧
      (w'.ledger env).locked t p q = 0 ∧
      ∀ q', q' ≠ q → (w'.ledger env).locked t p q' = (w.ledger env).locked t p q' := by
  rw [← hall] at hpos
  have hlane : (w.lane env t p q).isSome := Option.isSome_of_eq_some hl
  have hcreated := lane_initialized hl
  have hi : l.unlocked.initialized = true := hcreated
  have hstep := hw.takesUnlock hs hl hc hT hpos hle hlt
  have hcredit := hw.takesCredit hs hl hpos hall.le
  have hs₁ : (w.writeLane env t p q l.unlocked).slot env p = some s := by
    rw [slot_writeLane]
    exact hs
  have hprofile := (ParticipantBucketSlot.appliedDelta hcredit).profile
  have hledger₁ : (w.writeLane env t p q l.unlocked).ledger env
      = (w.ledger env).setLane t p q l.unlocked := ledger_writeLane hlane hi
  have hledger := ledger_writeSlot_profile hs₁ hprofile
  rw [hledger₁] at hledger
  have hexec : l.executeUnlock = .ok (l.unlocked, l.pendingUnlockAmount, l.unlocked.lockedBalance) := by
    refine DirectionalLaneState.executeUnlock_eq_ok.mpr
      ⟨hpos, (hw.unlockRecord hl).timed.mp hpos, (min_eq_left hall.le).symm, ?_, rfl⟩
    rw [DirectionalLaneState.unlocked, min_eq_left hall.le]
  have htakes : (w.ledger env).Takes (.executeUnlock t p q)
      (((w.ledger env).setLane t p q l.unlocked).setSlot p
        (s.put t ((s.balance t).credit l.pendingUnlockAmount))) :=
    ⟨_, l.pendingUnlockAmount, ⟨l, _, hl, ⟨_, hexec⟩, rfl⟩, s, _, hs, hcredit, rfl⟩
  refine ⟨_, .books hstep ?_ (bucketsOnly_writeLane.trans bucketsOnly_writeSlot) (hledger ▸ htakes)
    fun _ _ => rfl, ?_, ?_⟩
  · exact fun k hk => List.mem_singleton.mp hk
  · rw [hledger, Ledger.locked_setSlot, Ledger.locked, Ledger.lane_setLane_self]
    change l.lockedBalance - min l.pendingUnlockAmount l.lockedBalance = 0
    omega
  · intro q' hq
    rw [hledger, Ledger.locked_setSlot, Ledger.locked_setLane_ne' hq]

/-- The owner of `p` gets the collateral of one lane back. -/
theorem Reached.recoversLane (hw : Reached env w) (hs : w.slot env p = some s)
    (hl : w.lane env t p q = some l) (hc : w.globalConfig = some c)
    (hT : c.effectiveChannelUnlockTimelockSeconds = .ok T) (hpos : 0 < l.lockedBalance)
    (hclock : w.clock + T < 2 ^ 63) : ∃ w', Along env s.owner T w w' ∧
      (w'.ledger env).locked t p q = 0 ∧
      ∀ q', q' ≠ q → (w'.ledger env).locked t p q' = (w.ledger env).locked t p q' := by
  have hT₀ := GlobalConfig.effectiveChannelUnlockTimelockSeconds_pos hT
  obtain ⟨w₁, h₁, hs₁, hl₁, hothers₁⟩ := hw.asksAll hs hl hc hT hpos hclock
  have hw₁ := h₁.way.reached hw
  -- The timelock passes.
  have hlater := h₁.clock.1
  have h₂ := Along.tick env s.owner w₁ T.toNat
  have hc₂ := (h₁.trans h₂).globalConfig.trans hc
  obtain ⟨w', h', hzero, hothers⟩ := Reached.takesAll (h₂.way.reached hw₁) hs₁ hl₁ hc₂ hT hpos rfl
    (by
      change w.clock + T ≤ w₁.clock + (T.toNat : Int)
      omega) hclock
  exact ⟨w', ((h₁.trans h₂).trans h').mono (by omega), hzero,
    fun q' hq => (hothers q' hq).trans (hothers₁ q' hq)⟩

/-- The owner of `p` gets the collateral of its lanes to all of `S` back. -/
theorem Reached.recoversLanes (hw : Reached env w) (hs : w.slot env p = some s)
    (hc : w.globalConfig = some c) (hT : c.effectiveChannelUnlockTimelockSeconds = .ok T) (t : U16)
    (S : Finset U32) (hclock : w.clock + S.card * T < 2 ^ 63) :
    ∃ w', Along env s.owner (S.card * T) w w' ∧ (∀ q ∈ S, (w'.ledger env).locked t p q = 0) ∧
      ∀ q, q ∉ S → (w'.ledger env).locked t p q = (w.ledger env).locked t p q := by
  have hT₀ := GlobalConfig.effectiveChannelUnlockTimelockSeconds_pos hT
  induction S using Finset.induction_on with
  | empty => exact ⟨w, (Along.refl env s.owner w).mono (by simp), by simp, fun _ _ => rfl⟩
  | insert q S hq ih =>
      have hcard : ((insert q S).card : Int) * T = S.card * T + T := by
        rw [card_insert_of_notMem hq]
        push_cast
        ring
      rw [hcard] at hclock ⊢
      obtain ⟨w₁, h₁, hzero, hothers⟩ := ih (by omega)
      have hw₁ := h₁.way.reached hw
      obtain ⟨s₁, hs₁, ho⟩ := h₁.owners p s hs
      have hlate := h₁.clock.2
      -- The lane to `q` has collateral left, or not.
      obtain ⟨w', h', hzero', hothers'⟩ : ∃ w', Along env s.owner T w₁ w' ∧
          (w'.ledger env).locked t p q = 0 ∧
          ∀ q', q' ≠ q → (w'.ledger env).locked t p q' = (w₁.ledger env).locked t p q' := by
        by_cases hlocked : (w₁.ledger env).locked t p q = 0
        · exact ⟨w₁, (Along.refl env s.owner w₁).mono hT₀.le, hlocked, fun _ _ => rfl⟩
        · cases hl : w₁.lane env t p q with
          | none => exact absurd (by simp [Ledger.locked, hl]) hlocked
          | some l =>
              rw [Ledger.locked_of_lane (L := w₁.ledger env) hl] at hlocked
              exact ho ▸ hw₁.recoversLane hs₁ hl (h₁.globalConfig.trans hc) hT
                (Nat.pos_of_ne_zero hlocked) (by omega)
      refine ⟨w', h₁.trans h', fun r hr => ?_, fun r hr => ?_⟩
      · rcases mem_insert.mp hr with rfl | hr
        · exact hzero'
        · have hne : r ≠ q := fun e => hq (e ▸ hr)
          rw [hothers' r hne, hzero r hr]
      · rw [mem_insert, not_or] at hr
        rw [hothers' r hr.1, hothers r hr.2]

/-! ### Withdrawals -/

/-- The owner of `p` asks for `n` of the token to go to the destination, on its own accounts. -/
def Action.ownRequest (env : Env) (p : U32) (owner : Pubkey) (t : U16) (n : U64)
    (destination : Pubkey) : Action :=
  .call (.requestWithdrawal owner (indexKey env owner) (slotKey env p) destination t n destination)

/-- What is pending is cancelled. -/
theorem Reached.idles (hw : Reached env w) (hs : w.slot env p = some s)
    (he : s.tokenEntry t = some e) : ∃ w' s' e', Along env s.owner 0 w w' ∧
      w'.slot env p = some s' ∧ s'.owner = s.owner ∧ s'.tokenEntry t = some e' ∧
      e'.availableBalance = e.total ∧ e'.withdrawingBalance = 0 ∧ e'.withdrawalUnlockAt = 0 := by
  by_cases hat : e.withdrawalUnlockAt = 0
  · obtain ⟨hzero, -⟩ := (hw.withdrawalRecord hs he).idle hat
    exact ⟨w, s, e, .refl env s.owner w, hs, rfl, he, by simp [BucketTokenBalance.total, hzero],
      hzero, hat⟩
  · obtain ⟨w', hstep⟩ := hw.cancel hs he hat
    obtain ⟨e₀, s', he₀, -, hs', he'⟩ := hw.canceled hs hstep
    obtain rfl := Option.some.inj (he.symm.trans he₀)
    obtain ⟨p', hp', hd⟩ := CancelWithdrawal.handler_spec
      (R := Action.rights env w (.outside (.tick 0))) hw.located hstep.ran
    have hbooks : BucketsOnly w w' := by
      have hran := hstep.ran
      change CancelWithdrawal.handler env w _ _ _ t = _ at hran
      simp only [CancelWithdrawal.handler, Except.bind_eq_ok, Prod.exists, Except.pure_eq_ok] at hran
      obtain ⟨_, -, _, _, hedit, rfl⟩ := hran
      exact bucketsOnly_edit hedit
    have halong : Along env s.owner 0 w w' := .books hstep (fun k hk => List.mem_singleton.mp hk)
      hbooks (Ledger.takesAll_singleton.mp hd.takes) fun _ _ => rfl
    obtain ⟨s₁, hs₁, ho⟩ := halong.owners p s hs
    obtain rfl := Option.some.inj (hs₁.symm.trans hs')
    exact ⟨w', _, _, halong, hs', ho, he', rfl, rfl, rfl⟩

/-- All that is available is on its way out, and can be executed at once: no chain has a withdrawal timelock. -/
theorem Reached.requestsAll (hw : Reached env w) {te : TokenEntry} {b : TokenAccount}
    (hs : w.slot env p = some s) (he : s.tokenEntry t = some e) (hat : e.withdrawalUnlockAt = 0)
    (hzero : e.withdrawingBalance = 0) (hpos : 0 < e.availableBalance)
    (hc : w.globalConfig = some c) (htoken : w.HasToken t .plain te)
    (hb : w.tokenAccounts destination = some b) (hmint : b.mint = te.mint)
    (howner : b.owner ≠ Pubkey.default) (hto : destination ≠ Pubkey.default)
    (hclock : w.clock < 2 ^ 63) : ∃ w' s' e', Along env s.owner 0 w w' ∧
      w'.slot env p = some s' ∧ s'.tokenEntry t = some e' ∧
      e'.withdrawingBalance = e.availableBalance ∧ e'.withdrawalUnlockAt = w.clock ∧
      e'.withdrawalDestination = destination := by
  have hlt : e.availableBalance < u64Bound :=
    (Nat.le_add_right _ _).trans_lt (hw.total_lt hs he)
  have hclock₀ := hw.clock_pos
  have hT := GlobalConfig.withdrawalTimelockForChainId_eq (hw.withinBounds hc).withdrawalTimelock
  have hadd : addI64 w.clock c.withdrawalTimelockSeconds = .ok w.clock := by
    rw [hT]
    exact signed_eq_ok.mpr ⟨(add_zero _).symm, by omega, by omega⟩
  obtain ⟨s', hreq⟩ : ∃ s', s.initiateTokenWithdrawal t e.availableBalance destination w.clock
      = .ok (s', ()) := ⟨_, ParticipantBucketSlot.initiateTokenWithdrawal_eq_ok.mpr
    ⟨e, he, hat, le_rfl, by omega, rfl⟩⟩
  obtain ⟨e₀, he₀, -, -, -, hput⟩ := ParticipantBucketSlot.initiateTokenWithdrawal_eq_ok.mp hreq
  obtain rfl := Option.some.inj (he.symm.trans he₀)
  obtain ⟨bucket, hbucket, -⟩ := slot_eq_some.mp hs
  have hid := (hw.identities.bijection hw.located).resolved p s hs
  have hauth := (authenticated_eq_ok hw.located).mpr ⟨hid, rfl, Option.isSome_of_eq_some hbucket⟩
  have hprofile := (ParticipantBucketSlot.rewrites_initiate hreq).2.2.profile
  have hstep : Step env w (.ownRequest env p s.owner t ⟨e.availableBalance, hlt⟩ destination)
      (w.writeSlot env p s') := by
    refine ⟨fun k hk => ?_, ?_⟩
    · obtain rfl := List.mem_singleton.mp hk
      exact hw.owner_signs hs
    · change RequestWithdrawal.handler env w s.owner (indexKey env s.owner) (slotKey env p)
        destination t e.availableBalance destination = _
      simp only [RequestWithdrawal.handler, World.getGlobalConfig, World.getTokenAccount,
        Except.bind_eq_ok, require_eq_ok, okOr_eq_ok, exists_const, Prod.exists, Except.pure_eq_ok,
        plainToken_eq_ok]
      exact ⟨b, hb, howner, c, hc, p, hauth, te, htoken, hpos, hto, trivial, hmint, _, hadd, _, (),
        editSlot_eq_ok.mpr ⟨s, s', hs, hreq, rfl⟩, rfl⟩
  have halong : Along env s.owner 0 w (w.writeSlot env p s') :=
    .books (m := .request t p e.availableBalance destination w.clock) hstep
      (fun k hk => List.mem_singleton.mp hk) bucketsOnly_writeSlot
      (editSlot_writeSlot hs hprofile hreq) fun _ _ => rfl
  obtain ⟨hi, hp⟩ := initialized_of_profile hprofile hs
  have hinit := ParticipantBucketSlot.tokenEntry_initialized he
  have htokenId := ParticipantBucketSlot.tokenEntry_tokenId he
  have hentry := ParticipantBucketSlot.tokenEntry_put_self
    (ParticipantBucketSlot.hasRoom_of_tokenEntry he) (e := { e with
      availableBalance := e.availableBalance - e.availableBalance
      withdrawingBalance := e.withdrawingBalance + e.availableBalance
      withdrawalUnlockAt := w.clock
      withdrawalDestination := destination }) hinit htokenId
  exact ⟨_, s', _, halong, slot_writeSlot_self (Option.isSome_of_eq_some hs) hi hp, hput ▸ hentry,
    by simp [hzero], rfl, rfl⟩

/-! ### Worlds -/

/-- The unlock timelock there is, 72 hours at most. -/
theorem WithinBounds.effectiveTimelock (h : WithinBounds env c) :
    ∃ T, c.effectiveChannelUnlockTimelockSeconds = .ok T ∧ T ≤ 259200 := by
  have hT := h.unlockTimelock
  have hpos := GlobalConfig.channelUnlockTimelockForChainId_pos hT
  refine ⟨_, by rw [GlobalConfig.effectiveChannelUnlockTimelockSeconds, if_pos hpos], ?_⟩
  generalize c.channelUnlockTimelockSeconds = T at hT
  unfold GlobalConfig.channelUnlockTimelockForChainId at hT
  split_ifs at hT <;> cases hT <;> decide

/-- What the owner of `p` leaves a token with: nobody else signs or loses anything, and everything it had a claim to is paid out. -/
structure Leaves (env : Env) (w w' : World) (t : U16) (p : U32) (owner destination feeAccount : Pubkey)
    (c : GlobalConfig) (te : TokenEntry) : Prop where
  way : OwnWay env owner w w'
  gone : (w'.ledger env).claim t p = 0
  others : ∀ t' p', ¬ (t = t' ∧ p = p') → (w'.ledger env).claim t' p' = (w.ledger env).claim t' p'
  paid : ∀ k, (w'.holding k : Int) = w.holding k + payout env t destination feeAccount
    ((w.ledger env).claim t p) (exitFee c.feeBps te.decimals ((w.ledger env).claim t p)) k

theorem Reached.leaves (hw : Reached env w) {te : TokenEntry} {b f : TokenAccount}
    (hs : w.slot env p = some s) (hc : w.globalConfig = some c) (htoken : w.HasToken t .plain te)
    (hb : w.tokenAccounts destination = some b) (hmint : b.mint = te.mint)
    (howner : b.owner ≠ Pubkey.default) (hto : destination ≠ Pubkey.default)
    (hf : w.tokenAccounts feeAccount = some f) (hfm : f.mint = te.mint)
    (hfo : f.owner = c.feeRecipient) (hclock : w.clock < 2 ^ 62)
    (hth : Thawed env w t destination feeAccount ((w.ledger env).claim t p)
      (exitFee c.feeBps te.decimals ((w.ledger env).claim t p))) :
    ∃ w', Leaves env w w' t p s.owner destination feeAccount c te := by
  by_cases hclaim : (w.ledger env).claim t p = 0
  · refine ⟨w, .refl, hclaim, fun _ _ _ => rfl, fun k => ?_⟩
    rw [hclaim, payout_zero, add_zero]
  obtain ⟨T, hT, hle⟩ := (hw.withinBounds hc).effectiveTimelock
  -- All of the collateral comes back.
  have hcard : ((univ : Finset U32).card : Int) * T ≤ 2 ^ 32 * 259200 := by
    have : (univ : Finset U32).card = 2 ^ 32 := by simp
    rw [this]
    omega
  obtain ⟨w₁, h₁, hlocked, -⟩ := hw.recoversLanes hs hc hT t univ (by omega)
  have hw₁ := h₁.way.reached hw
  obtain ⟨s₁, hs₁, ho₁⟩ := h₁.owners p s hs
  have htotal : (s₁.balance t).total = (w.ledger env).claim t p := by
    rw [← h₁.claims t p, Ledger.claim, Finset.sum_eq_zero fun q _ => hlocked q (mem_univ q), add_zero,
      Ledger.total_of_slot hs₁]
  -- The row is there, and nothing in it is pending once it is cancelled.
  obtain ⟨e₁, he₁⟩ : ∃ e₁, s₁.tokenEntry t = some e₁ := by
    by_contra hnone
    rw [ParticipantBucketSlot.balance_of_none
      (Option.eq_none_iff_forall_ne_some.mpr (not_exists.mp hnone))] at htotal
    exact hclaim htotal.symm
  rw [ParticipantBucketSlot.balance_of_tokenEntry he₁] at htotal
  obtain ⟨w₂, s₂, e₂, h₂, hs₂, ho₂, he₂, havailable, hzero, hat⟩ := hw₁.idles hs₁ he₁
  rw [ho₁] at h₂ ho₂
  have h₁₂ := h₁.trans h₂
  have hw₂ := h₂.way.reached hw₁
  rw [htotal] at havailable
  -- All of it is requested.
  have hb₂ : w₂.tokenAccounts destination = some b := by rw [h₁₂.tokenAccounts, hb]
  obtain ⟨w₃, s₃, e₃, h₃, hs₃, he₃, hamount, hat₃, hdest₃⟩ := hw₂.requestsAll hs₂ he₂ hat hzero
    (by omega) (h₁₂.globalConfig.trans hc) (h₁₂.hasToken htoken) hb₂ hmint howner hto
    (by have := h₁₂.clock.2; omega)
  rw [ho₂] at h₃
  have h₁₃ := h₁₂.trans h₃
  have hw₃ := h₃.way.reached hw₂
  rw [havailable] at hamount
  -- And executed.
  have hb₃ : w₃.tokenAccounts destination = some b := by rw [h₁₃.tokenAccounts, hb]
  have hf₃ : w₃.tokenAccounts feeAccount = some f := by rw [h₁₃.tokenAccounts, hf]
  have hpresented : Presented env w₃ t p (slotKey env p) destination feeAccount c te e₃ :=
    ⟨h₁₃.globalConfig.trans hc, h₁₃.hasToken htoken, ⟨s₃, hs₃, he₃⟩, by
      rw [hat₃]
      exact hw₂.clock_pos.ne', rfl, hdest₃.symm, ⟨b, hb₃, hmint⟩, f, hf₃, hfm, hfo⟩
  have hth₃ : Unfrozen env w₃ t destination feeAccount c te e₃ := by
    have hfrozen : ∀ k, w₃.Frozen k ↔ w.Frozen k := fun k => by
      rw [World.Frozen, h₁₃.tokenAccounts, World.Frozen]
    rw [Unfrozen, hamount]
    exact ⟨fun h => mt (hfrozen _).mp (hth.vault h), fun h => mt (hfrozen _).mp (hth.destination h),
      fun h => mt (hfrozen _).mp (hth.feeAccount h)⟩
  obtain ⟨w', hstep⟩ := hw₃.execute hpresented (by rw [hat₃]; exact h₃.clock.1) hth₃
  obtain ⟨c', te', e', hpresented', -, -, hpaid⟩ := hw₃.execute_spec hstep
  obtain ⟨rfl, rfl, rfl⟩ := hpresented.unique hpresented'
  have hwithdrawing : (w₃.ledger env).withdrawing t p = (w.ledger env).claim t p := by
    rw [Ledger.withdrawing, World.ledger_slot, hs₃, Option.elim_some,
      ParticipantBucketSlot.balance_of_tokenEntry he₃, hamount]
  have hclaims : ∀ t' p', ((w'.ledger env).claim t' p' : Int) = (w.ledger env).claim t' p'
      + if t = t' ∧ p = p' then -((w.ledger env).claim t p : Int) else 0 := by
    intro t' p'
    have hflow : (w₃.ledger env).flow t' p' (.clear t p)
        = if t = t' ∧ p = p' then -((w.ledger env).claim t p : Int) else 0 := by
      rw [Ledger.flow]
      split_ifs with h
      · rw [← h.1, ← h.2, hwithdrawing]
      · rfl
    rw [hpaid.row.claim t' p', h₁₃.claims t' p', hflow]
  refine ⟨w', h₁₃.way.tail ⟨_, hstep, fun _ hk => absurd hk List.not_mem_nil⟩, ?_, ?_, ?_⟩
  · have := hclaims t p
    rw [if_pos ⟨rfl, rfl⟩] at this
    omega
  · intro t' p' hne
    have := hclaims t' p'
    rw [if_neg hne] at this
    omega
  · intro k
    have hholding : w₃.holding k = w.holding k := by
      rw [World.holding, h₁₃.tokenAccounts, World.holding]
    rw [hpaid.payment k, hholding, hamount]

/-- What the owners of a world can do about a plain token. -/
structure Recovery (env : Env) (w : World) : Prop where
  asks : ∀ t p q s l c T (n : U64), w.slot env p = some s → w.lane env t p q = some l →
    w.globalConfig = some c → c.effectiveChannelUnlockTimelockSeconds = .ok T →
    ((∃ w', Step env w (.askUnlock env t p q s.owner n) w') ↔
      0 < n.val ∧ n.val ≤ l.lockedBalance ∧ w.clock + T < 2 ^ 63)
  takes : ∀ t p q s l c T, w.slot env p = some s → w.lane env t p q = some l →
    w.globalConfig = some c → c.effectiveChannelUnlockTimelockSeconds = .ok T →
    ((∃ w', Step env w (.takeUnlock env t p q s.owner) w') ↔ 0 < l.pendingUnlockAmount ∧
      l.unlockRequestedAt + T ≤ w.clock ∧ l.unlockRequestedAt + T < 2 ^ 63)
  /-- Given an account for the token and one of the fee recipient's, neither of which is frozen, nor is the vault. -/
  leaves : ∀ t p s c te destination b feeAccount f, w.slot env p = some s → w.globalConfig = some c →
    w.HasToken t .plain te → w.tokenAccounts destination = some b → b.mint = te.mint →
    b.owner ≠ Pubkey.default → destination ≠ Pubkey.default →
    w.tokenAccounts feeAccount = some f → f.mint = te.mint → f.owner = c.feeRecipient →
    w.clock < 2 ^ 62 → Thawed env w t destination feeAccount ((w.ledger env).claim t p)
      (exitFee c.feeBps te.decimals ((w.ledger env).claim t p)) →
    ∃ w', Leaves env w w' t p s.owner destination feeAccount c te

/-- **The way out**: in every reached world the owner of a participant has a run of its own that ends with all it had a claim to in a plain token paid out, less one fee, whatever is locked in lanes or pending and whatever anybody did before, as long as nobody has frozen an account it is paid from or to. -/
theorem recovery_of_reached (hw : Reached env w) : Recovery env w where
  asks _ _ _ _ _ _ _ _ hs hl hc hT := hw.asksUnlock_iff hs hl hc hT
  takes _ _ _ _ _ _ _ hs hl hc hT := hw.takesUnlock_iff hs hl hc hT
  leaves _ _ _ _ _ _ _ _ _ hs hc htoken hb hmint howner hto hf hfm hfo hclock hth :=
    hw.leaves hs hc htoken hb hmint howner hto hf hfm hfo hclock hth

open Localnet in
/-- The first participant has thirty on their way out and forty in a lane, and gets all of it on its own. -/
theorem recovery_of_maturing : ∃ w w' c te, Reached localnet w ∧
    (w.slot localnet 0).map (fun s => (s.balance 1).withdrawingBalance) = some 30 ∧
    (w.lane localnet 1 0 1).map (·.lockedBalance) = some 40 ∧ w.globalConfig = some c ∧
    Leaves localnet w w' 1 0 (Localnet.key 10) (Localnet.key 70) (Localnet.key 80) c te := by
  obtain ⟨w, hw, hc⟩ := reached_of_runsTo localnet (opening ++ funding ++ maturing)
    (fun w => decide ((w.lane localnet 1 0 1).map (·.lockedBalance) = some 40) &&
      decide ((w.slot localnet 0).map (fun s => (s.balance 1).withdrawingBalance) = some 30) &&
      (w.slot localnet 0).any (fun s : ParticipantBucketSlot => decide (s.owner = Localnet.key 10)) &&
      w.tokenRegistry.any (fun r : TokenRegistry => (r.findToken 1).any (fun te : TokenEntry =>
        decide (te.mint = usd ∧ te.kind = .plain))) &&
      (w.tokenAccounts (Localnet.key 70)).any (fun b : TokenAccount =>
        decide (b.mint = usd ∧ b.owner = Localnet.key 10 ∧ b.frozen = false)) &&
      (w.tokenAccounts (Localnet.key 80)).any (fun b : TokenAccount =>
        decide (b.mint = usd ∧ b.owner = Localnet.key 2 ∧ b.frozen = false)) &&
      (w.tokenAccounts (vaultOf localnet 1)).any (fun b : TokenAccount => decide (b.frozen = false)) &&
      w.globalConfig.any (fun c : GlobalConfig => decide (c.feeRecipient = Localnet.key 2)) &&
      decide (w.clock < 2 ^ 62)) (by decide +kernel)
  simp only [Bool.and_eq_true, Option.any_eq_true, decide_eq_true_eq] at hc
  obtain ⟨⟨⟨⟨⟨⟨⟨⟨hlocked, hwithdrawing⟩, s, hs, howner⟩, r, hr, te, hte, hmint, hkind⟩,
    b, hb, hbm, hbo, hbf⟩, f, hf, hfm, hfo, hff⟩, v, hv, hvf⟩, c, hconfig, hrecipient⟩, hclock⟩ := hc
  obtain ⟨w', hleaves⟩ := (recovery_of_reached hw).leaves 1 0 s c te (Localnet.key 70) b (Localnet.key 80) f
    hs hconfig ⟨r, hr, hte, hkind⟩ hb (hbm.trans hmint.symm) (hbo ▸ by decide) (by decide) hf
    (hfm.trans hmint.symm) (hfo.trans hrecipient.symm) hclock
    ⟨fun _ => (not_frozen_iff hv).mpr hvf, fun _ => (not_frozen_iff hb).mpr hbf,
      fun _ => (not_frozen_iff hf).mpr hff⟩
  exact ⟨w, w', c, te, hw, hwithdrawing, hlocked, hconfig, howner ▸ hleaves⟩

end Ryvo
