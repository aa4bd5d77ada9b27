import Ryvo.Messages.ClearingRoundCodec
import Ryvo.Runs.Lanes

/-!
# Runs — Clearing rounds

What an accepted clearing round changes.  `RoundEffect` is written out field by field; it speaks of the entries of the round, not of its blocks, so what a round does is settled by its entries in any order.

* `Ledger.Settles.roundEffect`: a settlement of entries between members of the roster has exactly this effect.
* `exactRounds_of_reached`: so has every round accepted in a reachable state, and two rounds of the same entries end alike.
-/

namespace Ryvo

variable {env : Env} {w w' : World} {t : U16} {p q : U32} {es : List LaneEntry}
variable {roster : List U32} {L L' : Ledger}

/-- What a round of the entries `es` in token `t` does among the participants of `roster`. -/
structure RoundEffect (L L' : Ledger) (t : U16) (roster : List U32) (es : List LaneEntry) : Prop where
  members : ∀ e ∈ es, e.payer ∈ roster ∧ e.payee ∈ roster
  distinct : (es.map LaneEntry.lane).Nodup
  /-- Each lane that is named is raised to its target, its collateral first. -/
  lanes : ∀ e ∈ es, ∃ l, L.lane t e.payer e.payee = some l ∧ l.settledCumulative < e.target ∧
    L'.lane t e.payer e.payee = some { l with
      settledCumulative := e.target
      lockedBalance := l.lockedBalance - L.used t e
      pendingUnlockAmount := min l.pendingUnlockAmount (l.lockedBalance - L.used t e)
      unlockRequestedAt := if min l.pendingUnlockAmount (l.lockedBalance - L.used t e) = 0 then 0
        else l.unlockRequestedAt }
  /-- Each balance moves by what is paid to the participant, less what its lanes' collateral does not pay for it. -/
  balances : ∀ p ∈ roster, ∃ s s', L.slot p = some s ∧ L'.slot p = some s' ∧
    ((s'.balance t).availableBalance + (s'.balance t).withdrawingBalance : Int)
      = (s.balance t).availableBalance + (s.balance t).withdrawingBalance
        + ((es.map fun e => if e.payee = p then L.delta t e else 0).sum : Nat)
        - ((es.map fun e => if e.payer = p then L.delta t e - L.used t e else 0).sum : Nat) ∧
    (s'.balance t).withdrawingBalance ≤ (s.balance t).withdrawingBalance ∧
    ((s'.balance t).withdrawingBalance < (s.balance t).withdrawingBalance →
      (s'.balance t).availableBalance = 0) ∧
    (s'.balance t).withdrawalUnlockAt = (s.balance t).withdrawalUnlockAt ∧
    (s'.balance t).withdrawalDestination = (s.balance t).withdrawalDestination ∧
    ParticipantBucketSlot.SameProfile s s' ∧ ∀ t', t' ≠ t → s'.tokenEntry t' = s.tokenEntry t'
  otherLanes : ∀ t' p q, ¬ (t' = t ∧ (p, q) ∈ es.map LaneEntry.lane) →
    L'.lane t' p q = L.lane t' p q
  otherSlots : ∀ p, p ∉ roster → L'.slot p = L.slot p

theorem Ledger.Settles.roundEffect (h : L.Settles t es L')
    (hm : ∀ e ∈ es, e.payer ∈ roster ∧ e.payee ∈ roster) (hk : ∀ p ∈ roster, (L.slot p).isSome) :
    RoundEffect L L' t roster es where
  members := hm
  distinct := h.nodup
  lanes e he := by
    obtain ⟨l, hl, hlt, hl'⟩ := h.lanes e he
    refine ⟨l, hl, hlt, ?_⟩
    rw [hl', Ledger.used_of_lane hl]
    rfl
  balances p hp := by
    obtain ⟨s, hs⟩ := Option.isSome_iff_exists.mp (hk p hp)
    obtain ⟨s', hs', hd⟩ := h.slots p s hs
    have ha := ParticipantBucketSlot.appliedDelta hd
    have htotal := ha.total
    simp only [BucketTokenBalance.total, Ledger.net, Ledger.paidTo, Ledger.uncoveredBy, keyed] at htotal
    refine ⟨s, s', hs, hs', ?_, ha.withdrawing_le, ha.drained, ha.unlockAt, ha.destination,
      ha.profile, ha.other⟩
    push_cast at htotal ⊢
    linarith
  otherLanes := h.otherLanes
  otherSlots p hp := by
    have hnet : L.net t es p = 0 :=
      Ledger.net_eq_zero fun e he =>
        ⟨fun h => hp (h ▸ (hm e he).1), fun h => hp (h ▸ (hm e he).2)⟩
    cases hs : L.slot p with
    | none => exact h.noSlot p hs
    | some s =>
        obtain ⟨s', hs', hd⟩ := h.slots p s hs
        rw [hnet] at hd
        rw [hs', ← Except.ok.inj hd]

/-- A message that is accepted as a round with this layout and these entries, with whatever accounts and signature. -/
def Clears (env : Env) (w : World) (layout : ParsedClearingRoundLayout) (es : List LaneEntry)
    (w' : World) : Prop :=
  ∃ submitter sysvar remaining message signature c,
    Step env w (.call (.settleClearingRound submitter sysvar remaining message signature)) w' ∧
    w.globalConfig = some c ∧ layout.entries = .ok es ∧
    parseClearingRoundLayoutWithVersion message c Bls.clearingRoundMessageVersion = .ok layout

/-- What accepted rounds do in a world. -/
structure ExactRounds (env : Env) (w : World) : Prop where
  parsed : ∀ submitter sysvar remaining message signature w',
    Step env w (.call (.settleClearingRound submitter sysvar remaining message signature)) w' →
      ∃ c layout es, w.globalConfig = some c ∧ layout.entries = .ok es ∧
        parseClearingRoundLayoutWithVersion message c Bls.clearingRoundMessageVersion = .ok layout
  effect : ∀ layout es w', Clears env w layout es w' →
    RoundEffect (w.ledger env) (w'.ledger env) layout.tokenId layout.roster es
  /-- Blocks, and entries within them, may come in any order. -/
  unordered : ∀ layout layout' es es' w₁ w₂, Clears env w layout es w₁ →
    Clears env w layout' es' w₂ → layout'.tokenId = layout.tokenId → es'.Perm es →
      w₂.ledger env = w₁.ledger env

theorem Reached.clears (hw : Reached env w) {submitter : Pubkey} {sysvar : InstructionsSysvar}
    {remaining : List Pubkey} {message : List UInt8} {signature : Bytes 48}
    (h : Step env w (.call (.settleClearingRound submitter sysvar remaining message signature)) w') :
    ∃ c layout es, w.globalConfig = some c ∧ layout.entries = .ok es ∧
      parseClearingRoundLayoutWithVersion message c Bls.clearingRoundMessageVersion = .ok layout ∧
      (∀ p ∈ layout.roster, (w.slot env p).isSome) ∧
      (w.ledger env).Settles layout.tokenId es (w'.ledger env) := by
  obtain ⟨layout, es, hset, hd⟩ := SettleClearingRound.handler_spec
    (R := Action.rights env w (.outside (.tick 0))) hw.located h.ran
  obtain ⟨c, hc, hparse⟩ := hset.read
  refine ⟨c, layout, es, hc, hset.entries, hparse, fun p hp => ?_,
    Ledger.takesAll_singleton.mp hd.takes⟩
  obtain ⟨s, hs, -⟩ := hset.known p hp
  simp [hs]

theorem Clears.settles (hw : Reached env w) {layout : ParsedClearingRoundLayout}
    (h : Clears env w layout es w') : layout.entries = .ok es ∧
      (∀ p ∈ layout.roster, (w.slot env p).isSome) ∧
      (w.ledger env).Settles layout.tokenId es (w'.ledger env) := by
  obtain ⟨submitter, sysvar, remaining, message, signature, c, hstep, hc, hes, hparse⟩ := h
  obtain ⟨c', layout', es', hc', hes', hparse', hknown, hset⟩ := hw.clears hstep
  obtain rfl := Option.some.inj (hc.symm.trans hc')
  obtain rfl := Except.ok.inj (hparse.symm.trans hparse')
  obtain rfl := Except.ok.inj (hes.symm.trans hes')
  exact ⟨hes, hknown, hset⟩

/-- **A clearing round does exactly what its entries say**, in whatever order they come. -/
theorem exactRounds_of_reached (hw : Reached env w) : ExactRounds env w where
  parsed submitter sysvar remaining message signature w' h := by
    obtain ⟨c, layout, es, hc, hes, hparse, -, -⟩ := hw.clears h
    exact ⟨c, layout, es, hc, hes, hparse⟩
  effect layout es w' h := by
    obtain ⟨hes, hknown, hset⟩ := h.settles hw
    exact hset.roundEffect (SettleClearingRound.entries_roster hes) hknown
  unordered layout layout' es es' w₁ w₂ h₁ h₂ ht hp := by
    obtain ⟨-, -, hset₁⟩ := h₁.settles hw
    obtain ⟨-, -, hset₂⟩ := h₂.settles hw
    exact hset₂.unique (ht ▸ hset₁) hp

namespace Localnet

/-- The chain with curve operations that accept every signature. -/
def lenient : Env :=
  { localnet with curve := ⟨some, some, fun _ p => some p, fun _ p => some p,
    fun _ _ => some Bls.gtIdentityBe⟩ }

/-- Participant 0 registers a key. -/
def keyRegistration : Action :=
  .call (.registerParticipantBlsKey (key 10) indexBucket bucket ⟨List.replicate 96 0, by decide⟩
    ⟨List.replicate 48 0, by decide⟩)

/-- Participant 0 pays participant 1 so much of token 1, cumulatively; participant 1 pays nothing. -/
def clearing (amount : U64) : Action :=
  .call (.settleClearingRound (key 11) ⟨[(lenient.programId, [])], 0⟩ [bucket, channels 1]
    (buildClearingRoundMessageBytes Bls.clearingRoundMessageVersion
      (GlobalConfig.deriveMessageDomain lenient GlobalConfig.localnetChainId) 1
      [⟨0, [(1, amount)]⟩, ⟨1, []⟩]) ⟨List.replicate 48 0, by decide⟩)

end Localnet

open Localnet in
/-- Of the sixty paid, the lane's collateral pays forty. -/
theorem exactRounds_of_round : ∃ w w', Step lenient w (clearing 60) w' ∧
    (w'.ledger lenient).available 1 0 = 10 ∧ ExactRounds lenient w := by
  obtain ⟨w, w', hw, hstep, hc⟩ := step_of_runsTo lenient (opening ++ funding ++ [keyRegistration])
    (clearing 60) (fun _ w' => (w'.ledger lenient).available 1 0 = 10) (by decide +kernel)
  exact ⟨w, w', hstep, of_decide_eq_true hc, exactRounds_of_reached hw⟩

end Ryvo
