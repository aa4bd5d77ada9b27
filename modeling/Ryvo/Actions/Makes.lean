import Ryvo.Actions.Admin
import Ryvo.Actions.Settlements

/-!
# Actions — What an action makes

The inventory: every action, the moves of the ledger it makes, and on whose authority it makes them.  `Action.rights` says what else it may touch.

* `Step.makes`: a step makes moves the inventory lists, within its rights.
* `Reached.located`, `Reached.paired`: so every reached world has its buckets in place and a slot for each party of each lane.
-/

namespace Ryvo

variable {env : Env} {w w' : World} {a : Action} {ms : List Move}

/-! ### Rights -/

/-- The accounts an instruction takes from in the config's name. -/
def Instruction.Pays (env : Env) (w : World) (k : Pubkey) : Instruction → Prop
  | .executeWithdrawalTimelocked _ _ _ t _ => k = vaultOf env t
  | .executeWithdrawalYieldBearing _ _ _ t _ => ∃ s, w.yieldStrategies t = some s ∧ k = s.shareVault
  | .claimProtocolYieldFee _ _ t _ => ∃ s, w.yieldStrategies t = some s ∧ k = s.shareVault
  | .optInYield _ _ _ u _ _ => k = vaultOf env u
  | .optOutYield _ _ _ t _ _ => ∃ s, w.yieldStrategies t = some s ∧ k = s.shareVault
  | _ => False

/-- The token whose strategy an instruction writes. -/
def Instruction.strategy : Instruction → Option U16
  | .registerYieldBearingToken _ _ _ _ _ _ t _ _ => some t
  | .accrueYield t => some t
  | .depositYieldBearing _ _ _ _ t _ => some t
  | .executeWithdrawalYieldBearing _ _ _ t _ => some t
  | .claimProtocolYieldFee _ _ t _ => some t
  | .optInYield _ _ _ _ t _ => some t
  | .optOutYield _ _ _ t _ _ => some t
  | _ => none

/-- The instructions that write the config, the registry or the owner index. -/
def Instruction.Admin : Instruction → Prop
  | .initializeProgram .. | .updateConfig .. | .acceptConfigAuthority .. | .initializeParticipant ..
  | .initializeTokenRegistry .. | .registerToken .. | .updateRegistryAuthority ..
  | .acceptRegistryAuthority .. | .registerYieldBearingToken .. => True
  | _ => False

namespace Action

def Pays (env : Env) (w : World) (k : Pubkey) : Action → Prop
  | call ix => ix.Pays env w k
  | outside _ => False

def strategy : Action → Option U16
  | call ix => ix.strategy
  | outside _ => none

def Admin : Action → Prop
  | call ix => ix.Admin
  | outside (.tick _) => True
  | outside _ => False

/-- Anybody's own authority, and the config's over the accounts the instruction pays from. -/
def rights (env : Env) (w : World) (a : Action) : Rights env where
  spends k x := env.canSign x = true ∨ x = env.address .globalConfig ∧ a.Pays env w k
  strategy t := a.strategy = some t
  admin := a.Admin
  noLending _ l h := by
    rcases h with h | ⟨h, -⟩
    · exact Env.canSign_ne_lending h l rfl
    · exact env.lending_ne_address l _ h

end Action

/-! ### Moves -/

/-- The owner's entry in the owner index is `p`. -/
def World.IsOwner (env : Env) (w : World) (owner : Pubkey) (p : U32) : Prop :=
  ∃ k, w.participantIdForOwner env k owner = .ok p

/-- A matured withdrawal of `p`, to its own destination. -/
def World.Withdraws (env : Env) (w : World) (t : U16) (p : U32) (destination : Pubkey) : Prop :=
  ∃ s e, w.slot env p = some s ∧ s.tokenEntry t = some e ∧ Matured w e destination

/-- The moves each action makes in a world. -/
inductive Makes (env : Env) (w : World) : Action → List Move → Prop
  | nothing {a : Action} : Makes env w a []
  | join {owner fee : Pubkey} {id indexId : U32} {c : GlobalConfig} {w' : World}
      {index index' : OwnerIndexBucket} :
      InitializeParticipant.Joined env w owner c index index' w' →
      Makes env w (.call (.initializeParticipant owner fee id indexId))
        [.join c.nextParticipantId owner]
  | blsKey {owner k k' : Pubkey} {key : Bytes 96} {pop : Bytes 48} {p : U32}
      {s : ParticipantBucketSlot} : w.IsOwner env owner p →
      Makes env w (.call (.registerParticipantBlsKey owner k k' key pop)) [.profile p s]
  | policy {owner k k' : Pubkey} {policy : U8} {p : U32} {s : ParticipantBucketSlot} :
      w.IsOwner env owner p →
      Makes env w (.call (.updateInboundChannelPolicy owner k k' policy)) [.profile p s]
  | deposit {owner k k' source : Pubkey} {t : U16} {n : U64} {p : U32} {e : TokenEntry} :
      w.IsOwner env owner p → w.HasToken t .plain e →
      Makes env w (.call (.deposit owner k k' source t n)) [.credit t p n.val]
  | depositFor {funder source : Pubkey} {remaining : List Pubkey} {t : U16} {ids : List U32}
      {amounts : List U64} {e : TokenEntry} {ms : List Move} :
      ms = DepositFor.credits t (ids.zip (amounts.map (·.val))) → w.HasToken t .plain e →
      Makes env w (.call (.depositFor funder source remaining t ids amounts)) ms
  | request {owner k k' d destination : Pubkey} {t : U16} {n : U64} {p : U32} {unlockAt : Int} :
      w.IsOwner env owner p →
      Makes env w (.call (.requestWithdrawal owner k k' d t n destination))
        [.request t p n.val destination unlockAt]
  | requestYield {owner k k' d destination : Pubkey} {t : U16} {n : U64} {p : U32} {unlockAt : Int} :
      w.IsOwner env owner p →
      Makes env w (.call (.requestWithdrawalYieldBearing owner k k' d t n destination))
        [.request t p n.val destination unlockAt]
  | cancel {owner k k' : Pubkey} {t : U16} {p : U32} : w.IsOwner env owner p →
      Makes env w (.call (.cancelWithdrawal owner k k' t)) [.cancel t p]
  | execute {k destination fee : Pubkey} {t : U16} {p : U32} {e : TokenEntry} :
      w.Withdraws env t p destination → w.HasToken t .plain e →
      Makes env w (.call (.executeWithdrawalTimelocked k destination fee t p)) [.clear t p]
  | executeYield {k destination fee : Pubkey} {t : U16} {p : U32} {e : TokenEntry} :
      w.Withdraws env t p destination → w.HasToken t .yieldBearing e →
      Makes env w (.call (.executeWithdrawalYieldBearing k destination fee t p)) [.clear t p]
  | openLane {owner k k₁ k₂ : Pubkey} {payeeOwner signer : Option Pubkey} {t : U16}
      {lower higher : U32} {id : U64} {p q : U32} {s : ParticipantBucketSlot} : w.Registered t →
      w.IsOwner env owner p → w.slot env p = some s →
      Makes env w (.call (.createChannel owner k k₁ k₂ payeeOwner t lower higher id signer))
        [.openLane t p q (signer.getD s.owner)]
  | lock {owner k k₁ k₂ : Pubkey} {t : U16} {p q : U32} {n : U64} : 0 < n.val → w.Registered t →
      w.IsOwner env owner p →
      Makes env w (.call (.lockChannelFunds owner k k₁ k₂ t q n)) [.lock t p q n.val]
  | requestUnlock {owner k k₁ : Pubkey} {t : U16} {p q : U32} {n : U64} : 0 < n.val →
      w.IsOwner env owner p → Makes env w (.call (.requestUnlockChannelFunds owner k k₁ t q n))
        [.requestUnlock t p q n.val w.clock]
  | executeUnlock {owner k k₁ k₂ : Pubkey} {t : U16} {p q : U32} {c : GlobalConfig} {T : Int}
      {l : DirectionalLaneState} : w.IsOwner env owner p → w.globalConfig = some c →
      c.effectiveChannelUnlockTimelockSeconds = .ok T → w.lane env t p q = some l →
      l.unlockRequestedAt + T ≤ w.clock →
      Makes env w (.call (.executeUnlockChannelFunds owner k k₁ k₂ t q)) [.executeUnlock t p q]
  | cooperativeUnlock {owner payeeOwner k k₁ k₂ k₃ : Pubkey} {t : U16} {p q : U32} {n : U64}
      {s : ParticipantBucketSlot} : 0 < n.val → w.IsOwner env owner p → w.slot env q = some s →
      s.owner = payeeOwner →
      Makes env w (.call (.cooperativeUnlockChannelFunds owner payeeOwner k k₁ k₂ k₃ t q n))
        [.cooperativeUnlock t p q n.val]
  | requestSigner {owner k k₁ newSigner : Pubkey} {t : U16} {p q : U32} : w.IsOwner env owner p →
      Makes env w (.call (.requestUpdateChannelAuthorizedSigner owner k k₁ t q newSigner))
        [.requestSigner t p q newSigner w.clock]
  | executeSigner {owner k k₁ : Pubkey} {t : U16} {p q : U32} {c : GlobalConfig} {T : Int}
      {l : DirectionalLaneState} : w.IsOwner env owner p → w.globalConfig = some c →
      c.effectiveChannelUnlockTimelockSeconds = .ok T → w.lane env t p q = some l →
      l.authorizedSignerUpdateRequestedAt + T ≤ w.clock →
      Makes env w (.call (.executeUpdateChannelAuthorizedSigner owner k k₁ t q))
        [.executeSigner t p q]
  | settleIndividual {submitter : Pubkey} {sysvar : InstructionsSysvar} {remaining : List Pubkey}
      {parsed : ParsedCommitmentMessage} : SettleIndividual.Settled env w submitter sysvar parsed →
      Makes env w (.call (.settleIndividual submitter sysvar remaining))
        [.settle parsed.tokenId [parsed.entry]]
  | settleBundle {submitter : Pubkey} {sysvar : InstructionsSysvar} {remaining : List Pubkey}
      {count : U8} {t : U16} {q : U32}
      {cs : List SettleCommitmentBundle.ParsedBundleCommitment} :
      SettleCommitmentBundle.Settled env w submitter sysvar count.val t q cs →
      Makes env w (.call (.settleCommitmentBundle submitter sysvar remaining count))
        [.settle t (SettleCommitmentBundle.entries cs)]
  | settleRound {submitter : Pubkey} {sysvar : InstructionsSysvar} {remaining : List Pubkey}
      {message : List UInt8} {signature : Bytes 48} {layout : ParsedClearingRoundLayout}
      {es : List LaneEntry} : SettleClearingRound.Settled env w message signature layout es →
      Makes env w (.call (.settleClearingRound submitter sysvar remaining message signature))
        [.settle layout.tokenId es]
  | depositYield {owner k k' source : Pubkey} {t : U16} {n : U64} {p : U32} {shares : Nat}
      {e : TokenEntry} : w.IsOwner env owner p → w.HasToken t .yieldBearing e →
      Makes env w (.call (.depositYieldBearing owner k k' source t n)) [.credit t p shares]
  | optIn {owner k k' : Pubkey} {u t : U16} {n : U64} {p : U32} {shares : Nat}
      {s : YieldStrategy} : w.IsOwner env owner p → OptTokens env w u t s →
      Makes env w (.call (.optInYield owner k k' u t n)) [.debit u p n.val, .credit t p shares]
  | optOut {owner k k' : Pubkey} {u t : U16} {n : U64} {p : U32} {received : Nat}
      {s : YieldStrategy} : w.IsOwner env owner p → OptTokens env w u t s →
      Makes env w (.call (.optOutYield owner k k' t u n)) [.debit t p n.val, .credit u p received]

/-- Moves of one slot's balances. -/
def Move.OnBalance : Move → Prop
  | .credit .. | .debit .. => True
  | _ => False

theorem DepositFor.onBalance {t : U16} {recipients : List (U32 × Nat)}
    (h : ms = DepositFor.credits t recipients) : ∀ m ∈ ms, m.OnBalance := by
  subst h
  intro m hm
  obtain ⟨r, -, rfl⟩ := List.mem_map.mp hm
  trivial

/-! ### Steps -/

theorem InitializeParticipant.Joined.does {R : Rights env} {owner : Pubkey} {c : GlobalConfig}
    {index index' : OwnerIndexBucket}
    (h : InitializeParticipant.Joined env w owner c index index' w') (hR : R.admin) :
    Does R [.join c.nextParticipantId owner] w w' := by
  refine ⟨h.located, ?_, Ledger.takesAll_singleton.mpr h.takes⟩
  have hb : BucketsOnly w { w with participantBuckets := w'.participantBuckets } := rfl
  refine Relation.ReflTransGen.trans (.single (.books hb)) ?_
  have ha := @Op.admin env R { w with participantBuckets := w'.participantBuckets } w.clock
    w'.globalConfig w.tokenRegistry w'.ownerIndexBuckets hR
  refine .single ?_
  convert ha using 1
  rw [h.frame]

/-- A token program account, the registry and at most one strategy are written. -/
theorem TokenRegistry.Registers.does {R : Rights env} {e : TokenEntry} {seeds : Seeds} {mint : Pubkey}
    {r r' : TokenRegistry} {w₁ : World} (h : TokenRegistry.Registers env w e seeds mint r w₁)
    (hl : Located env w) (hR : R.admin) : Does R [] w (w₁.setTokenRegistry r') := by
  have h₁ : Does R [] w w₁ := .createTokenAccount hl h.created
  exact h₁.trans (.setTokenRegistry h₁.located hR)

/-- **The inventory is complete.** A step makes moves it lists, within the action's rights. -/
theorem Step.makes (h : Step env w a w') (hl : Located env w) (hL : (w.ledger env).Paired) :
    ∃ ms, Makes env w a ms ∧ Does (a.rights env w) ms w w' := by
  obtain ⟨hs, h⟩ := h
  have signed : ∀ k x, x ∈ a.signers → (a.rights env w).spends k x := fun k x hx => .inl (hs x hx)
  have pays : ∀ k, a.Pays env w k → (a.rights env w).spends k (env.address .globalConfig) :=
    fun k hk => .inr ⟨rfl, hk⟩
  have admin : a.Admin → (a.rights env w).admin := id
  -- Actions that make no move.
  have quiet : Does (a.rights env w) [] w w' → ∃ ms, Makes env w a ms ∧ Does (a.rights env w) ms w w' :=
    fun hd => ⟨[], .nothing, hd⟩
  have writes : ∀ {c : GlobalConfig}, a.Admin → w' = w.setGlobalConfig c →
      ∃ ms, Makes env w a ms ∧ Does (a.rights env w) ms w w' := by
    rintro c ha rfl
    exact quiet (.setGlobalConfig hl ha)
  have registers : ∀ {r : TokenRegistry}, a.Admin → w' = w.setTokenRegistry r →
      ∃ ms, Makes env w a ms ∧ Does (a.rights env w) ms w w' := by
    rintro r ha rfl
    exact quiet (.setTokenRegistry hl ha)
  cases a with
  | outside o =>
      refine ⟨[], .nothing, Outside.does hl (fun _ _ => .inl) ?_ hs h⟩
      rintro ⟨seconds, rfl⟩
      trivial
  | call ix =>
  cases ix with
  | initializeProgram =>
      obtain ⟨c, -, -, hw⟩ := Initialize.handler_spec h
      exact writes trivial hw
  | updateConfig =>
      obtain ⟨c, c', -, -, hw⟩ := UpdateConfig.handler_spec h
      exact writes trivial hw
  | acceptConfigAuthority =>
      obtain ⟨c, c', -, -, hw⟩ := UpdateConfig.acceptConfigAuthority_spec h
      exact writes trivial hw
  | initializeTokenRegistry =>
      obtain ⟨r, -, -, hw⟩ := TokenRegistry.initializeTokenRegistry_spec h
      exact registers trivial hw
  | updateRegistryAuthority =>
      obtain ⟨r, r', -, -, hw⟩ := TokenRegistry.updateRegistryAuthority_spec h
      exact registers trivial hw
  | acceptRegistryAuthority =>
      obtain ⟨r, r', -, -, hw⟩ := TokenRegistry.acceptRegistryAuthority_spec h
      exact registers trivial hw
  | registerToken =>
      obtain ⟨e, r, w₁, hreg, -, -, -, -, rfl⟩ := TokenRegistry.registerToken_spec h
      exact quiet (hreg.does hl (admin trivial))
  | registerYieldBearingToken =>
      obtain ⟨s, e, r, w₁, hreg, -, -, -, rfl⟩ := RegisterYieldBearingToken.handler_spec h
      have hd : Does _ [] w (w₁.setTokenRegistry (r.push e)) := hreg.does hl (admin trivial)
      exact quiet (hd.trans (.strategy hd.located rfl))
  | initializeParticipant =>
      obtain ⟨c, index, index', hj⟩ := InitializeParticipant.handler_spec hl h
      exact ⟨_, .join hj, hj.does trivial⟩
  | registerParticipantBlsKey =>
      obtain ⟨p, s, hp, hd⟩ := RegisterParticipantBlsKey.handler_spec hl h
      exact ⟨_, .blsKey ⟨_, hp⟩, hd⟩
  | updateInboundChannelPolicy =>
      obtain ⟨p, s, hp, hd⟩ := UpdateInboundChannelPolicy.handler_spec hl h
      exact ⟨_, .policy ⟨_, hp⟩, hd⟩
  | deposit =>
      obtain ⟨p, e, v, w₁, hp, he, -, ht, hd⟩ := Deposit.handler_spec hl h
      exact ⟨_, .deposit ⟨_, hp⟩ he,
        (Does.transfer hl (signed _ _ (.head _)) ht).trans hd⟩
  | depositFor =>
      obtain ⟨e, v, w₁, he, -, ht, hd⟩ := DepositFor.handler_spec hl h
      exact ⟨_, .depositFor rfl he,
        (Does.transfer hl (signed _ _ (.head _)) ht).trans hd⟩
  | requestWithdrawal =>
      obtain ⟨p, unlockAt, hp, hd⟩ := RequestWithdrawal.handler_spec hl h
      exact ⟨_, .request ⟨_, hp⟩, hd⟩
  | requestWithdrawalYieldBearing =>
      obtain ⟨p, unlockAt, hp, hd⟩ := RequestWithdrawalYieldBearing.handler_spec hl h
      exact ⟨_, .requestYield ⟨_, hp⟩, hd⟩
  | cancelWithdrawal =>
      obtain ⟨p, hp, hd⟩ := CancelWithdrawal.handler_spec hl h
      exact ⟨_, .cancel ⟨_, hp⟩, hd⟩
  | executeWithdrawalTimelocked =>
      obtain ⟨s, e, w₁, hs, he, hm, ⟨te, ht⟩, hops, hsame, -, hd⟩ :=
        ExecuteWithdrawalTimelocked.handler_spec hl (pays _ rfl) h
      have h₁ : Does _ [] w w₁ := ⟨hsame.located hl, hops, hsame.ledger⟩
      exact ⟨_, .execute ⟨s, e, hs, he, hm⟩ ht, h₁.trans (hd _)⟩
  | executeWithdrawalYieldBearing =>
      obtain ⟨e, s, s₁, s₂, r, r', m, a, w₂, w₃, hm⟩ :=
        ExecuteWithdrawalYieldBearing.handler_spec hl h
      obtain ⟨sl, hsl, he⟩ := hm.row
      obtain ⟨te, hte⟩ := hm.strategy.token
      exact ⟨_, .executeYield ⟨sl, e, hsl, he, hm.matured⟩ hte,
        hm.does hl rfl (pays _ ⟨s, hm.strategy.found, rfl⟩)⟩
  | createChannel =>
      obtain ⟨p, q, s, hreg, hp, hs, hd⟩ := CreateChannel.handler_spec hl h
      exact ⟨_, .openLane hreg ⟨_, hp⟩ hs, hd⟩
  | lockChannelFunds =>
      obtain ⟨p, hn, hreg, hp, hd⟩ := LockChannelFunds.handler_spec hl h
      exact ⟨_, .lock hn hreg ⟨_, hp⟩, hd⟩
  | requestUnlockChannelFunds =>
      obtain ⟨p, hn, hp, hd⟩ := RequestUnlockChannelFunds.handler_spec hl h
      exact ⟨_, .requestUnlock hn ⟨_, hp⟩, hd⟩
  | executeUnlockChannelFunds =>
      obtain ⟨p, c, T, l, hp, hc, hT, hlane, hle, hd⟩ := ExecuteUnlockChannelFunds.handler_spec hl hL h
      exact ⟨_, .executeUnlock ⟨_, hp⟩ hc hT hlane hle, hd⟩
  | cooperativeUnlockChannelFunds =>
      obtain ⟨p, s, hn, -, hp, hq, ho, hd⟩ := CooperativeUnlockChannelFunds.handler_spec hl h
      exact ⟨_, .cooperativeUnlock hn ⟨_, hp⟩ hq ho, hd⟩
  | requestUpdateChannelAuthorizedSigner =>
      obtain ⟨p, hp, hd⟩ := RequestUpdateChannelAuthorizedSigner.handler_spec hl h
      exact ⟨_, .requestSigner ⟨_, hp⟩, hd⟩
  | executeUpdateChannelAuthorizedSigner =>
      obtain ⟨p, c, T, l, hp, hc, hT, hlane, hle, hd⟩ :=
        ExecuteUpdateChannelAuthorizedSigner.handler_spec hl h
      exact ⟨_, .executeSigner ⟨_, hp⟩ hc hT hlane hle, hd⟩
  | settleIndividual =>
      obtain ⟨parsed, hset, hd⟩ := SettleIndividual.handler_spec hl h
      exact ⟨_, .settleIndividual hset, hd⟩
  | settleCommitmentBundle =>
      obtain ⟨t, q, cs, hset, hd⟩ := SettleCommitmentBundle.handler_spec hl h
      exact ⟨_, .settleBundle hset, hd⟩
  | settleClearingRound =>
      obtain ⟨layout, es, hset, hd⟩ := SettleClearingRound.handler_spec hl h
      exact ⟨_, .settleRound hset, hd⟩
  | accrueYield =>
      obtain ⟨s, s₁, r, r', m, a, hm⟩ := AccrueYield.handler_spec h
      exact quiet (hm.does hl rfl)
  | depositYieldBearing =>
      obtain ⟨p, k, s, s₁, s₂, r, r', m, a, w₂, w₃, hm⟩ := DepositYieldBearing.handler_spec hl h
      obtain ⟨te, hte⟩ := hm.strategy.token
      exact ⟨_, .depositYield ⟨_, hm.signer⟩ hte,
        hm.does hl rfl (signed _ _ (.head _))⟩
  | claimProtocolYieldFee =>
      obtain ⟨k, s, s₁, s₂, r, r', m, a, w₂, hm⟩ := ClaimProtocolYieldFee.handler_spec h
      exact quiet (hm.does hl rfl (pays _ ⟨s, hm.found, rfl⟩))
  | optInYield =>
      obtain ⟨p, k, s, s₁, s₂, r, r', m, a, w₂, w₃, w₄, hm⟩ := OptInYield.handler_spec hl h
      exact ⟨_, .optIn ⟨_, hm.signer⟩ hm.tokens, hm.does hl rfl (pays _ rfl)⟩
  | optOutYield =>
      obtain ⟨p, b, x, s, s₁, s₂, r, r', m, a, w₂, w₃, w₄, hm⟩ := OptOutYield.handler_spec hl h
      exact ⟨_, .optOut ⟨_, hm.signer⟩ hm.tokens,
        hm.does hl rfl (pays _ ⟨s, hm.tokens.strategy.found, rfl⟩)⟩

/-! ### Reached worlds -/

theorem Ledger.TakesAll.paired {L L' : Ledger} (h : L.TakesAll ms L') (hL : L.Paired) : L'.Paired := by
  induction ms generalizing L with
  | nil =>
      obtain rfl := h
      exact hL
  | cons m ms ih =>
      obtain ⟨L₁, hm, h⟩ := h
      exact ih h (hm.paired hL)

theorem located_genesis {clock : Int} : Located env (.genesis clock) where
  participants k b h := by cases h
  channels k b h := by cases h
  places k b i h := by cases h
  blank k b off h := by cases h

theorem lane_genesis {clock : Int} {t : U16} {p q : U32} :
    (World.genesis clock).lane env t p q = none := by
  rw [Option.eq_none_iff_forall_not_mem]
  intro l hl
  obtain ⟨k, b, -, hb, -⟩ := lane_eq_some.mp hl
  cases hb

/-- Buckets are in place and lanes have parties throughout. -/
theorem Reached.books (h : Reached env w) : Located env w ∧ (w.ledger env).Paired := by
  refine Reachable.invariant (P := fun w => Located env w ∧ (w.ledger env).Paired) ?_ ?_ h
  · rintro w ⟨clock, -, rfl⟩
    refine ⟨located_genesis, fun t p q hl => ?_⟩
    rw [World.ledger_lane, lane_genesis] at hl
    cases hl
  · rintro w a w' - ⟨hl, hL⟩ h
    obtain ⟨ms, -, hd⟩ := h.makes hl hL
    exact ⟨hd.located, hd.takes.paired hL⟩

theorem Reached.located (h : Reached env w) : Located env w := h.books.1

theorem Reached.paired (h : Reached env w) : (w.ledger env).Paired := h.books.2

/-- From a reached world. -/
theorem Reached.makes (hw : Reached env w) (h : Step env w a w') :
    ∃ ms, Makes env w a ms ∧ Does (a.rights env w) ms w w' := h.makes hw.located hw.paired

end Ryvo
