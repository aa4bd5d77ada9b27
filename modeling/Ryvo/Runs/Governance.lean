import Ryvo.Runs.Deployment
import Ryvo.Machine.Localnet
import Ryvo.Support.Handover

/-!
# Runs — Governance

The two authorities, the config's and the registry's, and what they may change.  Each is a role that is handed over in two steps (`configHandsOver`, `registryHandsOver`).

* `ConfigChange`, `RegistryChange`: everything a step can do to the two accounts, and on whose signature.
* `handovers_of_history`: how either authority came to hold its role, along every run.
* `config_of_history`: the config stays within its bounds, and only its authority changes them.
-/

namespace Ryvo

variable {env : Env} {w w' : World} {a : Action} {c c' : GlobalConfig} {r r' : TokenRegistry}
variable {h : List (World × Action)} {owner k : Pubkey}

/-! ### The config -/

namespace UpdateConfig

/-- The values an update is given are admissible. -/
structure Admits (w : World) (remaining : List Pubkey) (newAuthority newFeeRecipient : Option Pubkey)
    (newFeeBps newFee : Option Nat) : Prop where
  authority : ∀ k ∈ newAuthority, k ≠ Pubkey.default
  recipient : ∀ k ∈ newFeeRecipient, k ≠ Pubkey.default ∧ remaining.head? = some k ∧
    w.systemOwned k = true
  feeBps : ∀ n ∈ newFeeBps, Initialize.validFeeBps n
  fee : ∀ n ∈ newFee, Initialize.validRegistrationFee n

/-- The config with the values that are given. -/
def updated (c : GlobalConfig) (newAuthority newFeeRecipient : Option Pubkey)
    (newFeeBps newFee : Option Nat) : GlobalConfig :=
  { c with
    pendingAuthority := newAuthority.getD c.pendingAuthority
    feeRecipient := newFeeRecipient.getD c.feeRecipient
    feeBps := newFeeBps.getD c.feeBps
    registrationFeeLamports := newFee.getD c.registrationFeeLamports }

variable {remaining : List Pubkey} {newAuthority newFeeRecipient : Option Pubkey}
variable {newFeeBps newFee : Option Nat}

theorem setPendingAuthority_eq_ok : setPendingAuthority c newAuthority = .ok c' ↔
    (∀ k ∈ newAuthority, k ≠ Pubkey.default) ∧
      c' = { c with pendingAuthority := newAuthority.getD c.pendingAuthority } := by
  cases newAuthority <;> simp [setPendingAuthority, eq_comm (a := c')]

theorem setFeeRecipient_eq_ok : setFeeRecipient w remaining c newFeeRecipient = .ok c' ↔
    (∀ k ∈ newFeeRecipient, k ≠ Pubkey.default ∧ remaining.head? = some k ∧ w.systemOwned k = true) ∧
      c' = { c with feeRecipient := newFeeRecipient.getD c.feeRecipient } := by
  cases newFeeRecipient with
  | none => simp [setFeeRecipient, eq_comm (a := c')]
  | some f =>
      simp only [setFeeRecipient, Except.bind_eq_ok, require_eq_ok, exists_const, okOr_eq_ok,
        Except.pure_eq_ok, Option.mem_some_iff, forall_eq', Option.getD_some]
      constructor
      · rintro ⟨hne, _, hhead, rfl, hsys, rfl⟩
        exact ⟨⟨hne, hhead, hsys⟩, rfl⟩
      · rintro ⟨⟨hne, hhead, hsys⟩, rfl⟩
        exact ⟨hne, f, hhead, rfl, hsys, rfl⟩

theorem setFeeBps_eq_ok : setFeeBps c newFeeBps = .ok c' ↔
    (∀ n ∈ newFeeBps, Initialize.validFeeBps n) ∧ c' = { c with feeBps := newFeeBps.getD c.feeBps } := by
  cases newFeeBps <;> simp [setFeeBps, eq_comm (a := c')]

theorem setRegistrationFee_eq_ok : setRegistrationFee c newFee = .ok c' ↔
    (∀ n ∈ newFee, Initialize.validRegistrationFee n) ∧
      c' = { c with registrationFeeLamports := newFee.getD c.registrationFeeLamports } := by
  cases newFee <;> simp [setRegistrationFee, eq_comm (a := c')]

/-- An update is the authority's, checks every value it is given, and writes all of them. -/
theorem handler_eq_ok :
    handler w owner remaining newAuthority newFeeRecipient newFeeBps newFee = .ok w' ↔
      ∃ c, w.globalConfig = some c ∧ c.authority = owner ∧
        Admits w remaining newAuthority newFeeRecipient newFeeBps newFee ∧
        w' = w.setGlobalConfig (updated c newAuthority newFeeRecipient newFeeBps newFee) := by
  simp only [handler, World.getGlobalConfig, Except.bind_eq_ok, okOr_eq_ok, require_eq_ok,
    exists_const, Except.pure_eq_ok, setPendingAuthority_eq_ok, setFeeRecipient_eq_ok, setFeeBps_eq_ok,
    setRegistrationFee_eq_ok]
  constructor
  · rintro ⟨c, hc, ho, _, ⟨h₁, rfl⟩, _, ⟨h₂, rfl⟩, _, ⟨h₃, rfl⟩, _, ⟨h₄, rfl⟩, rfl⟩
    exact ⟨c, hc, ho, ⟨h₁, h₂, h₃, h₄⟩, rfl⟩
  · rintro ⟨c, hc, ho, ⟨h₁, h₂, h₃, h₄⟩, rfl⟩
    exact ⟨c, hc, ho, _, ⟨h₁, rfl⟩, _, ⟨h₂, rfl⟩, _, ⟨h₃, rfl⟩, _, ⟨h₄, rfl⟩, rfl⟩

end UpdateConfig

/-- The nominee of a config that is created. -/
def Initialize.nominee (upgradeAuthority : Pubkey) (initialAuthority : Option Pubkey) : Pubkey :=
  if initialAuthority.getD upgradeAuthority = upgradeAuthority then Pubkey.default
  else initialAuthority.getD upgradeAuthority

/-- The instructions that write the terms of the config. -/
def Action.Configures : Action → Prop
  | .call (.initializeProgram ..) | .call (.updateConfig ..) | .call (.acceptConfigAuthority ..) => True
  | _ => False

/-- What a step does to the config. -/
inductive ConfigChange (env : Env) (w : World) :
    Action → Option GlobalConfig → Option GlobalConfig → Prop
  | kept {a : Action} {oc : Option GlobalConfig} : ¬ a.Configures → ConfigChange env w a oc oc
  | created {upgradeAuthority feeRecipient : Pubkey} {chainId feeBps : U16} {fee : U64}
      {initial : Option Pubkey} {T T' : Int} : env.upgradeAuthority = some upgradeAuthority →
      upgradeAuthority ≠ Pubkey.default → feeRecipient ≠ Pubkey.default →
      Initialize.validFeeBps feeBps.val → Initialize.validRegistrationFee fee.val →
      GlobalConfig.withdrawalTimelockForChainId chainId = .ok T →
      GlobalConfig.channelUnlockTimelockForChainId chainId = .ok T' →
      ConfigChange env w
        (.call (.initializeProgram upgradeAuthority feeRecipient chainId feeBps fee initial)) none
        (some ⟨upgradeAuthority, feeRecipient, feeBps.val, T, fee.val, 0, chainId,
          GlobalConfig.deriveMessageDomain env chainId, Initialize.nominee upgradeAuthority initial, T'⟩)
  | updated {c : GlobalConfig} {remaining : List Pubkey} {newAuthority newFeeRecipient : Option Pubkey}
      {newFeeBps : Option U16} {newFee : Option U64} : UpdateConfig.Admits w remaining newAuthority
        newFeeRecipient (newFeeBps.map (·.val)) (newFee.map (·.val)) →
      ConfigChange env w
        (.call (.updateConfig c.authority remaining newAuthority newFeeRecipient newFeeBps newFee))
        (some c) (some (UpdateConfig.updated c newAuthority newFeeRecipient (newFeeBps.map (·.val))
          (newFee.map (·.val))))
  | accepted {c : GlobalConfig} : c.pendingAuthority ≠ Pubkey.default →
      ConfigChange env w (.call (.acceptConfigAuthority c.pendingAuthority)) (some c)
        (some { c with authority := c.pendingAuthority, pendingAuthority := Pubkey.default })
  | joined {c : GlobalConfig} {owner fee : Pubkey} {id indexId : U32} :
      ConfigChange env w (.call (.initializeParticipant owner fee id indexId)) (some c)
        (some { c with nextParticipantId := Fin.ofNat _ (c.nextParticipantId.val + 1) })

theorem Reached.configChange (hw : Reached env w) (h : Step env w a w') :
    ConfigChange env w a w.globalConfig w'.globalConfig := by
  have same : ¬ a.Configures → w'.globalConfig = w.globalConfig →
      ConfigChange env w a w.globalConfig w'.globalConfig := fun ha hw => hw ▸ .kept ha
  by_cases hR : a.Admin
  · obtain ⟨-, h⟩ := h
    cases a with
    | outside o =>
        cases o with
        | tick seconds =>
            cases h
            exact same id rfl
        | _ => cases hR
    | call ix =>
        cases ix with
        | initializeProgram upgradeAuthority fee chainId bps registration initial =>
            change Initialize.handler env w upgradeAuthority fee chainId bps registration initial = _ at h
            simp only [Initialize.handler, Initialize.resolveBootstrapAuthorities, Except.bind_eq_ok,
              require_eq_ok, exists_const, Prod.exists, Except.pure_eq_ok, Prod.mk.injEq] at h
            obtain ⟨hn, -, hup, hbps, hfee, hreg, _, _, ⟨hne, -, rfl, rfl⟩, T, hT, T', hT', rfl⟩ := h
            rw [hn]
            exact .created hup hne hfee hbps hreg hT hT'
        | updateConfig =>
            obtain ⟨c, hc, rfl, hadmits, rfl⟩ := UpdateConfig.handler_eq_ok.mp h
            rw [hc]
            exact .updated hadmits
        | acceptConfigAuthority authority =>
            change UpdateConfig.acceptConfigAuthority w authority = _ at h
            simp only [UpdateConfig.acceptConfigAuthority, World.getGlobalConfig,
              GlobalConfig.hasPendingAuthority, bne_iff_ne, Except.bind_eq_ok, okOr_eq_ok,
              require_eq_ok, exists_const, Except.pure_eq_ok] at h
            obtain ⟨c, hc, hne, rfl, rfl⟩ := h
            rw [hc]
            exact .accepted hne
        | initializeParticipant =>
            obtain ⟨c, i, i', hj⟩ := InitializeParticipant.handler_spec hw.located h
            rw [hj.config, hj.frame]
            exact .joined
        | initializeTokenRegistry =>
            obtain ⟨r, -, -, rfl⟩ := TokenRegistry.initializeTokenRegistry_spec h
            exact same id rfl
        | updateRegistryAuthority =>
            obtain ⟨r, r', -, -, rfl⟩ := TokenRegistry.updateRegistryAuthority_spec h
            exact same id rfl
        | acceptRegistryAuthority =>
            obtain ⟨r, r', -, -, rfl⟩ := TokenRegistry.acceptRegistryAuthority_spec h
            exact same id rfl
        | registerToken =>
            obtain ⟨e, r, w₁, hreg, -, -, -, -, rfl⟩ := TokenRegistry.registerToken_spec h
            exact same id (by rw [hreg.frame]; rfl)
        | registerYieldBearingToken =>
            obtain ⟨s, e, r, w₁, hreg, -, -, -, rfl⟩ := RegisterYieldBearingToken.handler_spec h
            exact same id (by rw [hreg.frame]; rfl)
        | _ => cases hR
  · obtain ⟨ms, -, hd⟩ := hw.makes h
    refine same (fun ha => hR ?_) (Ops.adminKept hd.ops hR).config
    cases a with
    | outside o => cases ha
    | call ix => cases ix <;> first | exact ha | trivial

/-! ### The config's authority -/

def World.configRole (w : World) : Option (Role Pubkey) :=
  w.globalConfig.map fun c => ⟨c.authority, c.pendingAuthority⟩

def Action.configEvent : Action → Option (RoleEvent Pubkey)
  | .call (.initializeProgram upgradeAuthority _ _ _ _ initial) =>
      some (.found upgradeAuthority (Initialize.nominee upgradeAuthority initial))
  | .call (.updateConfig authority _ newAuthority _ _ _) => newAuthority.map (.nominate authority)
  | .call (.acceptConfigAuthority pendingAuthority) => some (.accept pendingAuthority)
  | _ => none

theorem Action.configEvent_of_not (ha : ¬ a.Configures) : a.configEvent = none := by
  cases a with
  | outside o => rfl
  | call ix => cases ix <;> first | rfl | exact absurd trivial ha

theorem configHandsOver (env : Env) : HandsOver Genesis (Step env) Pubkey.default World.configRole
    Action.configEvent where
  start := by
    rintro w ⟨clock, -, rfl⟩
    rfl
  kept w a w' hw hstep ha := by
    have hc := Reached.configChange hw hstep
    generalize hb : w.globalConfig = before at hc
    generalize hb' : w'.globalConfig = after at hc
    rw [World.configRole, World.configRole, hb, hb']
    cases hc with
    | kept _ => rfl
    | created => cases ha
    | @updated c _ newAuthority _ _ _ _ =>
        obtain rfl : newAuthority = none := by simpa [Action.configEvent] using ha
        rfl
    | accepted _ => cases ha
    | joined => rfl
  takes w a w' e hw hstep ha := by
    have hc := Reached.configChange hw hstep
    generalize hb : w.globalConfig = before at hc
    generalize hb' : w'.globalConfig = after at hc
    rw [World.configRole, World.configRole, hb, hb']
    cases hc with
    | kept hn =>
        rw [Action.configEvent_of_not hn] at ha
        cases ha
    | created _ hne _ _ _ _ _ =>
        obtain rfl := Option.some.inj ha
        exact .found hne
    | @updated c _ newAuthority _ _ _ hadmits =>
        obtain ⟨k, rfl, rfl⟩ := Option.map_eq_some_iff.mp ha
        exact .nominate (hadmits.authority k rfl)
    | accepted hne =>
        obtain rfl := Option.some.inj ha
        exact .accept hne
    | joined => cases ha

/-! ### The registry -/

namespace TokenRegistry

/-- An entry that may be entered next. -/
structure Enters (w : World) (r : TokenRegistry) (e : TokenEntry) : Prop where
  positive : 0 < e.id
  fresh : r.isTokenRegistered e.id = false
  mint : e.kind = .plain → r.isMintRegistered e.mint = false
  decimals : e.decimals ≤ maxTokenDecimals
  symbol : e.symbol.length = 8 ∧ checkSymbol e.symbol = .ok ()
  room : r.tokens.length + 1 ≤ maxTokens
  registeredAt : e.registeredAt = w.clock
  /-- As the mint says. -/
  minted : ∃ m, w.mints e.mint = some m ∧ e.decimals = m.decimals

end TokenRegistry

/-- Who signs for an entry into the registry. -/
def Action.Enters (authority : Pubkey) (e : TokenEntry) : Action → Prop
  | .call (.registerToken k mint tokenId _) =>
      k = authority ∧ mint = e.mint ∧ tokenId = e.id ∧ e.kind = .plain
  | .call (.registerYieldBearingToken k mint _ _ _ _ tokenId _ _) =>
      k = authority ∧ mint = e.mint ∧ tokenId = e.id ∧ e.kind = .yieldBearing
  | _ => False

/-- The instructions that open the registry or hand it over. -/
def Action.registryEvent : Action → Option (RoleEvent Pubkey)
  | .call (.initializeTokenRegistry authority) => some (.found authority Pubkey.default)
  | .call (.updateRegistryAuthority currentAuthority newAuthority) =>
      some (.nominate currentAuthority newAuthority)
  | .call (.acceptRegistryAuthority pendingAuthority) => some (.accept pendingAuthority)
  | _ => none

/-- What a step does to the registry. -/
inductive RegistryChange (w : World) : Action → Option TokenRegistry → Option TokenRegistry → Prop
  | kept {a : Action} {o : Option TokenRegistry} : a.registryEvent = none → RegistryChange w a o o
  | opened {c : GlobalConfig} : w.globalConfig = some c →
      RegistryChange w (.call (.initializeTokenRegistry c.authority)) none
        (some ⟨c.authority, [], Pubkey.default⟩)
  | nominated {r : TokenRegistry} {k : Pubkey} : k ≠ Pubkey.default →
      RegistryChange w (.call (.updateRegistryAuthority r.authority k)) (some r)
        (some { r with pendingAuthority := k })
  | accepted {r : TokenRegistry} : r.pendingAuthority ≠ Pubkey.default →
      RegistryChange w (.call (.acceptRegistryAuthority r.pendingAuthority)) (some r)
        (some { r with authority := r.pendingAuthority, pendingAuthority := Pubkey.default })
  | entered {a : Action} {r : TokenRegistry} {e : TokenEntry} : a.Enters r.authority e →
      TokenRegistry.Enters w r e → RegistryChange w a (some r) (some (r.push e))

theorem Reached.registryChange (hw : Reached env w) (h : Step env w a w') :
    RegistryChange w a w.tokenRegistry w'.tokenRegistry := by
  have same : a.registryEvent = none → w'.tokenRegistry = w.tokenRegistry →
      RegistryChange w a w.tokenRegistry w'.tokenRegistry := fun ha hw => hw ▸ .kept ha
  by_cases hR : a.Admin
  · obtain ⟨-, h⟩ := h
    cases a with
    | outside o =>
        cases o with
        | tick seconds =>
            cases h
            exact same rfl rfl
        | _ => cases hR
    | call ix =>
        cases ix with
        | initializeProgram =>
            obtain ⟨c, -, -, rfl⟩ := Initialize.handler_spec h
            exact same rfl rfl
        | updateConfig =>
            obtain ⟨c, c', -, -, rfl⟩ := UpdateConfig.handler_spec h
            exact same rfl rfl
        | acceptConfigAuthority =>
            obtain ⟨c, c', -, -, rfl⟩ := UpdateConfig.acceptConfigAuthority_spec h
            exact same rfl rfl
        | initializeParticipant =>
            obtain ⟨c, i, i', hj⟩ := InitializeParticipant.handler_spec hw.located h
            exact same rfl (by rw [hj.frame])
        | initializeTokenRegistry authority =>
            change TokenRegistry.initializeTokenRegistry w authority = _ at h
            simp only [TokenRegistry.initializeTokenRegistry, World.getGlobalConfig,
              Except.bind_eq_ok, okOr_eq_ok, require_eq_ok, exists_const, Except.pure_eq_ok] at h
            obtain ⟨hn, c, hc, rfl, rfl⟩ := h
            rw [hn]
            exact .opened hc
        | updateRegistryAuthority current new =>
            change TokenRegistry.updateRegistryAuthority w current new = _ at h
            simp only [TokenRegistry.updateRegistryAuthority, World.getTokenRegistry,
              Except.bind_eq_ok, okOr_eq_ok, require_eq_ok, exists_const, Except.pure_eq_ok] at h
            obtain ⟨r, hr, rfl, hne, rfl⟩ := h
            rw [hr]
            exact .nominated hne
        | acceptRegistryAuthority pending =>
            change TokenRegistry.acceptRegistryAuthority w pending = _ at h
            simp only [TokenRegistry.acceptRegistryAuthority, World.getTokenRegistry,
              TokenRegistry.hasPendingAuthority, bne_iff_ne, Except.bind_eq_ok, okOr_eq_ok,
              require_eq_ok, exists_const, Except.pure_eq_ok] at h
            obtain ⟨r, hr, hne, rfl, rfl⟩ := h
            rw [hr]
            exact .accepted hne
        | registerToken authority mint tokenId symbol =>
            change TokenRegistry.registerToken env w authority mint tokenId symbol.val = _ at h
            simp only [TokenRegistry.registerToken, World.getTokenRegistry, World.getGlobalConfig,
              World.getMint, Except.bind_eq_ok, okOr_eq_ok, require_eq_ok, exists_const,
              Except.pure_eq_ok] at h
            obtain ⟨r, hr, -, -, m, hm, w₁, hcreate, rfl, hpos, hfresh, hmint, hdec, _, hsym,
              hroom, rfl⟩ := h
            obtain rfl := (createTokenAccount_spec hcreate).2.2.2
            rw [hr]
            exact .entered ⟨rfl, rfl, rfl, rfl⟩ ⟨hpos, hfresh, fun _ => hmint, hdec,
              ⟨symbol.property, hsym⟩, hroom, rfl, m, hm, rfl⟩
        | registerYieldBearingToken authority mint program reserve share liquidity tokenId symbol bps =>
            change RegisterYieldBearingToken.handler env w authority mint program reserve share
              liquidity tokenId symbol.val bps.val = _ at h
            simp only [RegisterYieldBearingToken.handler, World.getTokenRegistry,
              World.getGlobalConfig, World.getMint, World.getReserve, World.getTokenAccount,
              Except.bind_eq_ok, okOr_eq_ok, require_eq_ok, exists_const, Except.pure_eq_ok] at h
            obtain ⟨r, hr, -, -, -, m, hm, -, -, -, -, w₁, hcreate, rfl, hpos, hfresh, _, hsym, hdec,
              -, -, -, -, -, hroom, rfl⟩ := h
            obtain rfl := (createTokenAccount_spec hcreate).2.2.2
            rw [hr]
            exact .entered ⟨rfl, rfl, rfl, rfl⟩ ⟨hpos, hfresh, fun hkind => TokenKind.noConfusion hkind, hdec,
              ⟨symbol.property, hsym⟩, hroom, rfl, m, hm, rfl⟩
        | _ => cases hR
  · obtain ⟨ms, -, hd⟩ := hw.makes h
    refine same ?_ (Ops.adminKept hd.ops hR).registry
    cases a with
    | outside o => rfl
    | call ix => cases ix <;> first | rfl | exact absurd trivial hR

/-! ### The registry's authority -/

def World.registryRole (w : World) : Option (Role Pubkey) :=
  w.tokenRegistry.map fun r => ⟨r.authority, r.pendingAuthority⟩

/-- The config's authority is somebody. -/
theorem Reached.authority_ne (hw : Reached env w) (hc : w.globalConfig = some c) :
    c.authority ≠ Pubkey.default := by
  obtain ⟨h, run⟩ := hw
  exact ((configHandsOver env).custody run (r := ⟨c.authority, c.pendingAuthority⟩)
    (by rw [World.configRole, hc]; rfl)).holder_ne

theorem Action.registryEvent_of_enters {e : TokenEntry} (ha : a.Enters k e) : a.registryEvent = none := by
  cases a with
  | outside o => rfl
  | call ix => cases ix <;> first | rfl | exact ha.elim

theorem registryHandsOver (env : Env) : HandsOver Genesis (Step env) Pubkey.default World.registryRole
    Action.registryEvent where
  start := by
    rintro w ⟨clock, -, rfl⟩
    rfl
  kept w a w' hw hstep ha := by
    have hc := Reached.registryChange hw hstep
    generalize hb : w.tokenRegistry = before at hc
    generalize hb' : w'.tokenRegistry = after at hc
    rw [World.registryRole, World.registryRole, hb, hb']
    cases hc with
    | kept _ => rfl
    | entered _ _ => rfl
    | opened _ => cases ha
    | nominated _ => cases ha
    | accepted _ => cases ha
  takes w a w' e hw hstep ha := by
    have hc := Reached.registryChange hw hstep
    generalize hb : w.tokenRegistry = before at hc
    generalize hb' : w'.tokenRegistry = after at hc
    rw [World.registryRole, World.registryRole, hb, hb']
    cases hc with
    | kept hn =>
        rw [hn] at ha
        cases ha
    | entered he _ =>
        rw [Action.registryEvent_of_enters he] at ha
        cases ha
    | opened hc =>
        obtain rfl := Option.some.inj ha
        exact .found (Reached.authority_ne hw hc)
    | nominated hne =>
        obtain rfl := Option.some.inj ha
        exact .nominate hne
    | accepted hne =>
        obtain rfl := Option.some.inj ha
        exact .accept hne

/-! ### Handovers -/

theorem Action.configEvent_signed {e : RoleEvent Pubkey} (ha : a.configEvent = some e) :
    e.actor ∈ a.signers := by
  cases a with
  | outside o => cases ha
  | call ix =>
      cases ix with
      | updateConfig authority _ newAuthority =>
          obtain ⟨k, -, rfl⟩ := Option.map_eq_some_iff.mp ha
          exact .head _
      | _ => cases ha <;> exact .head _

theorem Action.registryEvent_signed {e : RoleEvent Pubkey} (ha : a.registryEvent = some e) :
    e.actor ∈ a.signers := by
  cases a with
  | outside o => cases ha
  | call ix => cases ix <;> cases ha <;> exact .head _

/-- What a history says of an authority, and of the step that replaces it. -/
structure HandedOver (role : World → Option (Role Pubkey)) (event : Action → Option (RoleEvent Pubkey))
    (env : Env) (h : List (World × Action)) (w : World) : Prop where
  custody : ∀ r, role w = some r → Custody Pubkey.default event h r
  /-- The new authority signs, whom the old one had named in its last word on it. -/
  handover : ∀ a w' r r', Step env w a w' → role w = some r → role w' = some r' →
    r'.holder ≠ r.holder → event a = some (.accept r'.holder) ∧ r'.nominee = Pubkey.default ∧
      ∃ h₁ x h₂, h = h₁ ++ x :: h₂ ∧ RoleEvent.Names r.holder r'.holder (event x.2) ∧
        ∀ y ∈ h₁, event y.2 = none
  /-- Whatever is done is signed by whoever does it. -/
  signed : ∀ x ∈ h, ∀ e, event x.2 = some e → e.actor ∈ x.2.signers ∧ env.canSign e.actor = true
  /-- An authority is there for good, and installed once. -/
  stays : ∀ a w' r, Step env w a w' → role w = some r →
    (∃ r', role w' = some r') ∧ ∀ holder nominee, event a ≠ some (.found holder nominee)

/-- Everybody who had to sign a step of a history could. -/
theorem signed_of_history (run : History env h w) : ∀ x ∈ h, ∀ k ∈ x.2.signers, env.canSign k = true := by
  refine Run.history (P := fun h _ => ∀ x ∈ h, ∀ k ∈ x.2.signers, env.canSign k = true) ?_ ?_ run
  · simp
  · intro h w a w' _ ih hstep
    exact List.forall_mem_cons.mpr ⟨hstep.signed, ih⟩

theorem HandsOver.handedOver {role : World → Option (Role Pubkey)}
    {event : Action → Option (RoleEvent Pubkey)}
    (H : HandsOver Genesis (Step env) Pubkey.default role event)
    (hsigned : ∀ a e, event a = some e → e.actor ∈ a.signers) (run : History env h w) :
    HandedOver role event env h w where
  custody _ hr := H.custody run hr
  handover _ _ _ _ hstep hr hr' hne := H.handover run hstep hr hr' hne
  signed x hx _ he := ⟨hsigned _ _ he, signed_of_history run x hx _ (hsigned _ _ he)⟩
  stays _ _ _ hstep hr := H.stays run.reachable hstep hr

/-- **Authorities change hands in two steps**, along every run: the config's and the registry's authority are never the zero key, and each became one by founding the role or by accepting, with its own signature, what the authority before it had named last. -/
theorem handovers_of_history (run : History env h w) :
    HandedOver World.configRole Action.configEvent env h w ∧
      HandedOver World.registryRole Action.registryEvent env h w :=
  ⟨(configHandsOver env).handedOver (fun _ _ => Action.configEvent_signed) run,
    (registryHandsOver env).handedOver (fun _ _ => Action.registryEvent_signed) run⟩

open Localnet in
/-- Key 1 names key 3, which accepts. -/
theorem handovers_of_nomination : ∃ h w w', History localnet h w ∧
    Step localnet w (.call (.acceptConfigAuthority (Localnet.key 3))) w' ∧
    w'.configRole = some ⟨Localnet.key 3, Pubkey.default⟩ ∧
    ∃ h₁ x h₂, h = h₁ ++ x :: h₂ ∧
      RoleEvent.Names (Localnet.key 1) (Localnet.key 3) x.2.configEvent ∧ ∀ y ∈ h₁, y.2.configEvent = none := by
  obtain ⟨w, w', ⟨h, run⟩, hstep, hc⟩ := step_of_runsTo localnet
    (opening ++ [.call (.updateConfig (Localnet.key 1) [] (some (Localnet.key 3)) none none none)])
    (.call (.acceptConfigAuthority (Localnet.key 3)))
    (fun w w' => decide (w.globalConfig.map (fun c : GlobalConfig => (c.authority, c.pendingAuthority))
        = some (Localnet.key 1, Localnet.key 3)) &&
      decide (w'.globalConfig.map (fun c : GlobalConfig => (c.authority, c.pendingAuthority))
        = some (Localnet.key 3, Pubkey.default))) (by decide +kernel)
  simp only [Bool.and_eq_true, decide_eq_true_eq, Option.map_eq_some_iff, Prod.mk.injEq] at hc
  obtain ⟨⟨c, hc, ha, hp⟩, c', hc', ha', hp'⟩ := hc
  have hr : w.configRole = some ⟨Localnet.key 1, Localnet.key 3⟩ := by
    rw [World.configRole, hc, Option.map_some, ha, hp]
  have hr' : w'.configRole = some ⟨Localnet.key 3, Pubkey.default⟩ := by
    rw [World.configRole, hc', Option.map_some, ha', hp']
  obtain ⟨hconfig, -⟩ := handovers_of_history run
  obtain ⟨-, -, hnamed⟩ := hconfig.handover _ _ _ _ hstep hr hr' (by decide)
  exact ⟨h, w, w', run, hstep, hr', hnamed⟩

/-! ### The terms of the config -/

/-- The bounds of a config. -/
structure WithinBounds (env : Env) (c : GlobalConfig) : Prop where
  feeBps : Initialize.validFeeBps c.feeBps
  fee : Initialize.validRegistrationFee c.registrationFeeLamports
  recipient : c.feeRecipient ≠ Pubkey.default
  authority : c.authority ≠ Pubkey.default
  messageDomain : c.messageDomain = GlobalConfig.deriveMessageDomain env c.chainId
  withdrawalTimelock : GlobalConfig.withdrawalTimelockForChainId c.chainId
    = .ok c.withdrawalTimelockSeconds
  unlockTimelock : GlobalConfig.channelUnlockTimelockForChainId c.chainId
    = .ok c.channelUnlockTimelockSeconds

theorem WithinBounds.updated {remaining : List Pubkey} {newAuthority newFeeRecipient : Option Pubkey}
    {newFeeBps newFee : Option Nat} (hc : WithinBounds env c)
    (hadmits : UpdateConfig.Admits w remaining newAuthority newFeeRecipient newFeeBps newFee) :
    WithinBounds env (UpdateConfig.updated c newAuthority newFeeRecipient newFeeBps newFee) where
  feeBps := by
    cases newFeeBps with
    | none => exact hc.feeBps
    | some n => exact hadmits.feeBps n rfl
  fee := by
    cases newFee with
    | none => exact hc.fee
    | some n => exact hadmits.fee n rfl
  recipient := by
    cases newFeeRecipient with
    | none => exact hc.recipient
    | some k => exact (hadmits.recipient k rfl).1
  authority := hc.authority
  messageDomain := hc.messageDomain
  withdrawalTimelock := hc.withdrawalTimelock
  unlockTimelock := hc.unlockTimelock

/-- A config is within its bounds. -/
theorem Reached.withinBounds (hw : Reached env w) (hc : w.globalConfig = some c) : WithinBounds env c := by
  refine Reachable.invariant (P := fun w => ∀ c, w.globalConfig = some c → WithinBounds env c) ?_ ?_
    hw c hc
  · rintro w ⟨clock, -, rfl⟩ c hc
    cases hc
  · intro w a w' hw ih hstep c' hc'
    have hchange := Reached.configChange hw hstep
    rw [hc'] at hchange
    generalize hb : w.globalConfig = before at hchange
    cases hchange with
    | kept _ => exact ih c' hb
    | created _ hne hfee hbps hreg hT hT' => exact ⟨hbps, hreg, hfee, hne, rfl, hT, hT'⟩
    | updated hadmits => exact (ih _ hb).updated hadmits
    | accepted hne =>
        obtain ⟨h₁, h₂, h₃, -, h₅, h₆, h₇⟩ := ih _ hb
        exact ⟨h₁, h₂, h₃, hne, h₅, h₆, h₇⟩
    | joined =>
        obtain ⟨h₁, h₂, h₃, h₄, h₅, h₆, h₇⟩ := ih _ hb
        exact ⟨h₁, h₂, h₃, h₄, h₅, h₆, h₇⟩

/-- What a world says of its config, and of the step that changes it. -/
structure ConfigTerms (env : Env) (w : World) : Prop where
  bounds : ∀ c, w.globalConfig = some c → WithinBounds env c
  /-- Fees and their recipient are changed on the authority's signature. -/
  terms : ∀ a w' c c', Step env w a w' → w.globalConfig = some c → w'.globalConfig = some c' →
    (c'.feeBps, c'.feeRecipient, c'.registrationFeeLamports)
      ≠ (c.feeBps, c.feeRecipient, c.registrationFeeLamports) → c.authority ∈ a.signers
  /-- What the deployment was made with is never changed. -/
  fixed : ∀ a w' c c', Step env w a w' → w.globalConfig = some c → w'.globalConfig = some c' →
    c'.chainId = c.chainId ∧ c'.messageDomain = c.messageDomain ∧
      c'.withdrawalTimelockSeconds = c.withdrawalTimelockSeconds ∧
      c'.channelUnlockTimelockSeconds = c.channelUnlockTimelockSeconds
  /-- A config is made by whoever may upgrade the program. -/
  created : ∀ a w' c', Step env w a w' → w.globalConfig = none → w'.globalConfig = some c' →
    env.upgradeAuthority = some c'.authority ∧ c'.authority ∈ a.signers

/-- **The config's terms**: within their bounds in every reached world, changed by the authority alone, the deployment's constants by nobody. -/
theorem config_of_reached (hw : Reached env w) : ConfigTerms env w where
  bounds _ hc := hw.withinBounds hc
  terms a w' c c' hstep hc hc' hne := by
    have hchange := hw.configChange hstep
    rw [hc, hc'] at hchange
    cases hchange with
    | updated _ => exact .head _
    | _ => exact absurd rfl hne
  fixed a w' c c' hstep hc hc' := by
    have hchange := hw.configChange hstep
    rw [hc, hc'] at hchange
    cases hchange <;> exact ⟨rfl, rfl, rfl, rfl⟩
  created a w' c' hstep hc hc' := by
    have hchange := hw.configChange hstep
    rw [hc, hc'] at hchange
    cases hchange with
    | created hup _ _ _ _ _ _ => exact ⟨hup, .head _⟩

open Localnet in
/-- The authority lowers the fee to the least there is. -/
theorem config_of_update : ∃ w, Reached localnet w ∧
    (∃ c, w.globalConfig = some c ∧ c.feeBps = 3) ∧ ConfigTerms localnet w := by
  obtain ⟨w, hw, hc⟩ := reached_of_runsTo localnet
    (opening ++ [.call (.updateConfig (Localnet.key 1) [] none none (some 3) none)])
    (fun w => w.globalConfig.any fun c : GlobalConfig => decide (c.feeBps = 3)) (by decide +kernel)
  obtain ⟨c, hc, hfee⟩ := Option.any_eq_true _ _ |>.mp hc
  exact ⟨w, hw, ⟨c, hc, of_decide_eq_true hfee⟩, config_of_reached hw⟩

end Ryvo
