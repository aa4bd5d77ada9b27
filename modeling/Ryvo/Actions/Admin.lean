import Ryvo.Actions.Participants
import Ryvo.Actions.Vault
import Ryvo.Actions.Yield
import Ryvo.Machine.Program

/-!
# Actions — Admin

The instructions that make no move of the ledger: the config's, the registry's, and what happens outside the program.  Of the config only the message domain, the chain and the timelock are settled for good (`SameDeployment`); the registry only grows.
-/

namespace Ryvo

variable {env : Env} {R : Rights env} {w w' w₁ : World} {k owner mint : Pubkey} {t : U16} {n : Nat}

/-- The config is the admin's to write. -/
theorem Does.setGlobalConfig {c : GlobalConfig} (hl : Located env w) (hR : R.admin) :
    Does R [] w (w.setGlobalConfig c) :=
  .op (@Op.admin env R w w.clock _ w.tokenRegistry w.ownerIndexBuckets hR) ⟨rfl, rfl⟩ hl

/-- So is the registry. -/
theorem Does.setTokenRegistry {r : TokenRegistry} (hl : Located env w) (hR : R.admin) :
    Does R [] w (w.setTokenRegistry r) :=
  .op (@Op.admin env R w w.clock w.globalConfig _ w.ownerIndexBuckets hR) ⟨rfl, rfl⟩ hl

/-- Anybody may make a token account. -/
theorem Does.createTokenAccount (hl : Located env w)
    (h : w.createTokenAccount env k mint owner = .ok w') : Does R [] w w' := by
  refine .op (.createTokenAccount h) ?_ hl
  rw [(createTokenAccount_spec h).2.2.2]
  exact ⟨rfl, rfl⟩

/-- A transfer is its owner's. -/
theorem Does.transfer {source destination : Pubkey} (hl : Located env w) (hR : R.spends source owner)
    (h : w.tokenTransfer env source destination owner n = .ok w') : Does R [] w w' :=
  .op (.transfer hR h) (sameBuckets_transfer h) hl

/-! ### The config -/

/-- What a deployment keeps for good. -/
structure SameDeployment (c c' : GlobalConfig) : Prop where
  messageDomain : c'.messageDomain = c.messageDomain
  chainId : c'.chainId = c.chainId
  timelock : c'.channelUnlockTimelockSeconds = c.channelUnlockTimelockSeconds

/-- Nothing has to change. -/
theorem SameDeployment.refl (c : GlobalConfig) : SameDeployment c c := ⟨rfl, rfl, rfl⟩

/-- The timelock in force is one of these things. -/
theorem SameDeployment.effective {c c' : GlobalConfig} (h : SameDeployment c c') :
    c'.effectiveChannelUnlockTimelockSeconds = c.effectiveChannelUnlockTimelockSeconds := by
  rw [GlobalConfig.effectiveChannelUnlockTimelockSeconds, h.timelock, h.chainId,
    GlobalConfig.effectiveChannelUnlockTimelockSeconds]

namespace Initialize

/-- The config is created once, with nobody in it. -/
theorem handler_spec {feeRecipient : Pubkey} {chainId : U16} {fee : Nat} {initial : Option Pubkey}
    (h : handler env w owner feeRecipient chainId n fee initial = .ok w') :
    ∃ c, w.globalConfig = none ∧ c.nextParticipantId = 0 ∧ w' = w.setGlobalConfig c := by
  simp only [handler, Except.bind_eq_ok, require_eq_ok, exists_const, Prod.exists,
    Except.pure_eq_ok] at h
  obtain ⟨hn, -, -, -, -, -, a, pa, -, x, -, y, -, rfl⟩ := h
  exact ⟨_, hn, rfl, rfl⟩

end Initialize

namespace UpdateConfig

/-- A deployment's constants and the participant counter are not the authority's to change. -/
def Keeps (c c' : GlobalConfig) : Prop :=
  SameDeployment c c' ∧ c'.nextParticipantId = c.nextParticipantId

theorem Keeps.refl (c : GlobalConfig) : Keeps c c := ⟨.refl c, rfl⟩

theorem Keeps.trans {c c₁ c' : GlobalConfig} (h : Keeps c c₁) (h' : Keeps c₁ c') : Keeps c c' :=
  ⟨⟨h'.1.messageDomain.trans h.1.messageDomain, h'.1.chainId.trans h.1.chainId,
    h'.1.timelock.trans h.1.timelock⟩, h'.2.trans h.2⟩

variable {c c' : GlobalConfig} {remaining : List Pubkey}

/-- Nominating an authority keeps them. -/
theorem keeps_setPendingAuthority {a : Option Pubkey} (h : setPendingAuthority c a = .ok c') :
    Keeps c c' := by
  cases a with
  | none => cases h; exact .refl c
  | some a =>
      simp only [setPendingAuthority, Except.bind_eq_ok, require_eq_ok, exists_const,
        Except.pure_eq_ok] at h
      obtain ⟨-, rfl⟩ := h
      exact ⟨⟨rfl, rfl, rfl⟩, rfl⟩

/-- So does another fee recipient, -/
theorem keeps_setFeeRecipient {f : Option Pubkey} (h : setFeeRecipient w remaining c f = .ok c') :
    Keeps c c' := by
  cases f with
  | none => cases h; exact .refl c
  | some f =>
      simp only [setFeeRecipient, Except.bind_eq_ok, require_eq_ok, exists_const,
        Except.pure_eq_ok] at h
      obtain ⟨-, -, -, -, -, rfl⟩ := h
      exact ⟨⟨rfl, rfl, rfl⟩, rfl⟩

/-- another fee, -/
theorem keeps_setFeeBps {bps : Option Nat} (h : setFeeBps c bps = .ok c') : Keeps c c' := by
  cases bps with
  | none => cases h; exact .refl c
  | some bps =>
      simp only [setFeeBps, Except.bind_eq_ok, require_eq_ok, exists_const, Except.pure_eq_ok] at h
      obtain ⟨-, rfl⟩ := h
      exact ⟨⟨rfl, rfl, rfl⟩, rfl⟩

/-- and another registration fee. -/
theorem keeps_setRegistrationFee {fee : Option Nat} (h : setRegistrationFee c fee = .ok c') :
    Keeps c c' := by
  cases fee with
  | none => cases h; exact .refl c
  | some fee =>
      simp only [setRegistrationFee, Except.bind_eq_ok, require_eq_ok, exists_const,
        Except.pure_eq_ok] at h
      obtain ⟨-, rfl⟩ := h
      exact ⟨⟨rfl, rfl, rfl⟩, rfl⟩

/-- An update changes the config within those bounds, and nothing else. -/
theorem handler_spec {a f : Option Pubkey} {bps fee : Option Nat}
    (h : handler w owner remaining a f bps fee = .ok w') :
    ∃ c c', w.globalConfig = some c ∧ Keeps c c' ∧ w' = w.setGlobalConfig c' := by
  simp only [handler, World.getGlobalConfig, Except.bind_eq_ok, okOr_eq_ok, require_eq_ok,
    exists_const, Except.pure_eq_ok] at h
  obtain ⟨c, hc, -, c₁, h₁, c₂, h₂, c₃, h₃, c₄, h₄, rfl⟩ := h
  exact ⟨c, c₄, hc, (((keeps_setPendingAuthority h₁).trans (keeps_setFeeRecipient h₂)).trans
    (keeps_setFeeBps h₃)).trans (keeps_setRegistrationFee h₄), rfl⟩

/-- The nominee takes over, and nothing else changes. -/
theorem acceptConfigAuthority_spec (h : acceptConfigAuthority w owner = .ok w') :
    ∃ c c', w.globalConfig = some c ∧ Keeps c c' ∧ w' = w.setGlobalConfig c' := by
  simp only [acceptConfigAuthority, World.getGlobalConfig, Except.bind_eq_ok, okOr_eq_ok,
    require_eq_ok, exists_const, Except.pure_eq_ok] at h
  obtain ⟨c, hc, -, -, rfl⟩ := h
  refine ⟨c, _, hc, ?_, rfl⟩
  exact ⟨⟨rfl, rfl, rfl⟩, rfl⟩

end UpdateConfig

/-! ### The registry -/

namespace TokenRegistry

/-- The registry is created once, and empty. -/
theorem initializeTokenRegistry_spec (h : initializeTokenRegistry w owner = .ok w') :
    ∃ r : TokenRegistry, w.tokenRegistry = none ∧ r.tokens = [] ∧ w' = w.setTokenRegistry r := by
  simp only [initializeTokenRegistry, World.getGlobalConfig, Except.bind_eq_ok, okOr_eq_ok,
    require_eq_ok, exists_const, Except.pure_eq_ok] at h
  obtain ⟨hn, c, -, -, rfl⟩ := h
  exact ⟨_, hn, rfl, rfl⟩

/-- A nomination touches no token. -/
theorem updateRegistryAuthority_spec (h : updateRegistryAuthority w owner k = .ok w') :
    ∃ r r' : TokenRegistry, w.tokenRegistry = some r ∧ r'.tokens = r.tokens ∧
      w' = w.setTokenRegistry r' := by
  simp only [updateRegistryAuthority, World.getTokenRegistry, Except.bind_eq_ok, okOr_eq_ok,
    require_eq_ok, exists_const, Except.pure_eq_ok] at h
  obtain ⟨r, hr, -, -, rfl⟩ := h
  refine ⟨r, _, hr, ?_, rfl⟩
  rfl

/-- Neither does its acceptance. -/
theorem acceptRegistryAuthority_spec (h : acceptRegistryAuthority w owner = .ok w') :
    ∃ r r' : TokenRegistry, w.tokenRegistry = some r ∧ r'.tokens = r.tokens ∧
      w' = w.setTokenRegistry r' := by
  simp only [acceptRegistryAuthority, World.getTokenRegistry, Except.bind_eq_ok, okOr_eq_ok,
    require_eq_ok, exists_const, Except.pure_eq_ok] at h
  obtain ⟨r, hr, -, -, rfl⟩ := h
  refine ⟨r, _, hr, ?_, rfl⟩
  rfl

/-- A token enters the registry: its id was not in it, and the account created with it is the config's. -/
structure Registers (env : Env) (w : World) (e : TokenEntry) (seeds : Seeds) (mint : Pubkey)
    (r : TokenRegistry) (w₁ : World) : Prop where
  registry : w.tokenRegistry = some r
  fresh : r.isTokenRegistered e.id = false
  positive : 0 < e.id
  created : w.createTokenAccount env (env.address seeds) mint (env.address .globalConfig) = .ok w₁

/-- A plain token is entered with its vault, and no token had its mint. -/
theorem registerToken_spec {symbol : List UInt8} (h : registerToken env w owner mint t symbol = .ok w') :
    ∃ e r w₁, Registers env w e (.vaultTokenAccount t) mint r w₁ ∧ e.id = t ∧ e.mint = mint ∧
      e.kind = .plain ∧ r.isMintRegistered mint = false ∧ w' = w₁.setTokenRegistry (r.push e) := by
  simp only [registerToken, World.getTokenRegistry, World.getGlobalConfig, World.getMint,
    Except.bind_eq_ok, okOr_eq_ok, require_eq_ok, exists_const, Except.pure_eq_ok] at h
  obtain ⟨r, hr, c, -, m, -, w₁, hcreate, -, hpos, hfresh, hmint, -, _, -, -, rfl⟩ := h
  exact ⟨_, r, w₁, ⟨hr, hfresh, hpos, hcreate⟩, rfl, rfl, rfl, hmint, rfl⟩

end TokenRegistry

namespace RegisterYieldBearingToken

/-- A strategy as it is registered. -/
structure Fresh (env : Env) (w : World) (t : U16) (s : YieldStrategy) : Prop where
  free : w.yieldStrategies t = none
  tokenId : s.tokenId = t
  bps : s.protocolYieldShareBps ≤ maxProtocolYieldShareBps
  shareVault : s.shareVault = env.address (.yieldShareVault t)
  reserve : ∃ r, w.reserves s.reserve = some r ∧ r.underlyingMint = s.underlyingMint ∧
    r.shareMint = s.shareMint ∧ r.liquidityVault = s.liquidityVault
  index : s.userIndexQ64 = q64One
  settled : s.lastSettledUnderlying = 0
  shares : s.totalUserShares = 0
  owed : s.protocolOwedUnderlying = 0

/-- The protocol's share is capped. -/
theorem protocolYieldShare_le {bps : Nat} (h : protocolYieldShare n = .ok bps) :
    bps ≤ maxProtocolYieldShareBps := by
  simp only [protocolYieldShare, Except.bind_eq_ok, require_eq_ok, exists_const,
    Except.pure_eq_ok] at h
  obtain ⟨hle, rfl⟩ := h
  exact hle

/-- A yield-bearing token is entered with its share vault and a fresh strategy. -/
theorem handler_spec {yieldProgram reserve shareMint liquidityVault : Pubkey} {symbol : List UInt8}
    (h : handler env w owner mint yieldProgram reserve shareMint liquidityVault t symbol n = .ok w') :
    ∃ s e r w₁, TokenRegistry.Registers env w e (.yieldShareVault t) s.shareMint r w₁ ∧ e.id = t ∧
      e.kind = .yieldBearing ∧ Fresh env w t s ∧
      w' = (w₁.setTokenRegistry (r.push e)).setYieldStrategy t s := by
  simp only [handler, World.getTokenRegistry, World.getGlobalConfig, World.getMint, World.getReserve,
    World.getTokenAccount, Except.bind_eq_ok, okOr_eq_ok, require_eq_ok, exists_const,
    Except.pure_eq_ok] at h
  obtain ⟨reg, hreg, c, -, hfree, m, -, r, hr, v, -, w₁, hcreate, -, hpos, hfresh, _, -, -, bps, hbps,
    hu, hs, hlv, -, rfl⟩ := h
  exact ⟨_, _, reg, w₁, ⟨hreg, hfresh, hpos, hcreate⟩, rfl, rfl,
    ⟨hfree, rfl, protocolYieldShare_le hbps, rfl, ⟨r, hr, hu, hs, hlv⟩, rfl, rfl, rfl, rfl⟩, rfl⟩

end RegisterYieldBearingToken

/-! ### Outside the program -/

namespace Outside

/-- Whoever can sign may act outside the program. -/
theorem does {o : Outside} (hl : Located env w) (hR : ∀ k x, env.canSign x = true → R.spends k x)
    (hadmin : (∃ seconds, o = .tick seconds) → R.admin) (hs : ∀ k ∈ o.signers, env.canSign k = true)
    (h : o.run env w = .ok w') : Does R [] w w' := by
  cases o with
  | tick seconds =>
      cases h
      exact .op (.admin (hadmin ⟨seconds, rfl⟩)) ⟨rfl, rfl⟩ hl
  | transfer source destination authority amount =>
      exact .transfer hl (hR _ _ (hs _ (by simp [signers]))) h
  | mintTo mint destination authority amount =>
      refine .op (.mintTo (hR _ _ (hs _ (by simp [signers]))) h) ?_ hl
      rw [(tokenMintTo_spec h).2.1]
      exact ⟨rfl, rfl⟩
  | burn mint source authority amount =>
      refine .op (.burn (hR _ _ (hs _ (by simp [signers]))) h) ?_ hl
      rw [(tokenBurn_spec h).2.1]
      exact ⟨rfl, rfl⟩
  | freezeAccount account mint authority | thawAccount account mint authority =>
      refine .op (.toggleFreeze h) ?_ hl
      obtain ⟨a, -, rfl⟩ := tokenToggleFreeze_spec h
      exact ⟨rfl, rfl⟩
  | closeAccount account authority =>
      refine .op (.close (hs _ (by simp [signers])) h) ?_ hl
      obtain ⟨a, -, -, -, rfl⟩ := tokenClose_spec h
      exact ⟨rfl, rfl⟩
  | createMint mint authority freezeAuthority decimals =>
      refine .op (.createMint h) ?_ hl
      rw [(createMint_spec h).2.2]
      exact ⟨rfl, rfl⟩
  | createTokenAccount account mint owner => exact .createTokenAccount hl h
  | initializeReserve underlyingMint authority apyBps =>
      obtain ⟨m, w₁, w₂, r, -, hn, hm, ha, ⟨rfl, hsm, hlv, -⟩, rfl⟩ :=
        Lending.initializeReserve_spec h
      obtain ⟨-, -, hw₁⟩ := createMint_spec hm
      have h₁ : Does R [] w w₁ := .op (.createMint hm) (by rw [hw₁]; exact ⟨rfl, rfl⟩) hl
      have h₂ : Does R [] w₁ w₂ := .createTokenAccount h₁.located ha
      obtain ⟨-, -, -, hw₂⟩ := createTokenAccount_spec ha
      have hmint : w₂.mints r.shareMint
          = some ⟨0, m.decimals, env.lendingAddress (.reserve r.underlyingMint), none⟩ := by
        rw [hw₂, hw₁, hsm]
        exact Function.update_self _ _ _
      have hnone : w₂.reserves (env.lendingAddress (.reserve r.underlyingMint)) = none := by
        rw [hw₂, hw₁]
        exact hn
      exact (h₁.trans h₂).trans
        (.op (.newReserve hnone hsm hlv hmint rfl rfl) sameBuckets_setReserve h₂.located)
  | accrueReserve reserve shareMint =>
      simp only [run, Except.bind_eq_ok, Prod.exists, Except.pure_eq_ok] at h
      obtain ⟨w₁, T, S, h, rfl⟩ := h
      obtain ⟨r, r', m, hr, -, -, hr', rfl, -, -⟩ := Lending.accrue_spec h
      exact .op (@Op.setReserve env R w r r' reserve r'.apyBps hr hr') sameBuckets_setReserve hl
  | updateApyBps reserve authority newApyBps =>
      obtain ⟨r, r', hr, hr', rfl⟩ := Lending.updateApyBps_spec h
      exact .op (.setReserve hr hr') sameBuckets_setReserve hl
  | depositReserveLiquidity reserve underlyingMint source shares depositor amount =>
      exact .op (.deposit (hR _ _ (hs _ (by simp [signers]))) h) (sameBuckets_deposit h) hl
  | redeemReserveCollateral reserve underlyingMint shares destination authority burned =>
      exact .op (.redeem (hR _ _ (hs _ (by simp [signers]))) h) (sameBuckets_redeem h) hl

end Outside

end Ryvo
