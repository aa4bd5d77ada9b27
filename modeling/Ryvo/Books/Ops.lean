import Mathlib.Logic.Relation
import Ryvo.Books.Lending
import Ryvo.Settlement.Lanes

/-!
# Books — Operations

What every action is made of: token and lending instructions, writes to buckets and writes to strategies.  `Rights` says on which accounts an action exercises whose authority; `Op` is one operation within them, `Ops` any number.

* `Persists`: mints, reserves and the accounts nobody can close stay, with what identifies them.
* `Op.minted`, `Op.reserves`: the invariants of the two programs.
* `Op.holding_le`: an account nobody in `Rights` may take from does not lose.
-/

namespace Ryvo

variable {env : Env} {w w' w₁ : World} {k ρ mint : Pubkey} {a : TokenAccount} {m : Mint} {r : Reserve}

/-- On which accounts and mints an action exercises whose authority, which strategies it writes, and whether it writes the singleton accounts, the owner index or the clock.  Nobody exercises the lending program's authority. -/
structure Rights (env : Env) where
  spends : Pubkey → Pubkey → Prop
  strategy : U16 → Prop
  admin : Prop
  noLending : ∀ k l, ¬ spends k (env.lendingAddress l)

inductive Op (R : Rights env) : World → World → Prop
  | transfer {w w' : World} {source destination authority : Pubkey} {amount : Nat} :
      R.spends source authority → w.tokenTransfer env source destination authority amount = .ok w' →
      Op R w w'
  | mintTo {w w' : World} {mint destination authority : Pubkey} {amount : Nat} :
      R.spends mint authority → w.tokenMintTo env mint destination authority amount = .ok w' → Op R w w'
  | burn {w w' : World} {mint source authority : Pubkey} {amount : Nat} :
      R.spends source authority → w.tokenBurn env mint source authority amount = .ok w' → Op R w w'
  | toggleFreeze {w w' : World} {freeze : Bool} {account mint authority : Pubkey} :
      w.tokenToggleFreeze env freeze account mint authority = .ok w' → Op R w w'
  | close {w w' : World} {account authority : Pubkey} : env.canSign authority = true →
      w.tokenClose env account authority = .ok w' → Op R w w'
  | createMint {w w' : World} {k authority : Pubkey} {freezeAuthority : Option Pubkey}
      {decimals : Nat} :
      w.createMint env k authority freezeAuthority decimals = .ok w' → Op R w w'
  | createTokenAccount {w w' : World} {k mint owner : Pubkey} :
      w.createTokenAccount env k mint owner = .ok w' → Op R w w'
  | setReserve {w : World} {r r' : Reserve} {ρ : Pubkey} {apyBps : Nat} : w.reserves ρ = some r →
      Lending.accrueInner r w.clock = .ok r' → Op R w (w.setReserve ρ { r' with apyBps })
  | newReserve {w : World} {r : Reserve} {m : Mint} :
      w.reserves (env.lendingAddress (.reserve r.underlyingMint)) = none →
      r.shareMint = env.lendingAddress (.shareMint r.underlyingMint) →
      r.liquidityVault = env.lendingAddress (.liquidityVault r.underlyingMint) →
      w.mints r.shareMint = some m → m.supply = 0 →
      m.mintAuthority = env.lendingAddress (.reserve r.underlyingMint) →
      Op R w (w.setReserve (env.lendingAddress (.reserve r.underlyingMint)) r)
  | deposit {w w' : World} {reserve underlyingMint source shares owner : Pubkey} {amount : Nat} :
      R.spends source owner → Lending.depositReserveLiquidity env w reserve underlyingMint source
        shares owner amount = .ok w' → Op R w w'
  | redeem {w w' : World} {reserve underlyingMint shares destination owner : Pubkey} {burned : Nat} :
      R.spends shares owner → Lending.redeemReserveCollateral env w reserve underlyingMint shares
        destination owner burned = .ok w' → Op R w w'
  | books {w w' : World} : BucketsOnly w w' → Op R w w'
  | admin {w : World} {clock : Int} {config : Option GlobalConfig} {registry : Option TokenRegistry}
      {index : Pubkey → Option OwnerIndexBucket} : R.admin → Op R w { w with
        clock, globalConfig := config, tokenRegistry := registry, ownerIndexBuckets := index }
  | strategy {w : World} {t : U16} {s : YieldStrategy} : R.strategy t →
      Op R w (w.setYieldStrategy t s)

abbrev Ops (R : Rights env) : World → World → Prop := Relation.ReflTransGen (Op R)

variable {R : Rights env}

/-! ### What stays -/

/-- The clock, the two singleton accounts and the owner index are as they were. -/
structure AdminKept (w w' : World) : Prop where
  clock : w'.clock = w.clock
  config : w'.globalConfig = w.globalConfig
  registry : w'.tokenRegistry = w.tokenRegistry
  index : w'.ownerIndexBuckets = w.ownerIndexBuckets

theorem AdminKept.refl (w : World) : AdminKept w w := ⟨rfl, rfl, rfl, rfl⟩

theorem AdminKept.trans (h : AdminKept w w₁) (h' : AdminKept w₁ w') : AdminKept w w' :=
  ⟨h'.clock.trans h.clock, h'.config.trans h.config, h'.registry.trans h.registry,
    h'.index.trans h.index⟩

theorem Op.adminKept (h : Op R w w') (hR : ¬ R.admin) : AdminKept w w' := by
  cases h with
  | transfer _ h => rw [(tokenTransfer_spec h).2.1]; exact ⟨rfl, rfl, rfl, rfl⟩
  | mintTo _ h => rw [(tokenMintTo_spec h).2.1]; exact ⟨rfl, rfl, rfl, rfl⟩
  | burn _ h => rw [(tokenBurn_spec h).2.1]; exact ⟨rfl, rfl, rfl, rfl⟩
  | toggleFreeze h => obtain ⟨a, -, rfl⟩ := tokenToggleFreeze_spec h; exact ⟨rfl, rfl, rfl, rfl⟩
  | close _ h => obtain ⟨a, -, -, -, rfl⟩ := tokenClose_spec h; exact ⟨rfl, rfl, rfl, rfl⟩
  | createMint h => rw [(createMint_spec h).2.2]; exact ⟨rfl, rfl, rfl, rfl⟩
  | createTokenAccount h => rw [(createTokenAccount_spec h).2.2.2]; exact ⟨rfl, rfl, rfl, rfl⟩
  | deposit _ h =>
      obtain ⟨r, m, n, hd⟩ := Lending.deposit_spec h
      rw [hd.frame]; exact ⟨rfl, rfl, rfl, rfl⟩
  | redeem _ h =>
      obtain ⟨r, m, n, hd⟩ := Lending.redeem_spec h
      rw [hd.frame]; exact ⟨rfl, rfl, rfl, rfl⟩
  | books h => rw [h]; exact ⟨rfl, rfl, rfl, rfl⟩
  | admin h => exact absurd h hR
  | _ => exact ⟨rfl, rfl, rfl, rfl⟩

theorem Ops.adminKept (h : Ops R w w') (hR : ¬ R.admin) : AdminKept w w' := by
  induction h with
  | refl => exact .refl _
  | tail _ h ih => exact ih.trans (h.adminKept hR)

/-- A strategy that no right covers is not written. -/
theorem Op.strategy_eq (h : Op R w w') {t : U16} (ht : ¬ R.strategy t) :
    w'.yieldStrategies t = w.yieldStrategies t := by
  cases h with
  | transfer _ h => rw [(tokenTransfer_spec h).2.1]
  | mintTo _ h => rw [(tokenMintTo_spec h).2.1]
  | burn _ h => rw [(tokenBurn_spec h).2.1]
  | toggleFreeze h => obtain ⟨a, -, rfl⟩ := tokenToggleFreeze_spec h; rfl
  | close _ h => obtain ⟨a, -, -, -, rfl⟩ := tokenClose_spec h; rfl
  | createMint h => rw [(createMint_spec h).2.2]; rfl
  | createTokenAccount h => rw [(createTokenAccount_spec h).2.2.2]; rfl
  | setReserve _ _ => rfl
  | newReserve _ _ _ _ _ _ => rfl
  | deposit _ h =>
      obtain ⟨r, m, n, hd⟩ := Lending.deposit_spec h
      rw [hd.frame]
  | redeem _ h =>
      obtain ⟨r, m, n, hd⟩ := Lending.redeem_spec h
      rw [hd.frame]
  | books h => rw [h]
  | admin _ => rfl
  | strategy h =>
      refine Function.update_of_ne ?_ _ _
      rintro rfl
      exact ht h

theorem Ops.strategy_eq (h : Ops R w w') {t : U16} (ht : ¬ R.strategy t) :
    w'.yieldStrategies t = w.yieldStrategies t := by
  induction h with
  | refl => rfl
  | tail _ h ih => exact (h.strategy_eq ht).trans ih

/-- Mints, reserves and the accounts nobody can close stay, with what identifies them. -/
structure Persists (env : Env) (w w' : World) : Prop where
  account : ∀ k a, w.tokenAccounts k = some a → env.canSign a.owner = false → ∃ n f,
    w'.tokenAccounts k = some { a with amount := n, frozen := f }
  mint : ∀ k m, w.mints k = some m → ∃ n, w'.mints k = some { m with supply := n }
  reserve : ∀ ρ r, w.reserves ρ = some r → ∃ r', w'.reserves ρ = some r' ∧
    r'.underlyingMint = r.underlyingMint ∧ r'.shareMint = r.shareMint ∧
    r'.liquidityVault = r.liquidityVault

theorem Persists.of_eq (ha : w'.tokenAccounts = w.tokenAccounts) (hm : w'.mints = w.mints)
    (hr : w'.reserves = w.reserves) : Persists env w w' where
  account k a h _ := ⟨a.amount, a.frozen, by rw [ha, h]⟩
  mint k m h := ⟨m.supply, by rw [hm, h]⟩
  reserve ρ r h := ⟨r, by rw [hr, h], rfl, rfl, rfl⟩

theorem Persists.refl (w : World) : Persists env w w := .of_eq rfl rfl rfl

theorem Persists.trans (h : Persists env w w₁) (h' : Persists env w₁ w') : Persists env w w' where
  account k a ha hs := by
    obtain ⟨n, f, h₁⟩ := h.account k a ha hs
    obtain ⟨n', f', h₂⟩ := h'.account k _ h₁ hs
    exact ⟨n', f', h₂⟩
  mint k m hm := by
    obtain ⟨n, h₁⟩ := h.mint k m hm
    obtain ⟨n', h₂⟩ := h'.mint k _ h₁
    exact ⟨n', h₂⟩
  reserve ρ r hr := by
    obtain ⟨r₁, h₁, e₁, e₂, e₃⟩ := h.reserve ρ r hr
    obtain ⟨r₂, h₂, e₁', e₂', e₃'⟩ := h'.reserve ρ r₁ h₁
    exact ⟨r₂, h₂, e₁'.trans e₁, e₂'.trans e₂, e₃'.trans e₃⟩

theorem Moved.accounts {δ : Pubkey → Int} (h : Moved δ w w') (k : Pubkey) (a : TokenAccount)
    (ha : w.tokenAccounts k = some a) (_ : env.canSign a.owner = false) : ∃ n f,
      w'.tokenAccounts k = some { a with amount := n, frozen := f } := by
  obtain ⟨n, h₁, -⟩ := h.account k a ha
  exact ⟨n, a.frozen, h₁⟩

/-- A mint whose supply is rewritten stays. -/
theorem mints_update {n : Nat} (hm : w.mints mint = some m)
    (h : w'.mints = Function.update w.mints mint (some { m with supply := n })) (k : Pubkey)
    (m' : Mint) (hk : w.mints k = some m') : ∃ n, w'.mints k = some { m' with supply := n } := by
  by_cases e : k = mint
  · subst e
    obtain rfl := Option.some.inj (hm.symm.trans hk)
    exact ⟨n, by rw [h, Function.update_self]⟩
  · exact ⟨m'.supply, by rw [h, Function.update_of_ne e, hk]⟩

/-- A reserve that is rewritten stays. -/
theorem reserves_update {r' : Reserve} (hr : w.reserves ρ = some r)
    (h : w'.reserves = Function.update w.reserves ρ (some r'))
    (he : r'.underlyingMint = r.underlyingMint ∧ r'.shareMint = r.shareMint ∧
      r'.liquidityVault = r.liquidityVault) (k : Pubkey) (r₀ : Reserve)
    (hk : w.reserves k = some r₀) : ∃ r₁, w'.reserves k = some r₁ ∧
      r₁.underlyingMint = r₀.underlyingMint ∧ r₁.shareMint = r₀.shareMint ∧
      r₁.liquidityVault = r₀.liquidityVault := by
  by_cases e : k = ρ
  · subst e
    obtain rfl := Option.some.inj (hr.symm.trans hk)
    exact ⟨r', by rw [h, Function.update_self], he⟩
  · exact ⟨r₀, by rw [h, Function.update_of_ne e, hk], rfl, rfl, rfl⟩

theorem Op.persists (h : Op R w w') : Persists env w w' := by
  cases h with
  | transfer _ h =>
      obtain ⟨-, hw, hd⟩ := tokenTransfer_spec h
      exact ⟨hd.accounts, fun k m hm => ⟨m.supply, by rw [hw, hm]⟩,
        fun ρ r hr => ⟨r, by rw [hw, hr], rfl, rfl, rfl⟩⟩
  | mintTo _ h =>
      obtain ⟨⟨m, -, hm, -, -, -, -, hms⟩, hw, hd⟩ := tokenMintTo_spec h
      exact ⟨hd.accounts, mints_update hm hms, fun ρ r hr => ⟨r, by rw [hw, hr], rfl, rfl, rfl⟩⟩
  | burn _ h =>
      obtain ⟨⟨m, -, hm, -, -, -, -, -, hms⟩, hw, hd⟩ := tokenBurn_spec h
      exact ⟨hd.accounts, mints_update hm hms, fun ρ r hr => ⟨r, by rw [hw, hr], rfl, rfl, rfl⟩⟩
  | toggleFreeze h =>
      obtain ⟨b, hb, rfl⟩ := tokenToggleFreeze_spec h
      rename_i freeze account _ _
      refine ⟨fun k a ha _ => ?_, fun k m hm => ⟨m.supply, hm⟩, fun ρ r hr => ⟨r, hr, rfl, rfl, rfl⟩⟩
      rw [World.setTokenAccount_tokenAccounts]
      by_cases e : k = account
      · subst e
        obtain rfl := Option.some.inj (hb.symm.trans ha)
        exact ⟨b.amount, freeze, by rw [Function.update_self]⟩
      · exact ⟨a.amount, a.frozen, by rw [Function.update_of_ne e, ha]⟩
  | close hs h =>
      -- Whoever closes an account signs for its owner.
      obtain ⟨b, hb, -, rfl, rfl⟩ := tokenClose_spec h
      refine ⟨fun k a ha hk => ⟨a.amount, a.frozen, ?_⟩, fun k m hm => ⟨m.supply, hm⟩,
        fun ρ r hr => ⟨r, hr, rfl, rfl, rfl⟩⟩
      refine (Function.update_of_ne ?_ _ _).trans ha
      rintro rfl
      obtain rfl := Option.some.inj (hb.symm.trans ha)
      exact Bool.false_ne_true (hk.symm.trans hs)
  | createMint h =>
      obtain ⟨hn, -, rfl⟩ := createMint_spec h
      refine ⟨fun k a ha _ => ⟨a.amount, a.frozen, ha⟩, fun k m hm => ⟨m.supply, ?_⟩,
        fun ρ r hr => ⟨r, hr, rfl, rfl, rfl⟩⟩
      rw [World.setMint_mints, Function.update_of_ne (by rintro rfl; simp [hn] at hm), hm]
  | createTokenAccount h =>
      obtain ⟨-, -, hn, rfl⟩ := createTokenAccount_spec h
      refine ⟨fun k a ha _ => ⟨a.amount, a.frozen, ?_⟩, fun k m hm => ⟨m.supply, hm⟩,
        fun ρ r hr => ⟨r, hr, rfl, rfl, rfl⟩⟩
      rw [World.setTokenAccount_tokenAccounts,
        Function.update_of_ne (by rintro rfl; simp [hn] at ha), ha]
  | setReserve hr ha =>
      have hac := Lending.accrued ha
      exact ⟨fun k a ha _ => ⟨a.amount, a.frozen, ha⟩, fun k m hm => ⟨m.supply, hm⟩,
        reserves_update hr rfl
        ⟨hac.underlyingMint_eq, hac.shareMint_eq, hac.liquidityVault_eq⟩⟩
  | newReserve hn _ _ _ _ _ =>
      refine ⟨fun k a ha _ => ⟨a.amount, a.frozen, ha⟩, fun k m hm => ⟨m.supply, hm⟩,
        fun ρ r hr => ⟨r, ?_, rfl, rfl, rfl⟩⟩
      rw [World.setReserve_reserves, Function.update_of_ne (by rintro rfl; simp [hn] at hr), hr]
  | deposit _ h =>
      obtain ⟨r, m, n, hd⟩ := Lending.deposit_spec h
      obtain ⟨r', hr', -, -, hres⟩ := hd.accrued
      have hac := Lending.accrued hr'
      exact ⟨hd.moved.accounts, mints_update hd.mintFound hd.mints, reserves_update hd.found hres
        ⟨hac.underlyingMint_eq, hac.shareMint_eq, hac.liquidityVault_eq⟩⟩
  | redeem _ h =>
      obtain ⟨r, m, n, hd⟩ := Lending.redeem_spec h
      obtain ⟨r', hr', -, -, hres⟩ := hd.accrued
      have hac := Lending.accrued hr'
      exact ⟨hd.moved.accounts, mints_update hd.mintFound hd.mints, reserves_update hd.found hres
        ⟨hac.underlyingMint_eq, hac.shareMint_eq, hac.liquidityVault_eq⟩⟩
  | books h => rw [h]; exact .of_eq rfl rfl rfl
  | admin _ => exact .of_eq rfl rfl rfl
  | strategy _ => exact .of_eq rfl rfl rfl

theorem Ops.persists (h : Ops R w w') : Persists env w w' := by
  induction h with
  | refl => exact .refl _
  | tail _ h ih => exact ih.trans h.persists

/-! ### Invariants of the token and the lending program -/

/-- A reserve sits at its own address and alone mints its shares, of which there are no more than it has underlying. -/
structure Reserves (env : Env) (w : World) : Prop where
  located : ∀ ρ r, w.reserves ρ = some r → ρ = env.lendingAddress (.reserve r.underlyingMint) ∧
    r.liquidityVault = env.lendingAddress (.liquidityVault r.underlyingMint)
  shares : ∀ ρ r, w.reserves ρ = some r → ∃ m, w.mints r.shareMint = some m ∧ m.mintAuthority = ρ ∧
    m.supply ≤ r.totalUnderlying

theorem Minted.of_eq (h : Minted w) (ha : w'.tokenAccounts = w.tokenAccounts)
    (hm : w'.mints = w.mints) : Minted w' where
  mint k a hk := by rw [hm]; exact h.mint k a (ha ▸ hk)
  lt k a hk := h.lt k a (ha ▸ hk)
  supply k m hk := by simpa only [World.heldAt, ha] using h.supply k m (hm ▸ hk)

theorem Op.minted (h : Op R w w') (hm : Minted w) : Minted w' := by
  cases h with
  | transfer _ h => exact hm.transfer h
  | mintTo _ h => exact hm.mintTo h
  | burn _ h => exact hm.burn h
  | toggleFreeze h =>
      obtain ⟨b, hb, rfl⟩ := tokenToggleFreeze_spec h
      exact hm.toggle hb
  | close _ h =>
      obtain ⟨b, hb, hz, -, rfl⟩ := tokenClose_spec h
      exact hm.close hb hz
  | createMint h =>
      obtain ⟨hn, -, rfl⟩ := createMint_spec h
      refine ⟨fun k a ha => ?_, hm.lt, fun k m hk => ?_⟩
      · rw [World.setMint_mints, Function.update_of_ne]
        · exact hm.mint k a ha
        · rintro e
          have := hm.mint k a ha
          rw [e, hn] at this
          cases this
      · rw [World.setMint_mints] at hk
        rename_i k₀ _ _ _
        by_cases e : k = k₀
        · -- A mint that did not exist has no accounts.
          subst e
          rw [Function.update_self, Option.some.injEq] at hk
          subst hk
          refine Finset.sum_eq_zero fun k' _ => ?_
          change w.heldAt k k' = 0
          unfold World.heldAt
          cases ha : w.tokenAccounts k' with
          | none => rfl
          | some a =>
              have := hm.mint k' a ha
              rw [Option.elim_some, if_neg]
              rintro e
              rw [e, hn] at this
              cases this
        · rw [Function.update_of_ne e] at hk
          exact hm.supply k m hk
  | createTokenAccount h =>
      obtain ⟨hs, -, hn, rfl⟩ := createTokenAccount_spec h
      rename_i k₀ mint owner
      have hcases : ∀ k a, (w.setTokenAccount k₀ ⟨mint, owner, 0, false⟩).tokenAccounts k = some a →
          (a = ⟨mint, owner, 0, false⟩) ∨ w.tokenAccounts k = some a := fun k a hk => by
        rw [World.setTokenAccount_tokenAccounts] at hk
        by_cases e : k = k₀
        · subst e
          rw [Function.update_self, Option.some.injEq] at hk
          exact .inl hk.symm
        · exact .inr (by rwa [Function.update_of_ne e] at hk)
      refine ⟨fun k a hk => ?_, fun k a hk => ?_, fun k m hk => ?_⟩
      · rcases hcases k a hk with rfl | hk
        · exact hs
        · exact hm.mint k a hk
      · rcases hcases k a hk with rfl | hk
        · exact Nat.two_pow_pos _
        · exact hm.lt k a hk
      · rw [← hm.supply k m hk]
        refine Finset.sum_congr rfl fun k' _ => ?_
        simp only [World.heldAt, World.setTokenAccount_tokenAccounts]
        by_cases e : k' = k₀
        · subst e
          simp [hn]
        · rw [Function.update_of_ne e]
  | setReserve _ _ => exact hm.of_eq rfl rfl
  | newReserve _ _ _ _ _ _ => exact hm.of_eq rfl rfl
  | deposit _ h =>
      obtain ⟨r, m, n, hd⟩ := Lending.deposit_spec h
      exact hd.kept hm
  | redeem _ h =>
      obtain ⟨r, m, n, hd⟩ := Lending.redeem_spec h
      exact hd.kept hm
  | books h => rw [h]; exact hm.of_eq rfl rfl
  | admin _ => exact hm.of_eq rfl rfl
  | strategy _ => exact hm.of_eq rfl rfl

/-- Reserves are as they were, and no supply of shares has grown. -/
theorem Reserves.of_le (h : Reserves env w) (hr : w'.reserves = w.reserves)
    (hm : ∀ ρ r m, w.reserves ρ = some r → w.mints r.shareMint = some m → m.mintAuthority = ρ →
      ∃ n, w'.mints r.shareMint = some { m with supply := n } ∧ n ≤ m.supply) : Reserves env w' where
  located ρ r hk := h.located ρ r (hr ▸ hk)
  shares ρ r hk := by
    rw [hr] at hk
    obtain ⟨m, hm₁, hm₂, hm₃⟩ := h.shares ρ r hk
    obtain ⟨n, hn, hle⟩ := hm ρ r m hk hm₁ hm₂
    exact ⟨_, hn, hm₂, hle.trans hm₃⟩

/-- One reserve and the supply of its shares are rewritten together. -/
theorem Reserves.rewrite {r' : Reserve} {n : Nat} (h : Reserves env w) (hr : w.reserves ρ = some r)
    (hm : w.mints r.shareMint = some m)
    (hr' : w'.reserves = Function.update w.reserves ρ (some r'))
    (hm' : w'.mints = Function.update w.mints r.shareMint (some { m with supply := n }))
    (hu : r'.underlyingMint = r.underlyingMint) (hs : r'.shareMint = r.shareMint)
    (hv : r'.liquidityVault = r.liquidityVault) (hle : n ≤ r'.totalUnderlying) : Reserves env w' where
  located ρ' r₁ hk := by
    rw [hr'] at hk
    by_cases e : ρ' = ρ
    · subst e
      rw [Function.update_self, Option.some.injEq] at hk
      rw [← hk, hu, hv]
      exact h.located _ r hr
    · rw [Function.update_of_ne e] at hk
      exact h.located ρ' r₁ hk
  shares ρ' r₁ hk := by
    rw [hr'] at hk
    rw [hm']
    obtain ⟨m₀, h₀, hauth, -⟩ := h.shares ρ r hr
    obtain rfl := Option.some.inj (h₀.symm.trans hm)
    by_cases e : ρ' = ρ
    · subst e
      rw [Function.update_self, Option.some.injEq] at hk
      subst hk
      exact ⟨{ m₀ with supply := n }, by rw [hs, Function.update_self], hauth, hle⟩
    · -- Another reserve's share mint has another authority.
      rw [Function.update_of_ne e] at hk
      obtain ⟨m₁, h₁, hauth₁, hle₁⟩ := h.shares ρ' r₁ hk
      refine ⟨m₁, ?_, hauth₁, hle₁⟩
      rw [Function.update_of_ne, h₁]
      rintro he
      rw [he, hm, Option.some.injEq] at h₁
      subst h₁
      exact e (hauth₁.symm.trans hauth)

theorem Op.reserves (h : Op R w w') (hres : Reserves env w) : Reserves env w' := by
  have same : ∀ ρ r m, w.reserves ρ = some r → w.mints r.shareMint = some m → m.mintAuthority = ρ →
      ∃ n, w.mints r.shareMint = some { m with supply := n } ∧ n ≤ m.supply :=
    fun ρ r m _ hm _ => ⟨m.supply, hm, le_rfl⟩
  cases h with
  | transfer _ h =>
      rw [(tokenTransfer_spec h).2.1]
      exact hres.of_le rfl same
  | mintTo hR h =>
      obtain ⟨⟨m₀, -, hm₀, -, -, hauth, -, hms⟩, hw, -⟩ := tokenMintTo_spec h
      refine hres.of_le (by rw [hw]) fun ρ r m hr hm hρ => ⟨m.supply, ?_, le_rfl⟩
      rw [hms, Function.update_of_ne, hm]
      rintro e
      rw [e, hm₀, Option.some.injEq] at hm
      subst hm
      rw [← hauth, hρ, (hres.located ρ r hr).1] at hR
      exact R.noLending _ _ hR
  | burn _ h =>
      obtain ⟨⟨m₀, -, hm₀, -, -, -, -, -, hms⟩, hw, -⟩ := tokenBurn_spec h
      refine hres.of_le (by rw [hw]) fun ρ r m hr hm hρ => ?_
      rw [hms]
      rename_i mint _ _ _ _
      by_cases e : r.shareMint = mint
      · rw [e, hm₀, Option.some.injEq] at hm
        subst hm
        exact ⟨_, by rw [e, Function.update_self], Nat.sub_le _ _⟩
      · exact ⟨m.supply, by rw [Function.update_of_ne e, hm], le_rfl⟩
  | toggleFreeze h =>
      obtain ⟨b, -, rfl⟩ := tokenToggleFreeze_spec h
      exact hres.of_le rfl same
  | close _ h =>
      obtain ⟨b, -, -, -, rfl⟩ := tokenClose_spec h
      exact hres.of_le rfl same
  | createMint h =>
      obtain ⟨hn, -, rfl⟩ := createMint_spec h
      refine hres.of_le rfl fun ρ r m hr hm hρ => ⟨m.supply, ?_, le_rfl⟩
      rw [World.setMint_mints, Function.update_of_ne (by rintro rfl; simp [hn] at hm), hm]
  | createTokenAccount h =>
      rw [(createTokenAccount_spec h).2.2.2]
      exact hres.of_le rfl same
  | setReserve hr ha =>
      have hac := Lending.accrued ha
      obtain ⟨m, hm, -, hle⟩ := hres.shares _ _ hr
      exact hres.rewrite (n := m.supply) hr hm rfl (by rw [Function.update_eq_self_iff.mpr hm.symm]; rfl)
        hac.underlyingMint_eq hac.shareMint_eq hac.liquidityVault_eq (hle.trans hac.grows)
  | newReserve hn hsm hv hm hs hauth =>
      rename_i r m
      refine ⟨fun ρ r₁ hk => ?_, fun ρ r₁ hk => ?_⟩ <;> rw [World.setReserve_reserves] at hk <;>
        by_cases e : ρ = env.lendingAddress (.reserve r.underlyingMint)
      · subst e
        rw [Function.update_self, Option.some.injEq] at hk
        subst hk
        exact ⟨rfl, hv⟩
      · rw [Function.update_of_ne e] at hk
        exact hres.located ρ r₁ hk
      · subst e
        rw [Function.update_self, Option.some.injEq] at hk
        subst hk
        exact ⟨m, hm, hauth, by omega⟩
      · rw [Function.update_of_ne e] at hk
        exact hres.shares ρ r₁ hk
  | deposit _ h =>
      obtain ⟨r, m, n, hd⟩ := Lending.deposit_spec h
      obtain ⟨r', hr', hmint, -, hr''⟩ := hd.accrued
      have hac := Lending.accrued hr'
      obtain ⟨m₀, h₀, -, hle⟩ := hres.shares _ _ hd.found
      obtain rfl := Option.some.inj (h₀.symm.trans hd.mintFound)
      refine hres.rewrite hd.found hd.mintFound hr'' hd.mints hac.underlyingMint_eq hac.shareMint_eq
        hac.liquidityVault_eq ?_
      have hle' := hle.trans hac.grows
      -- Shares are minted at no more than one for one.
      rename_i amount _
      have hn : m₀.supply + n ≤ r'.totalUnderlying + amount := by
        refine Nat.add_le_add hle' ?_
        unfold Lending.sharesToMint at hmint
        split at hmint
        · cases hmint
          exact le_rfl
        · obtain ⟨-, -, rfl⟩ := Lending.mulDiv_eq_ok.mp hmint
          exact Nat.div_le_of_le_mul (by
            rw [Nat.mul_comm r'.totalUnderlying]
            exact Nat.mul_le_mul_left _ hle')
      exact hn
  | redeem _ h =>
      obtain ⟨r, m, n, hd⟩ := Lending.redeem_spec h
      obtain ⟨r', hr', hpaid, hple, hr''⟩ := hd.accrued
      have hac := Lending.accrued hr'
      obtain ⟨m₀, h₀, -, hle⟩ := hres.shares _ _ hd.found
      obtain rfl := Option.some.inj (h₀.symm.trans hd.mintFound)
      refine hres.rewrite hd.found hd.mintFound hr'' hd.mints hac.underlyingMint_eq hac.shareMint_eq
        hac.liquidityVault_eq ?_
      have hle' := hle.trans hac.grows
      rename_i burned _
      have hS : 0 < m₀.supply := hd.positive.trans_le hd.le
      -- What is left over is at least one for one, since it was.
      change m₀.supply - burned ≤ r'.totalUnderlying - n
      refine Nat.le_of_mul_le_mul_right ?_ hS
      have hp : n * m₀.supply ≤ burned * r'.totalUnderlying := by
        rw [hpaid]
        exact Nat.div_mul_le_self _ _
      calc (m₀.supply - burned) * m₀.supply
          ≤ (m₀.supply - burned) * r'.totalUnderlying := Nat.mul_le_mul_left _ hle'
        _ = m₀.supply * r'.totalUnderlying - burned * r'.totalUnderlying := Nat.sub_mul _ _ _
        _ ≤ r'.totalUnderlying * m₀.supply - n * m₀.supply := by
            rw [Nat.mul_comm m₀.supply]
            omega
        _ = (r'.totalUnderlying - n) * m₀.supply := (Nat.sub_mul _ _ _).symm
  | books h =>
      rw [h]
      exact hres.of_le rfl same
  | admin _ => exact hres.of_le rfl same
  | strategy _ => exact hres.of_le rfl same

theorem Ops.minted (h : Ops R w w') (hm : Minted w) : Minted w' := by
  induction h with
  | refl => exact hm
  | tail _ h ih => exact h.minted ih

theorem Ops.reserves (h : Ops R w w') (hres : Reserves env w) : Reserves env w' := by
  induction h with
  | refl => exact hres
  | tail _ h ih => exact h.reserves ih

/-! ### What nobody may take -/

/-- An account whose owner's authority is not exercised over it, and is not the lending program's, does not lose. -/
theorem Op.holding_le (h : Op R w w') (ha : w.tokenAccounts k = some a) (hR : ¬ R.spends k a.owner)
    (hown : ∀ l, a.owner ≠ env.lendingAddress l) : w.holding k ≤ w'.holding k := by
  have same : ∀ {w₁ : World}, w₁.tokenAccounts = w.tokenAccounts → w.holding k ≤ w₁.holding k :=
    fun e => by simp only [World.holding, e]; exact le_rfl
  -- Whoever takes from `k` acts for its owner.
  have ne : ∀ {source : Pubkey} {a' : TokenAccount}, w.tokenAccounts source = some a' →
      R.spends source a'.owner → k ≠ source := by
    rintro source a' h₁ hR' rfl
    obtain rfl := Option.some.inj (h₁.symm.trans ha)
    exact hR hR'
  cases h with
  | transfer hR' h =>
      obtain ⟨⟨src, -, hsrc, -, -, -, rfl, -⟩, -, hd⟩ := tokenTransfer_spec h
      refine hd.holding_le ?_
      rw [if_neg (ne hsrc hR')]
      split_ifs <;> omega
  | mintTo _ h =>
      obtain ⟨-, -, hd⟩ := tokenMintTo_spec h
      exact hd.holding_le (by split_ifs <;> omega)
  | burn hR' h =>
      obtain ⟨⟨m, src, -, hsrc, -, rfl, -, -, -⟩, -, hd⟩ := tokenBurn_spec h
      exact hd.holding_le (by rw [if_neg (ne hsrc hR')])
  | toggleFreeze h =>
      obtain ⟨b, hb, rfl⟩ := tokenToggleFreeze_spec h
      rename_i freeze account _ _
      rw [World.holding_of ha, World.holding, World.setTokenAccount_tokenAccounts]
      by_cases e : k = account
      · subst e
        obtain rfl := Option.some.inj (hb.symm.trans ha)
        rw [Function.update_self]
        exact le_rfl
      · rw [Function.update_of_ne e, ha]
        exact le_rfl
  | close _ h =>
      obtain ⟨b, hb, hz, -, rfl⟩ := tokenClose_spec h
      rename_i account _ _
      by_cases e : k = account
      · -- A closed account was empty.
        subst e
        rw [World.holding_of hb, hz]
        exact Nat.zero_le _
      · rw [World.holding_of ha, World.holding]
        change a.amount ≤ (Function.update w.tokenAccounts account none k).elim 0 (·.amount)
        rw [Function.update_of_ne e, ha]
        exact le_rfl
  | createMint h => exact same (by rw [(createMint_spec h).2.2]; rfl)
  | createTokenAccount h =>
      obtain ⟨-, -, hn, rfl⟩ := createTokenAccount_spec h
      rw [World.holding, World.holding, World.setTokenAccount_tokenAccounts, Function.update_of_ne]
      rintro rfl
      simp [hn] at ha
  | deposit hR' h =>
      obtain ⟨r, m, n, hd⟩ := Lending.deposit_spec h
      obtain ⟨src, hsrc, rfl, -⟩ := hd.sourceOwner
      refine hd.moved.holding_le ?_
      rw [if_neg (ne hsrc hR')]
      split_ifs <;> omega
  | redeem hR' h =>
      obtain ⟨r, m, n, hd⟩ := Lending.redeem_spec h
      obtain ⟨src, hsrc, rfl, -⟩ := hd.sharesOwner
      refine hd.moved.holding_le ?_
      rw [if_neg (ne hsrc hR')]
      by_cases hn : 0 < n
      · obtain ⟨v, hv, hvo⟩ := hd.vaultOwner hn
        rw [if_neg (show k ≠ r.liquidityVault by
          rintro rfl
          obtain rfl := Option.some.inj (ha.symm.trans hv)
          exact hown _ (hvo.trans hd.seeds))]
        split_ifs <;> omega
      · split_ifs <;> omega
  | books h => exact same (by rw [h])
  | _ => exact same rfl

/-- An account nobody can close stays, so this holds of any number of operations. -/
theorem Ops.holding_le (h : Ops R w w') (ha : w.tokenAccounts k = some a) (hR : ¬ R.spends k a.owner)
    (hown : ∀ l, a.owner ≠ env.lendingAddress l) (hs : env.canSign a.owner = false) :
    w.holding k ≤ w'.holding k := by
  induction h with
  | refl => exact le_rfl
  | tail h₁ h ih =>
      obtain ⟨n, f, hn⟩ := (Ops.persists h₁).account k a ha hs
      exact ih.trans (h.holding_le hn hR hown)

end Ryvo
