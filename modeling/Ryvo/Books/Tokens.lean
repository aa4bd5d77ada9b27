import Ryvo.Machine.Lending
import Ryvo.Support.Sums

/-!
# Books — Token accounts

What the token instructions do to balances.  `Moved` says that accounts stay, with their mint and owner, and what is added to each; a transfer, a mint and a burn are each a `Moved`, and so is one after another.

`Minted` is the token program's own invariant: a mint's supply is what its accounts hold.
-/

namespace Ryvo

open Finset

instance : Fintype Pubkey :=
  Fintype.ofEquiv (Fin (256 ^ 32)) ⟨fun i => ⟨i.val, i.isLt⟩, fun k => ⟨k.word, k.bound⟩,
    fun _ => rfl, fun _ => rfl⟩

variable {env : Env} {w w' w₁ : World} {k k' source destination authority mint : Pubkey} {amount : Nat}
variable {a : TokenAccount} {m : Mint} {δ δ' : Pubkey → Int}

namespace World

/-- What a token account holds; an account that does not exist holds nothing. -/
def holding (w : World) (k : Pubkey) : Nat := (w.tokenAccounts k).elim 0 (·.amount)

/-- The supply of a mint. -/
def supply (w : World) (k : Pubkey) : Nat := (w.mints k).elim 0 (·.supply)

theorem holding_of (h : w.tokenAccounts k = some a) : w.holding k = a.amount := by
  simp [holding, h]

theorem supply_of (h : w.mints k = some m) : w.supply k = m.supply := by
  simp [supply, h]

end World

/-- Token accounts stay, and each holds `δ` more. -/
structure Moved (δ : Pubkey → Int) (w w' : World) : Prop where
  account : ∀ k a, w.tokenAccounts k = some a → ∃ n : Nat,
    w'.tokenAccounts k = some { a with amount := n } ∧ (n : Int) = a.amount + δ k
  noAccount : ∀ k, w.tokenAccounts k = none → w'.tokenAccounts k = none ∧ δ k = 0

theorem Moved.zero (h : w'.tokenAccounts = w.tokenAccounts) : Moved (fun _ => 0) w w' where
  account k a ha := ⟨a.amount, by rw [h, ha], (add_zero _).symm⟩
  noAccount k hk := ⟨by rw [h, hk], rfl⟩

theorem Moved.trans (h : Moved δ w w₁) (h' : Moved δ' w₁ w') :
    Moved (fun k => δ k + δ' k) w w' where
  account k a ha := by
    obtain ⟨n, h₁, hn⟩ := h.account k a ha
    obtain ⟨n', h₂, hn'⟩ := h'.account k _ h₁
    exact ⟨n', h₂, by rw [hn', hn, add_assoc]⟩
  noAccount k hk := by
    obtain ⟨h₁, h₀⟩ := h.noAccount k hk
    obtain ⟨h₂, h₀'⟩ := h'.noAccount k h₁
    exact ⟨h₂, by rw [h₀, h₀', add_zero]⟩

theorem Moved.holding (h : Moved δ w w') (k : Pubkey) : (w'.holding k : Int) = w.holding k + δ k := by
  cases hk : w.tokenAccounts k with
  | none =>
      obtain ⟨h₁, h₀⟩ := h.noAccount k hk
      simp [World.holding, hk, h₁, h₀]
  | some a =>
      obtain ⟨n, h₁, hn⟩ := h.account k a hk
      rw [World.holding_of hk, World.holding_of h₁, hn]

theorem Moved.holding_le (h : Moved δ w w') {k : Pubkey} (hδ : 0 ≤ δ k) :
    w.holding k ≤ w'.holding k := by
  have := h.holding k
  omega

/-! ### The token instructions -/

theorem tokenTransfer_spec (h : w.tokenTransfer env source destination authority amount = .ok w') :
    (∃ src dst, w.tokenAccounts source = some src ∧ w.tokenAccounts destination = some dst ∧
      amount ≤ src.amount ∧ src.mint = dst.mint ∧ src.owner = authority ∧
      (source ≠ destination → dst.amount + amount < u64Bound)) ∧
    w' = { w with tokenAccounts := w'.tokenAccounts } ∧
    Moved (fun k => (if k = destination then (amount : Int) else 0)
      - if k = source then (amount : Int) else 0) w w' := by
  obtain ⟨src, dst, hsrc, hdst, -, -, hle, hmint, hown, h⟩ := tokenTransfer_eq_ok.mp h
  by_cases he : source = destination
  · rw [if_pos he] at h
    subst h he
    refine ⟨⟨src, dst, hsrc, hdst, hle, hmint, hown.symm, fun h => absurd rfl h⟩, rfl, ?_⟩
    simpa using Moved.zero (w := w') rfl
  · rw [if_neg he] at h
    obtain ⟨hlt, rfl⟩ := h
    refine ⟨⟨src, dst, hsrc, hdst, hle, hmint, hown.symm, fun _ => hlt⟩, rfl, ?_, ?_⟩
    · intro k a ha
      by_cases hk : k = destination
      · subst hk
        obtain rfl := Option.some.inj (hdst.symm.trans ha)
        refine ⟨dst.amount + amount, by simp, ?_⟩
        simp [Ne.symm he]
      · by_cases hk' : k = source
        · subst hk'
          obtain rfl := Option.some.inj (hsrc.symm.trans ha)
          refine ⟨src.amount - amount, by simp [Function.update_of_ne hk], ?_⟩
          simp only [hk, if_false, if_true]
          omega
        · exact ⟨a.amount, by simp [Function.update_of_ne hk, Function.update_of_ne hk', ha],
            by simp [hk, hk']⟩
    · intro k hk
      have h₁ : k ≠ source := by rintro rfl; simp [hsrc] at hk
      have h₂ : k ≠ destination := by rintro rfl; simp [hdst] at hk
      exact ⟨by simp [Function.update_of_ne h₁, Function.update_of_ne h₂, hk], by simp [h₁, h₂]⟩

theorem moved_setTokenAccount {n : Nat} (ha : w.tokenAccounts k = some a) :
    Moved (fun k' => if k' = k then (n - a.amount : Int) else 0) w
      (w.setTokenAccount k { a with amount := n }) where
  account k' a' ha' := by
    by_cases hk : k' = k
    · subst hk
      obtain rfl := Option.some.inj (ha.symm.trans ha')
      exact ⟨n, by simp, by rw [if_pos rfl]; ring⟩
    · exact ⟨a'.amount, by simp [Function.update_of_ne hk, ha'], by simp [hk]⟩
  noAccount k' hk' := by
    have hk : k' ≠ k := by rintro rfl; simp [ha] at hk'
    exact ⟨by simp [Function.update_of_ne hk, hk'], by simp [hk]⟩

theorem Moved.of_eq (h : Moved δ w w') (hw : w₁.tokenAccounts = w'.tokenAccounts)
    (hδ : ∀ k, δ' k = δ k) : Moved δ' w w₁ where
  account k a ha := by
    obtain ⟨n, h₁, hn⟩ := h.account k a ha
    exact ⟨n, by rw [hw, h₁], by rw [hn, hδ]⟩
  noAccount k hk := by
    obtain ⟨h₁, h₀⟩ := h.noAccount k hk
    exact ⟨by rw [hw, h₁], by rw [hδ, h₀]⟩

theorem tokenMintTo_spec (h : w.tokenMintTo env mint destination authority amount = .ok w') :
    (∃ m dst, w.mints mint = some m ∧ w.tokenAccounts destination = some dst ∧ dst.mint = mint ∧
      m.mintAuthority = authority ∧ dst.amount + amount < u64Bound ∧
      w'.mints = Function.update w.mints mint (some { m with supply := m.supply + amount })) ∧
    w' = { w with mints := w'.mints, tokenAccounts := w'.tokenAccounts } ∧
    Moved (fun k => if k = destination then (amount : Int) else 0) w w' := by
  simp only [World.tokenMintTo, invokeToken_eq_ok, TokenProgram.mintTo_iff] at h
  obtain ⟨T, ⟨m, dst, hm, hdst, -, hmint, hauth, -, hlt, rfl⟩, rfl⟩ := h
  refine ⟨⟨m, dst, hm, hdst, hmint, hauth.symm, hlt, rfl⟩, rfl, ?_⟩
  exact (moved_setTokenAccount (n := dst.amount + amount) hdst).of_eq rfl fun k => by
    split <;> omega

theorem tokenBurn_spec (h : w.tokenBurn env mint source authority amount = .ok w') :
    (∃ m src, w.mints mint = some m ∧ w.tokenAccounts source = some src ∧ src.mint = mint ∧
      src.owner = authority ∧ amount ≤ src.amount ∧ amount ≤ m.supply ∧
      w'.mints = Function.update w.mints mint (some { m with supply := m.supply - amount })) ∧
    w' = { w with mints := w'.mints, tokenAccounts := w'.tokenAccounts } ∧
    Moved (fun k => if k = source then -(amount : Int) else 0) w w' := by
  simp only [World.tokenBurn, invokeToken_eq_ok, TokenProgram.burn_iff] at h
  obtain ⟨T, ⟨m, src, hm, hsrc, -, hmint, hle, hauth, hs, rfl⟩, rfl⟩ := h
  refine ⟨⟨m, src, hm, hsrc, hmint, hauth.symm, hle, hs, rfl⟩, rfl, ?_⟩
  exact (moved_setTokenAccount (n := src.amount - amount) hsrc).of_eq rfl fun k => by
    split <;> omega

/-! ### Supply -/

/-- What one account holds of a mint. -/
def World.heldAt (w : World) (mint k : Pubkey) : Nat :=
  (w.tokenAccounts k).elim 0 fun a => if a.mint = mint then a.amount else 0

/-- The token program's invariants: accounts are of existing mints and hold at most a `u64`, and a mint's supply is what its accounts hold. -/
structure Minted (w : World) : Prop where
  mint : ∀ k a, w.tokenAccounts k = some a → (w.mints a.mint).isSome
  lt : ∀ k a, w.tokenAccounts k = some a → a.amount < u64Bound
  supply : ∀ k m, w.mints k = some m → ∑ k', w.heldAt k k' = m.supply

theorem Minted.holding_le (h : Minted w) (ha : w.tokenAccounts k = some a)
    (hm : w.mints a.mint = some m) : a.amount ≤ m.supply := by
  have hle := le_sum (w.heldAt a.mint) k
  rw [h.supply _ m hm] at hle
  simpa [World.heldAt, ha] using hle

theorem Minted.holding_lt (h : Minted w) (k : Pubkey) : w.holding k < u64Bound := by
  cases hk : w.tokenAccounts k with
  | none => simp [World.holding, hk]
  | some a => rw [World.holding_of hk]; exact h.lt k a hk

theorem Moved.heldAt (h : Moved δ w w') (mint k : Pubkey) : (w'.heldAt mint k : Int) = w.heldAt mint k
    + (w.tokenAccounts k).elim 0 fun a => if a.mint = mint then δ k else 0 := by
  cases hk : w.tokenAccounts k with
  | none => simp [World.heldAt, hk, (h.noAccount k hk).1]
  | some a =>
      obtain ⟨n, h₁, hn⟩ := h.account k a hk
      simp only [World.heldAt, hk, h₁, Option.elim_some]
      split
      · exact hn
      · simp

/-- What is held of a mint altogether, after amounts have moved. -/
theorem Moved.sum_heldAt (h : Moved δ w w') (mint : Pubkey) :
    ((∑ k, w'.heldAt mint k : Nat) : Int) = (∑ k, w.heldAt mint k : Nat)
      + ∑ k, (w.tokenAccounts k).elim 0 fun a => if a.mint = mint then δ k else 0 := by
  push_cast
  rw [← sum_add_distrib]
  exact sum_congr rfl fun k _ => h.heldAt mint k

/-- A single account's part. -/
theorem sum_at (ha : w.tokenAccounts k = some a) (mint : Pubkey) (n : Int) :
    (∑ k', (w.tokenAccounts k').elim 0 fun a => if a.mint = mint then if k' = k then n else 0 else 0)
      = if a.mint = mint then n else 0 := by
  rw [sum_eq_single k]
  · simp [ha]
  · intro k' _ hne
    cases w.tokenAccounts k' <;> simp [hne]
  · simp

/-- The invariants after amounts have moved as supplies have. -/
theorem Minted.of_moved (h : Minted w) (hd : Moved δ w w')
    (hlt : ∀ k a, w'.tokenAccounts k = some a → a.amount < u64Bound)
    (hmint : ∀ k, (w.mints k).isSome → (w'.mints k).isSome)
    (hs : ∀ k m', w'.mints k = some m' → ∃ m, w.mints k = some m ∧ (m'.supply : Int) = m.supply
      + ∑ k', (w.tokenAccounts k').elim 0 fun a => if a.mint = k then δ k' else 0) : Minted w' where
  mint k a ha := by
    cases hk : w.tokenAccounts k with
    | none => simp [(hd.noAccount k hk).1] at ha
    | some a₀ =>
        obtain ⟨n, h₁, -⟩ := hd.account k a₀ hk
        obtain rfl := Option.some.inj (h₁.symm.trans ha)
        exact hmint _ (h.mint k a₀ hk)
  lt := hlt
  supply k m' hm' := by
    obtain ⟨m, hm, he⟩ := hs k m' hm'
    have := hd.sum_heldAt k
    rw [h.supply k m hm] at this
    omega

theorem Moved.lt (h : Moved δ w w')
    (hle : ∀ k a, w.tokenAccounts k = some a → (a.amount : Int) + δ k < u64Bound) :
    ∀ k a, w'.tokenAccounts k = some a → a.amount < u64Bound := by
  intro k a' ha'
  cases hk : w.tokenAccounts k with
  | none => simp [(h.noAccount k hk).1] at ha'
  | some a =>
      obtain ⟨n, h₁, hn⟩ := h.account k a hk
      obtain rfl := Option.some.inj (h₁.symm.trans ha')
      have := hle k a hk
      simp only
      omega

theorem Minted.transfer (hm : Minted w)
    (h : w.tokenTransfer env source destination authority amount = .ok w') : Minted w' := by
  obtain ⟨⟨src, dst, hsrc, hdst, hle, hmint, -, hlt⟩, hw, hd⟩ := tokenTransfer_spec h
  have hmints : w'.mints = w.mints := by rw [hw]
  refine hm.of_moved hd (hd.lt fun k a ha => ?_) (fun k => by rw [hmints]; exact id)
    fun k m' hm' => ⟨m', by rwa [hmints] at hm', ?_⟩
  · have hk := hm.lt k a ha
    by_cases h₁ : k = destination
    · subst h₁
      obtain rfl := Option.some.inj (hdst.symm.trans ha)
      by_cases h₂ : k = source
      · subst h₂; simp only [if_true]; omega
      · have := hlt (Ne.symm h₂)
        simp only [if_true, h₂, if_false]
        omega
    · simp only [h₁, if_false]
      split <;> omega
  · -- What leaves one account of a mint enters another of the same mint.
    have hsplit : ∀ k', ((w.tokenAccounts k').elim 0 fun a => if a.mint = k then
        (if k' = destination then (amount : Int) else 0) - (if k' = source then (amount : Int) else 0)
          else 0)
        = ((w.tokenAccounts k').elim 0 fun a => if a.mint = k then
            if k' = destination then (amount : Int) else 0 else 0)
          - (w.tokenAccounts k').elim 0 fun a => if a.mint = k then
            if k' = source then (amount : Int) else 0 else 0 := fun k' => by
      cases w.tokenAccounts k' with
      | none => rfl
      | some a => simp only [Option.elim_some]; split <;> simp
    simp only [hsplit, sum_sub_distrib, sum_at hdst, sum_at hsrc, hmint]
    ring

theorem Minted.mintTo (hm : Minted w)
    (h : w.tokenMintTo env mint destination authority amount = .ok w') : Minted w' := by
  obtain ⟨⟨m, dst, hmi, hdst, hmint, -, hlt, hmints⟩, -, hd⟩ := tokenMintTo_spec h
  refine hm.of_moved hd (hd.lt fun k a ha => ?_) (fun k hk => ?_) fun k m' hm' => ?_
  · have hk := hm.lt k a ha
    by_cases h₁ : k = destination
    · subst h₁
      obtain rfl := Option.some.inj (hdst.symm.trans ha)
      simp only [if_true]
      omega
    · simp only [h₁, if_false]
      omega
  · rw [hmints]
    by_cases h₁ : k = mint
    · simp [h₁]
    · rwa [Function.update_of_ne h₁]
  · rw [sum_at hdst, hmint]
    rw [hmints] at hm'
    by_cases h₁ : k = mint
    · subst h₁
      rw [Function.update_self, Option.some.injEq] at hm'
      exact ⟨m, hmi, by rw [← hm']; simp⟩
    · rw [Function.update_of_ne h₁] at hm'
      exact ⟨m', hm', by simp [Ne.symm h₁]⟩

theorem Minted.burn (hm : Minted w)
    (h : w.tokenBurn env mint source authority amount = .ok w') : Minted w' := by
  obtain ⟨⟨m, src, hmi, hsrc, hmint, -, -, hs, hmints⟩, -, hd⟩ := tokenBurn_spec h
  refine hm.of_moved hd (hd.lt fun k a ha => ?_) (fun k hk => ?_) fun k m' hm' => ?_
  · have hk := hm.lt k a ha
    split <;> omega
  · rw [hmints]
    by_cases h₁ : k = mint
    · simp [h₁]
    · rwa [Function.update_of_ne h₁]
  · rw [sum_at hsrc, hmint]
    rw [hmints] at hm'
    by_cases h₁ : k = mint
    · subst h₁
      rw [Function.update_self, Option.some.injEq] at hm'
      refine ⟨m, hmi, ?_⟩
      subst hm'
      rw [if_pos rfl]
      push_cast [Nat.cast_sub hs]
      ring
    · rw [Function.update_of_ne h₁] at hm'
      exact ⟨m', hm', by simp [Ne.symm h₁]⟩

theorem Minted.toggle (hm : Minted w) (ha : w.tokenAccounts k = some a) {freeze : Bool} :
    Minted (w.setTokenAccount k { a with frozen := freeze }) := by
  have hat : ∀ mint k', (w.setTokenAccount k { a with frozen := freeze }).heldAt mint k'
      = w.heldAt mint k' := fun mint k' => by
    rw [World.heldAt, World.heldAt, World.setTokenAccount_tokenAccounts]
    by_cases e : k' = k
    · rw [e, Function.update_self, ha]
      rfl
    · rw [Function.update_of_ne e]
  have hcases : ∀ k' a', (w.setTokenAccount k { a with frozen := freeze }).tokenAccounts k' = some a' →
      ∃ a₀, w.tokenAccounts k' = some a₀ ∧ a₀.mint = a'.mint ∧ a₀.amount = a'.amount := fun k' a' h => by
    rw [World.setTokenAccount_tokenAccounts] at h
    by_cases e : k' = k
    · rw [e, Function.update_self, Option.some.injEq] at h
      exact ⟨a, e ▸ ha, by rw [← h], by rw [← h]⟩
    · exact ⟨a', by rwa [Function.update_of_ne e] at h, rfl, rfl⟩
  refine ⟨fun k' a' h => ?_, fun k' a' h => ?_, fun k' m h => ?_⟩
  · obtain ⟨a₀, h₀, hmint, -⟩ := hcases k' a' h
    exact hmint ▸ hm.mint k' a₀ h₀
  · obtain ⟨a₀, h₀, -, hamount⟩ := hcases k' a' h
    exact hamount ▸ hm.lt k' a₀ h₀
  · simpa only [hat] using hm.supply k' m h

/-- An empty account leaves nothing behind. -/
theorem Minted.close (hm : Minted w) (ha : w.tokenAccounts k = some a) (hz : a.amount = 0) :
    Minted { w with tokenAccounts := Function.update w.tokenAccounts k none } := by
  have hcases : ∀ k' a', Function.update w.tokenAccounts k none k' = some a' →
      w.tokenAccounts k' = some a' := fun k' a' h => by
    by_cases e : k' = k
    · rw [e, Function.update_self] at h
      cases h
    · rwa [Function.update_of_ne e] at h
  refine ⟨fun k' a' h => hm.mint k' a' (hcases k' a' h), fun k' a' h => hm.lt k' a' (hcases k' a' h),
    fun mint m h => ?_⟩
  rw [← hm.supply mint m h]
  refine sum_congr rfl fun k' _ => ?_
  change (Function.update w.tokenAccounts k none k').elim 0 _ = (w.tokenAccounts k').elim 0 _
  by_cases e : k' = k
  · rw [e, Function.update_self, ha]
    simp [hz]
  · rw [Function.update_of_ne e]

end Ryvo
