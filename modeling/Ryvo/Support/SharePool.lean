import Mathlib.Algebra.Order.Field.Rat
import Mathlib.Data.Nat.Cast.Order.Field
import Mathlib.Tactic.FieldSimp
import Mathlib.Tactic.Linarith
import Mathlib.Tactic.Positivity
import Mathlib.Tactic.Ring
import Ryvo.Support.Pools

/-!
# Support — Share pools

A pool of shares over one total: interest raises the total, a deposit buys shares at the rate of the pool and a redemption gives them back at that rate, both rounded down, and both after interest.

* `Step.sound`: a pool has shares when it has a total, and no more of them.
* `Step.rate`: the price of a share does not fall.  `NoCheaper` says so of any two pools, and `NoCheaper.worth_le` what it does for somebody's shares.
* `left`: what a step leaves in the pool to those who hold shares.  The worth of somebody's shares rises by no more than that (`worth_step`).  Rounding leaves less than a unit of a redemption and less than the price of a share of a deposit.

Nothing here names a program.
-/

namespace Ryvo

@[ext] structure SharePool where
  total : Nat
  supply : Nat
  deriving DecidableEq

namespace SharePool

variable {p p' : SharePool} {i n k b : Nat}

/-- The pool with interest. -/
def earn (p : SharePool) (i : Nat) : SharePool := ⟨p.total + i, p.supply⟩

@[simp] theorem earn_total : (p.earn i).total = p.total + i := rfl

@[simp] theorem earn_supply : (p.earn i).supply = p.supply := rfl

@[simp] theorem earn_zero : p.earn 0 = p := rfl

/-- The shares a deposit buys. -/
def bought (p : SharePool) (n : Nat) : Nat :=
  if p.supply = 0 ∨ p.total = 0 then n else n * p.supply / p.total

/-- What a redemption pays. -/
def paid (p : SharePool) (b : Nat) : Nat := b * p.total / p.supply

inductive Converts (p : SharePool) : SharePool → Prop
  | deposit {n : Nat} : 0 < n → 0 < p.bought n → Converts p ⟨p.total + n, p.supply + p.bought n⟩
  | redeem {b : Nat} : 0 < b → b ≤ p.supply → Converts p ⟨p.total - p.paid b, p.supply - b⟩

/-- Interest, then at most one conversion.  An empty pool earns nothing. -/
def Step (p p' : SharePool) : Prop :=
  ∃ i, (p.total = 0 → i = 0) ∧ (p' = p.earn i ∨ (p.earn i).Converts p')

theorem Step.refl (p : SharePool) : p.Step p := ⟨0, fun _ => rfl, .inl rfl⟩

/-- There are shares exactly when there is something to share, and no more of them than that. -/
structure Sound (p : SharePool) : Prop where
  empty : p.total = 0 ↔ p.supply = 0
  supply_le : p.supply ≤ p.total

/-! ### Rounding down -/

/-- The shares bought are worth no more than what is paid in. -/
theorem Sound.bought_mul_le (hp : p.Sound) : p.bought n * p.total ≤ n * p.supply := by
  unfold bought
  split
  case isTrue h =>
    have ht : p.total = 0 := h.elim hp.empty.mpr id
    simp [ht]
  case isFalse => exact Nat.div_mul_le_self _ _

/-- A share costs at least one unit. -/
theorem Sound.bought_le (hp : p.Sound) : p.bought n ≤ n := by
  unfold bought
  split
  case isTrue => exact le_rfl
  case isFalse =>
    refine Nat.div_le_of_le_mul ?_
    rw [Nat.mul_comm p.total]
    exact Nat.mul_le_mul_left _ hp.supply_le

theorem paid_mul_le : p.paid b * p.supply ≤ b * p.total := Nat.div_mul_le_self _ _

theorem paid_le (hb : b ≤ p.supply) : p.paid b ≤ p.total :=
  Nat.div_le_of_le_mul (Nat.mul_le_mul_right _ hb)

/-- The last share takes all that is left, and nothing less does. -/
theorem Sound.paid_eq_total_iff (hp : p.Sound) (hpos : 0 < b) (hb : b ≤ p.supply) :
    p.paid b = p.total ↔ b = p.supply := by
  have hS : 0 < p.supply := hpos.trans_le hb
  constructor
  · intro h
    have hle : p.total * p.supply ≤ p.total * b :=
      calc p.total * p.supply = p.paid b * p.supply := by rw [h]
        _ ≤ b * p.total := paid_mul_le
        _ = p.total * b := Nat.mul_comm _ _
    exact le_antisymm hb (Nat.le_of_mul_le_mul_left hle (hS.trans_le hp.supply_le))
  · rintro rfl
    exact Nat.mul_div_cancel_left _ hS

/-! ### What a step keeps -/

theorem Sound.earn (hp : p.Sound) (hi : p.total = 0 → i = 0) : (p.earn i).Sound where
  empty := by
    have := hp.empty
    simp only [earn_total, earn_supply]
    omega
  supply_le := hp.supply_le.trans (Nat.le_add_right _ _)

theorem Converts.sound (hp : p.Sound) (h : p.Converts p') : p'.Sound := by
  cases h with
  | deposit hn hk =>
      exact ⟨by simp only; omega, Nat.add_le_add hp.supply_le hp.bought_le⟩
  | @redeem b hpos hb =>
      have hle := paid_le hb
      have hall := hp.paid_eq_total_iff hpos hb
      refine ⟨by simp only; omega, ?_⟩
      refine Nat.le_of_mul_le_mul_right ?_ (hpos.trans_le hb)
      calc (p.supply - b) * p.supply
          ≤ (p.supply - b) * p.total := Nat.mul_le_mul_left _ hp.supply_le
        _ = p.total * p.supply - b * p.total := by rw [Nat.sub_mul, Nat.mul_comm p.supply]
        _ ≤ p.total * p.supply - p.paid b * p.supply := Nat.sub_le_sub_left paid_mul_le _
        _ = (p.total - p.paid b) * p.supply := (Nat.sub_mul _ _ _).symm

theorem Step.sound (hp : p.Sound) (h : p.Step p') : p'.Sound := by
  obtain ⟨i, hi, rfl | hc⟩ := h
  · exact hp.earn hi
  · exact hc.sound (hp.earn hi)

theorem Converts.rate (hp : p.Sound) (h : p.Converts p') :
    p.total * p'.supply ≤ p'.total * p.supply := by
  cases h with
  | @deposit n hn hk =>
      calc p.total * (p.supply + p.bought n)
          = p.total * p.supply + p.bought n * p.total := by ring
        _ ≤ p.total * p.supply + n * p.supply := Nat.add_le_add_left hp.bought_mul_le _
        _ = (p.total + n) * p.supply := by ring
  | @redeem b hpos hb =>
      calc p.total * (p.supply - b)
          = p.total * p.supply - b * p.total := by rw [Nat.mul_sub, Nat.mul_comm p.total b]
        _ ≤ p.total * p.supply - p.paid b * p.supply := Nat.sub_le_sub_left paid_mul_le _
        _ = (p.total - p.paid b) * p.supply := (Nat.sub_mul _ _ _).symm

/-- The price of a share does not fall. -/
theorem Step.rate (hp : p.Sound) (h : p.Step p') : p.total * p'.supply ≤ p'.total * p.supply := by
  obtain ⟨i, hi, rfl | hc⟩ := h
  · exact Nat.mul_le_mul_right _ (Nat.le_add_right _ _)
  · exact (Nat.mul_le_mul_right _ (Nat.le_add_right _ _)).trans (hc.rate (hp.earn hi))

/-! ### Prices -/

/-- While there are shares, one is worth at least what it was. -/
def NoCheaper (p p' : SharePool) : Prop :=
  0 < p.supply → p.total * p'.supply ≤ p'.total * p.supply

theorem NoCheaper.refl (p : SharePool) : p.NoCheaper p := fun _ => le_rfl

/-- Shares are burned for nothing, or more is put into the pool. -/
theorem NoCheaper.of_le (hT : p.total ≤ p'.total) (hS : p'.supply ≤ p.supply) : p.NoCheaper p' :=
  fun _ => Nat.mul_le_mul hT hS

theorem Step.noCheaper (hp : p.supply ≤ p.total) (h : p.Step p') : p.NoCheaper p' :=
  fun hS => h.rate ⟨by omega, hp⟩

/-- Whoever keeps shares, or gets more of them, keeps what they are worth. -/
theorem NoCheaper.worth_le (h : p.NoCheaper p') {a a' : Nat} (ha : a ≤ a')
    (hp' : a' ≤ p'.supply) :
    Pool.worth a p.total p.supply ≤ Pool.worth a' p'.total p'.supply := by
  rcases Nat.eq_zero_or_pos p.supply with hS | hS
  · simp [Pool.worth, hS]
  · calc Pool.worth a p.total p.supply
        ≤ Pool.worth a p'.total p'.supply := Pool.worth_rate (h hS) fun hz => by omega
      _ ≤ Pool.worth a' p'.total p'.supply := Pool.worth_mono ha le_rfl le_rfl hp'

/-! ### What a step leaves to the others -/

/-- The worth of some shares, unrounded. -/
def worth (k : Nat) (p : SharePool) : ℚ := k * p.total / p.supply

/-- What the total is more than the shares were worth before. -/
def left (p p' : SharePool) : ℚ := p'.total - p.worth p'.supply

theorem left_self (hp : p.Sound) : left p p = 0 := by
  rcases Nat.eq_zero_or_pos p.supply with hS | hS
  · simp [left, worth, hS, hp.empty.mpr hS]
  · have : (p.supply : ℚ) ≠ 0 := by positivity
    simp only [left, worth]
    field_simp
    ring

theorem left_nonneg (hp : p.Sound) (h : p.Step p') : 0 ≤ left p p' := by
  rcases Nat.eq_zero_or_pos p.supply with hS | hS
  · simp [left, worth, hS]
  · have hrate : (p.total : ℚ) * p'.supply ≤ p'.total * p.supply := by exact_mod_cast h.rate hp
    rw [left, worth, sub_nonneg, div_le_iff₀ (by positivity)]
    linarith

/-- Nobody's shares gain more than a step leaves in the pool. -/
theorem worth_step (hp : p.Sound) (h : p.Step p') (hS : 0 < p.supply) (hS' : 0 < p'.supply)
    (hk : k ≤ p'.supply) : p'.worth k ≤ p.worth k + left p p' := by
  have hpos : (0 : ℚ) < p.supply := by positivity
  have hpos' : (0 : ℚ) < p'.supply := by positivity
  have hgain : p'.worth k = p.worth k + k / p'.supply * left p p' := by
    simp only [left, worth]
    field_simp
    ring
  have hpart : (k : ℚ) / p'.supply ≤ 1 := by
    rw [div_le_one hpos']
    exact_mod_cast hk
  rw [hgain]
  have := mul_le_mul_of_nonneg_right hpart (left_nonneg hp h)
  linarith

/-- The shares bought are worth no more than the deposit. -/
theorem worth_bought_le (hp : p.Sound) (hk : 0 < p.bought n) :
    worth (p.bought n) ⟨p.total + n, p.supply + p.bought n⟩ ≤ n := by
  have hle : ((p.bought n : ℚ)) * p.total ≤ n * p.supply := by exact_mod_cast hp.bought_mul_le
  rw [worth, div_le_iff₀ (by positivity)]
  push_cast
  linarith

theorem paid_le_worth : (p.paid b : ℚ) ≤ p.worth b := by
  unfold paid worth
  have h : ((b * p.total / p.supply : ℕ) : ℚ) ≤ ((b * p.total : ℕ) : ℚ) / p.supply := Nat.cast_div_le
  exact_mod_cast h

/-- A redemption leaves less than a unit. -/
theorem left_redeem_lt (hb : b ≤ p.supply) (hS : 0 < p.supply) :
    left p ⟨p.total - p.paid b, p.supply - b⟩ < 1 := by
  have hpos : (0 : ℚ) < p.supply := by positivity
  have hlt : (b : ℚ) * p.total < p.supply * (p.paid b + 1) := by
    exact_mod_cast Nat.lt_mul_div_succ (b * p.total) hS
  rw [left, worth, sub_lt_iff_lt_add, ← sub_lt_iff_lt_add', lt_div_iff₀ hpos]
  push_cast [Nat.cast_sub hb, Nat.cast_sub (paid_le hb)]
  linarith

/-- A deposit leaves less than what one share cost. -/
theorem left_deposit_lt (hS : 0 < p.supply) (hT : 0 < p.total) :
    left p ⟨p.total + n, p.supply + p.bought n⟩ < p.worth 1 := by
  have hpos : (0 : ℚ) < p.supply := by positivity
  have hlt : (n : ℚ) * p.supply < p.total * (p.bought n + 1) := by
    rw [bought, if_neg (by omega)]
    exact_mod_cast Nat.lt_mul_div_succ (n * p.supply) hT
  simp only [left, worth]
  rw [sub_lt_iff_lt_add, ← add_div, lt_div_iff₀ hpos]
  push_cast
  linarith

end SharePool

end Ryvo
