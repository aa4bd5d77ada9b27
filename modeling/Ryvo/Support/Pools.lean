import Mathlib.Tactic.Ring
import Mathlib.Tactic.Linarith

/-!
# Support — Pools

A pool of `S` shares over a total of `T`.  `a` shares are worth `a * T / S`, rounded down, and the lemmas say what a deposit and a redemption at that rate, each rounded against whoever makes it, do to the worth of somebody else's shares.

* `worth_deposit`, `worth_redeem`: it does not fall.
* `worth_deposit_own`: the depositor's own does not rise by more than is paid in; `le_worth_deposit_iff` says exactly what it rises to.
* `worth_redeem_own`, `worth_redeem_own_le`: redeeming shares worth at most `g` takes at most `g`, and at least what is paid out, off the worth of the rest; `redeem_twice` makes two redemptions in a row one.

Where the rate is not the pool's but an index, a share being worth `index` parts in `one`, `buy_le`, `buy_iff` and `buy_unbought` say what `n` adds to the worth of `held` shares when it buys `n * one / index` more, and `raise_le` and `le_raise` what raising the index adds.

Nothing here names a program.
-/

namespace Ryvo.Pool

variable {a a' b b' g k n paid paid' S S' T T' : Nat}

/-- What `a` of `S` shares over `T` are worth. -/
def worth (a T S : Nat) : Nat := a * T / S

theorem worth_mono (ha : a ≤ a') (hT : T ≤ T') (hS : S' ≤ S) (h : a' ≤ S') :
    worth a T S ≤ worth a' T' S' := by
  unfold worth
  rcases Nat.eq_zero_or_pos S' with rfl | hpos
  · obtain rfl : a = 0 := by omega
    simp
  · calc a * T / S ≤ a' * T' / S := Nat.div_le_div_right (Nat.mul_le_mul ha hT)
      _ ≤ a' * T' / S' := Nat.div_le_div_left hS hpos

/-- At a rate that has not fallen. -/
theorem worth_rate (h : T * S' ≤ T' * S) (hS' : S' = 0 → a = 0) : worth a T S ≤ worth a T' S' := by
  unfold worth
  rcases Nat.eq_zero_or_pos S with rfl | hS
  · simp
  rcases Nat.eq_zero_or_pos S' with hz | hpos
  · simp [hS' hz]
  refine (Nat.le_div_iff_mul_le hpos).mpr (Nat.le_of_mul_le_mul_right ?_ hS)
  calc a * T / S * S' * S = a * T / S * S * S' := by ring
    _ ≤ a * T * S' := Nat.mul_le_mul_right _ (Nat.div_mul_le_self _ _)
    _ = a * (T * S') := by ring
    _ ≤ a * (T' * S) := Nat.mul_le_mul_left _ h
    _ = a * T' * S := by ring

/-- Somebody pays `n` in for `k` shares, `k` at most what `n` is worth. -/
theorem worth_deposit (h : k * T ≤ n * S ∨ S = 0 ∨ T = 0) (hS : a ≤ S) :
    worth a T S ≤ worth a (T + n) (S + k) := by
  rcases h with h | rfl | rfl
  · refine worth_rate ?_ fun hz => by omega
    calc T * (S + k) = T * S + k * T := by ring
      _ ≤ T * S + n * S := by omega
      _ = (T + n) * S := by ring
  · simp [worth]
  · simp [worth]

/-- Somebody else redeems `b` shares for at most what they are worth. -/
theorem worth_redeem (hp : paid * S ≤ b * T) (ha : a ≤ S - b) :
    worth a T S ≤ worth a (T - paid) (S - b) := by
  refine worth_rate ?_ fun hz => by omega
  calc T * (S - b) = T * S - b * T := by rw [Nat.mul_sub, Nat.mul_comm T b]
    _ ≤ T * S - paid * S := by omega
    _ = (T - paid) * S := by rw [Nat.sub_mul]

/-- Redeeming `b` shares, at most what `g` is worth, takes at most `g` off what the rest is worth. -/
theorem worth_redeem_own (hp : paid * S ≤ b * T) (hb : b ≤ a) (ha : a ≤ S) (hg : b * T ≤ g * S) :
    worth a T S ≤ worth (a - b) (T - paid) (S - b) + g := by
  refine le_trans ?_ (Nat.add_le_add_right (worth_redeem hp (by omega)) g)
  unfold worth
  rcases Nat.eq_zero_or_pos S with rfl | hS
  · simp
  rw [← Nat.add_mul_div_right _ _ hS]
  refine Nat.div_le_div_right ?_
  calc a * T = (a - b) * T + b * T := by rw [← Nat.add_mul, Nat.sub_add_cancel hb]
    _ ≤ (a - b) * T + g * S := by omega

/-- What is paid in for `k` shares is all that they add to what the depositor has. -/
theorem worth_deposit_own (h : k * T ≤ n * S) (ha : a ≤ S) :
    worth (a + k) (T + n) (S + k) ≤ worth a T S + n := by
  unfold worth
  rcases Nat.eq_zero_or_pos S with rfl | hS
  · obtain rfl : a = 0 := by omega
    rcases Nat.eq_zero_or_pos k with rfl | hk
    · simp
    · obtain rfl : T = 0 := by
        rcases Nat.eq_zero_or_pos T with hT | hT
        · exact hT
        · have := Nat.mul_pos hk hT
          omega
      simp [Nat.mul_div_cancel_left n hk]
  -- Compare the exact values, then round both down.
  have hexact : (a + k) * (T + n) * S ≤ (a * T + n * S) * (S + k) := by
    obtain ⟨c, rfl⟩ := Nat.exists_eq_add_of_le ha
    have := Nat.mul_le_mul_left c h
    nlinarith
  have hlt : a * T < (a * T / S + 1) * S := by
    rw [Nat.mul_comm (a * T / S + 1)]
    exact Nat.lt_mul_div_succ _ hS
  refine Nat.lt_succ_iff.mp ((Nat.div_lt_iff_lt_mul (by omega)).mpr ?_)
  refine Nat.lt_of_mul_lt_mul_right (a := S) ?_
  calc (a + k) * (T + n) * S ≤ (a * T + n * S) * (S + k) := hexact
    _ < ((a * T / S + 1) * S + n * S) * (S + k) :=
        Nat.mul_lt_mul_of_pos_right (by omega) (by omega)
    _ = (a * T / S + n + 1) * (S + k) * S := by ring

/-- What is paid in for shares, and the part of it that buys no whole share and is left to all of them. -/
theorem deposit_exact (ha : a ≤ S) : (a + n * S / T) * (T + n) * S + (S - a) * (n * S % T)
    = (a * T + n * S) * (S + n * S / T) := by
  obtain ⟨d, rfl⟩ := Nat.exists_eq_add_of_le ha
  have hn := Nat.div_add_mod (n * (a + d)) T
  generalize n * (a + d) / T = k at hn ⊢
  generalize n * (a + d) % T = ρ at hn ⊢
  rw [Nat.add_sub_cancel_left, ← hn]
  calc (a + k) * (T + n) * (a + d) + d * ρ
      = (a + k) * (T * (a + d) + n * (a + d)) + d * ρ := by ring
    _ = (a + k) * (T * (a + d) + (T * k + ρ)) + d * ρ := by rw [hn]
    _ = (a * T + (T * k + ρ)) * (a + d + k) := by ring

/-- The depositor's shares come to be worth `g` or more exactly when what the deposit leaves to the others fits in what the shares and the deposit are worth beyond `g`. -/
theorem le_worth_deposit_iff (hS : 0 < S) (ha : a ≤ S) (hg : g * S ≤ a * T + n * S) :
    g ≤ worth (a + n * S / T) (T + n) (S + n * S / T) ↔
      (S - a) * (n * S % T) ≤ (a * T + n * S - g * S) * (S + n * S / T) := by
  have hexact := @deposit_exact a n S T ha
  have hpos : 0 < S + n * S / T := Nat.add_pos_left hS _
  obtain ⟨x, hx⟩ := Nat.exists_eq_add_of_le hg
  rw [worth, Nat.le_div_iff_mul_le hpos, ← Nat.mul_le_mul_right_iff hS, hx, Nat.add_sub_cancel_left]
  rw [hx, Nat.add_mul (g * S)] at hexact
  rw [show g * (S + n * S / T) * S = g * S * (S + n * S / T) by ring]
  omega

/-- Redeeming takes off at least what it pays. -/
theorem worth_redeem_own_le (hp : paid * S ≤ b * T) (hb : b ≤ a) (ha : a ≤ S) (hS : 0 < S) :
    worth (a - b) (T - paid) (S - b) + paid ≤ worth a T S := by
  unfold worth
  rw [Nat.le_div_iff_mul_le hS]
  obtain ⟨a', rfl⟩ := Nat.exists_eq_add_of_le hb
  obtain ⟨c, rfl⟩ := Nat.exists_eq_add_of_le ha
  obtain ⟨T', rfl⟩ : ∃ T', T = paid + T' := by
    refine Nat.exists_eq_add_of_le (Nat.le_of_mul_le_mul_right ?_ hS)
    exact hp.trans (by rw [Nat.mul_comm T]; exact Nat.mul_le_mul_right _ (by omega))
  simp only [Nat.add_sub_cancel_left, Nat.add_assoc]
  rcases Nat.eq_zero_or_pos (a' + c) with hz | hpos
  · obtain ⟨rfl, rfl⟩ : a' = 0 ∧ c = 0 := by omega
    simpa using hp
  refine le_of_mul_le_mul_right (a := a' + c) ?_ hpos
  have hq := Nat.div_mul_le_self (a' * T') (a' + c)
  have := Nat.mul_le_mul_left c hp
  nlinarith [Nat.mul_le_mul_right (b + (a' + c)) hq]

/-- Two redemptions in a row, the second at the rate the first has left, are paid for by what the shares of both are worth to begin with. -/
theorem redeem_twice (h : paid * S ≤ b * T) (h' : paid' * (S - b) ≤ b' * (T - paid))
    (hb : b + b' ≤ S) (hz : b' = 0 → paid' = 0) (hT : paid ≤ T) :
    (paid + paid') * S ≤ (b + b') * T := by
  rcases Nat.eq_zero_or_pos b' with hb' | hb'
  · rw [hb', hz hb']
    exact h
  obtain ⟨c, rfl⟩ := Nat.exists_eq_add_of_le hb
  obtain ⟨T', rfl⟩ := Nat.exists_eq_add_of_le hT
  simp only [Nat.add_assoc, Nat.add_sub_cancel_left] at h h' ⊢
  -- Multiplied by the shares the first leaves, of which the second takes `b'` and leaves `c`.
  refine Nat.le_of_mul_le_mul_right (c := b' + c) ?_ (by omega)
  have h₂ := Nat.mul_le_mul_left (b + (b' + c)) h'
  nlinarith [Nat.mul_le_mul_left c h]

/-! ### At an index -/

variable {c held index one : Nat}

/-- What is bought, and the part of the payment that buys nothing. -/
theorem buy_exact : (held + n * one / index) * index + n * one % index = held * index + n * one := by
  rw [Nat.add_mul, Nat.add_assoc, Nat.div_add_mod']

theorem buy_le (hone : 0 < one) :
    (held + n * one / index) * index / one ≤ held * index / one + n := by
  rw [← Nat.add_mul_div_right _ _ hone]
  exact Nat.div_le_div_right (@buy_exact n held index one ▸ Nat.le_add_right _ _)

/-- Shares that are sold, and those that are kept, are worth no more than all of them were. -/
theorem sell_le (h : n ≤ held) :
    (held - n) * index / one + n * index / one ≤ held * index / one := by
  refine Nat.div_add_div_le_add_div.trans (Nat.div_le_div_right ?_)
  rw [← Nat.add_mul, Nat.sub_add_cancel h]

/-- No more than `c` is lost exactly when the part that buys nothing fits in `c` and what rounding had cut off already. -/
theorem buy_iff (hone : 0 < one) :
    held * index / one + n ≤ (held + n * one / index) * index / one + c ↔
      n * one % index ≤ held * index % one + c * one := by
  have hexact := @buy_exact n held index one
  have hdiv := Nat.div_add_mod' (held * index) one
  have hrest := Nat.mod_le (n * one) index
  generalize held * index / one = had at hdiv ⊢
  rcases Nat.lt_or_ge (had + n) c with hlt | hge
  · -- Less than `c` in all: there is not so much to lose.
    refine iff_of_true ((Nat.le_of_lt hlt).trans (Nat.le_add_left _ _)) ?_
    have := Nat.mul_le_mul_right one (show n ≤ c by omega)
    omega
  · obtain ⟨x, hx⟩ := Nat.exists_eq_add_of_le hge
    rw [hx, Nat.add_comm c x, Nat.add_le_add_iff_right, Nat.le_div_iff_mul_le hone]
    have := congrArg (· * one) hx
    simp only [Nat.add_mul] at this
    omega

/-- The part of a payment that is not added to the worth of what is held: the part that buys nothing, less what rounding had cut off already, in whole units. -/
def unbought (held n index one : Nat) : Nat :=
  (n * one % index + (one - 1 - held * index % one)) / one

theorem buy_unbought (hone : 0 < one) :
    (held + n * one / index) * index / one + unbought held n index one
      = held * index / one + n := by
  have hexact := @buy_exact n held index one
  have hdiv := Nat.div_add_mod' (held * index) one
  have hmod := Nat.mod_lt (held * index) hone
  unfold unbought
  generalize held * index / one = had at hdiv ⊢
  generalize held * index % one = f at hdiv hmod ⊢
  have hloss := Nat.div_add_mod' (n * one % index + (one - 1 - f)) one
  have hrest := Nat.mod_lt (n * one % index + (one - 1 - f)) hone
  generalize (n * one % index + (one - 1 - f)) / one = c at hloss ⊢
  generalize (n * one % index + (one - 1 - f)) % one = e at hloss hrest
  rw [← Nat.add_mul_div_right _ _ hone, show (held + n * one / index) * index + c * one
    = (one - 1 - e) + (had + n) * one by rw [Nat.add_mul had]; omega, Nat.add_mul_div_right _ _ hone,
    Nat.div_eq_of_lt (by omega), Nat.zero_add]

/-- An index raised by what `c` is for each of the `held` adds at most `c` to their worth. -/
theorem raise_le (hone : 0 < one) :
    held * (index + c * one / held) / one ≤ held * index / one + c := by
  rw [← Nat.add_mul_div_right _ _ hone, Nat.mul_add]
  exact Nat.div_le_div_right (Nat.add_le_add_left (Nat.mul_div_le _ _) _)

/-- It adds at least `c` less one while there are no more of them than parts. -/
theorem le_raise (hheld : 0 < held) (hone : held ≤ one) :
    held * index / one + c ≤ held * (index + c * one / held) / one + 1 := by
  have hpos : 0 < one := by omega
  have hgt : c * one < held * (c * one / held) + held := Nat.lt_mul_div_succ _ hheld
  rw [← Nat.add_mul_div_right _ _ hpos, ← Nat.add_div_right _ hpos, Nat.mul_add]
  exact Nat.div_le_div_right (by omega)

/-- Paying `g` out of the pool takes as many shares as `g` is worth, and they may be worth less: how much less. -/
theorem dust_iff (hS : 0 < S) : g ≤ worth (g * S / T) T S + c ↔ g * S % T ≤ c * S := by
  simpa [worth] using @buy_iff g c 0 T S hS

end Ryvo.Pool
