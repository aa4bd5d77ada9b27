import Ryvo.Books.Lending

/-!
# Books — Accrual

Interest booked in several calls against interest booked in one.  A call books the interest of the time since the last one, rounded down, and stamps the time either way: what it rounds off is never booked again.  What it books earns interest from then on.

* `accrueAll`: one call after another.
* `lost`: the fractions of a base unit that the starting total's own interest leaves over in the gaps between calls, but for the gaps in which interest on interest fills a unit.
* `accrueAll_keepsUp`: while these stay below two units, the calls keep up with a single one.  Where interest on interest never fills a unit, they do so only then.
* `accrueAll_stalls`: calls too close together for a whole unit book nothing, however many there are; `accrueAll_falls_behind` is a dollar accrued every minute.
-/

namespace Ryvo.Lending

variable {r₀ r r' s : Reserve} {now last : Int} {ts : List Int} {booked : Nat}

/-- The parts interest is reckoned in, to a base unit. -/
def partsPerUnit : Nat := bpsDenom * secondsPerYear

/-- The seconds a call books interest for. -/
def elapsed (r : Reserve) (now : Int) : Nat := (now - r.lastAccrualTs).toNat

/-- The interest a call is due, in parts of a base unit. -/
def due (r : Reserve) (now : Int) : Nat := r.totalUnderlying * r.apyBps * elapsed r now

/-- Calls at these times, in this order. -/
def accrueAll (r : Reserve) (ts : List Int) : Result Reserve := ts.foldlM accrueInner r

/-- What a call leaves behind. -/
theorem accrueInner_spec (h : accrueInner r now = .ok r') :
    r'.totalUnderlying = r.totalUnderlying + due r now / partsPerUnit ∧ r'.apyBps = r.apyBps ∧
      r'.lastAccrualTs = max r.lastAccrualTs now := by
  unfold accrueInner at h
  split at h
  case isTrue hle =>
    cases h
    have hz : elapsed r now = 0 := Int.toNat_eq_zero.mpr (by omega)
    exact ⟨by simp [due, hz], rfl, (max_eq_left hle).symm⟩
  case isFalse hlt =>
    have hmax : max r.lastAccrualTs now = now := max_eq_right (by omega)
    split at h
    case isTrue hz =>
      cases h
      have hd : due r now = 0 := by
        rcases hz with hz | hz <;> simp [due, hz]
      exact ⟨by simp [hd], rfl, hmax.symm⟩
    case isFalse =>
      simp only [Except.bind_eq_ok, checkedMul_eq_ok, checkedAdd_eq_ok, tryFrom_eq_ok,
        Except.pure_eq_ok] at h
      obtain ⟨_, ⟨rfl, -⟩, _, ⟨rfl, -⟩, _, ⟨rfl, -⟩, _, ⟨rfl, -⟩, rfl⟩ := h
      exact ⟨rfl, rfl, hmax.symm⟩

/-! ### Several calls -/

/-- Calls change nothing but the total and the time stamp, and neither goes back. -/
structure Forward (r₀ r : Reserve) : Prop where
  total : r₀.totalUnderlying ≤ r.totalUnderlying
  rate : r.apyBps = r₀.apyBps
  time : r₀.lastAccrualTs ≤ r.lastAccrualTs

theorem Forward.accrueInner (hf : Forward r₀ r) (h : accrueInner r now = .ok r') :
    Forward r₀ r' := by
  obtain ⟨htotal, hrate, htime⟩ := accrueInner_spec h
  refine ⟨hf.total.trans ?_, hrate.trans hf.rate, hf.time.trans ?_⟩
  · rw [htotal]
    exact Nat.le_add_right _ _
  · rw [htime]
    exact le_max_left _ _

/-! ### What the gaps leave over -/

/-- The seconds between calls at these times, the first after `last`. -/
def gaps (last : Int) : List Int → List Nat
  | [] => []
  | t :: ts => (t - last).toNat :: gaps (max last t) ts

/-- The interest the starting total earns in a gap, in parts. -/
def simpleInterest (r₀ : Reserve) (gap : Nat) : Nat := r₀.totalUnderlying * r₀.apyBps * gap

/-- The fractions of a unit left over in the gaps, where `booked` units are already earning interest themselves.  In a gap in which that interest comes to a unit, the fraction is made good. -/
def lost (r₀ : Reserve) : Nat → List Nat → Nat
  | _, [] => 0
  | booked, gap :: gs =>
      (if partsPerUnit ≤ booked * r₀.apyBps * gap then 0 else simpleInterest r₀ gap % partsPerUnit)
        + lost r₀ (booked + simpleInterest r₀ gap / partsPerUnit) gs

/-- In no gap do the fraction left over and the interest on what is booked come to a unit. -/
def NoneMadeGood (r₀ : Reserve) : Nat → List Nat → Prop
  | _, [] => True
  | booked, gap :: gs =>
      simpleInterest r₀ gap % partsPerUnit + booked * r₀.apyBps * gap < partsPerUnit ∧
        NoneMadeGood r₀ (booked + simpleInterest r₀ gap / partsPerUnit) gs

/-- Later calls are past the stamp, so the gaps add up. -/
theorem sum_gaps (h : (ts ++ [now]).Pairwise (· < ·)) :
    ((gaps last (ts ++ [now])).sum : Int) = (now - last).toNat := by
  induction ts generalizing last with
  | nil => simp [gaps]
  | cons t ts ih =>
      obtain ⟨hlt, hrest⟩ := List.pairwise_cons.mp h
      have hnow : t < now := hlt now (by simp)
      rw [List.cons_append, gaps, List.sum_cons, Nat.cast_add, ih hrest]
      omega

theorem sum_simpleInterest (gs : List Nat) :
    (gs.map (simpleInterest r₀)).sum = simpleInterest r₀ gs.sum := by
  induction gs with
  | nil => rfl
  | cons g gs ih =>
      rw [List.map_cons, List.sum_cons, List.sum_cons, ih]
      simp only [simpleInterest]
      ring

/-- What a call is due: the starting total's interest, and the interest on what has been booked since. -/
theorem due_eq (hf : Forward r₀ r) (now : Int) : due r now = simpleInterest r₀ (elapsed r now)
    + (r.totalUnderlying - r₀.totalUnderlying) * r₀.apyBps * elapsed r now := by
  have htotal := Nat.add_sub_of_le hf.total
  rw [due, hf.rate, simpleInterest, ← Nat.add_mul, ← Nat.add_mul, htotal]

/-- Calls book the starting total's interest, short of what is lost. -/
theorem le_booked (hf : Forward r₀ r) (hb : r₀.totalUnderlying + booked ≤ r.totalUnderlying)
    (h : accrueAll r ts = .ok r') :
    partsPerUnit * r.totalUnderlying + ((gaps r.lastAccrualTs ts).map (simpleInterest r₀)).sum
      ≤ partsPerUnit * r'.totalUnderlying + lost r₀ booked (gaps r.lastAccrualTs ts) := by
  induction ts generalizing r booked with
  | nil =>
      cases h
      simp [gaps, lost]
  | cons t ts ih =>
      obtain ⟨r₁, h₁, hrest⟩ := foldlM_cons_eq_ok.mp h
      obtain ⟨htotal, -, htime⟩ := accrueInner_spec h₁
      have hdue := due_eq hf t
      have hinterest : booked * r₀.apyBps * elapsed r t
          ≤ (r.totalUnderlying - r₀.totalUnderlying) * r₀.apyBps * elapsed r t :=
        Nat.mul_le_mul_right _ (Nat.mul_le_mul_right _ (by omega))
      have hle : simpleInterest r₀ (elapsed r t) / partsPerUnit ≤ due r t / partsPerUnit :=
        Nat.div_le_div_right (by omega)
      have hb₁ : r₀.totalUnderlying + (booked + simpleInterest r₀ (elapsed r t) / partsPerUnit)
          ≤ r₁.totalUnderlying := by omega
      have hrun := ih (hf.accrueInner h₁) hb₁ hrest
      rw [htime] at hrun
      rw [gaps, List.map_cons, List.sum_cons, lost, ← elapsed]
      -- This call alone is short of a fraction at most, and of nothing when interest on interest fills a unit.
      have hcall : simpleInterest r₀ (elapsed r t) ≤ partsPerUnit * (due r t / partsPerUnit)
          + if partsPerUnit ≤ booked * r₀.apyBps * elapsed r t then 0
            else simpleInterest r₀ (elapsed r t) % partsPerUnit := by
        have hdiv := Nat.div_add_mod (due r t) partsPerUnit
        have hmod : due r t % partsPerUnit < partsPerUnit := Nat.mod_lt _ (by decide)
        split
        · omega
        · have hself := Nat.div_add_mod (simpleInterest r₀ (elapsed r t)) partsPerUnit
          have := Nat.mul_le_mul_left partsPerUnit hle
          omega
      rw [htotal, Nat.mul_add] at hrun
      omega

/-- Where nothing is made good, that is all they book. -/
theorem booked_eq (hf : Forward r₀ r) (hb : r.totalUnderlying = r₀.totalUnderlying + booked)
    (hn : NoneMadeGood r₀ booked (gaps r.lastAccrualTs ts)) (h : accrueAll r ts = .ok r') :
    partsPerUnit * r.totalUnderlying + ((gaps r.lastAccrualTs ts).map (simpleInterest r₀)).sum
      = partsPerUnit * r'.totalUnderlying + lost r₀ booked (gaps r.lastAccrualTs ts) := by
  induction ts generalizing r booked with
  | nil =>
      cases h
      simp [gaps, lost]
  | cons t ts ih =>
      obtain ⟨r₁, h₁, hrest⟩ := foldlM_cons_eq_ok.mp h
      obtain ⟨htotal, -, htime⟩ := accrueInner_spec h₁
      obtain ⟨hsmall, hn⟩ := hn
      rw [← elapsed] at hsmall hn
      have hdue := due_eq hf t
      rw [show r.totalUnderlying - r₀.totalUnderlying = booked by omega] at hdue
      have hself := Nat.div_add_mod (simpleInterest r₀ (elapsed r t)) partsPerUnit
      have hwhole : due r t / partsPerUnit = simpleInterest r₀ (elapsed r t) / partsPerUnit :=
        Nat.div_eq_of_lt_le (by rw [Nat.mul_comm]; omega) (by rw [Nat.mul_comm, Nat.mul_add]; omega)
      rw [hwhole] at htotal
      have hb₁ : r₁.totalUnderlying
          = r₀.totalUnderlying + (booked + simpleInterest r₀ (elapsed r t) / partsPerUnit) := by omega
      have hrun := ih (hf.accrueInner h₁) hb₁ (htime ▸ hn) hrest
      rw [htime] at hrun
      rw [gaps, List.map_cons, List.sum_cons, lost, ← elapsed, if_neg (by omega)]
      rw [htotal, Nat.mul_add] at hrun
      omega

/-- **When calling often costs no interest**: where the fractions left over in the gaps come to less than two base units, the total after calls at these times is within one unit of what one call at the last of them leaves; and where interest on interest never makes a fraction good, only then. -/
theorem accrueAll_keepsUp (hts : (ts ++ [now]).Pairwise (· < ·))
    (hr : accrueAll r₀ (ts ++ [now]) = .ok r) (hs : accrueInner r₀ now = .ok s) :
    (lost r₀ 0 (gaps r₀.lastAccrualTs (ts ++ [now])) < 2 * partsPerUnit →
      s.totalUnderlying ≤ r.totalUnderlying + 1) ∧
    (NoneMadeGood r₀ 0 (gaps r₀.lastAccrualTs (ts ++ [now])) →
      (s.totalUnderlying ≤ r.totalUnderlying + 1 ↔
        lost r₀ 0 (gaps r₀.lastAccrualTs (ts ++ [now])) < 2 * partsPerUnit)) := by
  have hself : Forward r₀ r₀ := ⟨le_rfl, rfl, le_rfl⟩
  have hsum : (gaps r₀.lastAccrualTs (ts ++ [now])).sum = elapsed r₀ now :=
    Int.ofNat_inj.mp (sum_gaps hts)
  have hwindow : ((gaps r₀.lastAccrualTs (ts ++ [now])).map (simpleInterest r₀)).sum
      = due r₀ now := by
    rw [sum_simpleInterest, hsum]
    rfl
  have hsingle : partsPerUnit * s.totalUnderlying + due r₀ now % partsPerUnit
      = partsPerUnit * r₀.totalUnderlying + due r₀ now := by
    have := Nat.div_add_mod (due r₀ now) partsPerUnit
    rw [(accrueInner_spec hs).1, Nat.mul_add]
    omega
  have hmod : due r₀ now % partsPerUnit < partsPerUnit := Nat.mod_lt _ (by decide)
  have hle := le_booked hself (Nat.add_zero _).le hr
  rw [hwindow] at hle
  have hkeeps : lost r₀ 0 (gaps r₀.lastAccrualTs (ts ++ [now])) < 2 * partsPerUnit →
      s.totalUnderlying ≤ r.totalUnderlying + 1 := by
    intro hlost
    have : partsPerUnit * s.totalUnderlying < partsPerUnit * (r.totalUnderlying + 2) := by
      rw [Nat.mul_add]
      omega
    have := Nat.lt_of_mul_lt_mul_left this
    omega
  refine ⟨hkeeps, fun hn => ⟨fun h => ?_, hkeeps⟩⟩
  have heq := booked_eq hself (Nat.add_zero _).symm hn hr
  rw [hwindow] at heq
  have : partsPerUnit * s.totalUnderlying ≤ partsPerUnit * (r.totalUnderlying + 1) :=
    Nat.mul_le_mul_left _ h
  rw [Nat.mul_add] at this
  omega

/-! ### Falling behind -/

/-- While no gap between calls earns a whole unit, nothing is ever booked. -/
theorem accrueAll_stalls {gap : Nat} (hgap : r₀.totalUnderlying * r₀.apyBps * gap < partsPerUnit)
    (hts : (r₀.lastAccrualTs :: ts).IsChain fun t t' : Int => t < t' ∧ t' ≤ t + gap)
    (hr : accrueAll r₀ ts = .ok r) : r.totalUnderlying = r₀.totalUnderlying := by
  induction ts generalizing r₀ with
  | nil =>
      cases hr
      rfl
  | cons t ts ih =>
      obtain ⟨r₁, h₁, hrest⟩ := foldlM_cons_eq_ok.mp hr
      obtain ⟨htotal, hrate, htime⟩ := accrueInner_spec h₁
      obtain ⟨⟨hlt, hle⟩, hchain⟩ := List.isChain_cons_cons.mp hts
      have hdue : due r₀ t < partsPerUnit := by
        refine lt_of_le_of_lt (Nat.mul_le_mul_left _ ?_) hgap
        rw [elapsed]
        omega
      rw [Nat.div_eq_of_lt hdue, Nat.add_zero] at htotal
      rw [max_eq_right hlt.le] at htime
      rw [← htotal]
      exact ih (by rw [htotal, hrate]; exact hgap) (by rw [htime]; exact hchain) hrest

/-- One dollar at the highest rate. -/
def oneDollar : Reserve where
  underlyingMint := ⟨1, by decide⟩
  shareMint := ⟨2, by decide⟩
  liquidityVault := ⟨3, by decide⟩
  authority := ⟨4, by decide⟩
  apyBps := maxApyBps
  lastAccrualTs := 1700000000
  totalUnderlying := 1000000

/-- Accrued every 63 seconds, it earns nothing; left alone for as long, two units. -/
theorem accrueAll_falls_behind : ∃ r s,
    accrueAll oneDollar [1700000063, 1700000126, 1700000189] = .ok r ∧
      accrueInner oneDollar 1700000189 = .ok s ∧ ¬ s.totalUnderlying ≤ r.totalUnderlying + 1 :=
  ⟨_, _, rfl, rfl, by decide⟩

/-- Interest on interest makes nothing good there. -/
example : NoneMadeGood oneDollar 0
    (gaps oneDollar.lastAccrualTs [1700000063, 1700000126, 1700000189]) :=
  ⟨by decide, by decide, by decide, trivial⟩

/-- Accrued after a year and ten seconds later, it keeps up. -/
theorem accrueAll_keepsUp_oneDollar : ∃ r s,
    accrueAll oneDollar [1731536000, 1731536010] = .ok r ∧
      accrueInner oneDollar 1731536010 = .ok s ∧ s.totalUnderlying ≤ r.totalUnderlying + 1 := by
  have hlater : ([1731536000] ++ [1731536010] : List Int).Pairwise (· < ·) := by decide
  have hlost : lost oneDollar 0 (gaps oneDollar.lastAccrualTs ([1731536000] ++ [1731536010]))
      < 2 * partsPerUnit := by decide
  obtain ⟨r, hr⟩ : ∃ r, accrueAll oneDollar ([1731536000] ++ [1731536010]) = .ok r := ⟨_, rfl⟩
  obtain ⟨s, hs⟩ : ∃ s, accrueInner oneDollar 1731536010 = .ok s := ⟨_, rfl⟩
  exact ⟨r, s, hr, hs, (accrueAll_keepsUp hlater hr hs).1 hlost⟩

end Ryvo.Lending
