/-
# The fewest digits

The decimals that read as one double fill an interval (`ReadingInterval.Holds`), and the digits
written for it are those of the coarsest decimal grid with a point in this interval
(`ReadingInterval.Coarsest`).  This is what it takes:

* comparing a decimal with an end of the interval is comparing natural numbers
  (`ReadingInterval.gridFactors_iff`);
* if a grid has any point in the interval, one of the two neighbours of the value is one, since the
  value itself is inside (`ReadingInterval.pointOn_eq_none`);
* no grid from the first one tried on has a point inside (`ReadingInterval.topGrid_spec`), the last
  one tried always has (`ReadingInterval.pointOn_ne_none`), and the search takes the first that has.

A point of a coarsest grid has the fewest digits: any decimal in the interval with fewer would leave
a power of ten between the two, and that is on a coarser grid
(`ReadingInterval.Coarsest.length_le`).
-/
import CpScan.Decimal.Shortest
import CpScan.Proofs.Decimal.Digits
import CpScan.Proofs.Decimal.Rounding

namespace CpScan

namespace ReadingInterval

/-! ## 1. The numbers in an interval -/

/-- The number lies in the interval. -/
def Holds (i : ReadingInterval) (v : ℚ) : Prop :=
  if i.closed then i.low * 2 ^ i.unit ≤ v ∧ v ≤ i.high * 2 ^ i.unit
  else i.low * 2 ^ i.unit < v ∧ v < i.high * 2 ^ i.unit

/-- The ends of the interval are on both sides of the value, and zero is outside. -/
structure Proper (i : ReadingInterval) : Prop where
  low_pos : 0 < i.low
  low_lt : i.low < i.value
  lt_high : i.value < i.high

theorem Proper.of {m : Nat} (hm : 0 < m) (q : Int) : (ReadingInterval.of m q).Proper := by
  unfold ReadingInterval.of
  constructor
  · dsimp only
    split <;> omega
  · dsimp only
    split <;> omega
  · dsimp only
    omega

variable {i : ReadingInterval} {u v w : ℚ}

/-- What is between two numbers of an interval is in it too. -/
theorem Holds.between (hu : i.Holds u) (hw : i.Holds w) (huv : u ≤ v) (hvw : v ≤ w) :
    i.Holds v := by
  unfold Holds at *
  split at hu
  · next hclosed =>
    rw [if_pos hclosed] at hw ⊢
    exact ⟨hu.1.trans huv, hvw.trans hw.2⟩
  · next hopen =>
    rw [if_neg hopen] at hw ⊢
    exact ⟨hu.1.trans_le huv, hvw.trans_lt hw.2⟩

/-- What is strictly between the ends is in the interval, closed or not. -/
theorem Holds.inner (hlow : i.low * 2 ^ i.unit < v) (hhigh : v < i.high * 2 ^ i.unit) :
    i.Holds v := by
  unfold Holds
  split
  · exact ⟨hlow.le, hhigh.le⟩
  · exact ⟨hlow, hhigh⟩

theorem Proper.holds_value (hi : i.Proper) : i.Holds (i.value * 2 ^ i.unit) := by
  have hunit : (0 : ℚ) < 2 ^ i.unit := by positivity
  exact .inner (mul_lt_mul_of_pos_right (by exact_mod_cast hi.low_lt) hunit)
    (mul_lt_mul_of_pos_right (by exact_mod_cast hi.lt_high) hunit)

theorem Holds.le (h : i.Holds v) : i.low * 2 ^ i.unit ≤ v ∧ v ≤ i.high * 2 ^ i.unit := by
  unfold Holds at h
  split at h
  · exact h
  · exact ⟨h.1.le, h.2.le⟩

/-- A proper interval holds positive numbers only. -/
theorem Holds.pos (h : i.Holds v) (hi : i.Proper) : 0 < v := by
  have hlow : (0 : ℚ) < i.low := by exact_mod_cast hi.low_pos
  have hunit : (0 : ℚ) < 2 ^ i.unit := by positivity
  exact (mul_pos hlow hunit).trans_le h.le.1

/-! ## 2. One grid -/

theorem gridFactors_pos (p u : Int) : 0 < (gridFactors p u).1 ∧ 0 < (gridFactors p u).2 :=
  ⟨Nat.mul_pos (Nat.pow_pos (by decide)) (Nat.pow_pos (by decide)),
    Nat.mul_pos (Nat.pow_pos (by decide)) (Nat.pow_pos (by decide))⟩

/-- The factors stand in the proportion of the two powers. -/
theorem gridFactors_eq (p u : Int) :
    ((gridFactors p u).1 : ℚ) * 2 ^ u = (gridFactors p u).2 * 10 ^ p := by
  have hsplit (b : ℚ) (hb : b ≠ 0) (e : Int) : b ^ e * b ^ (-e).toNat = b ^ e.toNat := by
    rw [← zpow_natCast, ← zpow_natCast, ← zpow_add₀ hb]
    congr 1
    omega
  have hten := hsplit 10 (by norm_num) p
  have htwo := hsplit 2 (by norm_num) u
  simp only [gridFactors, Nat.pow_eq, Nat.cast_mul, Nat.cast_pow, Nat.cast_ofNat]
  rw [← hten, ← htwo]
  ring

/-- **The comparison of a point with a binary number**, in natural numbers. -/
theorem gridFactors_iff (d x : Nat) (p u : Int) :
    (d * 10 ^ p ≤ (x * 2 ^ u : ℚ) ↔ d * (gridFactors p u).1 ≤ x * (gridFactors p u).2) ∧
      (x * 2 ^ u ≤ (d * 10 ^ p : ℚ) ↔ x * (gridFactors p u).2 ≤ d * (gridFactors p u).1) := by
  obtain ⟨hfirst, hsecond⟩ := gridFactors_pos p u
  have heq := gridFactors_eq p u
  generalize gridFactors p u = f at *
  obtain ⟨a, b⟩ := f
  have ha : (0 : ℚ) < a := by exact_mod_cast hfirst
  have hb : (0 : ℚ) < b := by exact_mod_cast hsecond
  have hten : (0 : ℚ) < 10 ^ p := by positivity
  have htwo : (0 : ℚ) < 2 ^ u := by positivity
  -- both sides times one positive number
  have hpoint : (d * 10 ^ p : ℚ) * (a * b) = d * a * (b * 10 ^ p) := by ring
  have hnumber : (x * 2 ^ u : ℚ) * (a * b) = x * b * (b * 10 ^ p) := by
    rw [← heq]
    ring
  have hscale : (0 : ℚ) < b * 10 ^ p := mul_pos hb hten
  constructor
  · rw [← mul_le_mul_iff_of_pos_right (mul_pos ha hb), hpoint, hnumber,
      mul_le_mul_iff_of_pos_right hscale]
    exact_mod_cast Iff.rfl
  · rw [← mul_le_mul_iff_of_pos_right (mul_pos ha hb), hpoint, hnumber,
      mul_le_mul_iff_of_pos_right hscale]
    exact_mod_cast Iff.rfl

/-- Whether a point of a grid is in the interval, in natural numbers. -/
theorem holds_point (i : ReadingInterval) (n : Nat) (p : Int) :
    i.Holds (n * 10 ^ p) ↔
      if i.closed then i.low * (gridFactors p i.unit).2 ≤ n * (gridFactors p i.unit).1 ∧
        n * (gridFactors p i.unit).1 ≤ i.high * (gridFactors p i.unit).2
      else i.low * (gridFactors p i.unit).2 < n * (gridFactors p i.unit).1 ∧
        n * (gridFactors p i.unit).1 < i.high * (gridFactors p i.unit).2 := by
  obtain ⟨hbelow, -⟩ := gridFactors_iff n i.high p i.unit
  obtain ⟨habove', habove⟩ := gridFactors_iff n i.low p i.unit
  obtain ⟨-, hbelow'⟩ := gridFactors_iff n i.high p i.unit
  unfold Holds
  split
  · rw [habove, hbelow]
  · rw [← not_le, ← not_le, habove', hbelow', not_le, not_le]

/-- The neighbour of the value below it on a grid. -/
def neighbour (i : ReadingInterval) (p : Int) : Nat :=
  i.value * (gridFactors p i.unit).2 / (gridFactors p i.unit).1

/-- The value is at its neighbour or between that and the next point. -/
theorem neighbour_bounds (i : ReadingInterval) (p : Int) :
    (i.neighbour p * 10 ^ p : ℚ) ≤ i.value * 2 ^ i.unit ∧
      (i.value * 2 ^ i.unit : ℚ) < (i.neighbour p + 1 : Nat) * 10 ^ p := by
  obtain ⟨hpos, -⟩ := gridFactors_pos p i.unit
  refine ⟨(gridFactors_iff _ _ _ _).1.mpr (Nat.div_mul_le_self _ _), ?_⟩
  rw [← not_le, (gridFactors_iff _ _ _ _).1, not_le]
  exact (Nat.div_lt_iff_lt_mul hpos).mp (Nat.lt_succ_self _)

/-- Only the two neighbours are looked at, and what is found is one that is in the interval. -/
theorem pointOn_spec (i : ReadingInterval) (p : Int) :
    (∀ d, i.pointOn p = some d → i.Holds (d * 10 ^ p)) ∧
      (i.pointOn p = none →
        ¬ i.Holds (i.neighbour p * 10 ^ p) ∧ ¬ i.Holds ((i.neighbour p + 1 : Nat) * 10 ^ p)) := by
  simp only [holds_point, neighbour, pointOn]
  grind

/-- **If nothing is found on a grid, it has no point in the interval**: a point further from the
value than the neighbour on its side would have that neighbour between them. -/
theorem not_holds_of_pointOn {p : Int} (hi : i.Proper) (h : i.pointOn p = none) (c : Nat) :
    ¬ i.Holds (c * 10 ^ p) := by
  intro hc
  obtain ⟨hbelow, habove⟩ := (pointOn_spec i p).2 h
  obtain ⟨hle, hlt⟩ := neighbour_bounds i p
  have hgrid : (0 : ℚ) < 10 ^ p := by positivity
  rcases Nat.lt_or_ge c (i.neighbour p + 1) with hfar | hfar
  · refine hbelow (hc.between hi.holds_value ?_ hle)
    exact mul_le_mul_of_nonneg_right (by exact_mod_cast Nat.lt_succ_iff.mp hfar) hgrid.le
  · refine habove (hi.holds_value.between hc hlt.le ?_)
    exact mul_le_mul_of_nonneg_right (by exact_mod_cast hfar) hgrid.le

/-- A grid that is no coarser than the unit of the interval has a point in it. -/
theorem pointOn_ne_none {p : Int} (hi : i.Proper) (hp : (10 : ℚ) ^ p ≤ 2 ^ i.unit) :
    i.pointOn p ≠ none := by
  intro h
  obtain ⟨hle, hlt⟩ := neighbour_bounds i p
  have hunit : (0 : ℚ) < 2 ^ i.unit := by positivity
  refine ((pointOn_spec i p).2 h).1 (.inner ?_ ?_)
  · have hlow : (i.low + 1 : ℚ) * 2 ^ i.unit ≤ i.value * 2 ^ i.unit :=
      mul_le_mul_of_nonneg_right (by exact_mod_cast hi.low_lt) hunit.le
    push_cast at hlt
    linarith
  · exact hle.trans_lt (mul_lt_mul_of_pos_right (by exact_mod_cast hi.lt_high) hunit)

/-! ## 3. The search -/

/-- The grids before the first hit have no point, and if there is no hit then none has. -/
theorem search_spec (i : ReadingInterval) (steps : Nat) (p : Int) :
    (∀ d r, i.search steps p = some (d, r) →
        i.pointOn r = some d ∧ ∀ r', r < r' → r' ≤ p → i.pointOn r' = none) ∧
      (i.search steps p = none → ∀ r, p - steps < r → r ≤ p → i.pointOn r = none) := by
  induction steps generalizing p with
  | zero =>
    refine ⟨by rintro _ _ ⟨⟩, fun _ r hlow hhigh => ?_⟩
    omega
  | succ steps ih =>
    obtain ⟨hsome, hnone⟩ := ih (p - 1)
    simp only [search]
    cases hp : i.pointOn p with
    | some d =>
      refine ⟨?_, by rintro ⟨⟩⟩
      rintro _ _ ⟨⟩
      exact ⟨hp, fun r' hlow hhigh => absurd hhigh (not_le.mpr hlow)⟩
    | none =>
      -- the first grid is passed over, the others are those of the search that goes on
      have hfirst : ∀ r ≤ p, (r ≤ p - 1 → i.pointOn r = none) → i.pointOn r = none := by
        intro r hr hrest
        rcases Int.lt_or_eq_of_le hr with hlt | rfl
        · exact hrest (by omega)
        · exact hp
      refine ⟨fun d r h => ?_, fun h r hlow hhigh => ?_⟩
      · obtain ⟨hfound, hbefore⟩ := hsome d r h
        exact ⟨hfound, fun r' hlow hhigh => hfirst r' hhigh (hbefore r' hlow)⟩
      · exact hfirst r hhigh (hnone h r (by push_cast at hlow; omega))

/-- Three binary digits make less than one decimal digit, and four of them more than one. -/
theorem two_zpow_le_ten_zpow (e : Int) :
    (2 : ℚ) ^ e ≤ 10 ^ (if 0 ≤ e then e / 3 + 1 else e / 4 + 1) := by
  split
  · next he =>
    calc (2 : ℚ) ^ e ≤ 2 ^ (3 * (e / 3 + 1)) := zpow_le_zpow_right₀ (by norm_num) (by omega)
      _ = 8 ^ (e / 3 + 1) := by rw [zpow_mul]; norm_num
      _ ≤ 10 ^ (e / 3 + 1) := zpow_le_zpow_left₀ (by omega) (by norm_num) (by norm_num)
  · next he =>
    obtain ⟨k, hk⟩ : ∃ k : Nat, e / 4 + 1 = -k := ⟨(-(e / 4 + 1)).toNat, by omega⟩
    rw [hk, zpow_neg, zpow_natCast]
    calc (2 : ℚ) ^ e ≤ 2 ^ (-(4 * k : Nat) : Int) :=
        zpow_le_zpow_right₀ (by norm_num) (by omega)
      _ = (16 ^ k)⁻¹ := by
        rw [zpow_neg, zpow_natCast, pow_mul]
        norm_num
      _ ≤ (10 ^ k)⁻¹ := inv_anti₀ (by positivity) (pow_le_pow_left₀ (by norm_num) (by norm_num) k)

/-- **The first grid tried is past the interval.** -/
theorem topGrid_spec (i : ReadingInterval) : (i.high * 2 ^ i.unit : ℚ) < 10 ^ i.topGrid := by
  have hhigh : (i.high : ℚ) < 2 ^ (i.high.log2 + 1) := by exact_mod_cast Nat.lt_log2_self
  calc (i.high * 2 ^ i.unit : ℚ) < 2 ^ (i.high.log2 + 1) * 2 ^ i.unit := by gcongr
    _ = 2 ^ (i.high.log2 + 1 + i.unit : Int) := by
      rw [zpow_add₀ (by norm_num) _ i.unit]
      norm_cast
    _ ≤ 10 ^ i.topGrid := two_zpow_le_ten_zpow _

/-- No grid from the first one tried on has a point in the interval. -/
theorem not_holds_of_topGrid_le {p : Int} (hi : i.Proper) (hp : i.topGrid ≤ p) (c : Nat) :
    ¬ i.Holds (c * 10 ^ p) := by
  intro hc
  have hpos := hc.pos hi
  have hgrid : (0 : ℚ) < 10 ^ p := by positivity
  have hone : (1 : ℚ) ≤ c := by
    rcases Nat.eq_zero_or_pos c with rfl | hc'
    · simp at hpos
    · exact_mod_cast hc'
  have htop : (10 : ℚ) ^ i.topGrid ≤ 10 ^ p := zpow_le_zpow_right₀ (by norm_num) hp
  have hhigh := hc.le.2
  have hpast := topGrid_spec i
  have hmul : (1 : ℚ) * 10 ^ p ≤ c * 10 ^ p := mul_le_mul_of_nonneg_right hone hgrid.le
  linarith

/-! ## 4. The coarsest grid -/

/-- `d * 10 ^ p` is in the interval, and no coarser grid has a point in it. -/
structure Coarsest (i : ReadingInterval) (d : Nat) (p : Int) : Prop where
  holds : i.Holds (d * 10 ^ p)
  coarser : ∀ r > p, ∀ c : Nat, ¬ i.Holds (c * 10 ^ r)

/-- **The search finds a coarsest point**, if it goes far enough. -/
theorem exists_coarsest {steps : Nat} {last : Int} (hi : i.Proper)
    (hlast : (10 : ℚ) ^ last ≤ 2 ^ i.unit) (hsteps : i.topGrid - steps < last) :
    ∃ d p, i.search steps i.topGrid = some (d, p) ∧ i.Coarsest d p := by
  obtain ⟨hsome, hnone⟩ := search_spec i steps i.topGrid
  cases h : i.search steps i.topGrid with
  | some hit =>
    obtain ⟨d, p⟩ := hit
    obtain ⟨hfound, hbefore⟩ := hsome d p h
    refine ⟨d, p, rfl, (pointOn_spec i p).1 d hfound, fun r hr c => ?_⟩
    rcases Int.le_total r i.topGrid with hle | hge
    · exact not_holds_of_pointOn hi (hbefore r hr hle) c
    · exact not_holds_of_topGrid_le hi hge c
  | none =>
    -- the last grid has a point, so it is among those tried
    have hhit := pointOn_ne_none hi hlast
    rcases Int.le_total last i.topGrid with hle | hge
    · exact absurd (hnone h last hsteps hle) hhit
    · obtain ⟨d, hd⟩ := Option.ne_none_iff_exists'.mp hhit
      exact absurd ((pointOn_spec i last).1 d hd) (not_holds_of_topGrid_le hi hge d)

/-- **No decimal in the interval has fewer digits than a coarsest one.** -/
theorem Coarsest.length_le {d c : Nat} {p r : Int} (h : i.Coarsest d p) (hi : i.Proper)
    (hc : i.Holds (c * 10 ^ r)) : 10 ^ ((Nat.toDigits 10 d).length - 1) ≤ c := by
  have hd : d ≠ 0 := by
    rintro rfl
    simpa using h.holds.pos hi
  have hdigits := pow_le_of_length_toDigits hd
  generalize (Nat.toDigits 10 d).length - 1 = k at *
  by_contra hlt
  have hgrid (e : Int) : (0 : ℚ) < 10 ^ e := by positivity
  have hr : r ≤ p := not_lt.mp fun hlt => h.coarser r hlt c hc
  -- the power of ten with as many digits as the coarsest point stands between the two
  have hpower : ((1 : Nat) * 10 ^ (k + p : Int) : ℚ) = 10 ^ k * 10 ^ p := by
    rw [zpow_add₀ (by norm_num), zpow_natCast, Nat.cast_one, one_mul]
  have hbelow : (c * 10 ^ r : ℚ) ≤ 10 ^ k * 10 ^ p := by
    gcongr
    · exact_mod_cast (not_le.mp hlt).le
    · norm_num
  have habove : (10 ^ k * 10 ^ p : ℚ) ≤ d * 10 ^ p :=
    mul_le_mul_of_nonneg_right (by exact_mod_cast hdigits) (hgrid p).le
  have hbetween := hc.between h.holds hbelow habove
  rw [← hpower] at hbetween
  rcases Nat.eq_zero_or_pos k with rfl | hk
  · have hpos := hc.pos hi
    rw [Nat.pow_zero, not_le, Nat.lt_one_iff] at hlt
    simp [hlt] at hpos
  · exact h.coarser _ (by omega) 1 hbetween

end ReadingInterval

namespace Double

/-! ## 5. The interval of a double -/

/-- The interval of a magnitude pattern. -/
def intervalAt (n : Nat) : ReadingInterval :=
  .of (significandAt n) (minExponent + stepsAt n)

theorem intervalAt_proper {n : Nat} (hn : 0 < n) : (intervalAt n).Proper := by
  refine .of ?_ _
  have hsum := steps_add_significand n
  have hnormal := steps_eq_zero_or n
  simp only [hiddenBit] at *
  omega

/-- The unit of the interval is a quarter of the last bit's weight. -/
theorem unit_intervalAt (n : Nat) :
    (2 : ℚ) ^ (intervalAt n).unit = weight (stepsAt n) / 4 := by
  change (2 : ℚ) ^ (minExponent + stepsAt n - 2) = _
  rw [zpow_sub₀ (by norm_num), weight]
  norm_num

/-- The upper end is half way to the next pattern. -/
theorem high_intervalAt (n : Nat) :
    ((intervalAt n).high * 2 ^ (intervalAt n).unit : ℚ) = halfway n := by
  have hhigh : (intervalAt n).high = 4 * significandAt n + 2 := rfl
  rw [unit_intervalAt, hhigh, halfway_eq_add, valueAt]
  push_cast
  ring

/-- The exponent takes a step where a significand begins anew, and only there. -/
theorem stepsAt_succ (k : Nat) :
    (significandAt (k + 1) = hiddenBit ∧ minExponent + stepsAt (k + 1) ≠ minExponent ∧
        stepsAt (k + 1) = stepsAt k + 1) ∨
      (¬ (significandAt (k + 1) = hiddenBit ∧ minExponent + stepsAt (k + 1) ≠ minExponent) ∧
        stepsAt (k + 1) = stepsAt k) := by
  have hthis : stepsAt k = k / hiddenBit - 1 := rfl
  have hnext : stepsAt (k + 1) = (k + 1) / hiddenBit - 1 := rfl
  have hcases := significandAt_cases (k + 1)
  simp only [hiddenBit] at *
  omega

/-- **The lower end is half way to the pattern before**, which is twice as near at the bottom of a
binade. -/
theorem low_intervalAt (k : Nat) :
    ((intervalAt (k + 1)).low * 2 ^ (intervalAt (k + 1)).unit : ℚ) = halfway k := by
  have hsignificand : 2 ≤ 4 * significandAt (k + 1) := by
    have hpos : _ < 4 * significandAt (k + 1) := (intervalAt_proper (Nat.succ_pos k)).low_lt
    omega
  have hlow : (intervalAt (k + 1)).low =
      if significandAt (k + 1) = hiddenBit ∧ minExponent + stepsAt (k + 1) ≠ minExponent then
        4 * significandAt (k + 1) - 1 else 4 * significandAt (k + 1) - 2 := rfl
  rw [unit_intervalAt, hlow, halfway_eq_sub, valueAt]
  rcases stepsAt_succ k with ⟨hbottom, hnormal, hsteps⟩ | ⟨hinside, hsteps⟩
  · rw [if_pos ⟨hbottom, hnormal⟩, Nat.cast_sub (by omega), hsteps, weight_succ]
    push_cast
    ring
  · rw [if_neg hinside, Nat.cast_sub hsignificand, hsteps]
    push_cast
    ring

/-- **The interval of a pattern holds what reads as it.** -/
theorem intervalAt_holds {n : Nat} (hn : 0 < n) (hfinite : n < infinityPattern) (v : ℚ) :
    (intervalAt n).Holds v ↔ ReadsAs v n := by
  obtain ⟨k, rfl⟩ : ∃ k, n = k + 1 := ⟨n - 1, by omega⟩
  have hclosed : (intervalAt (k + 1)).closed = true ↔ (k + 1) % 2 = 0 := by
    rw [← significandAt_parity]
    exact decide_eq_true_iff
  unfold ReadingInterval.Holds
  rw [low_intervalAt, high_intervalAt]
  constructor
  · intro h
    split at h
    · next hc =>
      have heven := hclosed.mp hc
      refine ⟨hfinite.le, ?_, fun _ => ⟨h.2, by omega⟩⟩
      rintro j hj
      obtain rfl : j = k := by omega
      exact ⟨h.1, by omega⟩
    · refine ⟨hfinite.le, ?_, fun _ => ⟨h.2.le, fun _ => h.2⟩⟩
      rintro j hj
      obtain rfl : j = k := by omega
      exact ⟨h.1.le, fun _ => h.1⟩
  · intro h
    obtain ⟨hlow, hlow'⟩ := h.above k rfl
    obtain ⟨hhigh, hhigh'⟩ := h.below hfinite
    split
    · exact ⟨hlow, hhigh⟩
    · next hc =>
      have hodd : (k + 1) % 2 = 1 := by
        rw [hclosed] at hc
        omega
      exact ⟨hlow' hodd, hhigh' hodd⟩

/-! ## 6. The digits written -/

/-- The finest grid that any double needs is among those tried. -/
theorem grids_suffice {n : Nat} (hfinite : n < infinityPattern) :
    (10 : ℚ) ^ (-324 : Int) ≤ 2 ^ (intervalAt n).unit ∧
      (intervalAt n).topGrid - gridLimit < -324 := by
  have hunit : (intervalAt n).unit = minExponent + stepsAt n - 2 := rfl
  have hhigh : (intervalAt n).high = 4 * significandAt n + 2 := rfl
  constructor
  · have hpowers : (2 : ℚ) ^ 1076 ≤ 10 ^ 324 := by
      exact_mod_cast (by decide +kernel : 2 ^ 1076 ≤ 10 ^ 324)
    calc (10 : ℚ) ^ (-324 : Int) = (10 ^ 324)⁻¹ := zpow_neg_coe_of_pos 10 (by decide)
      _ ≤ (2 ^ 1076)⁻¹ := inv_anti₀ (by positivity) hpowers
      _ = 2 ^ (-1076 : Int) := (zpow_neg_coe_of_pos 2 (by decide)).symm
      _ ≤ 2 ^ (intervalAt n).unit := by
        refine zpow_le_zpow_right₀ (by norm_num) ?_
        rw [hunit, minExponent]
        omega
  · have hbits : (intervalAt n).high.log2 < 56 := by
      have hlt := significandAt_lt n
      rw [Nat.log2_lt (by omega), hhigh]
      simp only [hiddenBit] at hlt
      omega
    have hsteps : stepsAt n ≤ 2045 := by
      simp only [stepsAt, hiddenBit, infinityPattern] at *
      omega
    rw [ReadingInterval.topGrid, gridLimit, hunit, minExponent]
    split <;> omega

/-- Zero is written as itself. -/
theorem shortest_of_zero {x : Double} (h : x.magnitude = 0) : x.shortest = (0, 0) :=
  if_pos (beq_iff_eq.mpr h)

/-- **The decimal written for a double reads as it, and no decimal with fewer digits does.** -/
theorem shortest_spec {x : Double} (hfinite : x.Finite) (hx : x.magnitude ≠ 0) :
    ReadsAs (x.shortest.1 * 10 ^ x.shortest.2) x.magnitude ∧
      ∀ (c : Nat) (r : Int), ReadsAs (c * 10 ^ r) x.magnitude →
        10 ^ ((Nat.toDigits 10 x.shortest.1).length - 1) ≤ c := by
  have hn := Nat.pos_of_ne_zero hx
  have hproper := intervalAt_proper hn
  obtain ⟨hlast, hsteps⟩ := grids_suffice hfinite
  obtain ⟨d, p, hsearch, hcoarsest⟩ := ReadingInterval.exists_coarsest hproper hlast hsteps
  have hshortest : x.shortest = (d, p) := by
    rw [shortest, if_neg (by simp [isZero, hx]), exponent_eq]
    change ((intervalAt x.magnitude).search gridLimit (intervalAt x.magnitude).topGrid).getD _ = _
    rw [hsearch]
    rfl
  rw [hshortest]
  refine ⟨(intervalAt_holds hn hfinite _).mp hcoarsest.holds, fun c r hc => ?_⟩
  exact hcoarsest.length_le hproper ((intervalAt_holds hn hfinite _).mpr hc)

end Double

end CpScan
