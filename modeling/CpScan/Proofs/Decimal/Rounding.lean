/-
# Correct rounding

A finite double stands for a rational number (`Double.value`).  A decimal is read as the double
nearest to it, which is said here without saying how it is found: no finite double is nearer, and
if another is equally near then the one read has an even significand (`Double.Nearest`).  A decimal
from half way between the greatest finite double and the next power of two on is read as an
infinity, and every decimal keeps its sign (`Double.Rounds`).

Patterns make this easy to decide.  Consecutive magnitudes have consecutive patterns, so the
decimals that are read as one pattern are those between the two points half way to its neighbours,
and the points themselves go to the even pattern (`ReadsAs`).  The main results:

* `rounds_iff`: being the correctly rounded double is reading as its pattern;
* `Rounds.unique`: no decimal has two.
-/
import Mathlib.Algebra.Order.Field.Power
import Mathlib.Tactic.Linarith
import Mathlib.Tactic.NormNum
import Mathlib.Tactic.Positivity
import Mathlib.Tactic.Ring
import CpScan.Decimal.Double

namespace CpScan

namespace Double

/-! ## 1. Values, and the nearest double -/

/-- Neither an infinity nor a NaN. -/
def Finite (x : Double) : Prop := x.magnitude < infinityPattern

instance (x : Double) : Decidable x.Finite :=
  inferInstanceAs (Decidable (x.magnitude < infinityPattern))

/-- A magnitude with a sign. -/
def signed (negative : Bool) (a : ℚ) : ℚ := if negative then -a else a

/-- The number that a finite double stands for. -/
def value (x : Double) : ℚ := signed x.isNegative (x.significand * 2 ^ x.exponent)

/-- `x` is a finite double nearest to `v`, and the even one if there are two. -/
structure Nearest (v : ℚ) (x : Double) : Prop where
  finite : x.Finite
  least : ∀ y : Double, y.Finite → |v - x.value| ≤ |v - y.value|
  even : ∀ y : Double, y.Finite → y.value ≠ x.value → |v - y.value| = |v - x.value| →
    x.significand % 2 = 0

/-- Half way from the greatest finite double to the next power of two. -/
def overflowBound : ℚ := 2 ^ 1024 - 2 ^ 970

/-- `x` is the correctly rounded double of a decimal with this sign and the absolute value `a`. -/
structure Rounds (negative : Bool) (a : ℚ) (x : Double) : Prop where
  sign : x.isNegative = negative
  nearest : a < overflowBound → x.Nearest (signed negative a)
  infinite : overflowBound ≤ a → x.isInfinite = true

/-! ## 2. Patterns -/

/-- The significand of a magnitude pattern. -/
def significandAt (n : Nat) : Nat :=
  if n / hiddenBit = 0 then n % hiddenBit else hiddenBit + n % hiddenBit

/-- How many steps above the least one the exponent of a pattern is. -/
def stepsAt (n : Nat) : Nat := n / hiddenBit - 1

/-- The weight of the last bit of a significand. -/
def weight (steps : Nat) : ℚ := 2 ^ (minExponent + steps)

/-- The number that a magnitude pattern stands for.  The pattern of infinity counts as the power of
two that would come next. -/
def valueAt (n : Nat) : ℚ := significandAt n * weight (stepsAt n)

theorem weight_pos (k : Nat) : 0 < weight k := zpow_pos (by norm_num) _

theorem weight_succ (k : Nat) : weight (k + 1) = 2 * weight k := by
  rw [weight, weight, Nat.cast_succ, ← add_assoc, zpow_add_one₀ (by norm_num), mul_comm]

/-- Below the hidden bit a pattern is its own significand; above, its fraction is. -/
theorem significandAt_cases (n : Nat) :
    (n / hiddenBit = 0 ∧ significandAt n = n % hiddenBit) ∨
      (n / hiddenBit ≠ 0 ∧ significandAt n = hiddenBit + n % hiddenBit) := by
  unfold significandAt
  split
  · next h => exact .inl ⟨h, rfl⟩
  · next h => exact .inr ⟨h, rfl⟩

theorem weight_mono {j k : Nat} (h : j ≤ k) : weight j ≤ weight k :=
  zpow_le_zpow_right₀ (by norm_num) (by omega)

/-- A pattern is its steps and its significand added up. -/
theorem steps_add_significand (n : Nat) : stepsAt n * hiddenBit + significandAt n = n := by
  have hcases := significandAt_cases n
  simp only [stepsAt, hiddenBit] at *
  omega

theorem significandAt_lt (n : Nat) : significandAt n < 2 * hiddenBit := by
  have hcases := significandAt_cases n
  simp only [hiddenBit] at *
  omega

/-- Above the least exponent a significand has its hidden bit. -/
theorem steps_eq_zero_or (n : Nat) : stepsAt n = 0 ∨ hiddenBit ≤ significandAt n := by
  have hcases := significandAt_cases n
  simp only [stepsAt, hiddenBit] at *
  omega

theorem significandAt_parity (n : Nat) : significandAt n % 2 = n % 2 := by
  have hcases := significandAt_cases n
  simp only [hiddenBit] at *
  omega

theorem stepsAt_scaled {m k : Nat} (hm : m < 2 * hiddenBit) (hk : k = 0 ∨ hiddenBit ≤ m) :
    stepsAt (k * hiddenBit + m) = k := by
  simp only [stepsAt, hiddenBit] at *
  omega

/-- **A significand and its steps have the value that they should**, also when the significand has
just reached the next power of two. -/
theorem valueAt_scaled {m k : Nat} (hm : m ≤ 2 * hiddenBit) (hk : k = 0 ∨ hiddenBit ≤ m) :
    valueAt (k * hiddenBit + m) = m * weight k := by
  rcases Nat.lt_or_eq_of_le hm with hm | rfl
  · have hsteps := stepsAt_scaled hm hk
    have hsignificand : significandAt (k * hiddenBit + m) = m := by
      have hsum := steps_add_significand (k * hiddenBit + m)
      rw [hsteps] at hsum
      exact Nat.add_left_cancel hsum
    rw [valueAt, hsteps, hsignificand]
  · have hsteps : stepsAt (k * hiddenBit + 2 * hiddenBit) = k + 1 := by
      simp only [stepsAt, hiddenBit] at *
      omega
    have hsignificand : significandAt (k * hiddenBit + 2 * hiddenBit) = hiddenBit := by
      have hsum := steps_add_significand (k * hiddenBit + 2 * hiddenBit)
      rw [hsteps] at hsum
      simp only [hiddenBit] at *
      omega
    rw [valueAt, hsteps, hsignificand, weight_succ]
    push_cast
    ring

/-- The next pattern is one weight further. -/
theorem valueAt_succ (n : Nat) : valueAt (n + 1) = valueAt n + weight (stepsAt n) := by
  have hnext : valueAt (stepsAt n * hiddenBit + (significandAt n + 1)) =
      ((significandAt n + 1 : Nat) : ℚ) * weight (stepsAt n) :=
    valueAt_scaled (significandAt_lt n) ((steps_eq_zero_or n).imp_right Nat.le_succ_of_le)
  rw [← Nat.add_assoc, steps_add_significand] at hnext
  rw [hnext, valueAt]
  push_cast
  ring

theorem valueAt_zero : valueAt 0 = 0 := by simp [valueAt, significandAt]

theorem valueAt_strictMono : StrictMono valueAt := by
  refine strictMono_nat_of_lt_succ fun n => ?_
  rw [valueAt_succ]
  exact lt_add_of_pos_right _ (weight_pos _)

theorem valueAt_nonneg (n : Nat) : 0 ≤ valueAt n :=
  mul_nonneg (Nat.cast_nonneg _) (weight_pos _).le

/-- Half way from a pattern to the next. -/
def halfway (n : Nat) : ℚ := (valueAt n + valueAt (n + 1)) / 2

/-- The point half way is half a weight above the pattern, -/
theorem halfway_eq_add (n : Nat) : halfway n = valueAt n + weight (stepsAt n) / 2 := by
  rw [halfway, valueAt_succ]
  ring

/-- and as much below the next. -/
theorem halfway_eq_sub (n : Nat) : halfway n = valueAt (n + 1) - weight (stepsAt n) / 2 := by
  rw [halfway, valueAt_succ]
  ring

theorem halfway_strictMono : StrictMono halfway := by
  refine strictMono_nat_of_lt_succ fun n => ?_
  have hthis := valueAt_strictMono (Nat.lt_succ_self n)
  have hnext := valueAt_strictMono (Nat.lt_succ_self (n + 1))
  unfold halfway
  linarith

theorem halfway_pos (n : Nat) : 0 < halfway n := by
  have hthis := valueAt_nonneg n
  have hnext := valueAt_strictMono (Nat.lt_succ_self n)
  unfold halfway
  linarith

/-- The last point half way is where overflow begins. -/
theorem halfway_greatest : halfway (infinityPattern - 1) = overflowBound := by
  have hlast : valueAt (2045 * hiddenBit + (2 * hiddenBit - 1)) =
      ((2 * hiddenBit - 1 : Nat) : ℚ) * weight 2045 :=
    valueAt_scaled (by decide) (.inr (by decide))
  have hnext : valueAt (2045 * hiddenBit + 2 * hiddenBit) =
      ((2 * hiddenBit : Nat) : ℚ) * weight 2045 := valueAt_scaled le_rfl (.inr (by decide))
  have hlast' : infinityPattern - 1 = 2045 * hiddenBit + (2 * hiddenBit - 1) := by decide
  have hnext' : infinityPattern - 1 + 1 = 2045 * hiddenBit + 2 * hiddenBit := by decide
  have hweight : weight 2045 = 2 ^ 970 * 2 := by
    rw [← pow_succ]
    exact zpow_natCast 2 971
  have hpow : (2 : ℚ) ^ 1024 = 2 ^ 970 * 2 ^ 54 := pow_add 2 970 54
  rw [halfway, hnext', hlast', hlast, hnext, overflowBound, hweight, hpow]
  generalize (2 : ℚ) ^ 970 = x
  norm_num [hiddenBit]
  ring

/-! ## 3. Reading as a pattern -/

/-- Of two numbers the greater is no further away from half way between them on. -/
theorem abs_sub_le_abs_sub_iff {a p q : ℚ} (h : p < q) : |a - q| ≤ |a - p| ↔ (p + q) / 2 ≤ a := by
  rw [← sq_le_sq]
  constructor
  · intro hle
    by_contra hlt
    nlinarith
  · intro hle
    nlinarith

/-- And the smaller is no further away up to that point. -/
theorem abs_sub_le_abs_sub_iff' {a p q : ℚ} (h : p < q) : |a - p| ≤ |a - q| ↔ a ≤ (p + q) / 2 := by
  rw [← sq_le_sq]
  constructor
  · intro hle
    by_contra hlt
    nlinarith
  · intro hle
    nlinarith

theorem abs_sub_lt_abs_sub_iff {a p q : ℚ} (h : p < q) : |a - q| < |a - p| ↔ (p + q) / 2 < a := by
  rw [← not_le, ← not_le, abs_sub_le_abs_sub_iff' h]

/-- The magnitude `a` reads as the pattern `n`: it lies between the points half way to the two
neighbours, and is at such a point only if the pattern is even. -/
structure ReadsAs (a : ℚ) (n : Nat) : Prop where
  le : n ≤ infinityPattern
  above : ∀ k, k + 1 = n → halfway k ≤ a ∧ (n % 2 = 1 → halfway k < a)
  below : n < infinityPattern → a ≤ halfway n ∧ (n % 2 = 1 → a < halfway n)

namespace ReadsAs

variable {a : ℚ} {n m : Nat}

theorem zero : ReadsAs 0 0 where
  le := Nat.zero_le _
  above k hk := by omega
  below _ := ⟨(halfway_pos 0).le, fun h => by omega⟩

/-- Of two patterns that a magnitude reads as, neither is below the other. -/
theorem le_of_readsAs (h : ReadsAs a n) (h' : ReadsAs a m) : m ≤ n := by
  by_contra hlt
  rw [not_le] at hlt
  obtain ⟨hbelow, hodd⟩ := h.below (Nat.lt_of_lt_of_le hlt h'.le)
  obtain ⟨habove, hodd'⟩ := h'.above (m - 1) (by omega)
  -- so the magnitude is the point between them, which belongs to the even one alone
  have hnext : m - 1 ≤ n := halfway_strictMono.le_iff_le.mp (habove.trans hbelow)
  obtain rfl : m = n + 1 := by omega
  rcases Nat.mod_two_eq_zero_or_one n with heven | hone
  · exact absurd (hodd' (by omega)) (not_lt.mpr hbelow)
  · exact absurd (hodd hone) (not_lt.mpr habove)

/-- **No magnitude reads as two patterns.** -/
theorem unique (h : ReadsAs a n) (h' : ReadsAs a m) : n = m :=
  Nat.le_antisymm (h'.le_of_readsAs h) (h.le_of_readsAs h')

/-- No pattern is nearer to a magnitude than the one that it reads as. -/
theorem least (h : ReadsAs a n) (hn : n < infinityPattern) (k : Nat) :
    |a - valueAt n| ≤ |a - valueAt k| := by
  rcases Nat.lt_trichotomy k n with hk | rfl | hk
  · have hlow := (h.above (n - 1) (by omega)).1
    have hle : valueAt k ≤ valueAt (n - 1) := valueAt_strictMono.monotone (by omega)
    refine (abs_sub_le_abs_sub_iff (valueAt_strictMono hk)).mpr ?_
    rw [halfway, Nat.sub_add_cancel (by omega)] at hlow
    linarith
  · exact le_rfl
  · have hhigh := (h.below hn).1
    have hle : valueAt (n + 1) ≤ valueAt k := valueAt_strictMono.monotone hk
    refine le_of_not_gt fun hlt => ?_
    have hback := (abs_sub_lt_abs_sub_iff (valueAt_strictMono hk)).mp hlt
    rw [halfway] at hhigh
    linarith

/-- If another pattern is as near, the one that it reads as is even. -/
theorem even (h : ReadsAs a n) (hn : n < infinityPattern) {k : Nat} (hk : k ≠ n)
    (heq : |a - valueAt k| = |a - valueAt n|) : n % 2 = 0 := by
  by_contra hodd
  have hone : n % 2 = 1 := by omega
  rcases Nat.lt_or_gt_of_ne hk with hk | hk
  · have hlow := (h.above (n - 1) (by omega)).2 hone
    have hle : valueAt k ≤ valueAt (n - 1) := valueAt_strictMono.monotone (by omega)
    have hback := (abs_sub_le_abs_sub_iff' (valueAt_strictMono hk)).mp heq.le
    rw [halfway, Nat.sub_add_cancel (by omega)] at hlow
    linarith
  · have hhigh := (h.below hn).2 hone
    have hle : valueAt (n + 1) ≤ valueAt k := valueAt_strictMono.monotone hk
    have hback := (abs_sub_le_abs_sub_iff (valueAt_strictMono hk)).mp heq.le
    rw [halfway] at hhigh
    linarith

/-- **What is nearest is what a magnitude reads as**, if it is even where it is not alone, and if
the magnitude does not overflow. -/
theorem of_nearest (hn : n < infinityPattern) (ha : a < overflowBound)
    (hleast : ∀ k < infinityPattern, |a - valueAt n| ≤ |a - valueAt k|)
    (heven : ∀ k < infinityPattern, k ≠ n → |a - valueAt k| = |a - valueAt n| → n % 2 = 0) :
    ReadsAs a n where
  le := hn.le
  above k hk := by
    have hlt : valueAt k < valueAt n := valueAt_strictMono (by omega)
    have hhalf : halfway k = (valueAt k + valueAt n) / 2 := by rw [halfway, hk]
    have hnear := hleast k (by omega)
    have hle : halfway k ≤ a := hhalf ▸ (abs_sub_le_abs_sub_iff hlt).mp hnear
    refine ⟨hle, fun hodd => lt_of_le_of_ne hle fun heq => ?_⟩
    have hback := (abs_sub_le_abs_sub_iff' hlt).mpr (hhalf ▸ heq.ge)
    have hzero := heven k (by omega) (by omega) (le_antisymm hback hnear)
    omega
  below _ := by
    rcases Nat.lt_or_ge (n + 1) infinityPattern with hnext | hlast
    · have hlt : valueAt n < valueAt (n + 1) := valueAt_strictMono (Nat.lt_succ_self n)
      have hnear := hleast (n + 1) hnext
      have hle : a ≤ halfway n := (abs_sub_le_abs_sub_iff' hlt).mp hnear
      refine ⟨hle, fun hodd => lt_of_le_of_ne hle fun heq => ?_⟩
      have hback := (abs_sub_le_abs_sub_iff hlt).mpr heq.ge
      have hzero := heven (n + 1) hnext (by omega) (le_antisymm hback hnear)
      omega
    · have hgreatest : n = infinityPattern - 1 := by omega
      rw [hgreatest, halfway_greatest]
      exact ⟨ha.le, fun _ => ha⟩

/-- From the bound on a magnitude reads as infinity, and below it does not. -/
theorem eq_infinity_iff (h : ReadsAs a n) : n = infinityPattern ↔ overflowBound ≤ a := by
  constructor
  · rintro rfl
    rw [← halfway_greatest]
    exact (h.above _ (by decide)).1
  · intro hle
    by_contra hne
    have hn : n < infinityPattern := Nat.lt_of_le_of_ne h.le hne
    obtain ⟨hbelow, hodd⟩ := h.below hn
    rw [← halfway_greatest] at hle
    have hlast : infinityPattern - 1 ≤ n := halfway_strictMono.le_iff_le.mp (hle.trans hbelow)
    obtain rfl : n = infinityPattern - 1 := by omega
    exact absurd (hodd (by decide)) (not_lt.mpr hle)

/-- Reading as a pattern past the last is reading as infinity. -/
theorem infinity (h : overflowBound ≤ a) : ReadsAs a infinityPattern where
  le := le_rfl
  above k hk := by
    obtain rfl : k = infinityPattern - 1 := by omega
    exact ⟨halfway_greatest ▸ h, fun hodd => absurd hodd (by decide)⟩
  below hlt := absurd hlt (Nat.lt_irrefl _)

end ReadsAs

/-! ## 4. Doubles and their patterns -/

theorem abs_signed (negative : Bool) (a : ℚ) : |signed negative a| = |a| := by
  cases negative with
  | false => rfl
  | true => exact abs_neg a

theorem signed_sub (negative : Bool) (a b : ℚ) :
    signed negative a - signed negative b = signed negative (a - b) := by
  cases negative with
  | false => rfl
  | true =>
    simp only [signed, if_true]
    ring

theorem exponent_eq (x : Double) : x.exponent = minExponent + stepsAt x.magnitude := by
  simp only [exponent, stepsAt]
  split
  · next h => simp [h]
  · rfl

theorem value_eq (x : Double) : x.value = signed x.isNegative (valueAt x.magnitude) := by
  rw [value, exponent_eq]
  rfl

theorem abs_value (x : Double) : |x.value| = valueAt x.magnitude := by
  rw [value_eq, abs_signed, abs_of_nonneg (valueAt_nonneg _)]

/-- The bits of a double are its sign and its magnitude. -/
theorem bits_eq (x : Double) :
    x.bits.toNat = (if x.isNegative then 2 ^ 63 else 0) + x.magnitude := by
  have hlt := x.bits.toNat_lt
  simp only [isNegative, magnitude, decide_eq_true_eq]
  split <;> omega

/-- A sign and a magnitude make one double. -/
theorem eq_of_parts {x y : Double} (hsign : x.isNegative = y.isNegative)
    (hmagnitude : x.magnitude = y.magnitude) : x = y := by
  have hbits : x.bits.toNat = y.bits.toNat := by rw [bits_eq, bits_eq, hsign, hmagnitude]
  exact congrArg Double.mk (UInt64.toNat_inj.mp hbits)

/-- The double with a sign and a magnitude pattern. -/
def ofParts (negative : Bool) (n : Nat) : Double :=
  ⟨UInt64.ofNat ((if negative then 2 ^ 63 else 0) + n)⟩

section Parts

variable {negative : Bool} {n : Nat}

theorem toNat_ofParts (h : n ≤ infinityPattern) :
    (ofParts negative n).bits.toNat = (if negative then 2 ^ 63 else 0) + n := by
  rw [ofParts, UInt64.toNat_ofNat']
  unfold infinityPattern at h
  refine Nat.mod_eq_of_lt ?_
  split <;> omega

theorem isNegative_ofParts (h : n ≤ infinityPattern) :
    (ofParts negative n).isNegative = negative := by
  rw [isNegative, toNat_ofParts h]
  unfold infinityPattern at h
  cases negative with
  | false => exact decide_eq_false (by simp; omega)
  | true => exact decide_eq_true (by simp)

theorem magnitude_ofParts (h : n ≤ infinityPattern) : (ofParts negative n).magnitude = n := by
  rw [magnitude, toNat_ofParts h]
  unfold infinityPattern at h
  split <;> omega

end Parts

/-! ## 5. The correctly rounded double -/

section Rounds

variable {negative : Bool} {a : ℚ} {x y : Double}

/-- The distance of a double from a number with its sign is that of their magnitudes. -/
theorem abs_sub_value (hsign : x.isNegative = negative) (a : ℚ) :
    |signed negative a - x.value| = |a - valueAt x.magnitude| := by
  rw [value_eq, hsign, signed_sub, abs_signed]

/-- From one with the other sign, the two magnitudes add up. -/
theorem abs_sub_value_other (hother : y.isNegative = !negative) (ha : 0 ≤ a) :
    |signed negative a - y.value| = a + valueAt y.magnitude := by
  have hnonneg := add_nonneg ha (valueAt_nonneg y.magnitude)
  rw [value_eq, hother]
  cases negative with
  | false => simp [signed, abs_of_nonneg hnonneg]
  | true =>
    simp only [signed, Bool.not_true, Bool.false_eq_true, if_true, if_false]
    rw [abs_sub_comm, sub_neg_eq_add, add_comm, abs_of_nonneg hnonneg]

/-- The distance from any double is no less. -/
theorem abs_sub_valueAt_le (ha : 0 ≤ a) (y : Double) :
    |a - valueAt y.magnitude| ≤ |signed negative a - y.value| := by
  have hle := abs_abs_sub_abs_le (signed negative a) y.value
  rwa [abs_signed, abs_of_nonneg ha, abs_value] at hle

/-- The step from patterns to doubles: what a magnitude reads as is, with its sign, the nearest. -/
theorem ReadsAs.nearest (h : ReadsAs a x.magnitude) (ha : 0 ≤ a) (hx : x.Finite)
    (hsign : x.isNegative = negative) : x.Nearest (signed negative a) where
  finite := hx
  least y _ := by
    rw [abs_sub_value hsign]
    exact (h.least hx y.magnitude).trans (abs_sub_valueAt_le ha y)
  even y _ hne htie := by
    rw [abs_sub_value hsign] at htie
    change significandAt x.magnitude % 2 = 0
    rw [significandAt_parity]
    by_cases hk : y.magnitude = x.magnitude
    · -- the same magnitude with the other sign is further away, except from zero
      by_contra hodd
      obtain ⟨k, hk'⟩ : ∃ k, k + 1 = x.magnitude := ⟨x.magnitude - 1, by omega⟩
      have hpos : 0 < valueAt x.magnitude := by
        rw [← valueAt_zero]
        exact valueAt_strictMono (by omega)
      have ha' : 0 < a := (halfway_pos k).trans ((h.above k hk').2 (by omega))
      have hother : y.isNegative = !negative := by
        rw [value_eq, value_eq, hk, hsign] at hne
        cases hy : y.isNegative <;> cases negative <;> simp_all
      rw [abs_sub_value_other hother ha, hk] at htie
      rcases abs_cases (a - valueAt x.magnitude) with ⟨habs, -⟩ | ⟨habs, -⟩
      · linarith
      · linarith
    · have hle : |a - valueAt y.magnitude| ≤ |a - valueAt x.magnitude| :=
        htie ▸ abs_sub_valueAt_le ha y
      exact h.even hx hk (le_antisymm hle (h.least hx _))

/-- And back: the nearest double has the pattern that the magnitude reads as. -/
theorem Nearest.readsAs (h : x.Nearest (signed negative a)) (hsign : x.isNegative = negative)
    (ha : a < overflowBound) : ReadsAs a x.magnitude := by
  have hparts : ∀ k < infinityPattern,
      |signed negative a - (ofParts negative k).value| = |a - valueAt k| := fun k hk => by
    rw [abs_sub_value (isNegative_ofParts hk.le), magnitude_ofParts hk.le]
  have hfinite : ∀ k < infinityPattern, (ofParts negative k).Finite := fun k hk => by
    rw [Finite, magnitude_ofParts hk.le]
    exact hk
  refine .of_nearest h.finite ha ?_ ?_
  · intro k hk
    have hle := h.least _ (hfinite k hk)
    rwa [abs_sub_value hsign, hparts k hk] at hle
  · intro k hk hne htie
    rw [← significandAt_parity]
    refine h.even _ (hfinite k hk) ?_ (by rw [hparts k hk, abs_sub_value hsign, htie])
    intro heq
    have habs := congrArg abs heq
    rw [abs_value, abs_value, magnitude_ofParts hk.le] at habs
    exact hne (valueAt_strictMono.injective habs)

/-- **Correctly rounded is what reads as the pattern.** -/
theorem rounds_iff (ha : 0 ≤ a) :
    Rounds negative a x ↔ x.isNegative = negative ∧ ReadsAs a x.magnitude := by
  have hinfinite : x.isInfinite = true ↔ x.magnitude = infinityPattern := beq_iff_eq
  constructor
  · intro h
    refine ⟨h.sign, ?_⟩
    rcases lt_or_ge a overflowBound with hlt | hle
    · exact (h.nearest hlt).readsAs h.sign hlt
    · rw [hinfinite.mp (h.infinite hle)]
      exact .infinity hle
  · rintro ⟨hsign, h⟩
    refine ⟨hsign, ?_, fun hle => hinfinite.mpr (h.eq_infinity_iff.mpr hle)⟩
    intro hlt
    have hne : x.magnitude ≠ infinityPattern := fun heq =>
      absurd (h.eq_infinity_iff.mp heq) (not_le.mpr hlt)
    exact h.nearest ha (Nat.lt_of_le_of_ne h.le hne) hsign

/-- **A decimal has one correctly rounded double.** -/
theorem Rounds.unique (ha : 0 ≤ a) (h : Rounds negative a x) (h' : Rounds negative a y) :
    x = y := by
  obtain ⟨hsign, hreads⟩ := (rounds_iff ha).mp h
  obtain ⟨hsign', hreads'⟩ := (rounds_iff ha).mp h'
  exact eq_of_parts (hsign.trans hsign'.symm) (hreads.unique hreads')

/-- Nothing is read as a NaN. -/
theorem Rounds.isNaN_eq_false (ha : 0 ≤ a) (h : Rounds negative a x) : x.isNaN = false :=
  decide_eq_false (not_lt.mpr ((rounds_iff ha).mp h).2.le)

/-- The positive infinity is read from the bound on, and only there. -/
theorem Rounds.eq_infinity_iff (ha : 0 ≤ a) (h : Rounds false a x) :
    x.bits = 0x7FF0000000000000 ↔ overflowBound ≤ a := by
  obtain ⟨hsign, hreads⟩ := (rounds_iff ha).mp h
  rw [← hreads.eq_infinity_iff, ← UInt64.toNat_inj, bits_eq, hsign]
  simp [infinityPattern]

end Rounds

end Double

end CpScan
