/-
# The double that is computed for a decimal

A decimal is read in three steps, and each has its own lemma.  Bit lengths tell between which
powers of two it lies (`floorLog2_bounds`).  The power that leaves 53 bits before the point is
divided out, but never a power below the least exponent (`weight_fits`).  What is left is rounded
to an integer, which is at most a half off, and less if it is odd (`roundDiv_near`).

So the pattern put together from the integer and the exponent is the one that the decimal reads as
(`readsAs_rounded`): next to it on either side lies a pattern half a unit or more further away.
Only at a power of two is the pattern below nearer, but there the decimal is not below the power.
The main result is `ofDigits_rounds`.
-/
import Mathlib.Tactic.FieldSimp
import Mathlib.Tactic.GCongr
import CpScan.Decimal.Nearest
import CpScan.Proofs.Decimal.Digits
import CpScan.Proofs.Decimal.Rounding

namespace CpScan

namespace Double

/-! ## 1. Powers of two and halves -/

/-- A power of two as a quotient. -/
theorem powerOfTwo_div (e : Int) :
    0 < (powerOfTwo e).1 ∧ 0 < (powerOfTwo e).2 ∧
      ((powerOfTwo e).1 : ℚ) / (powerOfTwo e).2 = 2 ^ e := by
  cases e with
  | ofNat e =>
    refine ⟨Nat.two_pow_pos e, Nat.one_pos, ?_⟩
    simp [powerOfTwo]
  | negSucc e =>
    refine ⟨Nat.one_pos, Nat.two_pow_pos (e + 1), ?_⟩
    simp [powerOfTwo, zpow_negSucc]

/-- The bit lengths of numerator and denominator put a quotient between three powers of two. -/
theorem quotient_bounds {n d : Nat} (hn : 0 < n) (hd : 0 < d) :
    (2 : ℚ) ^ ((n.log2 : Int) - d.log2 - 1) ≤ n / d ∧
      (n / d : ℚ) < 2 ^ ((n.log2 : Int) - d.log2 + 1) := by
  have hd' : (0 : ℚ) < d := by exact_mod_cast hd
  have two_zpow (k : Nat) (j : Int) : (2 : ℚ) ^ (k + j) = 2 ^ k * 2 ^ j := by
    rw [zpow_add₀ (by norm_num), zpow_natCast]
  have hnlow : (2 : ℚ) ^ n.log2 ≤ n := by exact_mod_cast Nat.log2_self_le hn.ne'
  have hnhigh : (n : ℚ) < 2 ^ (n.log2 + 1) := by exact_mod_cast Nat.lt_log2_self
  have hdlow : (2 : ℚ) ^ d.log2 ≤ d := by exact_mod_cast Nat.log2_self_le hd.ne'
  have hdhigh : (d : ℚ) < 2 ^ (d.log2 + 1) := by exact_mod_cast Nat.lt_log2_self
  constructor
  · rw [le_div_iff₀ hd']
    calc (2 : ℚ) ^ ((n.log2 : Int) - d.log2 - 1) * d
        ≤ 2 ^ ((n.log2 : Int) - d.log2 - 1) * 2 ^ (d.log2 + 1) := by gcongr
      _ = 2 ^ n.log2 := by
        rw [mul_comm, ← two_zpow, ← zpow_natCast]
        congr 1
        omega
      _ ≤ n := hnlow
  · rw [div_lt_iff₀ hd']
    calc (n : ℚ) < 2 ^ (n.log2 + 1) := hnhigh
      _ = 2 ^ ((n.log2 : Int) - d.log2 + 1) * 2 ^ d.log2 := by
        rw [mul_comm, ← two_zpow, ← zpow_natCast]
        congr 1
        omega
      _ ≤ 2 ^ ((n.log2 : Int) - d.log2 + 1) * d := by gcongr

/-- **The binary order of a quotient**: it lies between that power of two and the next. -/
theorem floorLog2_bounds {n d : Nat} (hn : 0 < n) (hd : 0 < d) :
    (2 : ℚ) ^ floorLog2 n d ≤ n / d ∧ (n / d : ℚ) < 2 ^ (floorLog2 n d + 1) := by
  have hd' : (0 : ℚ) < d := by exact_mod_cast hd
  obtain ⟨hlow, hhigh⟩ := quotient_bounds hn hd
  obtain ⟨hup, hdown, hpower⟩ := powerOfTwo_div ((n.log2 : Int) - d.log2)
  -- the test of natural numbers compares the quotient with the middle one of the powers
  have htest : (powerOfTwo ((n.log2 : Int) - d.log2)).1 * d ≤
      n * (powerOfTwo ((n.log2 : Int) - d.log2)).2 ↔
        (2 : ℚ) ^ ((n.log2 : Int) - d.log2) ≤ n / d := by
    rw [← hpower, div_le_div_iff₀ (by exact_mod_cast hdown) hd']
    exact_mod_cast Iff.rfl
  simp only [floorLog2]
  split
  · next h => exact ⟨htest.mp h, hhigh⟩
  · next h =>
    rw [sub_add_cancel]
    exact ⟨hlow, not_le.mp (htest.not.mp h)⟩

/-- A quotient is its whole part and what is left over the denominator, which is less than one. -/
theorem quotient_split (n : Nat) {d : Nat} (hd : 0 < d) :
    (n / d : ℚ) = (n / d : Nat) + (n % d : Nat) / (d : ℚ) ∧
      0 ≤ (n % d : Nat) / (d : ℚ) ∧ (n % d : Nat) / (d : ℚ) < 1 := by
  have hd' : (0 : ℚ) < d := by exact_mod_cast hd
  refine ⟨?_, by positivity, ?_⟩
  · have hnat : (n : ℚ) = d * (n / d : Nat) + (n % d : Nat) := by
      exact_mod_cast (Nat.div_add_mod n d).symm
    conv_lhs => rw [hnat, add_div, mul_div_cancel_left₀ _ hd'.ne']
  · rw [div_lt_one hd']
    exact_mod_cast Nat.mod_lt n hd

/-- **Rounded division is at most a half off**, and less than a half if the result is odd. -/
theorem roundDiv_near (n : Nat) {d : Nat} (hd : 0 < d) :
    |(n / d : ℚ) - roundDiv n d| ≤ 1 / 2 ∧
      (roundDiv n d % 2 = 1 → |(n / d : ℚ) - roundDiv n d| < 1 / 2) := by
  have hd' : (0 : ℚ) < d := by exact_mod_cast hd
  obtain ⟨hsplit, hpos, hmod⟩ := quotient_split n hd
  have hlt : 2 * (n % d) < d ↔ (n % d : Nat) / (d : ℚ) < 1 / 2 := by
    rw [div_lt_div_iff₀ hd' (by norm_num), one_mul, mul_comm]
    exact_mod_cast Iff.rfl
  have hgt : d < 2 * (n % d) ↔ 1 / 2 < (n % d : Nat) / (d : ℚ) := by
    rw [div_lt_div_iff₀ (by norm_num) hd', one_mul, mul_comm]
    exact_mod_cast Iff.rfl
  rw [hsplit]
  simp only [roundDiv, hlt, hgt]
  generalize (n % d : Nat) / (d : ℚ) = t at *
  split
  · next h =>
    rw [add_sub_cancel_left, abs_of_nonneg hpos]
    exact ⟨h.le, fun _ => h⟩
  split
  · next _ h =>
    push_cast
    rw [add_sub_add_left_eq_sub, abs_of_nonpos (by linarith)]
    exact ⟨by linarith, fun _ => by linarith⟩
  · next h h' =>
    obtain rfl : t = 1 / 2 := le_antisymm (not_lt.mp h') (not_lt.mp h)
    split
    · next heven =>
      rw [add_sub_cancel_left, abs_of_nonneg hpos]
      exact ⟨le_rfl, fun hodd => by omega⟩
    · next hodd =>
      push_cast
      rw [add_sub_add_left_eq_sub]
      exact ⟨by norm_num, fun hodd' => by omega⟩

/-! ## 2. The pattern put together -/

section Scaled

variable {a : ℚ} {m k : Nat}

theorem scaled_parity (m k : Nat) : (k * hiddenBit + m) % 2 = m % 2 := by
  simp only [hiddenBit]
  omega

/-- A magnitude that is not too far below a significand with its weight is no nearer to the pattern
before. -/
theorem above_scaled (hm : m ≤ 2 * hiddenBit)
    (hk : k = 0 ∨ (hiddenBit ≤ m ∧ hiddenBit * weight k ≤ a))
    (hnear : m * weight k - a ≤ weight k / 2)
    (hodd : m % 2 = 1 → m * weight k - a < weight k / 2) {j : Nat}
    (hj : j + 1 = k * hiddenBit + m) :
    halfway j ≤ a ∧ ((k * hiddenBit + m) % 2 = 1 → halfway j < a) := by
  have hhalf : halfway j = m * weight k - weight (stepsAt j) / 2 := by
    rw [halfway_eq_sub, hj, valueAt_scaled hm (hk.imp_right And.left)]
  by_cases hbinade : hiddenBit < m ∨ k = 0
  · -- the pattern before has the same weight
    have hsteps : stepsAt j = k := by
      have hm₀ : 0 < m := by
        rcases hbinade with hlt | rfl
        · omega
        · rw [Nat.zero_mul, Nat.zero_add] at hj
          omega
      obtain rfl : j = k * hiddenBit + (m - 1) := by omega
      exact stepsAt_scaled (by omega) (by omega)
    rw [hhalf, hsteps, scaled_parity]
    refine ⟨by linarith, fun h => ?_⟩
    have hstrict := hodd h
    linarith
  · -- the pattern before is in the binade below, and nearer
    obtain ⟨-, hlow⟩ := hk.resolve_left (by omega)
    obtain rfl : m = hiddenBit := by omega
    have hpos := weight_pos (stepsAt j)
    rw [hhalf]
    exact ⟨by linarith, fun _ => by linarith⟩

/-- And one that is not too far above is no nearer to the next. -/
theorem below_scaled (hm : m ≤ 2 * hiddenBit) (hk : k = 0 ∨ hiddenBit ≤ m)
    (hnear : a - m * weight k ≤ weight k / 2)
    (hodd : m % 2 = 1 → a - m * weight k < weight k / 2) :
    a ≤ halfway (k * hiddenBit + m) ∧
      ((k * hiddenBit + m) % 2 = 1 → a < halfway (k * hiddenBit + m)) := by
  have hsteps : k ≤ stepsAt (k * hiddenBit + m) := by
    simp only [stepsAt, hiddenBit] at *
    omega
  have hweight := weight_mono hsteps
  rw [halfway_eq_add, valueAt_scaled hm hk, scaled_parity]
  refine ⟨by linarith, fun h => ?_⟩
  have hstrict := hodd h
  linarith

/-- A magnitude close to a significand with its weight reads as their pattern, cut off at
infinity. -/
theorem readsAs_scaled (hm : m ≤ 2 * hiddenBit)
    (hk : k = 0 ∨ (hiddenBit ≤ m ∧ hiddenBit * weight k ≤ a))
    (hnear : |a - m * weight k| ≤ weight k / 2)
    (hodd : m % 2 = 1 → |a - m * weight k| < weight k / 2) :
    ReadsAs a (min (k * hiddenBit + m) infinityPattern) := by
  have habove : ∀ j, j + 1 = k * hiddenBit + m →
      halfway j ≤ a ∧ ((k * hiddenBit + m) % 2 = 1 → halfway j < a) := by
    intro j hj
    refine above_scaled hm hk ?_ (fun h => ?_) hj
    · linarith [(abs_le.mp hnear).1]
    · linarith [(abs_lt.mp (hodd h)).1]
  rcases Nat.le_total (k * hiddenBit + m) infinityPattern with hle | hover
  · rw [Nat.min_eq_left hle]
    exact ⟨hle, habove, fun _ => below_scaled hm (hk.imp_right And.left) (abs_le.mp hnear).2
      fun h => (abs_lt.mp (hodd h)).2⟩
  · rw [Nat.min_eq_right hover]
    refine .infinity ?_
    have hpos : 0 < k * hiddenBit + m := Nat.lt_of_lt_of_le (by decide) hover
    have hlast := (habove (k * hiddenBit + m - 1) (Nat.sub_add_cancel hpos)).1
    rw [← halfway_greatest]
    exact (halfway_strictMono.monotone (by omega)).trans hlast

end Scaled

theorem ofMagnitude_eq (n : Nat) : ofMagnitude n = ofParts false (min n infinityPattern) := by
  simp [ofMagnitude, ofParts]

theorem magnitude_ofMagnitude (n : Nat) : (ofMagnitude n).magnitude = min n infinityPattern := by
  rw [ofMagnitude_eq, magnitude_ofParts (Nat.min_le_right ..)]

theorem isNegative_ofMagnitude (n : Nat) : (ofMagnitude n).isNegative = false := by
  rw [ofMagnitude_eq, isNegative_ofParts (Nat.min_le_right ..)]

/-- The exponent chosen for a magnitude of a known binary order gives its significand at most 53
bits, and no fewer unless it is the least exponent. -/
theorem weight_fits {a : ℚ} {e : Int} {k : Nat} (hlow : 2 ^ e ≤ a) (hhigh : a < 2 ^ (e + 1))
    (hk : max (e - 52) minExponent = minExponent + k) :
    a < 2 * hiddenBit * weight k ∧ (k = 0 ∨ hiddenBit * weight k ≤ a) := by
  have hbits (b : Int) : (2 : ℚ) ^ b * weight k = 2 ^ (b + (minExponent + k)) := by
    rw [zpow_add₀ (by norm_num), weight]
  have hhidden : (hiddenBit : ℚ) = 2 ^ (52 : Int) := by norm_num [hiddenBit]
  have htwice : (2 * hiddenBit : ℚ) = 2 ^ (53 : Int) := by norm_num [hiddenBit]
  rw [htwice, hhidden, hbits, hbits]
  refine ⟨hhigh.trans_le (zpow_le_zpow_right₀ (by norm_num) (by omega)), ?_⟩
  rcases Nat.eq_zero_or_pos k with hzero | hpos
  · exact .inl hzero
  · exact .inr ((zpow_le_zpow_right₀ (by norm_num) (by omega)).trans hlow)

/-- The same in units of the weight: a significand that is at most a half off, and less if it is
odd, has a pattern that the magnitude reads as. -/
theorem readsAs_rounded {a : ℚ} {m k : Nat} (hhigh : a < 2 * hiddenBit * weight k)
    (hlow : k = 0 ∨ hiddenBit * weight k ≤ a) (hnear : |a / weight k - m| ≤ 1 / 2)
    (hodd : m % 2 = 1 → |a / weight k - m| < 1 / 2) :
    ReadsAs a (min (k * hiddenBit + m) infinityPattern) := by
  have hpos := weight_pos k
  have hscale : a - m * weight k = (a / weight k - m) * weight k := by field_simp
  obtain ⟨hnear₁, hnear₂⟩ := abs_le.mp hnear
  have hm : m ≤ 2 * hiddenBit := by
    have hunits : a / weight k < 2 * hiddenBit := (div_lt_iff₀ hpos).mpr hhigh
    have hlt : (m : ℚ) < (2 * hiddenBit + 1 : Nat) := by
      push_cast
      linarith
    exact Nat.lt_succ_iff.mp (by exact_mod_cast hlt)
  refine readsAs_scaled hm (hlow.imp_right fun hle => ⟨?_, hle⟩) ?_ fun h => ?_
  · have hunits : (hiddenBit : ℚ) ≤ a / weight k := (le_div_iff₀ hpos).mpr hle
    have hlt : (hiddenBit : ℚ) < (m + 1 : Nat) := by
      push_cast
      linarith
    exact Nat.lt_succ_iff.mp (by exact_mod_cast hlt)
  · rw [hscale, abs_mul, abs_of_pos hpos]
    nlinarith
  · have hstrict := hodd h
    rw [hscale, abs_mul, abs_of_pos hpos]
    nlinarith

/-! ## 3. Quotients and digits -/

/-- **The double computed for a quotient has the pattern that the quotient reads as.** -/
theorem ofQuotient_readsAs (n : Nat) {d : Nat} (hd : 0 < d) :
    ReadsAs (n / d : ℚ) (ofQuotient n d).magnitude := by
  unfold ofQuotient
  split
  · next hzero =>
    have hreads : ReadsAs 0 (min (0 * hiddenBit + 0) infinityPattern) :=
      readsAs_rounded (mul_pos (by norm_num [hiddenBit]) (weight_pos 0)) (.inl rfl) (by norm_num)
        (by decide)
    rw [hzero, magnitude_ofMagnitude, Nat.cast_zero, zero_div]
    rwa [Nat.zero_mul] at hreads
  · next hne =>
    obtain ⟨hlow, hhigh⟩ := floorLog2_bounds (Nat.pos_of_ne_zero hne) hd
    generalize floorLog2 n d = e at *
    -- the exponent in steps above the least, and its weight
    obtain ⟨k, hk⟩ : ∃ k : Nat, max (e - 52) minExponent = minExponent + k :=
      ⟨(max (e - 52) minExponent - minExponent).toNat, by omega⟩
    have hsteps : (minExponent + k - minExponent).toNat = k := by omega
    obtain ⟨hup, hdown, hpower⟩ := powerOfTwo_div (minExponent + k)
    obtain ⟨hbelow, hnormal⟩ := weight_fits hlow hhigh hk
    simp only [hk, hsteps, ofScaled, magnitude_ofMagnitude]
    obtain ⟨hnear, hodd⟩ := roundDiv_near (n * (powerOfTwo (minExponent + k)).2)
      (Nat.mul_pos hd hup)
    have hunits : ((n * (powerOfTwo (minExponent + k)).2 : Nat) : ℚ) /
        (d * (powerOfTwo (minExponent + k)).1 : Nat) = n / d / weight k := by
      have hdown' : ((powerOfTwo (minExponent + k)).2 : ℚ) ≠ 0 := by exact_mod_cast hdown.ne'
      rw [weight, ← hpower]
      push_cast
      field_simp
    rw [hunits] at hnear hodd
    exact readsAs_rounded hbelow hnormal hnear hodd

theorem isNegative_ofQuotient (n d : Nat) : (ofQuotient n d).isNegative = false := by
  unfold ofQuotient
  split
  · exact isNegative_ofMagnitude 0
  · exact isNegative_ofMagnitude _

/-- The rational number that digits before and behind a point denote. -/
def fractionOf (whole fraction : List Char) : ℚ :=
  decimalValue (whole ++ fraction) / 10 ^ fraction.length

theorem fractionOf_nonneg (whole fraction : List Char) : 0 ≤ fractionOf whole fraction := by
  unfold fractionOf
  positivity

/-- **The double computed for digits is the correctly rounded one.** -/
theorem ofDigits_rounds (whole fraction : List Char) :
    Rounds false (fractionOf whole fraction) (ofDigits whole fraction) := by
  have hreads := ofQuotient_readsAs (decimalValue (whole ++ fraction))
    (Nat.pow_pos (n := fraction.length) (by decide : 0 < 10))
  refine (rounds_iff (fractionOf_nonneg _ _)).mpr ⟨isNegative_ofQuotient _ _, ?_⟩
  rw [ofDigits, ofDecimal, digitsValue_eq, fractionOf]
  push_cast at hreads
  exact hreads

end Double

end CpScan
