/-
# Digits and the numbers they denote

A row of decimal digits denotes a number by place: each digit counts ten times as much as the one
behind it (`decimalValue`).  Reading the row from its front, as the scanner does, comes to the same
number (`digitsValue_eq`), and everything about the numbers of longer rows follows from what two
rows behind each other denote (`decimalValue_append`).

The zeros in front of a row and behind it tell only where the others stand.  What is left without
them is what the row has to say, and `significant` counts it: a row denotes a number with that many
digits, times a power of ten (`exists_significant`).
-/
import Mathlib.Algebra.Order.Ring.Nat
import Mathlib.Data.List.DropRight
import Mathlib.Data.Nat.Digits.Defs
import CpScan.Text.CharClass

namespace CpScan

/-! ## 1. Rows of digits by place -/

/-- The number that a row of decimal digits denotes: the last digit counts once, and each digit ten
times as much as the one behind it. -/
def decimalValue (digits : List Char) : Nat := Nat.ofDigits 10 (digits.reverse.map digitValue)

@[simp] theorem decimalValue_nil : decimalValue [] = 0 := rfl

/-- The first of two rows counts as many powers of ten as the second has digits. -/
theorem decimalValue_append (front back : List Char) :
    decimalValue (front ++ back) = decimalValue front * 10 ^ back.length + decimalValue back := by
  rw [decimalValue, List.reverse_append, List.map_append, Nat.ofDigits_append, List.length_map,
    List.length_reverse]
  change decimalValue back + 10 ^ back.length * decimalValue front = _
  rw [Nat.add_comm, Nat.mul_comm]

theorem decimalValue_singleton (c : Char) : decimalValue [c] = digitValue c :=
  Nat.ofDigits_singleton

/-- **Reading from the front gives the number by place.** -/
theorem digitsValue_eq (digits : List Char) : digitsValue digits = decimalValue digits := by
  induction digits using List.reverseRecOn with
  | nil => rfl
  | append_singleton front c ih =>
    rw [decimalValue_append, decimalValue_singleton, ← ih]
    simp only [digitsValue, List.foldl_append, List.foldl_cons, List.foldl_nil,
      List.length_singleton, Nat.pow_one]
    rw [Nat.mul_comm]

/-! ## 2. Zeros -/

theorem decimalValue_zeros (k : Nat) : decimalValue (List.replicate k '0') = 0 := by
  have hcore : digitsValue (List.replicate k '0') = 10 ^ k * 0 := Nat.ofDigitChars_replicate_zero
  rw [← digitsValue_eq, hcore, Nat.mul_zero]

/-- Zeros in front change nothing. -/
theorem decimalValue_zeros_append (k : Nat) (digits : List Char) :
    decimalValue (List.replicate k '0' ++ digits) = decimalValue digits := by
  rw [decimalValue_append, decimalValue_zeros, Nat.zero_mul, Nat.zero_add]

/-- Each zero behind makes ten times as much. -/
theorem decimalValue_append_zeros (digits : List Char) (k : Nat) :
    decimalValue (digits ++ List.replicate k '0') = decimalValue digits * 10 ^ k := by
  rw [decimalValue_append, decimalValue_zeros, List.length_replicate, Nat.add_zero]

/-! ## 3. The digits of a number -/

/-- **The digits of a number denote it.** -/
@[simp] theorem decimalValue_toDigits (n : Nat) : decimalValue (Nat.toDigits 10 n) = n := by
  have hcore : digitsValue (Nat.toDigits 10 n) = n := Nat.ofDigitChars_ten_toDigits
  rw [← digitsValue_eq, hcore]

theorem isDecimalDigit_of_mem_toDigits {n : Nat} {c : Char} (h : c ∈ Nat.toDigits 10 n) :
    isDecimalDigit c = true :=
  Nat.isDigit_of_mem_toDigits (by decide) (by decide) h

/-- A number has at least as many digits as the powers of ten in it say. -/
theorem pow_le_of_length_toDigits {n : Nat} (h : n ≠ 0) :
    10 ^ ((Nat.toDigits 10 n).length - 1) ≤ n := by
  rcases Nat.lt_or_ge 1 (Nat.toDigits 10 n).length with hlong | hone
  · by_contra hlt
    have hshort := (Nat.length_toDigits_le_iff (by decide : 1 < 10)
      (Nat.sub_pos_of_lt hlong)).mpr (Nat.lt_of_not_le hlt)
    omega
  · rw [Nat.sub_eq_zero_of_le hone, Nat.pow_zero]
    exact Nat.pos_of_ne_zero h

/-- A row of `k` digits denotes a number below `10 ^ k`. -/
theorem decimalValue_lt {digits : List Char} (h : ∀ c ∈ digits, isDecimalDigit c = true) :
    decimalValue digits < 10 ^ digits.length := by
  have hsmall : ∀ v ∈ digits.reverse.map digitValue, v < 10 := by
    intro v hv
    obtain ⟨c, hc, rfl⟩ := List.mem_map.mp hv
    have hdigit := h c (List.mem_reverse.mp hc)
    simp only [isDecimalDigit, Char.isDigit, Bool.and_eq_true, decide_eq_true_eq] at hdigit
    have hle : c.toNat ≤ '9'.toNat := UInt32.le_iff_toNat_le.mp hdigit.2
    have hnine : '9'.toNat = '0'.toNat + 9 := rfl
    unfold digitValue
    omega
  have hlt := Nat.ofDigits_lt_base_pow_length (by decide : 1 < 10) hsmall
  rwa [List.length_map, List.length_reverse] at hlt

/-! ## 4. Significant digits -/

/-- How many digits of a row are left without the zeros in front and behind. -/
def significant (digits : List Char) : Nat :=
  ((digits.dropWhile (· == '0')).rdropWhile (· == '0')).length

/-- A row without its zeros in front. -/
theorem exists_dropWhile_zeros (digits : List Char) :
    ∃ k, digits = List.replicate k '0' ++ digits.dropWhile (· == '0') := by
  refine ⟨(digits.takeWhile (· == '0')).length, ?_⟩
  have hzeros : digits.takeWhile (· == '0') =
      List.replicate (digits.takeWhile (· == '0')).length '0' :=
    List.eq_replicate_of_mem fun c hc => beq_iff_eq.mp (List.all_eq_true.mp List.all_takeWhile c hc)
  rw [← hzeros, List.takeWhile_append_dropWhile]

/-- A row without its zeros behind. -/
theorem exists_rdropWhile_zeros (digits : List Char) :
    ∃ k, digits = digits.rdropWhile (· == '0') ++ List.replicate k '0' := by
  obtain ⟨k, hk⟩ := exists_dropWhile_zeros digits.reverse
  refine ⟨k, ?_⟩
  have hback := congrArg List.reverse hk
  rwa [List.reverse_reverse, List.reverse_append, List.reverse_replicate] at hback

/-- **A row says a number with as many digits as are significant**, times a power of ten. -/
theorem exists_significant {digits : List Char} (h : ∀ c ∈ digits, isDecimalDigit c = true) :
    ∃ c k, decimalValue digits = c * 10 ^ k ∧ c < 10 ^ significant digits := by
  obtain ⟨i, hfront⟩ := exists_dropWhile_zeros digits
  obtain ⟨k, hback⟩ := exists_rdropWhile_zeros (digits.dropWhile (· == '0'))
  refine ⟨decimalValue ((digits.dropWhile (· == '0')).rdropWhile (· == '0')), k, ?_, ?_⟩
  · conv_lhs => rw [hfront, hback]
    rw [decimalValue_zeros_append, decimalValue_append_zeros]
  · refine decimalValue_lt fun c hc => h c ?_
    exact (List.dropWhile_sublist _).mem ((List.rdropWhile_prefix _ _).sublist.mem hc)

/-- No digit between zeros is more than one that is significant. -/
theorem significant_le (i k : Nat) (digits : List Char) :
    significant (List.replicate i '0' ++ digits ++ List.replicate k '0') ≤ digits.length := by
  have hzero : ∀ n, ∀ c ∈ List.replicate n '0', (c == '0') = true := fun n c hc =>
    beq_iff_eq.mpr (List.eq_of_mem_replicate hc)
  unfold significant
  rw [List.append_assoc, List.dropWhile_append_of_pos (hzero i), List.dropWhile_append]
  split
  · -- nothing but zeros
    rw [List.dropWhile_eq_nil_iff.mpr (hzero k)]
    exact Nat.zero_le _
  · have hback : (digits.dropWhile (· == '0') ++ List.replicate k '0').rdropWhile (· == '0') =
        (digits.dropWhile (· == '0')).rdropWhile (· == '0') := by
      rw [List.rdropWhile, List.reverse_append, List.reverse_replicate,
        List.dropWhile_append_of_pos (hzero k)]
      rfl
    rw [hback]
    exact Nat.le_trans (List.rdropWhile_prefix _ _).length_le (List.dropWhile_sublist _).length_le

end CpScan
