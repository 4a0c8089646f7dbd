/-
# Written numbers

A written number has a sign, digits before and behind a point, and an exponent (`Numeral`).  It
denotes a rational number (`Numeral.magnitude`) and has so many significant digits
(`Numeral.digitCount`); `Numeral.read?` reads it from a text, knowing nothing of how the text came
about.

The format of literals lays a row of digits out in one of two ways, plainly or with an exponent, and
puts zeros around it where it has to.  Either way the text is read as those digits at that power of
ten (`Layout.read?_decimal`), so it denotes what it should and shows no digit more than the row.
-/
import CpScan.Decimal.Layout
import CpScan.Proofs.Decimal.Rounding
import CpScan.Proofs.Decimal.Digits

namespace CpScan

/-! ## 1. Numbers as they are written -/

/-- A row of decimal digits. -/
@[ext]
structure Digits where
  row : List Char
  all : ∀ c ∈ row, isDecimalDigit c = true

namespace Digits

def append (a b : Digits) : Digits :=
  ⟨a.row ++ b.row, fun c hc => (List.mem_append.mp hc).elim (a.all c) (b.all c)⟩

def take (a : Digits) (n : Nat) : Digits :=
  ⟨a.row.take n, fun c hc => a.all c (List.mem_of_mem_take hc)⟩

def drop (a : Digits) (n : Nat) : Digits :=
  ⟨a.row.drop n, fun c hc => a.all c (List.mem_of_mem_drop hc)⟩

variable (a b : Digits) (n : Nat)

@[simp] theorem row_append : (a.append b).row = a.row ++ b.row := rfl

@[simp] theorem row_take : (a.take n).row = a.row.take n := rfl

@[simp] theorem row_drop : (a.drop n).row = a.row.drop n := rfl

end Digits

/-- A number as it is written. -/
structure Numeral where
  negative : Bool
  whole : Digits
  fraction : Digits
  exponent : Int

namespace Numeral

/-- All digits of a numeral. -/
def row (a : Numeral) : List Char := a.whole.row ++ a.fraction.row

/-- The absolute value of what a numeral denotes. -/
def magnitude (a : Numeral) : ℚ := decimalValue a.row * 10 ^ (a.exponent - a.fraction.row.length)

theorem magnitude_nonneg (a : Numeral) : 0 ≤ a.magnitude := by
  unfold magnitude
  positivity

theorem row_all (a : Numeral) : ∀ c ∈ a.row, isDecimalDigit c = true := fun c hc =>
  (List.mem_append.mp hc).elim (a.whole.all c) (a.fraction.all c)

/-- How many significant digits a numeral has; zeros in front and behind do not count. -/
def digitCount (a : Numeral) : Nat := significant a.row

/-! ## 2. Reading a numeral -/

/-- A sign, if there is one, and what stands behind it. -/
def takeSign : List Char → Bool × List Char
  | '-' :: rest => (true, rest)
  | '+' :: rest => (false, rest)
  | text => (false, text)

/-- The longest row of digits in front, and what stands behind it. -/
def takeDigits (text : List Char) : Digits × List Char :=
  (⟨text.takeWhile isDecimalDigit, fun _ => List.mem_takeWhile_imp⟩,
    text.dropWhile isDecimalDigit)

/-- A point with the digits behind it, if there is one, and what stands behind them. -/
def takeFraction : List Char → Digits × List Char
  | '.' :: rest => takeDigits rest
  | text => (⟨[], by simp⟩, text)

/-- The exponent that is all of a text; without a text it is zero. -/
def exponent? : List Char → Option Int
  | [] => some 0
  | mark :: text =>
    let (negative, unsigned) := takeSign text
    let (digits, rest) := takeDigits unsigned
    if (mark = 'e' ∨ mark = 'E') ∧ digits.row ≠ [] ∧ rest = [] then
      some (if negative then -decimalValue digits.row else decimalValue digits.row)
    else none

/-- The numeral that a text is, if it is one. -/
def read? (text : List Char) : Option Numeral :=
  let (negative, unsigned) := takeSign text
  let (whole, rest) := takeDigits unsigned
  let (fraction, rest) := takeFraction rest
  if whole.row = [] ∧ fraction.row = [] then none
  else (exponent? rest).map fun exponent => ⟨negative, whole, fraction, exponent⟩

/-- The text of a sign; only a negative one is written. -/
def signText (negative : Bool) : List Char := if negative then ['-'] else []

theorem takeSign_signText (negative : Bool) {c : Char} (hc : isDecimalDigit c = true)
    (rest : List Char) : takeSign (signText negative ++ c :: rest) = (negative, c :: rest) := by
  cases negative with
  | true => rfl
  | false =>
    change takeSign (c :: rest) = _
    unfold takeSign
    split
    · next heq =>
      obtain ⟨rfl, -⟩ := List.cons.inj heq
      exact absurd hc (by decide)
    · next heq =>
      obtain ⟨rfl, -⟩ := List.cons.inj heq
      exact absurd hc (by decide)
    · rfl

/-- Digits in front of something else are all that is taken. -/
theorem takeDigits_append (digits : Digits) {rest : List Char}
    (hrest : rest.takeWhile isDecimalDigit = []) : takeDigits (digits.row ++ rest) =
      (digits, rest) := by
  have hdrop : rest.dropWhile isDecimalDigit = rest := by
    conv_rhs => rw [← List.takeWhile_append_dropWhile (p := isDecimalDigit) (l := rest), hrest]
    rfl
  unfold takeDigits
  congr 2
  · rw [List.takeWhile_append_of_pos digits.all, hrest, List.append_nil]
  · rw [List.dropWhile_append_of_pos digits.all, hdrop]

/-- The digits of a number. -/
def digitsOf (n : Nat) : Digits := ⟨Nat.toDigits 10 n, fun _ => isDecimalDigit_of_mem_toDigits⟩

/-- **An exponent is read as it is written.** -/
theorem exponent?_toString (e : Int) : exponent? ('e' :: (toString e).toList) = some e := by
  have hread (negative : Bool) (n : Nat) :
      exponent? ('e' :: (signText negative ++ (digitsOf n).row)) =
        some (if negative then -(n : Int) else n) := by
    obtain ⟨c, cs, hrow⟩ := List.exists_cons_of_ne_nil (Nat.toDigits_ne_nil (b := 10) (n := n))
    have hc : isDecimalDigit c = true := (digitsOf n).all c (by simp [digitsOf, hrow])
    have hsign : takeSign (signText negative ++ (digitsOf n).row) =
        (negative, (digitsOf n).row) := by
      change takeSign (signText negative ++ Nat.toDigits 10 n) = (negative, Nat.toDigits 10 n)
      rw [hrow, takeSign_signText negative hc]
    have hdigits : takeDigits (digitsOf n).row = (digitsOf n, []) := by
      conv_lhs => rw [← List.append_nil (digitsOf n).row]
      exact takeDigits_append (digitsOf n) rfl
    simp only [exponent?, hsign, hdigits]
    simp [digitsOf]
  rw [Int.toString_eq_repr]
  cases e with
  | ofNat n =>
    have h := hread false n
    simpa [signText, digitsOf, Int.repr] using h
  | negSucc n =>
    have htext : (Int.negSucc n).repr.toList = '-' :: Nat.toDigits 10 (n + 1) := by
      simp [Int.repr]
    rw [htext, Int.negSucc_eq]
    exact hread true (n + 1)

/-- A number is read part by part, and its digits must not be missing. -/
theorem read?_parts {negative : Bool} {whole fraction : Digits} {exponent : Int}
    {rest tail : List Char} (hne : whole.row ≠ []) (hrest : rest.takeWhile isDecimalDigit = [])
    (hfraction : takeFraction rest = (fraction, tail))
    (hexponent : exponent? tail = some exponent) :
    read? (signText negative ++ (whole.row ++ rest)) =
      some ⟨negative, whole, fraction, exponent⟩ := by
  obtain ⟨c, cs, hrow⟩ := List.exists_cons_of_ne_nil hne
  have hc : isDecimalDigit c = true := whole.all c (by simp [hrow])
  have hsign : takeSign (signText negative ++ (whole.row ++ rest)) =
      (negative, whole.row ++ rest) := by
    rw [hrow, List.cons_append, takeSign_signText negative hc]
  simp only [read?, hsign, takeDigits_append whole hrest, hfraction, hexponent]
  rw [if_neg (fun h => hne h.1)]
  rfl

/-! ## 3. Two ways of writing -/

variable {a : Numeral} {text row : List Char} {p : Int}

/-- The plain notation, with a digit on both sides of the point. -/
structure Plain (a : Numeral) (text : List Char) : Prop where
  text_eq : text = signText a.negative ++ (a.whole.row ++ '.' :: a.fraction.row)
  whole : a.whole.row ≠ []
  fraction : a.fraction.row ≠ []
  exponent : a.exponent = 0

/-- The notation with an exponent: one digit before the point, and no point if there is no digit
behind it. -/
structure Scientific (a : Numeral) (text : List Char) : Prop where
  text_eq : text = signText a.negative ++ (a.whole.row ++
    ((if a.fraction.row = [] then [] else '.' :: a.fraction.row) ++
      'e' :: (toString a.exponent).toList))
  whole : a.whole.row.length = 1

theorem takeFraction_point (digits : Digits) {rest : List Char}
    (hrest : rest.takeWhile isDecimalDigit = []) :
    takeFraction ('.' :: (digits.row ++ rest)) = (digits, rest) :=
  takeDigits_append digits hrest

/-- **What is written plainly is read.** -/
theorem Plain.read?_eq (h : a.Plain text) : read? text = some a := by
  have hfraction : takeFraction ('.' :: a.fraction.row) = (a.fraction, []) := by
    conv_lhs => rw [← List.append_nil a.fraction.row]
    exact takeFraction_point a.fraction rfl
  have hexponent : exponent? [] = some a.exponent := by
    rw [h.exponent]
    rfl
  rw [h.text_eq]
  exact read?_parts h.whole rfl hfraction hexponent

/-- **What is written with an exponent is read.** -/
theorem Scientific.read?_eq (h : a.Scientific text) : read? text = some a := by
  have hne : a.whole.row ≠ [] := List.ne_nil_of_length_pos (h.whole ▸ Nat.one_pos)
  have hexponent := exponent?_toString a.exponent
  rw [h.text_eq]
  split
  · next hempty =>
    have hfraction : takeFraction ('e' :: (toString a.exponent).toList) =
        (a.fraction, 'e' :: (toString a.exponent).toList) := by
      have hdigits : a.fraction = ⟨[], by simp⟩ := Digits.ext hempty
      rw [hdigits]
      rfl
    exact read?_parts hne rfl hfraction hexponent
  · exact read?_parts hne rfl (takeFraction_point a.fraction rfl) hexponent

/-- The numeral shows a row of digits at a power of ten, with zeros around it. -/
def Shows (a : Numeral) (row : List Char) (p : Int) : Prop :=
  ∃ i k, a.row = List.replicate i '0' ++ row ++ List.replicate k '0' ∧
    a.exponent - a.fraction.row.length + k = p

/-- What is shown is what is denoted. -/
theorem Shows.magnitude_eq (h : a.Shows row p) : a.magnitude = decimalValue row * 10 ^ p := by
  obtain ⟨i, k, hrow, rfl⟩ := h
  rw [magnitude, hrow, decimalValue_append_zeros, decimalValue_zeros_append,
    zpow_add₀ (by norm_num), zpow_natCast]
  push_cast
  ring

/-- No more digits are significant than are shown. -/
theorem Shows.digitCount_le (h : a.Shows row p) : a.digitCount ≤ row.length := by
  obtain ⟨i, k, hrow, -⟩ := h
  rw [digitCount, hrow]
  exact significant_le i k row

end Numeral

/-! ## 4. The format -/

namespace Layout

/-- A row of zeros. -/
def zeroDigits (count : Nat) : Digits :=
  ⟨zeros count, fun c hc => by rw [List.eq_of_mem_replicate hc]; rfl⟩

@[simp] theorem row_zeroDigits (count : Nat) :
    (zeroDigits count).row = List.replicate count '0' := rfl

variable (negative : Bool) (digits : Digits) (point : Int)

/-- **The plain notation shows its digits with the point where it belongs.** -/
theorem exists_positional (hne : digits.row ≠ []) :
    ∃ a : Numeral, a.negative = negative ∧
      a.Plain (Numeral.signText negative ++ positional digits.row point) ∧
      a.Shows digits.row (point - digits.row.length) := by
  unfold positional
  split
  · next hsmall =>
    -- zeros up to the first digit
    refine ⟨⟨negative, zeroDigits 1, (zeroDigits (-point).toNat).append digits, 0⟩, rfl,
      ⟨rfl, by simp, by simp [hne], rfl⟩, 1 + (-point).toNat, 0, ?_, ?_⟩
    · simp [Numeral.row, List.replicate_add]
    · simp only [Digits.row_append, row_zeroDigits, List.length_append, List.length_replicate]
      omega
  · next hlarge =>
    dsimp only
    split
    · next hinside =>
      -- the point between two digits
      refine ⟨⟨negative, digits.take point.toNat, digits.drop point.toNat, 0⟩, rfl,
        ⟨rfl, ?_, ?_, rfl⟩, 0, 0, by simp [Numeral.row], ?_⟩
      · simp only [Digits.row_take, ne_eq, List.take_eq_nil_iff, hne, or_false]
        omega
      · simp only [Digits.row_drop, ne_eq, List.drop_eq_nil_iff]
        omega
      · simp only [Digits.row_drop, List.length_drop]
        omega
    · next hbehind =>
      -- zeros from the last digit up to the point, and one behind it
      refine ⟨⟨negative, digits.append (zeroDigits (point.toNat - digits.row.length)),
        zeroDigits 1, 0⟩, rfl, ⟨by simp [zeros], by simp [hne], by simp, rfl⟩,
        0, point.toNat - digits.row.length + 1, ?_, ?_⟩
      · simp [Numeral.row, List.replicate_add]
      · simp only [row_zeroDigits, List.length_replicate]
        omega

/-- **The notation with an exponent shows its digits at their power of ten.** -/
theorem exists_scientific (hne : digits.row ≠ []) :
    ∃ a : Numeral, a.negative = negative ∧
      a.Scientific (Numeral.signText negative ++ scientific digits.row point) ∧
      a.Shows digits.row (point - digits.row.length) := by
  obtain ⟨c, cs, hrow⟩ := List.exists_cons_of_ne_nil hne
  have hone : digits.row.take 1 = [c] := by rw [hrow]; rfl
  have hrest : digits.row.drop 1 = cs := by rw [hrow]; rfl
  refine ⟨⟨negative, digits.take 1, digits.drop 1, point - 1⟩, rfl, ⟨?_, ?_⟩, 0, 0, ?_, ?_⟩
  · simp only [scientific, Digits.row_take, Digits.row_drop, hone, hrest]
    rw [hrow]
    cases cs with
    | nil => rfl
    | cons d ds => rfl
  · rw [Digits.row_take, hone, List.length_singleton]
  · rw [Numeral.row, Digits.row_take, Digits.row_drop, List.take_append_drop]
    exact (List.append_nil _).symm
  · dsimp only
    rw [Digits.row_drop, hrest, hrow, List.length_cons]
    omega

/-- **What the format writes is read, as the digits at their power of ten.** -/
theorem exists_decimal (l : Layout) (d : Nat) (p : Int) :
    ∃ a : Numeral, a.negative = negative ∧
      (a.Plain (Numeral.signText negative ++ l.decimal d p) ∨
        a.Scientific (Numeral.signText negative ++ l.decimal d p)) ∧
      a.Shows (Nat.toDigits 10 d) p := by
  have hne : (Numeral.digitsOf d).row ≠ [] := Nat.toDigits_ne_nil
  have hpoint : ((Nat.toDigits 10 d).length : Int) + p - (Numeral.digitsOf d).row.length = p := by
    change ((Nat.toDigits 10 d).length : Int) + p - (Nat.toDigits 10 d).length = p
    omega
  simp only [decimal]
  split
  · obtain ⟨a, hsign, hplain, hshows⟩ := exists_positional negative (Numeral.digitsOf d)
      ((Nat.toDigits 10 d).length + p) hne
    exact ⟨a, hsign, .inl hplain, hpoint ▸ hshows⟩
  · obtain ⟨a, hsign, hscientific, hshows⟩ := exists_scientific negative (Numeral.digitsOf d)
      ((Nat.toDigits 10 d).length + p) hne
    exact ⟨a, hsign, .inr hscientific, hpoint ▸ hshows⟩

end Layout

end CpScan
