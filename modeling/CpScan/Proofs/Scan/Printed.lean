/-
# Printed floats

The text of a finite double is a numeral, plain or with an exponent, of the digits that were found
for it (`Double.exists_numeral`).  That numeral is read back as the double (`Double.shown_rounds`),
and no numeral with fewer significant digits is (`Double.shown_le`); zero has none.

So a float that is printed plainly can be scanned again: the text is digits, a point and digits, and
the double computed for them is the one that is correctly rounded, of which there is only one
(`printed_floats_read_back`).
-/
import CpScan.Proofs.Decimal.Numeral
import CpScan.Proofs.Decimal.Shortest
import CpScan.Proofs.Scan.Numbers

namespace CpScan

/-! ## 1. The text of a double -/

/-- Without an exponent, a numeral denotes the fraction of its digits. -/
theorem Numeral.fractionOf_eq {a : Numeral} (h : a.exponent = 0) :
    Double.fractionOf a.whole.row a.fraction.row = a.magnitude := by
  rw [Double.fractionOf, Numeral.magnitude, Numeral.row, h, zero_sub, zpow_neg, zpow_natCast,
    div_eq_mul_inv]

namespace Double

variable {x : Double} {a b : Numeral}

/-- **A finite double is written as a numeral** with its sign and its shortest digits. -/
theorem exists_numeral (hx : x.Finite) :
    ∃ a : Numeral, a.negative = x.isNegative ∧
      (a.Plain x.render.toList ∨ a.Scientific x.render.toList) ∧
      a.Shows (Nat.toDigits 10 x.shortest.1) x.shortest.2 := by
  have hnumber : x.isNaN = false := decide_eq_false (not_lt.mpr hx.le)
  have hfinite : x.isInfinite = false := beq_eq_false_iff_ne.mpr hx.ne
  have htext : x.render.toList =
      Numeral.signText x.isNegative ++ Layout.literal.decimal x.shortest.1 x.shortest.2 := by
    rw [render, Layout.double, hnumber, hfinite]
    cases x.isNegative with
    | false => simp [Numeral.signText]
    | true => simp [Numeral.signText]
  rw [htext]
  exact Layout.exists_decimal x.isNegative .literal x.shortest.1 x.shortest.2

/-- **What is written is read back.** -/
theorem shown_rounds (hx : x.Finite) (hsign : a.negative = x.isNegative)
    (h : a.Shows (Nat.toDigits 10 x.shortest.1) x.shortest.2) :
    Rounds a.negative a.magnitude x := by
  refine (rounds_iff a.magnitude_nonneg).mpr ⟨hsign.symm, ?_⟩
  rw [h.magnitude_eq, decimalValue_toDigits]
  by_cases hzero : x.magnitude = 0
  · rw [shortest_of_zero hzero, hzero, Nat.cast_zero, zero_mul]
    exact .zero
  · exact (shortest_spec hx hzero).1

/-- **What is read back has no fewer digits.** -/
theorem shown_le (hx : x.Finite) (h : a.Shows (Nat.toDigits 10 x.shortest.1) x.shortest.2)
    (hb : Rounds b.negative b.magnitude x) : a.digitCount ≤ b.digitCount := by
  by_cases hzero : x.magnitude = 0
  · -- nothing but zeros is written for zero
    rw [shortest_of_zero hzero] at h
    obtain ⟨i, k, hrow, -⟩ := h
    have hnone := significant_le i (k + 1) []
    have hzeros : a.row = List.replicate i '0' ++ [] ++ List.replicate (k + 1) '0' := by
      rw [hrow, List.append_nil, List.append_assoc]
      rfl
    rw [← hzeros] at hnone
    exact hnone.trans (Nat.zero_le _)
  · obtain ⟨c, j, hvalue, hlt⟩ := exists_significant b.row_all
    have hreads := ((rounds_iff b.magnitude_nonneg).mp hb).2
    have hmagnitude : b.magnitude = c * 10 ^ (j + (b.exponent - b.fraction.row.length) : Int) := by
      rw [Numeral.magnitude, hvalue, zpow_add₀ (by norm_num), zpow_natCast]
      push_cast
      ring
    rw [hmagnitude] at hreads
    have hle := (shortest_spec hx hzero).2 _ _ hreads
    have hdigits := (Nat.pow_lt_pow_iff_right (by decide : 1 < 10)).mp (hle.trans_lt hlt)
    have hshown := h.digitCount_le
    change _ < b.digitCount at hdigits
    omega

end Double

/-! ## 2. Scanning it again -/

/-- A float that is written plainly is one token. -/
theorem Numeral.Plain.rule {a : Numeral} {text : List Char} (h : a.Plain text)
    (hsign : a.negative = false) :
    Grammar.Rule text ⟨text,
      .token .float (some (.float (Double.ofDigits a.whole.row a.fraction.row))), []⟩ := by
  have htext : text = a.whole.row ++ '.' :: a.fraction.row := by
    rw [h.text_eq, hsign]
    rfl
  have hdigits (row : Digits) : ∀ c ∈ row.row, Grammar.Digit c := fun c hc =>
    (Grammar.isDecimalDigit_iff c).mp (row.all c hc)
  have hrun : Grammar.Longest Grammar.Digit a.fraction.row [] :=
    Grammar.longest_iff_stops.mpr ⟨hdigits a.fraction, by rintro _ _ ⟨⟩⟩
  have hrule := Grammar.Rule.float (hdigits a.whole) h.fraction hrun (by rintro _ ⟨⟩)
  rwa [List.append_nil, ← htext] at hrule

/-- **Printed floats read back.**  The text of every finite double is a numeral, written plainly or
with an exponent; the double is the one that this numeral rounds to, and no numeral that rounds to
it has fewer significant digits.  A finite float of a run that is printed without an exponent is
scanned from its text as one float with the same bits, and nothing is reported. -/
theorem printed_floats_read_back :
    (∀ x : Double, x.Finite → ∃ a, Numeral.read? (Literal.float x).render.toList = some a ∧
        (a.Plain (Literal.float x).render.toList ∨
          a.Scientific (Literal.float x).render.toList) ∧
        (∀ y, Double.Rounds a.negative a.magnitude y ↔ y = x) ∧
        ∀ b : Numeral, Double.Rounds b.negative b.magnitude x → a.digitCount ≤ b.digitCount) ∧
      ∀ (source : String) (sink : Collector), ∀ t ∈ (Scanner.run source sink).tokens.toList,
        ∀ x, t.kind = .float → t.literal = some (.float x) → x.Finite →
          'e' ∉ (Literal.float x).render.toList →
          let text := (Literal.float x).render
          (Scanner.run text sink).tokens.toList =
              [⟨.float, text, some (.float x), ⟨0, text.utf8ByteSize, 1⟩⟩] ∧
            (Scanner.run text sink).errors = 0 ∧ (Scanner.run text sink).sink = sink := by
  refine ⟨fun x hx => ?_, ?_⟩
  · obtain ⟨a, hsign, hwritten, hshows⟩ := Double.exists_numeral hx
    have hrounds := Double.shown_rounds hx hsign hshows
    refine ⟨a, ?_, hwritten, fun y => ?_, fun b hb => Double.shown_le hx hshows hb⟩
    · exact hwritten.elim Numeral.Plain.read?_eq Numeral.Scientific.read?_eq
    · exact ⟨fun hy => hy.unique a.magnitude_nonneg hrounds, fun hy => hy ▸ hrounds⟩
  · intro source sink t ht x hkind hliteral hx hplain text
    -- a float of a run is never negative
    obtain ⟨whole, fraction, -, -, -, hvalue⟩ := (Scanner.rule_of_mem_run ht).number_token.2 hkind
    have hpositive : x.isNegative = false := by
      rw [hliteral] at hvalue
      obtain rfl : x = Double.ofDigits whole fraction := by simpa using hvalue
      exact (Double.ofDigits_rounds whole fraction).sign
    obtain ⟨a, hsign, hwritten, hshows⟩ := Double.exists_numeral hx
    have hrounds := Double.shown_rounds hx hsign hshows
    rcases hwritten with hwritten | hwritten
    · have hrule := hwritten.rule (hsign.trans hpositive)
      have hagain := Double.ofDigits_rounds a.whole.row a.fraction.row
      rw [Numeral.fractionOf_eq hwritten.exponent] at hagain
      rw [hsign, hpositive] at hrounds
      rw [hagain.unique a.magnitude_nonneg hrounds] at hrule
      exact Scanner.run_of_rule hrule sink
    · refine absurd ?_ hplain
      change 'e' ∈ x.render.toList
      rw [hwritten.text_eq]
      simp

/-- The least double is written with an exponent, as one digit, although it has many; and one tenth,
scanned with more digits than it needs, is written and scanned again with one. -/
theorem printed_floats_read_back_shortly :
    (∃ a, Numeral.read? "5e-324".toList = some a ∧
        (∀ y, Double.Rounds a.negative a.magnitude y ↔ y = ⟨1⟩) ∧
        ∀ b : Numeral, Double.Rounds b.negative b.magnitude ⟨1⟩ → a.digitCount ≤ b.digitCount) ∧
      (Scanner.run "0.1" {}).tokens.toList =
        [⟨.float, "0.1", some (.float ⟨0x3FB999999999999A⟩), ⟨0, 3, 1⟩⟩] := by
  constructor
  · have htext : (Literal.float ⟨1⟩).render = "5e-324" := by decide +kernel
    obtain ⟨a, hread, -, hrounds, hfewest⟩ := printed_floats_read_back.1 ⟨1⟩ (by decide)
    exact ⟨a, htext ▸ hread, hrounds, hfewest⟩
  · have htext : (Literal.float ⟨0x3FB999999999999A⟩).render = "0.1" := by decide +kernel
    have htoken : (⟨.float, ".1000000000000000055", some (.float ⟨0x3FB999999999999A⟩),
        ⟨0, 20, 1⟩⟩ : Token) ∈ (Scanner.run ".1000000000000000055" {}).tokens.toList := by
      decide +kernel
    have hagain := printed_floats_read_back.2 _ _ _ htoken _ rfl rfl (by decide)
      (by rw [htext]; decide)
    rw [htext] at hagain
    exact hagain.1

end CpScan
