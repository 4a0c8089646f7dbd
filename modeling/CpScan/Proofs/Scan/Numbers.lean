/-
# Numbers in a source text

What a turn of the machine makes of a number, with the numbers that digits denote said by place and
without the scanner (`decimalValue`, `Double.fractionOf`).

* A longest run of digits is an integer with exactly its value, up to the greatest there is, and
  otherwise one report; zeros in front do not count (`integers_are_exact`).
* Digits with a point before the last run of them are a float with the correctly rounded double,
  unless another point follows, and nothing else spoils a float (`floats_are_correctly_rounded`).

Both follow the same way: a rule of the grammar says which piece it is, and a turn from a head does
what the rule says (`Head.emits_of_rule`, `Head.reports_of_rule`).
-/
import CpScan.Proofs.Decimal.Reading
import CpScan.Proofs.Scan.Lookahead

namespace CpScan

namespace Scanner

/-! ## 1. One turn, one token or one report -/

/-- The next turn takes `taken` and leaves `rest`, and all it records is one token, which is the
text that was taken. -/
structure EmitsNext (s : Scanner) (kind : Kind) (literal : Option Literal)
    (taken rest : List Char) : Prop where
  lexeme : s.step.cursor.lexeme = String.ofList taken
  left : s.step.cursor.left = rest
  tokens : s.step.tokens.toList = s.tokens.toList ++ [⟨kind, String.ofList taken, literal,
    ⟨s.cursor.current, s.cursor.current + byteLength taken, s.cursor.line⟩⟩]
  errors : s.step.errors = s.errors
  sink : s.step.sink = s.sink
  log : s.step.log.toList = s.log.toList

/-- The next turn takes `taken` and leaves `rest`, and all it records is one report. -/
structure ReportsNext (s : Scanner) (error : LexicalError) (taken rest : List Char) : Prop where
  lexeme : s.step.cursor.lexeme = String.ofList taken
  left : s.step.cursor.left = rest
  tokens : s.step.tokens.toList = s.tokens.toList
  errors : s.step.errors = s.errors + 1
  sink : s.step.sink = s.sink.report s.cursor.line error.message
  log : s.step.log.toList = s.log.toList ++
    [.lexicalError ⟨⟨s.cursor.current, s.cursor.line⟩, error⟩]

variable {source : String} {sink : Collector} {s : Scanner} {taken rest : List Char}

/-- A turn from a head takes what the grammar says. -/
theorem Head.takes_of_rule (h : Head source sink s) {k : Cut}
    (hrule : Grammar.Rule s.cursor.left k) : s.Takes k := by
  obtain ⟨c, cs, hleft, rfl⟩ := Grammar.cut_of_rule hrule
  exact h.takes hleft

theorem Head.emits_of_rule (h : Head source sink s) {kind : Kind} {literal : Option Literal}
    (hrule : Grammar.Rule s.cursor.left ⟨taken, .token kind literal, rest⟩) :
    s.EmitsNext kind literal taken rest := by
  have htakes := h.takes_of_rule hrule
  refine ⟨htakes.taken, htakes.rest, ?_, htakes.outcome.errors, htakes.outcome.sink, ?_⟩
  · rw [htakes.outcome.tokens]
    simp only [List.filterMap_cons, List.filterMap_nil, Piece.token?, Span.between, Piece.stop,
      Position.after_offset]
  · rw [htakes.outcome.log]
    exact List.append_nil _

theorem Head.reports_of_rule (h : Head source sink s) {error : LexicalError}
    (hrule : Grammar.Rule s.cursor.left ⟨taken, .report error, rest⟩) :
    s.ReportsNext error taken rest := by
  have htakes := h.takes_of_rule hrule
  refine ⟨htakes.taken, htakes.rest, ?_, htakes.outcome.errors, htakes.outcome.sink,
    htakes.outcome.log⟩
  rw [htakes.outcome.tokens]
  exact List.append_nil _

/-- And back: what a turn from a head reports, the grammar says. -/
theorem Head.rule_of_reports (h : Head source sink s) (hend : s.cursor.atEnd = false)
    {error : LexicalError} (hreports : s.ReportsNext error taken rest) :
    Grammar.Rule s.cursor.left ⟨taken, .report error, rest⟩ := by
  obtain ⟨before, ahead, done, hstands⟩ := h.stands
  obtain ⟨b, t, -, hcursor⟩ := hstands.cursor
  have hleft : s.cursor.left = ahead := by rw [hcursor, Cursor.zipper_left]
  rw [hcursor, Cursor.zipper_atEnd] at hend
  obtain ⟨c, cs, rfl⟩ := List.exists_cons_of_ne_nil (List.isEmpty_eq_false_iff.mp hend)
  have htakes := h.takes hleft
  have hrule : Grammar.Rule (c :: cs) (cut c cs) := (Grammar.rule_iff c cs _).mpr rfl
  generalize cut c cs = k at htakes hrule
  obtain ⟨taken', outcome, rest'⟩ := k
  obtain rfl : taken' = taken :=
    String.ofList_injective (htakes.taken.symm.trans hreports.lexeme)
  obtain rfl : rest' = rest := htakes.rest.symm.trans hreports.left
  have hlog := htakes.outcome.log.symm.trans hreports.log
  rw [List.append_cancel_left_eq] at hlog
  rw [hleft]
  cases outcome with
  | token kind literal => simp [List.filterMap_cons, Piece.report?] at hlog
  | skip => simp [List.filterMap_cons, Piece.report?] at hlog
  | report error' =>
    obtain rfl : error' = error := by simpa [List.filterMap_cons, Piece.report?] using hlog
    exact hrule

/-- The machine starts before its whole text. -/
theorem left_start (source : String) (sink : Collector) :
    (start source sink).cursor.left = source.toList := by
  have hcursor : (start source sink).cursor = Cursor.zipper [] [] source.toList 1 :=
    Cursor.ofString_eq_zipper _
  rw [hcursor, Cursor.zipper_left]

/-- A run over a text that is one token records it and nothing else. -/
theorem run_of_rule {text : String} {kind : Kind} {literal : Option Literal}
    (hrule : Grammar.Rule text.toList ⟨text.toList, .token kind literal, []⟩)
    (sink : Collector) :
    (run text sink).tokens.toList = [⟨kind, text, literal, ⟨0, text.utf8ByteSize, 1⟩⟩] ∧
      (run text sink).errors = 0 ∧ (run text sink).sink = sink := by
  have hpieces : (Scan.ofString text).pieces = [⟨{}, text.toList, .token kind literal⟩] := by
    change piecesFrom {} text.toList = _
    rw [piecesFrom_of_rule hrule, piecesFrom_nil]
  have hbytes : text.utf8ByteSize = byteLength text.toList := by
    rw [← utf8ByteSize_ofList, String.ofList_toList]
  have hreports : (Scan.ofString text).reports = [] := by
    rw [Scan.reports, hpieces]
    rfl
  obtain ⟨htokens, -, hsink, herrors, -⟩ := run_eq text sink
  refine ⟨?_, ?_, ?_⟩
  · rw [htokens, Scan.tokens, hpieces]
    simp only [List.filterMap_cons, List.filterMap_nil, Piece.token?, String.ofList_toList,
      Span.between, Piece.stop, Position.after_offset, hbytes, Nat.zero_add]
  · rw [herrors, hreports]
    rfl
  · rw [hsink, Collector.absorb, Scan.diagnostics, hreports]
    rfl

/-- Every token of a run is one by a rule. -/
theorem rule_of_mem_run {t : Token} (h : t ∈ (run source sink).tokens.toList) :
    Grammar.Rule t.lexeme.toList ⟨t.lexeme.toList, .token t.kind t.literal, []⟩ := by
  rw [(run_eq source sink).1] at h
  exact rule_of_mem_tokens h

end Scanner

/-- **What a number is made of.**  An integer is a run of digits that is not too large, and stands
for what they denote; a float is digits, a point and more digits, and stands for the double that is
computed for them. -/
theorem Grammar.Rule.number_token {text taken rest : List Char} {kind : Kind}
    {literal : Option Literal} (h : Rule text ⟨taken, .token kind literal, rest⟩) :
    (kind = .int → taken ≠ [] ∧ (∀ c ∈ taken, Digit c) ∧ decimalValue taken ≤ 2 ^ 63 - 1 ∧
        literal = some (.int (decimalValue taken))) ∧
      (kind = .float → ∃ whole fraction, taken = whole ++ '.' :: fraction ∧
        (∀ c ∈ whole ++ fraction, Digit c) ∧ fraction ≠ [] ∧
        literal = some (.float (Double.ofDigits whole fraction))) := by
  have hreserved : ∀ entry ∈ Kind.reserved, entry.2 ≠ .int ∧ entry.2 ≠ .float := by decide
  have hmarks : ∀ entry ∈ marks, entry.2 ≠ .int ∧ entry.2 ≠ .float := by decide
  have hoperators : ∀ entry ∈ operators, (entry.2.short ≠ .int ∧ entry.2.short ≠ .float) ∧
      entry.2.long ≠ .int ∧ entry.2.long ≠ .float := by decide
  have hother {P Q : Prop} (hk : kind ≠ .int ∧ kind ≠ .float) :
      (kind = .int → P) ∧ (kind = .float → Q) :=
    ⟨fun heq => absurd heq hk.1, fun heq => absurd heq hk.2⟩
  cases h with
  | integer hne hrun _ hvalue =>
    rw [digitsValue_eq] at hvalue ⊢
    exact ⟨fun _ => ⟨hne, hrun.1, hvalue, rfl⟩, by rintro ⟨⟩⟩
  | float hwhole hne hrun =>
    refine ⟨by rintro ⟨⟩, fun _ => ⟨_, _, rfl, ?_, hne, rfl⟩⟩
    intro c hc
    exact (List.mem_append.mp hc).elim (hwhole c) (hrun.1 c)
  | reserved _ _ hword => exact hother (hreserved _ hword)
  | mark hc => exact hother (hmarks _ hc)
  | longOperator hc => exact hother (hoperators _ hc).2
  | shortOperator hc => exact hother (hoperators _ hc).1
  | _ => exact hother ⟨by rintro ⟨⟩, by rintro ⟨⟩⟩

/-! ## 2. Integers -/

/-- Zeros and the digits of a number that is not too large are that number. -/
theorem Grammar.Rule.zeros_and_number (k : Nat) {n : Nat} (hn : n ≤ 2 ^ 63 - 1) :
    Rule (List.replicate k '0' ++ Nat.toDigits 10 n)
      ⟨List.replicate k '0' ++ Nat.toDigits 10 n, .token .int (some (.int n)), []⟩ := by
  have hvalue : digitsValue (List.replicate k '0' ++ Nat.toDigits 10 n) = n := by
    rw [digitsValue_eq, decimalValue_zeros_append, decimalValue_toDigits]
  have hdigits : ∀ c ∈ List.replicate k '0' ++ Nat.toDigits 10 n, Digit c := by
    intro c hc
    rw [← isDecimalDigit_iff]
    rcases List.mem_append.mp hc with hzero | hdigit
    · rw [List.eq_of_mem_replicate hzero]
      rfl
    · exact isDecimalDigit_of_mem_toDigits hdigit
  have hne := List.append_ne_nil_of_right_ne_nil (List.replicate k '0')
    (Nat.toDigits_ne_nil (b := 10) (n := n))
  have hrun : Longest Digit (List.replicate k '0' ++ Nat.toDigits 10 n) [] :=
    longest_iff_stops.mpr ⟨hdigits, by rintro _ _ ⟨⟩⟩
  have hrule := Rule.integer hne hrun (by rintro _ _ _ ⟨⟩) (hvalue.symm ▸ hn)
  rwa [hvalue, List.append_nil] at hrule

/-- **Integers are exact.**  At every turn of the machine, a longest run of digits that does not go
on as a fraction is taken, whatever its length: as an integer with the value that the digits denote
if this is at most `2 ^ 63 - 1`, and otherwise as one report, with no token; either way the next
turn begins right behind the run.  A run over a text has no other integers.  So a number with zeros
in front is scanned as that number, and written as its digits again. -/
theorem integers_are_exact (source : String) (sink : Collector) :
    (∀ s, Scanner.Head source sink s → ∀ digits rest, s.cursor.left = digits ++ rest →
        digits ≠ [] → Grammar.Longest Grammar.Digit digits rest →
        (∀ d more, Grammar.Digit d → rest ≠ '.' :: d :: more) →
        if decimalValue digits ≤ 2 ^ 63 - 1 then
          s.EmitsNext .int (some (.int (decimalValue digits))) digits rest
        else s.ReportsNext .integerOverflow digits rest) ∧
      LexicalError.integerOverflow.message = "integer literal out of range" ∧
      (∀ t ∈ (Scanner.run source sink).tokens.toList, t.kind = .int →
        t.lexeme.toList ≠ [] ∧ (∀ c ∈ t.lexeme.toList, Grammar.Digit c) ∧
          decimalValue t.lexeme.toList ≤ 2 ^ 63 - 1 ∧
          t.literal = some (.int (decimalValue t.lexeme.toList))) ∧
      ∀ n k : Nat, n ≤ 2 ^ 63 - 1 →
        let text := String.ofList (List.replicate k '0') ++ toString n
        (Scanner.run text sink).tokens.toList =
            [⟨.int, text, some (.int n), ⟨0, text.utf8ByteSize, 1⟩⟩] ∧
          (Scanner.run text sink).errors = 0 ∧ (Scanner.run text sink).sink = sink ∧
          (Literal.int n).render = toString n := by
  refine ⟨?_, rfl, ?_, ?_⟩
  · intro s hs digits rest hleft hne hrun hend
    split
    · next hle =>
      refine hs.emits_of_rule ?_
      rw [← digitsValue_eq] at hle ⊢
      rw [hleft]
      exact .integer hne hrun hend hle
    · next hgt =>
      refine hs.reports_of_rule ?_
      rw [← digitsValue_eq, not_le] at hgt
      rw [hleft]
      exact .hugeInteger hne hrun hend hgt
  · intro t ht hkind
    have hrule := Scanner.rule_of_mem_run ht
    rw [hkind] at hrule
    exact hrule.number_token.1 rfl
  · intro n k hn text
    have htext : text.toList = List.replicate k '0' ++ Nat.toDigits 10 n := by
      rw [String.toList_append, String.toList_ofList, Nat.toString_eq_repr, Nat.toList_repr]
    have hrule := Grammar.Rule.zeros_and_number k hn
    rw [← htext] at hrule
    obtain ⟨htokens, herrors, hsink⟩ := Scanner.run_of_rule hrule sink
    exact ⟨htokens, herrors, hsink, rfl⟩

/-- One more than the greatest integer is reported, also with a point behind it; the greatest, with
zeros in front, is not. -/
theorem integers_are_exact_at_the_limit :
    (Scanner.start "9223372036854775808." {}).ReportsNext .integerOverflow
        "9223372036854775808".toList ['.'] ∧
      (Scanner.run "009223372036854775807" {}).tokens.toList =
        [⟨.int, "009223372036854775807", some (.int 9223372036854775807), ⟨0, 21, 1⟩⟩] := by
  refine ⟨?_, ?_⟩
  · have hturn := (integers_are_exact "9223372036854775808." {}).1 _ .start
      "9223372036854775808".toList ['.'] (Scanner.left_start _ _) (by decide)
      ((Grammar.longest_iff Grammar.isDecimalDigit_iff _ _).mpr ⟨rfl, rfl⟩) (by rintro _ _ _ ⟨⟩)
    rwa [if_neg (by decide)] at hturn
  · exact ((integers_are_exact "" {}).2.2.2 9223372036854775807 2 (by decide)).1

/-! ## 3. Floats -/

/-- Only a point behind it spoils a float. -/
theorem Grammar.Rule.point_behind {text taken rest : List Char}
    (h : Rule text ⟨taken, .report .malformedFloat, rest⟩) : ∃ more, rest = '.' :: more := by
  cases h with
  | brokenFloat => exact ⟨_, rfl⟩

/-- **Floats are correctly rounded.**  Every float of a run is written with digits, a point and at
least one more digit, and stands for the correctly rounded double of the number that this denotes,
which is one double only: infinity exactly from half way between the greatest finite double and the
next power of two on, never negative and never a NaN.  At every turn of the machine, such a text is
a float whatever its length, unless a point stands behind it; then it is reported and the point is
left.  Nothing else is reported as a malformed float. -/
theorem floats_are_correctly_rounded (source : String) (sink : Collector) :
    (∀ t ∈ (Scanner.run source sink).tokens.toList, t.kind = .float →
        ∃ whole fraction x, t.lexeme.toList = whole ++ '.' :: fraction ∧
          (∀ c ∈ whole ++ fraction, Grammar.Digit c) ∧ fraction ≠ [] ∧
          t.literal = some (.float x) ∧
          (∀ y, Double.Rounds false (Double.fractionOf whole fraction) y ↔ y = x) ∧
          (x.bits = 0x7FF0000000000000 ↔
            (2 : ℚ) ^ 1024 - 2 ^ 970 ≤ Double.fractionOf whole fraction) ∧
          x.isNaN = false ∧ x.isNegative = false) ∧
      (∀ s, Scanner.Head source sink s → ∀ whole fraction rest,
        s.cursor.left = whole ++ '.' :: (fraction ++ rest) → (∀ c ∈ whole, Grammar.Digit c) →
        fraction ≠ [] → Grammar.Longest Grammar.Digit fraction rest →
        ((∀ more, rest ≠ '.' :: more) → ∃ x,
            s.EmitsNext .float (some (.float x)) (whole ++ '.' :: fraction) rest ∧
            Double.Rounds false (Double.fractionOf whole fraction) x) ∧
          ((∃ more, rest = '.' :: more) →
            s.ReportsNext .malformedFloat (whole ++ '.' :: fraction) rest)) ∧
      LexicalError.malformedFloat.message = "unexpected leading '.' in float" ∧
      ∀ s, Scanner.Head source sink s → s.cursor.atEnd = false → ∀ taken rest,
        s.ReportsNext .malformedFloat taken rest → ∃ more, rest = '.' :: more := by
  refine ⟨?_, ?_, rfl, ?_⟩
  · intro t ht hkind
    have hrule := Scanner.rule_of_mem_run ht
    obtain ⟨whole, fraction, hlexeme, hdigits, hne, hliteral⟩ := hrule.number_token.2 hkind
    have hrounds := Double.ofDigits_rounds whole fraction
    have hnonneg := Double.fractionOf_nonneg whole fraction
    have hinfinity := hrounds.eq_infinity_iff hnonneg
    refine ⟨whole, fraction, _, hlexeme, hdigits, hne, hliteral, ?_, hinfinity, ?_, hrounds.sign⟩
    · intro y
      exact ⟨fun hy => hy.unique hnonneg hrounds, fun hy => hy ▸ hrounds⟩
    · exact hrounds.isNaN_eq_false hnonneg
  · intro s hs whole fraction rest hleft hwhole hne hrun
    refine ⟨fun hend => ?_, ?_⟩
    · refine ⟨_, hs.emits_of_rule ?_, Double.ofDigits_rounds whole fraction⟩
      rw [hleft]
      exact .float hwhole hne hrun hend
    · rintro ⟨more, rfl⟩
      refine hs.reports_of_rule ?_
      rw [hleft]
      exact .brokenFloat hwhole hne hrun
  · intro s hs hend taken rest hreports
    exact (hs.rule_of_reports hend hreports).point_behind

/-- A float may begin with its point, and a second point behind a float is what spoils it; digits
far behind the last that a double can tell apart still decide the rounding. -/
theorem floats_are_correctly_rounded_at_points :
    (∃ x, (Scanner.start ".5" {}).EmitsNext .float (some (.float x)) ".5".toList [] ∧
        Double.Rounds false (Double.fractionOf [] ['5']) x) ∧
      (Scanner.start "1.2.3" {}).ReportsNext .malformedFloat "1.2".toList ".3".toList ∧
      (∃ more, ".3".toList = '.' :: more) ∧
      ∃ whole fraction, "9007199254740993.00001".toList = whole ++ '.' :: fraction ∧
        ∀ y, Double.Rounds false (Double.fractionOf whole fraction) y ↔
          y = ⟨0x4340000000000001⟩ := by
  have hspoilt := ((floats_are_correctly_rounded "1.2.3" {}).2.1 _ .start ['1'] ['2'] ['.', '3']
    (Scanner.left_start _ _) (by simp [Grammar.Digit]) (by decide)
    ((Grammar.longest_iff Grammar.isDecimalDigit_iff _ _).mpr ⟨rfl, rfl⟩)).2 ⟨_, rfl⟩
  refine ⟨?_, hspoilt, ?_, ?_⟩
  · exact ((floats_are_correctly_rounded ".5" {}).2.1 _ .start [] ['5'] []
      (Scanner.left_start _ _) (by simp) (by decide)
      ((Grammar.longest_iff Grammar.isDecimalDigit_iff _ _).mpr ⟨rfl, rfl⟩)).1
      (by rintro _ ⟨⟩)
  · exact (floats_are_correctly_rounded "1.2.3" {}).2.2.2 _ .start (by decide) _ _ hspoilt
  · have htoken : ∃ t ∈ (Scanner.run "9007199254740993.00001" {}).tokens.toList,
        t.kind = .float ∧ t.lexeme = "9007199254740993.00001" ∧
          t.literal = some (.float ⟨0x4340000000000001⟩) := by
      refine ⟨⟨.float, _, _, ⟨0, 22, 1⟩⟩, ?_, rfl, rfl, rfl⟩
      decide +kernel
    obtain ⟨t, ht, hkind, hlexeme, hliteral⟩ := htoken
    obtain ⟨whole, fraction, x, htext, -, -, hvalue, hrounds, -⟩ :=
      (floats_are_correctly_rounded "9007199254740993.00001" {}).1 t ht hkind
    obtain rfl : (⟨0x4340000000000001⟩ : Double) = x := by
      rw [hliteral] at hvalue
      simpa using hvalue
    exact ⟨whole, fraction, hlexeme ▸ htext, hrounds⟩

end CpScan
