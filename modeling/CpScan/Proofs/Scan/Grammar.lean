/-
# The grammar of pieces

What the pieces of a source text are, said without saying how they are found.  `Grammar.Rule text k`
relates a text to its first piece, what the piece is and the text behind it, with one rule for each
sort of piece.  The rules speak of longest runs (`Longest`), of the first end of a comment
(`FirstEnd`) and of what stands behind a piece; the classes of characters are given by ranges, and
the operators and marks by tables.

The grammar decides every text: `rule_iff` says that a non-empty text has exactly one first piece,
the one that `cut` cuts off.  Read along a whole text (`Grammar.Parses`) it gives the pieces of the
scan, and turn by turn it is what the machine does (`scan_follows_grammar`).
-/
import CpScan.Proofs.Scan.Machine

namespace CpScan

namespace Grammar

/-! ## 1. Classes of characters, and tables -/

/-- A decimal digit. -/
def Digit (c : Char) : Prop := '0' ≤ c ∧ c ≤ '9'

/-- A letter of ASCII, or an underscore. -/
def WordStart (c : Char) : Prop := ('a' ≤ c ∧ c ≤ 'z') ∨ ('A' ≤ c ∧ c ≤ 'Z') ∨ c = '_'

/-- A letter of ASCII, a digit or an underscore. -/
def WordPart (c : Char) : Prop := WordStart c ∨ Digit c

/-- The characters that are tokens of their own. -/
def marks : List (Char × Kind) :=
  [('(', .leftParen), (')', .rightParen), ('\x7b', .leftBrace), ('\x7d', .rightBrace),
   (',', .comma), ('-', .minus), ('+', .plus), (';', .semicolon)]

/-- The operators of one character, each with the character that makes it longer, and what it is
with and without that. -/
def operators : List (Char × Pair) :=
  [('*', ⟨'*', .star, .starStar⟩), ('=', ⟨'=', .equal, .equalEqual⟩),
   ('!', ⟨'=', .bang, .bangEqual⟩), ('<', ⟨'=', .less, .lessEqual⟩),
   ('>', ⟨'=', .greater, .greaterEqual⟩)]

/-- Blanks and the line feed. -/
def blanks : List Char := [' ', '\t', '\r', '\n']

/-- The characters that the rules name, one by one. -/
def named : List Char :=
  blanks ++ marks.map Prod.fst ++ operators.map Prod.fst ++ ['.', '/', '#', '"', '\'']

/-- A character that opens no piece. -/
def Stray (c : Char) : Prop := ¬ Digit c ∧ ¬ WordStart c ∧ c ∉ named

instance (c : Char) : Decidable (Digit c) := inferInstanceAs (Decidable (_ ∧ _))

instance (c : Char) : Decidable (WordStart c) := inferInstanceAs (Decidable (_ ∨ _ ∨ _))

instance (c : Char) : Decidable (Stray c) := inferInstanceAs (Decidable (_ ∧ _ ∧ _))

/-! ## 2. Runs and ends -/

/-- `run` is the longest run of the class `P` that the text `run ++ rest` begins with. -/
def Longest (P : Char → Prop) (run rest : List Char) : Prop :=
  (∀ c ∈ run, P c) ∧ ∀ w, w <+: run ++ rest → (∀ c ∈ w, P c) → w.length ≤ run.length

/-- The first end of a comment in `body ++ '*' :: '/' :: rest` is the one behind `body`. -/
def FirstEnd (body rest : List Char) : Prop :=
  ∀ b r, b ++ '*' :: '/' :: r = body ++ '*' :: '/' :: rest → body.length ≤ b.length

/-- No end of a comment is in the text. -/
def NoEnd (text : List Char) : Prop := ∀ b r, text ≠ b ++ '*' :: '/' :: r

/-! ## 3. The rules -/

/-- The first piece of a text. -/
inductive Rule : List Char → Cut → Prop
  /-- A blank or a line feed is skipped. -/
  | blank {c : Char} {rest : List Char} (hc : c ∈ blanks) : Rule (c :: rest) ⟨[c], .skip, rest⟩
  /-- A line comment goes on to the end of the line. -/
  | lineComment {run rest : List Char} (hrun : Longest (· ≠ '\n') run rest) :
      Rule ('#' :: (run ++ rest)) ⟨'#' :: run, .skip, rest⟩
  /-- A block comment goes on to its first end. -/
  | blockComment {body rest : List Char} (hend : FirstEnd body rest) :
      Rule ('/' :: '*' :: (body ++ '*' :: '/' :: rest))
        ⟨'/' :: '*' :: (body ++ ['*', '/']), .skip, rest⟩
  /-- A block comment without an end takes all there is. -/
  | openComment {body : List Char} (hend : NoEnd body) :
      Rule ('/' :: '*' :: body) ⟨'/' :: '*' :: body, .report .unfinishedComment, []⟩
  /-- A string ends with the quote that it began with. -/
  | string {q : Char} {w rest : List Char} (hq : q = '"' ∨ q = '\'')
      (hrun : Longest (fun c => c ≠ q ∧ c ≠ '\n') w (q :: rest)) :
      Rule (q :: (w ++ q :: rest))
        ⟨q :: (w ++ [q]), .token .string (some (.str (String.ofList w))), rest⟩
  /-- A string broken off by a line feed, which belongs to the piece. -/
  | brokenString {q : Char} {w rest : List Char} (hq : q = '"' ∨ q = '\'')
      (hrun : Longest (fun c => c ≠ q ∧ c ≠ '\n') w ('\n' :: rest)) :
      Rule (q :: (w ++ '\n' :: rest)) ⟨q :: (w ++ ['\n']), .report .unfinishedString, rest⟩
  /-- A string broken off by the end of the text. -/
  | openString {q : Char} {w : List Char} (hq : q = '"' ∨ q = '\'')
      (hrun : Longest (fun c => c ≠ q ∧ c ≠ '\n') w []) :
      Rule (q :: w) ⟨q :: w, .report .unfinishedString, []⟩
  /-- A run of digits that does not go on as a fraction. -/
  | integer {digits rest : List Char} (hne : digits ≠ []) (hrun : Longest Digit digits rest)
      (hend : ∀ d more, Digit d → rest ≠ '.' :: d :: more)
      (hvalue : digitsValue digits ≤ 2 ^ 63 - 1) :
      Rule (digits ++ rest) ⟨digits, .token .int (some (.int (digitsValue digits))), rest⟩
  /-- The same, when its value is too large. -/
  | hugeInteger {digits rest : List Char} (hne : digits ≠ []) (hrun : Longest Digit digits rest)
      (hend : ∀ d more, Digit d → rest ≠ '.' :: d :: more)
      (hvalue : 2 ^ 63 - 1 < digitsValue digits) :
      Rule (digits ++ rest) ⟨digits, .report .integerOverflow, rest⟩
  /-- Digits, a point and at least one digit, with no point behind. -/
  | float {whole fraction rest : List Char} (hwhole : ∀ d ∈ whole, Digit d) (hne : fraction ≠ [])
      (hrun : Longest Digit fraction rest) (hend : ∀ more, rest ≠ '.' :: more) :
      Rule (whole ++ '.' :: (fraction ++ rest)) ⟨whole ++ '.' :: fraction,
        .token .float (some (.float (Double.ofDigits whole fraction))), rest⟩
  /-- The same with a point behind, which is left. -/
  | brokenFloat {whole fraction rest : List Char} (hwhole : ∀ d ∈ whole, Digit d)
      (hne : fraction ≠ []) (hrun : Longest Digit fraction ('.' :: rest)) :
      Rule (whole ++ '.' :: (fraction ++ '.' :: rest))
        ⟨whole ++ '.' :: fraction, .report .malformedFloat, '.' :: rest⟩
  /-- A reserved word. -/
  | reserved {c : Char} {run rest : List Char} {kind : Kind} (hc : WordStart c)
      (hrun : Longest WordPart run rest) (hword : (String.ofList (c :: run), kind) ∈ Kind.reserved) :
      Rule (c :: (run ++ rest)) ⟨c :: run, .token kind none, rest⟩
  /-- Any other word. -/
  | identifier {c : Char} {run rest : List Char} (hc : WordStart c)
      (hrun : Longest WordPart run rest)
      (hword : ∀ kind, (String.ofList (c :: run), kind) ∉ Kind.reserved) :
      Rule (c :: (run ++ rest)) ⟨c :: run, .token .identifier none, rest⟩
  /-- A character that is a token whatever follows. -/
  | mark {c : Char} {kind : Kind} {rest : List Char} (hc : (c, kind) ∈ marks) :
      Rule (c :: rest) ⟨[c], .token kind none, rest⟩
  /-- An operator of two characters. -/
  | longOperator {c : Char} {p : Pair} {rest : List Char} (hc : (c, p) ∈ operators) :
      Rule (c :: p.second :: rest) ⟨[c, p.second], .token p.long none, rest⟩
  /-- An operator of one character. -/
  | shortOperator {c : Char} {p : Pair} {rest : List Char} (hc : (c, p) ∈ operators)
      (hend : ∀ more, rest ≠ p.second :: more) :
      Rule (c :: rest) ⟨[c], .token p.short none, rest⟩
  /-- A slash that opens no comment. -/
  | slash {rest : List Char} (hend : ∀ more, rest ≠ '*' :: more) :
      Rule ('/' :: rest) ⟨['/'], .token .slash none, rest⟩
  /-- A point that opens no fraction. -/
  | point {rest : List Char} (hend : ∀ d more, Digit d → rest ≠ d :: more) :
      Rule ('.' :: rest) ⟨['.'], .token .dot none, rest⟩
  /-- Any other character is unexpected. -/
  | stray {c : Char} {rest : List Char} (hc : Stray c) :
      Rule (c :: rest) ⟨[c], .report (.unexpectedCharacter c), rest⟩

/-- A text read from front to end by the rules, from the place `here` on. -/
inductive Parses : Position → List Char → List Piece → Prop
  | done {here : Position} : Parses here [] []
  | piece {here : Position} {text : List Char} {k : Cut} {ps : List Piece} (hk : Rule text k)
      (hps : Parses (here.after k.taken) k.rest ps) :
      Parses here text (⟨here, k.taken, k.outcome⟩ :: ps)

/-! ## 4. The classes are the ones that are tested -/

theorem isDecimalDigit_iff (c : Char) : isDecimalDigit c = true ↔ Digit c := by
  simp only [isDecimalDigit, Char.isDigit, Bool.and_eq_true, decide_eq_true_eq, Digit, Char.le_def]

theorem isWordStart_iff (c : Char) : isWordStart c = true ↔ WordStart c := by
  have hupper : c.isUpper = true ↔ 'A' ≤ c ∧ c ≤ 'Z' := decide_eq_true_iff
  have hlower : c.isLower = true ↔ 'a' ≤ c ∧ c ≤ 'z' :=
    Bool.and_eq_true_iff.trans (and_congr decide_eq_true_iff decide_eq_true_iff)
  have hletter : c.isAlpha = (c.isUpper || c.isLower) := rfl
  rw [isWordStart, hletter, Bool.or_eq_true, Bool.or_eq_true, hupper, hlower, beq_iff_eq]
  constructor
  · rintro ((hupper | hlower) | hline)
    · exact .inr (.inl hupper)
    · exact .inl hlower
    · exact .inr (.inr hline)
  · rintro (hlower | hupper | hline)
    · exact .inl (.inr hlower)
    · exact .inl (.inl hupper)
    · exact .inr hline

theorem isWordPart_iff (c : Char) : isWordPart c = true ↔ WordPart c := by
  unfold WordPart
  rw [← isWordStart_iff, ← isDecimalDigit_iff]
  simp only [isWordPart, isWordStart, isDecimalDigit, Char.isAlphanum, Bool.or_eq_true]
  tauto

theorem mem_blanks_iff (c : Char) : c ∈ blanks ↔ c = '\n' ∨ isBlank c = true := by
  simp only [blanks, List.mem_cons, List.not_mem_nil, or_false, isBlank, Bool.or_eq_true,
    beq_iff_eq]
  tauto

theorem mem_named_of_mem_blanks {c : Char} (h : c ∈ blanks) : c ∈ named := by
  simp only [named, List.mem_append, h, true_or]

theorem mem_marks_iff (c : Char) (kind : Kind) : (c, kind) ∈ marks ↔ lone? c = some kind := by
  constructor
  · intro h
    simp only [marks, List.mem_cons, Prod.mk.injEq, List.not_mem_nil, or_false] at h
    rcases h with ⟨rfl, rfl⟩ | ⟨rfl, rfl⟩ | ⟨rfl, rfl⟩ | ⟨rfl, rfl⟩ | ⟨rfl, rfl⟩ | ⟨rfl, rfl⟩ |
      ⟨rfl, rfl⟩ | ⟨rfl, rfl⟩ <;> rfl
  · intro h
    unfold lone? at h
    split at h
    all_goals cases h
    all_goals simp [marks]

theorem mem_operators_iff (c : Char) (p : Pair) : (c, p) ∈ operators ↔ pair? c = some p := by
  constructor
  · intro h
    simp only [operators, List.mem_cons, Prod.mk.injEq, List.not_mem_nil, or_false] at h
    rcases h with ⟨rfl, rfl⟩ | ⟨rfl, rfl⟩ | ⟨rfl, rfl⟩ | ⟨rfl, rfl⟩ | ⟨rfl, rfl⟩ <;> rfl
  · intro h
    unfold pair? at h
    split at h
    all_goals cases h
    all_goals simp [operators]

/-- The reserved words are looked up. -/
theorem mem_reserved_iff (word : String) (kind : Kind) :
    (word, kind) ∈ Kind.reserved ↔ Kind.ofWord? word = some kind := by
  have hkeys : ∀ entry ∈ Kind.reserved, Kind.reserved.lookup entry.1 = some entry.2 := by decide
  constructor
  · intro h
    exact hkeys _ h
  · intro h
    obtain ⟨l₁, l₂, hsplit, -⟩ := List.lookup_eq_some_iff.mp h
    rw [hsplit]
    simp

/-! ## 5. Longest runs -/

/-- A longest run is what is taken while a test succeeds. -/
theorem longest_iff {P : Char → Prop} {p : Char → Bool} (hp : ∀ c, p c = true ↔ P c)
    (run rest : List Char) :
    Longest P run rest ↔ (run ++ rest).takeWhile p = run ∧ (run ++ rest).dropWhile p = rest := by
  constructor
  · rintro ⟨hrun, hmax⟩
    have hall : ∀ c ∈ run, p c = true := fun c hc => (hp c).mpr (hrun c hc)
    have hmore : rest.takeWhile p = [] := by
      have hlen := hmax _ (List.takeWhile_prefix p) fun c hc =>
        (hp c).mp (List.all_eq_true.mp List.all_takeWhile c hc)
      rw [List.takeWhile_append_of_pos hall, List.length_append] at hlen
      exact List.length_eq_zero_iff.mp (by omega)
    refine ⟨by rw [List.takeWhile_append_of_pos hall, hmore, List.append_nil], ?_⟩
    rw [List.dropWhile_append_of_pos hall]
    have hsplit := List.takeWhile_append_dropWhile (p := p) (l := rest)
    rwa [hmore, List.nil_append] at hsplit
  · rintro ⟨htake, -⟩
    refine ⟨fun c hc => ?_, ?_⟩
    · rw [← htake] at hc
      exact (hp c).mp (List.all_eq_true.mp List.all_takeWhile c hc)
    · rintro w ⟨u, hw⟩ hall
      have hw' : (w ++ u).takeWhile p = w ++ u.takeWhile p :=
        List.takeWhile_append_of_pos fun c hc => (hp c).mpr (hall c hc)
      rw [hw, htake] at hw'
      rw [hw', List.length_append]
      omega

/-- Every text begins with a longest run. -/
theorem exists_longest {P : Char → Prop} {p : Char → Bool} (hp : ∀ c, p c = true ↔ P c)
    (text : List Char) : ∃ run rest, text = run ++ rest ∧ Longest P run rest := by
  refine ⟨text.takeWhile p, text.dropWhile p, List.takeWhile_append_dropWhile.symm, ?_⟩
  rw [longest_iff hp, List.takeWhile_append_dropWhile]
  exact ⟨rfl, rfl⟩

theorem isInside_iff (q c : Char) : isInside q c = true ↔ c ≠ q ∧ c ≠ '\n' := by
  simp [isInside]

theorem ne_lineFeed_iff (c : Char) : (c != '\n') = true ↔ c ≠ '\n' := bne_iff_ne

/-! ## 6. Ends of comments -/

/-- A closed comment is closed at its first end. -/
theorem closeComment_some {acc cs taken rest : List Char}
    (h : closeComment acc cs = some (taken, rest)) :
    ∃ body, cs = body ++ '*' :: '/' :: rest ∧ taken = acc.reverse ++ (body ++ ['*', '/']) ∧
      FirstEnd body rest := by
  fun_induction closeComment acc cs with
  | case1 => exact absurd h (by simp)
  | case2 acc rest' =>
    obtain ⟨rfl, rfl⟩ : _ ∧ _ := by simpa using h
    refine ⟨[], rfl, by simp, ?_⟩
    intro b r _
    exact Nat.zero_le _
  | case3 acc c rest' hclose ih =>
    obtain ⟨body, rfl, rfl, hfirst⟩ := ih h
    refine ⟨c :: body, rfl, by simp, ?_⟩
    intro b r heq
    cases b with
    | nil =>
      -- an end right here is what this case excludes
      obtain ⟨rfl, hslash⟩ := List.cons.inj heq
      exact absurd hslash.symm (hclose _ rfl)
    | cons x b =>
      have hle := hfirst b r (List.cons.inj heq).2
      simpa using hle

/-- A comment that is not closed has no end. -/
theorem closeComment_none {acc cs : List Char} (h : closeComment acc cs = none) : NoEnd cs := by
  fun_induction closeComment acc cs with
  | case1 => intro b r heq; simp at heq
  | case2 => exact absurd h (by simp)
  | case3 acc c rest' hclose ih =>
    intro b r heq
    cases b with
    | nil =>
      obtain ⟨rfl, hslash⟩ := List.cons.inj heq
      exact hclose _ rfl hslash
    | cons x b => exact ih h b r (List.cons.inj heq).2

/-- A text has one first end. -/
theorem FirstEnd.unique {body body' rest rest' : List Char} (h : FirstEnd body rest)
    (h' : FirstEnd body' rest')
    (heq : body ++ '*' :: '/' :: rest = body' ++ '*' :: '/' :: rest') :
    body = body' ∧ rest = rest' := by
  have hlen : body.length = body'.length := Nat.le_antisymm (h _ _ heq.symm) (h' _ _ heq)
  obtain ⟨hbody, htail⟩ := List.append_inj heq hlen
  exact ⟨hbody, (List.cons.inj (List.cons.inj htail).2).2⟩

/-! ## 7. Cutting, where the runs are known -/

section Cuts

variable {c q : Char} {w run digits whole fraction body rest : List Char}

theorem cutLineComment_eq (hrun : Longest (· ≠ '\n') run rest) :
    cutLineComment (run ++ rest) = ⟨'#' :: run, .skip, rest⟩ := by
  obtain ⟨htake, hdrop⟩ := (longest_iff ne_lineFeed_iff run rest).mp hrun
  rw [cutLineComment, htake, hdrop]

theorem cutWord_eq (hrun : Longest WordPart run rest) :
    cutWord c (run ++ rest) =
      ⟨c :: run, .token (Kind.ofWord (String.ofList (c :: run))) none, rest⟩ := by
  obtain ⟨htake, hdrop⟩ := (longest_iff isWordPart_iff run rest).mp hrun
  rw [cutWord, htake, hdrop]

theorem cutFraction_eq (hrun : Longest Digit fraction rest) :
    cutFraction whole (fraction ++ rest) =
      ⟨whole ++ '.' :: fraction, fractionOutcome whole fraction rest, rest⟩ := by
  obtain ⟨htake, hdrop⟩ := (longest_iff isDecimalDigit_iff fraction rest).mp hrun
  rw [cutFraction, htake, hdrop]

/-- A run of digits behind a first digit. -/
theorem longest_digits_cons (hc : Digit c) :
    Longest Digit (c :: w) rest ↔ Longest Digit w rest := by
  have hpos := (isDecimalDigit_iff c).mpr hc
  rw [longest_iff isDecimalDigit_iff, longest_iff isDecimalDigit_iff, List.cons_append,
    List.takeWhile_cons_of_pos hpos, List.dropWhile_cons_of_pos hpos, List.cons.injEq]
  tauto

theorem integerOutcome_of_le (h : digitsValue digits ≤ 2 ^ 63 - 1) :
    integerOutcome digits = .token .int (some (.int (digitsValue digits))) :=
  if_pos (show digitsValue digits ≤ maxInteger from h)

theorem integerOutcome_of_gt (h : 2 ^ 63 - 1 < digitsValue digits) :
    integerOutcome digits = .report .integerOverflow :=
  if_neg (show ¬ digitsValue digits ≤ maxInteger from Nat.not_le_of_lt h)

theorem cutNumber_integer (hrun : Longest Digit w rest)
    (hend : ∀ d more, Digit d → rest ≠ '.' :: d :: more) :
    cutNumber c (w ++ rest) = ⟨c :: w, integerOutcome (c :: w), rest⟩ := by
  obtain ⟨htake, hdrop⟩ := (longest_iff isDecimalDigit_iff w rest).mp hrun
  have hopen : ¬ OpensFraction ((w ++ rest).dropWhile isDecimalDigit) := by
    rw [hdrop]
    rintro ⟨d, ds, hrest, hd⟩
    exact hend d ds ((isDecimalDigit_iff d).mp hd) hrest
  rw [cutNumber_of_not_opensFraction hopen, htake, hdrop]

theorem cutNumber_fraction (hw : ∀ d ∈ w, Digit d) {d : Char} (hd : Digit d) (ds : List Char) :
    cutNumber c (w ++ '.' :: d :: ds) = cutFraction (c :: w) (d :: ds) := by
  have hw' : ∀ d ∈ w, isDecimalDigit d = true := fun d hd => (isDecimalDigit_iff d).mpr (hw d hd)
  have hpoint : ¬ isDecimalDigit '.' = true := by decide
  have hdrop : (w ++ '.' :: d :: ds).dropWhile isDecimalDigit = '.' :: d :: ds := by
    rw [List.dropWhile_append_of_pos hw', List.dropWhile_cons_of_neg hpoint]
  rw [cutNumber_of_opensFraction hdrop ((isDecimalDigit_iff d).mpr hd),
    List.takeWhile_append_of_pos hw', List.takeWhile_cons_of_neg hpoint, List.append_nil]

theorem cutString_closed (hq : q ≠ '\n')
    (hrun : Longest (fun c => c ≠ q ∧ c ≠ '\n') w (q :: rest)) :
    cutString q (w ++ q :: rest) =
      ⟨q :: (w ++ [q]), .token .string (some (.str (String.ofList w))), rest⟩ := by
  obtain ⟨htake, hdrop⟩ := (longest_iff (isInside_iff q) w (q :: rest)).mp hrun
  simp only [cutString, htake, hdrop, if_neg hq]

theorem cutString_broken (hrun : Longest (fun c => c ≠ q ∧ c ≠ '\n') w ('\n' :: rest)) :
    cutString q (w ++ '\n' :: rest) = ⟨q :: (w ++ ['\n']), .report .unfinishedString, rest⟩ := by
  obtain ⟨htake, hdrop⟩ := (longest_iff (isInside_iff q) w ('\n' :: rest)).mp hrun
  simp only [cutString, htake, hdrop, if_true]

theorem cutString_open (hrun : Longest (fun c => c ≠ q ∧ c ≠ '\n') w []) :
    cutString q w = ⟨q :: w, .report .unfinishedString, []⟩ := by
  obtain ⟨htake, hdrop⟩ := (longest_iff (isInside_iff q) w []).mp hrun
  rw [List.append_nil] at htake hdrop
  simp only [cutString, htake, hdrop]

theorem cutSlash_closed (hend : FirstEnd body rest) :
    cutSlash ('*' :: (body ++ '*' :: '/' :: rest)) =
      ⟨'/' :: '*' :: (body ++ ['*', '/']), .skip, rest⟩ := by
  cases hclose : closeComment ['*', '/'] (body ++ '*' :: '/' :: rest) with
  | none => exact absurd rfl (closeComment_none hclose body rest)
  | some split =>
    obtain ⟨body', heq, htaken, hend'⟩ := closeComment_some hclose
    obtain ⟨hbody, hrest⟩ := hend.unique hend' heq
    simp only [cutSlash, hclose, htaken, ← hbody, ← hrest]
    rfl

theorem cutSlash_open (hend : NoEnd body) :
    cutSlash ('*' :: body) = ⟨'/' :: '*' :: body, .report .unfinishedComment, []⟩ := by
  cases hclose : closeComment ['*', '/'] body with
  | none => simp only [cutSlash, hclose]
  | some split =>
    obtain ⟨body', heq, -, -⟩ := closeComment_some hclose
    exact absurd heq (hend body' split.2)

theorem cutSlash_of_ne (hend : ∀ more, rest ≠ '*' :: more) :
    cutSlash rest = ⟨['/'], .token .slash none, rest⟩ := by
  unfold cutSlash
  split
  · next more => exact absurd rfl (hend more)
  · rfl

end Cuts

/-! ## 8. Which way of cutting a character asks for -/

/-- A character that no rule names opens a number or a word, or is unexpected. -/
theorem cut_of_not_named {c : Char} (h : c ∉ named) (cs : List Char) :
    cut c cs =
      if isDecimalDigit c then cutNumber c cs
      else if isWordStart c then cutWord c cs
      else ⟨[c], .report (.unexpectedCharacter c), cs⟩ := by
  simp only [named, List.mem_append, not_or, List.mem_map, not_exists, not_and, Prod.forall,
    List.mem_cons, List.not_mem_nil, not_false_eq_true, and_true] at h
  obtain ⟨⟨⟨hblank, hmark⟩, hoperator⟩, hpoint, hslash, hhash, hdouble, hsingle⟩ := h
  have hlone : lone? c = none := Option.eq_none_iff_forall_ne_some.mpr fun kind hk =>
    hmark c kind ((mem_marks_iff c kind).mpr hk) rfl
  have hpair : pair? c = none := Option.eq_none_iff_forall_ne_some.mpr fun p hp =>
    hoperator c p ((mem_operators_iff c p).mpr hp) rfl
  rw [mem_blanks_iff] at hblank
  simp only [cut, hlone, hpair, if_neg hpoint, if_neg hslash, if_neg hhash,
    if_neg (not_or.mpr ⟨hdouble, hsingle⟩), if_neg hblank]

/-- Digits and letters are not named. -/
theorem not_named_of_wordPart {c : Char} (h : WordPart c) : c ∉ named := by
  -- tested on the list: there are too many characters to go through all of them
  have hnamed : (named.all fun d => !isWordPart d) = true := by decide
  intro hc
  have hfalse := List.all_eq_true.mp hnamed c hc
  rw [(isWordPart_iff c).mpr h] at hfalse
  exact Bool.noConfusion hfalse

theorem not_digit_of_wordStart {c : Char} (h : WordStart c) : ¬ Digit c := by
  intro hd
  simp only [WordStart, Digit, Char.le_def, UInt32.le_iff_toNat_le] at h hd
  change ('a'.toNat ≤ c.toNat ∧ c.toNat ≤ 'z'.toNat) ∨
    ('A'.toNat ≤ c.toNat ∧ c.toNat ≤ 'Z'.toNat) ∨ c = '_' at h
  change '0'.toNat ≤ c.toNat ∧ c.toNat ≤ '9'.toNat at hd
  rcases h with h | h | rfl
  · exact absurd (Nat.le_trans h.1 hd.2) (by decide)
  · exact absurd (Nat.le_trans h.1 hd.2) (by decide)
  · exact absurd hd.2 (by decide)

theorem cut_digit {c : Char} (h : Digit c) (cs : List Char) : cut c cs = cutNumber c cs := by
  rw [cut_of_not_named (not_named_of_wordPart (.inr h)), if_pos ((isDecimalDigit_iff c).mpr h)]

theorem cut_wordStart {c : Char} (h : WordStart c) (cs : List Char) : cut c cs = cutWord c cs := by
  rw [cut_of_not_named (not_named_of_wordPart (.inl h)),
    if_neg fun hd => not_digit_of_wordStart h ((isDecimalDigit_iff c).mp hd),
    if_pos ((isWordStart_iff c).mpr h)]

theorem cut_stray {c : Char} (h : Stray c) (cs : List Char) :
    cut c cs = ⟨[c], .report (.unexpectedCharacter c), cs⟩ := by
  obtain ⟨hdigit, hstart, hnamed⟩ := h
  rw [cut_of_not_named hnamed, if_neg fun hd => hdigit ((isDecimalDigit_iff c).mp hd),
    if_neg fun hs => hstart ((isWordStart_iff c).mp hs)]

theorem cut_mark {c : Char} {kind : Kind} (h : (c, kind) ∈ marks) (cs : List Char) :
    cut c cs = ⟨[c], .token kind none, cs⟩ := by
  simp only [cut, (mem_marks_iff c kind).mp h]

theorem cut_operator {c : Char} {p : Pair} (h : (c, p) ∈ operators) (cs : List Char) :
    cut c cs = cutPair c p cs := by
  have hlone : lone? c = none := by
    have hdisjoint : ∀ entry ∈ operators, lone? entry.1 = none := by decide
    exact hdisjoint _ h
  simp only [cut, hlone, (mem_operators_iff c p).mp h]

theorem cut_quote {q : Char} (h : q = '"' ∨ q = '\'') (cs : List Char) :
    cut q cs = cutString q cs := by
  rcases h with rfl | rfl
  · rfl
  · rfl

theorem cut_blank {c : Char} (h : c ∈ blanks) (cs : List Char) : cut c cs = ⟨[c], .skip, cs⟩ := by
  simp only [blanks, List.mem_cons, List.not_mem_nil, or_false] at h
  rcases h with rfl | rfl | rfl | rfl
  · rfl
  · rfl
  · rfl
  · rfl

theorem cutPair_long (c : Char) (p : Pair) (rest : List Char) :
    cutPair c p (p.second :: rest) = ⟨[c, p.second], .token p.long none, rest⟩ := by
  simp only [cutPair, if_true]

theorem cutPair_short {c : Char} {p : Pair} {rest : List Char}
    (h : ∀ more, rest ≠ p.second :: more) :
    cutPair c p rest = ⟨[c], .token p.short none, rest⟩ := by
  cases rest with
  | nil => rfl
  | cons d ds =>
    have hd : d ≠ p.second := fun heq => h ds (by rw [heq])
    simp only [cutPair, if_neg hd]

theorem cutPoint_of_not_digit {rest : List Char} (h : ∀ d more, Digit d → rest ≠ d :: more) :
    cutPoint rest = ⟨['.'], .token .dot none, rest⟩ := by
  cases rest with
  | nil => rfl
  | cons d ds =>
    have hd : ¬ isDecimalDigit d = true := fun hd => h d ds ((isDecimalDigit_iff d).mp hd) rfl
    simp only [cutPoint, if_neg hd]

/-- A fraction is cut alike whether it opens with a point or with a digit. -/
theorem cut_fraction {whole : List Char} (hwhole : ∀ d ∈ whole, Digit d) {d : Char} (hd : Digit d)
    (ds : List Char) :
    ∃ c cs, whole ++ '.' :: d :: ds = c :: cs ∧ cut c cs = cutFraction whole (d :: ds) := by
  cases whole with
  | nil =>
    refine ⟨'.', d :: ds, rfl, ?_⟩
    change cutPoint (d :: ds) = _
    simp only [cutPoint, (isDecimalDigit_iff d).mpr hd, if_true]
  | cons c w =>
    refine ⟨c, w ++ '.' :: d :: ds, rfl, ?_⟩
    rw [cut_digit (hwhole c List.mem_cons_self),
      cutNumber_fraction (fun e he => hwhole e (List.mem_cons_of_mem _ he)) hd]

/-- A run of digits that does not go on as a fraction. -/
theorem cut_integer {digits rest : List Char} (hne : digits ≠ []) (hrun : Longest Digit digits rest)
    (hend : ∀ d more, Digit d → rest ≠ '.' :: d :: more) :
    ∃ c cs, digits ++ rest = c :: cs ∧ cut c cs = ⟨digits, integerOutcome digits, rest⟩ := by
  cases digits with
  | nil => exact absurd rfl hne
  | cons c w =>
    have hc : Digit c := hrun.1 c List.mem_cons_self
    refine ⟨c, w ++ rest, rfl, ?_⟩
    rw [cut_digit hc, cutNumber_integer ((longest_digits_cons hc).mp hrun) hend]

/-! ## 9. The grammar decides -/

theorem ofWord_of_reserved {word : String} {kind : Kind} (h : (word, kind) ∈ Kind.reserved) :
    Kind.ofWord word = kind := by
  rw [Kind.ofWord, (mem_reserved_iff word kind).mp h, Option.getD_some]

theorem ofWord_of_not_reserved {word : String} (h : ∀ kind, (word, kind) ∉ Kind.reserved) :
    Kind.ofWord word = .identifier := by
  have hnone : Kind.ofWord? word = none := Option.eq_none_iff_forall_ne_some.mpr fun kind hk =>
    h kind ((mem_reserved_iff word kind).mpr hk)
  rw [Kind.ofWord, hnone, Option.getD_none]

/-- **Nothing else is in the grammar.**  Where a rule applies, its piece is the one cut off. -/
theorem cut_of_rule {text : List Char} {k : Cut} (h : Rule text k) :
    ∃ c cs, text = c :: cs ∧ cut c cs = k := by
  cases h with
  | blank hc => exact ⟨_, _, rfl, cut_blank hc _⟩
  | lineComment hrun => exact ⟨_, _, rfl, cutLineComment_eq hrun⟩
  | blockComment hend => exact ⟨_, _, rfl, cutSlash_closed hend⟩
  | openComment hend => exact ⟨_, _, rfl, cutSlash_open hend⟩
  | string hq hrun =>
    refine ⟨_, _, rfl, ?_⟩
    rw [cut_quote hq]
    exact cutString_closed (by rcases hq with rfl | rfl <;> decide) hrun
  | brokenString hq hrun =>
    refine ⟨_, _, rfl, ?_⟩
    rw [cut_quote hq, cutString_broken hrun]
  | openString hq hrun =>
    refine ⟨_, _, rfl, ?_⟩
    rw [cut_quote hq, cutString_open hrun]
  | integer hne hrun hend hvalue =>
    obtain ⟨c, cs, htext, hcut⟩ := cut_integer hne hrun hend
    exact ⟨c, cs, htext, by rw [hcut, integerOutcome_of_le hvalue]⟩
  | hugeInteger hne hrun hend hvalue =>
    obtain ⟨c, cs, htext, hcut⟩ := cut_integer hne hrun hend
    exact ⟨c, cs, htext, by rw [hcut, integerOutcome_of_gt hvalue]⟩
  | @float whole fraction rest hwhole hne hrun hend =>
    obtain ⟨d, ds, rfl⟩ := List.exists_cons_of_ne_nil hne
    obtain ⟨c, cs, htext, hcut⟩ := cut_fraction hwhole (hrun.1 d List.mem_cons_self) (ds ++ rest)
    rw [← List.cons_append, cutFraction_eq hrun, fractionOutcome_of_ne _ _ hend] at hcut
    exact ⟨c, cs, htext, hcut⟩
  | @brokenFloat whole fraction rest hwhole hne hrun =>
    obtain ⟨d, ds, rfl⟩ := List.exists_cons_of_ne_nil hne
    obtain ⟨c, cs, htext, hcut⟩ :=
      cut_fraction hwhole (hrun.1 d List.mem_cons_self) (ds ++ '.' :: rest)
    rw [← List.cons_append, cutFraction_eq hrun] at hcut
    exact ⟨c, cs, htext, hcut⟩
  | reserved hc hrun hword =>
    refine ⟨_, _, rfl, ?_⟩
    rw [cut_wordStart hc, cutWord_eq hrun, ofWord_of_reserved hword]
  | identifier hc hrun hword =>
    refine ⟨_, _, rfl, ?_⟩
    rw [cut_wordStart hc, cutWord_eq hrun, ofWord_of_not_reserved hword]
  | mark hc => exact ⟨_, _, rfl, cut_mark hc _⟩
  | longOperator hc =>
    refine ⟨_, _, rfl, ?_⟩
    rw [cut_operator hc, cutPair_long]
  | shortOperator hc hend =>
    refine ⟨_, _, rfl, ?_⟩
    rw [cut_operator hc, cutPair_short hend]
  | slash hend => exact ⟨_, _, rfl, cutSlash_of_ne hend⟩
  | point hend => exact ⟨_, _, rfl, cutPoint_of_not_digit hend⟩
  | stray hc => exact ⟨_, _, rfl, cut_stray hc _⟩

/-! A rule applies to every text; which one, is decided by its first character. -/

theorem rule_operator {c : Char} {p : Pair} (hc : (c, p) ∈ operators) (cs : List Char) :
    ∃ k, Rule (c :: cs) k := by
  by_cases hlong : ∃ more, cs = p.second :: more
  · obtain ⟨more, rfl⟩ := hlong
    exact ⟨_, .longOperator hc⟩
  · exact ⟨_, .shortOperator hc (not_exists.mp hlong)⟩

theorem rule_fraction (whole : List Char) (hwhole : ∀ d ∈ whole, Digit d) {d : Char}
    (hd : Digit d) (ds : List Char) : ∃ k, Rule (whole ++ '.' :: d :: ds) k := by
  obtain ⟨w, rest, rfl, hw⟩ := exists_longest isDecimalDigit_iff ds
  have hrun := (longest_digits_cons hd).mpr hw
  by_cases hpoint : ∃ more, rest = '.' :: more
  · obtain ⟨more, rfl⟩ := hpoint
    exact ⟨_, .brokenFloat hwhole (List.cons_ne_nil d w) hrun⟩
  · exact ⟨_, .float hwhole (List.cons_ne_nil d w) hrun (not_exists.mp hpoint)⟩

theorem rule_point (cs : List Char) : ∃ k, Rule ('.' :: cs) k := by
  by_cases hdigit : ∃ d more, Digit d ∧ cs = d :: more
  · obtain ⟨d, more, hd, rfl⟩ := hdigit
    exact rule_fraction [] (by simp) hd more
  · exact ⟨_, .point fun d more hd heq => hdigit ⟨d, more, hd, heq⟩⟩

theorem rule_number {c : Char} (hc : Digit c) (cs : List Char) : ∃ k, Rule (c :: cs) k := by
  obtain ⟨w, rest, rfl, hw⟩ := exists_longest isDecimalDigit_iff cs
  have hrun := (longest_digits_cons hc).mpr hw
  by_cases hopen : ∃ d more, Digit d ∧ rest = '.' :: d :: more
  · obtain ⟨d, more, hd, rfl⟩ := hopen
    exact rule_fraction _ hrun.1 hd more
  · have hend : ∀ d more, Digit d → rest ≠ '.' :: d :: more :=
      fun d more hd heq => hopen ⟨d, more, hd, heq⟩
    rcases Nat.lt_or_ge (2 ^ 63 - 1) (digitsValue (c :: w)) with hvalue | hvalue
    · exact ⟨_, .hugeInteger (List.cons_ne_nil c w) hrun hend hvalue⟩
    · exact ⟨_, .integer (List.cons_ne_nil c w) hrun hend hvalue⟩

theorem rule_slash (cs : List Char) : ∃ k, Rule ('/' :: cs) k := by
  by_cases hstar : ∃ more, cs = '*' :: more
  · obtain ⟨more, rfl⟩ := hstar
    cases hclose : closeComment ['*', '/'] more with
    | none => exact ⟨_, .openComment (closeComment_none hclose)⟩
    | some split =>
      obtain ⟨body, rfl, -, hend⟩ := closeComment_some hclose
      exact ⟨_, .blockComment hend⟩
  · exact ⟨_, .slash (not_exists.mp hstar)⟩

theorem rule_quote {q : Char} (hq : q = '"' ∨ q = '\'') (cs : List Char) :
    ∃ k, Rule (q :: cs) k := by
  obtain ⟨w, rest, rfl, hrun⟩ := exists_longest (isInside_iff q) cs
  cases rest with
  | nil =>
    rw [List.append_nil]
    exact ⟨_, .openString hq hrun⟩
  | cons d rest =>
    -- the run stops at its quote or at a line feed, or else it was not the longest
    have hstop : ¬ (d ≠ q ∧ d ≠ '\n') := by
      intro hd
      have hlen := hrun.2 (w ++ [d]) (by simp) (by
        intro e he
        rcases List.mem_append.mp he with he | he
        · exact hrun.1 e he
        · rw [List.mem_singleton.mp he]; exact hd)
      simp at hlen
    by_cases hd : d = q
    · subst hd
      exact ⟨_, .string hq hrun⟩
    · have hfeed : d = '\n' := by
        by_contra hne
        exact hstop ⟨hd, hne⟩
      subst hfeed
      exact ⟨_, .brokenString hq hrun⟩

theorem rule_word {c : Char} (hc : WordStart c) (cs : List Char) : ∃ k, Rule (c :: cs) k := by
  obtain ⟨run, rest, rfl, hrun⟩ := exists_longest isWordPart_iff cs
  by_cases hword : ∃ kind, (String.ofList (c :: run), kind) ∈ Kind.reserved
  · obtain ⟨kind, hkind⟩ := hword
    exact ⟨_, .reserved hc hrun hkind⟩
  · exact ⟨_, .identifier hc hrun (not_exists.mp hword)⟩

/-- **Every text that is not empty has a first piece.** -/
theorem exists_rule (c : Char) (cs : List Char) : ∃ k, Rule (c :: cs) k := by
  by_cases hnamed : c ∈ named
  · simp only [named, List.mem_append, List.mem_map, Prod.exists, List.mem_cons, List.not_mem_nil,
      or_false] at hnamed
    rcases hnamed with
      ((hblank | ⟨_, kind, hmark, rfl⟩) | ⟨_, p, hoperator, rfl⟩) | rfl | rfl | rfl | rfl | rfl
    · exact ⟨_, .blank hblank⟩
    · exact ⟨_, .mark hmark⟩
    · exact rule_operator hoperator cs
    · exact rule_point cs
    · exact rule_slash cs
    · obtain ⟨run, rest, rfl, hrun⟩ := exists_longest ne_lineFeed_iff cs
      exact ⟨_, .lineComment hrun⟩
    · exact rule_quote (.inl rfl) cs
    · exact rule_quote (.inr rfl) cs
  · by_cases hdigit : Digit c
    · exact rule_number hdigit cs
    · by_cases hstart : WordStart c
      · exact rule_word hstart cs
      · exact ⟨_, .stray ⟨hdigit, hstart, hnamed⟩⟩

/-- **The grammar decides every text**: its first piece is the one that is cut off, and no other. -/
theorem rule_iff (c : Char) (cs : List Char) (k : Cut) : Rule (c :: cs) k ↔ cut c cs = k := by
  have hsound : ∀ k, Rule (c :: cs) k → cut c cs = k := by
    intro k hk
    obtain ⟨d, ds, htext, hcut⟩ := cut_of_rule hk
    obtain ⟨rfl, rfl⟩ := List.cons.inj htext
    exact hcut
  constructor
  · exact hsound k
  · rintro rfl
    obtain ⟨k, hk⟩ := exists_rule c cs
    rwa [hsound k hk]

/-- Read along a whole text, the grammar gives its pieces. -/
theorem parses_iff (here : Position) (text : List Char) (ps : List Piece) :
    Parses here text ps ↔ piecesFrom here text = ps := by
  constructor
  · intro h
    induction h with
    | done => exact piecesFrom_nil _
    | piece hk _ ih =>
      obtain ⟨c, cs, rfl, rfl⟩ := cut_of_rule hk
      rw [piecesFrom_cons, ih]
  · rintro rfl
    induction text using cut_induction generalizing here with
    | nil =>
      rw [piecesFrom_nil]
      exact .done
    | cons c cs ih =>
      rw [piecesFrom_cons]
      exact .piece ((rule_iff c cs _).mpr rfl) (ih _)

end Grammar

/-! ## 10. The scan follows the grammar -/

namespace Scanner

/-- What the next turn takes, as it can be seen from outside: the text between the mark, which was
put at the place, and the new place; the text that is left; and what has been recorded. -/
structure Takes (s : Scanner) (k : Cut) : Prop where
  start : s.step.cursor.start = s.cursor.current
  taken : s.step.cursor.lexeme = String.ofList k.taken
  rest : s.step.cursor.left = k.rest
  outcome : s.Records [⟨⟨s.cursor.current, s.cursor.line⟩, k.taken, k.outcome⟩] s.step

/-- What a piece is shows in what it asks for. -/
theorem outcome_eq {start : Position} {text : List Char} {o o' : Outcome}
    (htoken : [(⟨start, text, o⟩ : Piece)].filterMap Piece.token? =
      [(⟨start, text, o'⟩ : Piece)].filterMap Piece.token?)
    (hreport : [(⟨start, text, o⟩ : Piece)].filterMap Piece.report? =
      [(⟨start, text, o'⟩ : Piece)].filterMap Piece.report?) : o = o' := by
  cases o <;> cases o' <;>
    simp_all [List.filterMap_cons, Piece.token?, Piece.report?]

/-- A turn takes one thing only. -/
theorem Takes.unique {s : Scanner} {k k' : Cut} (h : s.Takes k) (h' : s.Takes k') : k = k' := by
  obtain ⟨taken, outcome, rest⟩ := k
  obtain ⟨taken', outcome', rest'⟩ := k'
  have htaken : taken = taken' := String.ofList_injective (h.taken.symm.trans h'.taken)
  have hrest : rest = rest' := h.rest.symm.trans h'.rest
  subst htaken hrest
  have htokens := h.outcome.tokens.symm.trans h'.outcome.tokens
  have hlog := h.outcome.log.symm.trans h'.outcome.log
  rw [List.append_cancel_left_eq] at htokens hlog
  have hreports := List.map_injective_iff.mpr (fun a b hab => by injection hab) hlog
  have houtcome : outcome = outcome' := outcome_eq htokens hreports
  rw [houtcome]

/-- A turn from a head takes what is cut off there. -/
theorem Head.takes {source : String} {sink : Collector} {s : Scanner} (h : Head source sink s)
    {c : Char} {cs : List Char} (hleft : s.cursor.left = c :: cs) : s.Takes (cut c cs) := by
  obtain ⟨before, rest, done, hs⟩ := h.stands
  obtain ⟨b, t, hbt, hcursor⟩ := hs.cursor
  rw [hcursor, Cursor.zipper_left] at hleft
  subst hleft
  have hplace : s.cursor.current = byteLength before := by
    rw [hcursor, Cursor.zipper_current, ← byteLength_append, hbt]
  refine ⟨?_, ?_, ?_, ?_⟩
  · rw [hs.step_eq, hplace]
    rfl
  · rw [hs.step_eq]
    exact Cursor.zipper_lexeme ..
  · rw [hs.step_eq]
    exact Cursor.zipper_left ..
  · have hone := hs.step_records
    rw [after_start, ← hplace] at hone
    rwa [hcursor, Cursor.zipper_line, ← hcursor]

end Scanner

/-- **The scan follows the grammar.**  The pieces of a text are the ones that the rules give, read
from front to end; and at every turn of the machine, what is taken off the text that is left, and
what it is taken for, is what a rule says, and no rule says anything else.  The machine and the
pieces are one scan, and the errors are worded as the language has them. -/
theorem scan_follows_grammar (source : String) (sink : Collector) :
    (∀ ps, Grammar.Parses {} source.toList ps ↔ (Scan.ofString source).pieces = ps) ∧
      (∀ s, Scanner.Head source sink s → s.cursor.atEnd = false →
        ∀ k, Grammar.Rule s.cursor.left k ↔ s.Takes k) ∧
      (Scanner.run source sink).tokens.toList = (Scan.ofString source).tokens ∧
      (Scanner.run source sink).log.toList = (Scan.ofString source).events ∧
      LexicalError.unfinishedComment.message = "unfinished multiline comment" ∧
      LexicalError.unfinishedString.message = "Unfinished string" ∧
      LexicalError.malformedFloat.message = "unexpected leading '.' in float" ∧
      LexicalError.integerOverflow.message = "integer literal out of range" ∧
      ∀ c, (LexicalError.unexpectedCharacter c).message =
        "unexpected character '" ++ String.singleton c ++ "'" := by
  refine ⟨fun ps => Grammar.parses_iff {} source.toList ps, ?_,
    (Scanner.run_eq source sink).1, (Scanner.run_eq source sink).2.1, rfl, rfl, rfl, rfl,
    fun _ => rfl⟩
  intro s hs hend k
  cases hleft : s.cursor.left with
  | nil =>
    obtain ⟨before, rest, done, hstands⟩ := hs.stands
    obtain ⟨b, t, -, hcursor⟩ := hstands.cursor
    rw [hcursor, Cursor.zipper_atEnd] at hend
    rw [hcursor, Cursor.zipper_left] at hleft
    rw [hleft] at hend
    exact absurd hend (by simp)
  | cons c cs =>
    rw [Grammar.rule_iff]
    constructor
    · rintro rfl
      exact hs.takes hleft
    · intro hk
      exact (hs.takes hleft).unique hk

/-- At the beginning of `1.2.3` a second point spoils a fraction, and is left. -/
theorem scan_follows_grammar_second_point :
    (Scanner.start "1.2.3" {}).cursor.atEnd = false ∧
      (Scanner.start "1.2.3" {}).Takes ⟨['1', '.', '2'], .report .malformedFloat, ['.', '3']⟩ := by
  have htext : (Scanner.start "1.2.3" {}).cursor = Cursor.zipper [] [] ['1', '.', '2', '.', '3'] 1 :=
    Cursor.ofString_eq_zipper "1.2.3"
  have hend : (Scanner.start "1.2.3" {}).cursor.atEnd = false := by
    rw [htext, Cursor.zipper_atEnd]
    rfl
  have hrun : Grammar.Longest Grammar.Digit ['2'] ['.', '3'] :=
    (Grammar.longest_iff Grammar.isDecimalDigit_iff _ _).mpr ⟨rfl, rfl⟩
  have hwhole : ∀ d ∈ ['1'], Grammar.Digit d := by
    intro d hd
    rw [List.mem_singleton.mp hd]
    exact ⟨by decide, by decide⟩
  refine ⟨hend, ((scan_follows_grammar "1.2.3" {}).2.1 _ .start hend _).mp ?_⟩
  rw [htext, Cursor.zipper_left]
  exact .brokenFloat hwhole (List.cons_ne_nil _ _) hrun

end CpScan
