/-
# The guarded scan runs into no fault

A guarded scan demands every fact that the scan takes for granted (`CpScan.Guarded`).  This module
proves that all of its demands are met: over every text whose lines can be counted in 32 bits, a
guarded scan ends, without a fault, where the scan ends (`scan_meets_demands`).

The demands on offsets are met because a cursor is a zipper: its place and its mark are behind
stretches of whole characters (`cuts_ofList`).  The others are met because of what has been read
when they are made, which is why each way of reading a piece has a lemma of its own: digits are
what an integer and a fraction are read from, and what ended the inside of a string is its quote.

What lets lines be counted is a budget: the line number and the line feeds still ahead add up to
less than the limit.  A cursor that counts a line has one line feed less ahead.
-/
import CpScan.Proofs.Scan.Machine
import CpScan.Scan.Guarded
import Mathlib.Data.List.TakeWhile

namespace CpScan

open Cursor

namespace Guarded

/-! ## 1. Demands and cuts -/

/-- A demand that is met is nothing. -/
theorem demand_of {fact : Prop} [Decidable fact] (h : fact) (fault : Fault) :
    demand fact fault = pure () := if_pos h

/-- The offset behind a stretch of a text is at the beginning of a character, or at its end. -/
theorem isValid_ofList_append (s t : List Char) :
    String.Pos.Raw.IsValid (String.ofList (s ++ t)) ⟨byteLength s⟩ := by
  rw [String.Pos.Raw.isValid_iff_exists_append]
  refine ⟨String.ofList s, String.ofList t, String.ofList_append, ?_⟩
  rw [← utf8ByteSize_ofList]
  rfl

/-- The offsets before and behind a stretch of a text cut it out. -/
theorem cuts_ofList (s t u : List Char) :
    Cuts (String.ofList (s ++ t ++ u)) (byteLength s) (byteLength s + byteLength t) := by
  refine ⟨Nat.le_add_right .., ?_, ?_⟩
  · rw [List.append_assoc]
    exact isValid_ofList_append s (t ++ u)
  · rw [← byteLength_append]
    exact isValid_ofList_append (s ++ t) u

theorem slice_ofList (s t u : List Char) :
    slice (String.ofList (s ++ t ++ u)) (byteLength s) (byteLength s + byteLength t) =
      pure (String.ofList t) := by
  rw [slice, demand_of (cuts_ofList s t u), extract_ofList_append]
  rfl

/-! ## 2. The cursor -/

section Zipper

variable (before taken rest : List Char) (line : Nat)

/-- The text ahead of a cursor can be cut off. -/
theorem slice_ahead : ∃ text, slice (zipper before taken rest line).source
    (zipper before taken rest line).current
    (zipper before taken rest line).source.utf8ByteSize = pure text := by
  have hcut := slice_ofList (before ++ taken) rest []
  refine ⟨String.ofList rest, ?_⟩
  rw [List.append_nil, byteLength_append] at hcut
  rw [zipper_size, zipper_current]
  exact hcut

theorem charAhead_zipper (n : Nat) :
    charAhead (zipper before taken rest line) n =
      pure ((zipper before taken rest line).charAhead n) := by
  obtain ⟨text, hcut⟩ := slice_ahead before taken rest line
  rw [charAhead, hcut]
  rfl

@[simp] theorem peek_zipper :
    peek (zipper before taken rest line) = pure (rest.headD endMark) := by
  rw [← zipper_peek before taken rest line]
  exact charAhead_zipper before taken rest line 0

@[simp] theorem peekNext_zipper :
    peekNext (zipper before taken rest line) = pure (rest.tail.headD endMark) := by
  rw [← zipper_peekNext before taken rest line]
  exact charAhead_zipper before taken rest line 1

/-- A step goes over the bytes of the character that it gives. -/
@[simp] theorem advance_zipper (c : Char) :
    advance (zipper before taken (c :: rest) line) =
      pure (c, zipper before (taken ++ [c]) rest line) := by
  obtain ⟨text, hcut⟩ := slice_ahead before taken (c :: rest) line
  have hbyte : (zipper before taken (c :: rest) line).current <
      (zipper before taken (c :: rest) line).source.utf8ByteSize := by
    have hpos := c.utf8Size_pos
    rw [zipper_size, zipper_current, byteLength_cons]
    omega
  have hstride : (zipper before taken (c :: rest) line).advance.2.current =
      (zipper before taken (c :: rest) line).current +
        ((zipper before taken (c :: rest) line).charAt
          (zipper before taken (c :: rest) line).current).utf8Size := by
    rw [zipper_advance, zipper_current, zipper_current, zipper_charAt_current, byteLength_append,
      byteLength_cons, byteLength_nil]
    omega
  rw [advance, if_neg (by simp), demand_of hbyte, hcut, demand_of hstride, zipper_advance]
  rfl

theorem stepOver_zipper (x : Char) :
    stepOver (zipper before taken rest line) x =
      pure ((zipper before taken rest line).stepOver x) := by
  cases rest with
  | nil => simp [stepOver]
  | cons c rest =>
    simp only [stepOver, Cursor.stepOver, zipper_atEnd, List.isEmpty_cons, peek_zipper, zipper_peek,
      List.headD_cons, pure_bind, Bool.false_or, Bool.false_eq_true, if_false, zipper_current,
      zipper_charAt_current]
    by_cases hc : c = x
    · subst hc
      simp [demand_of]
    · simp [hc]

@[simp] theorem lexeme_zipper :
    lexeme (zipper before taken rest line) = pure (String.ofList taken) :=
  slice_ofList before taken rest

/-- There is room for one more line. -/
theorem newLine_zipper (h : line + 1 < lineLimit) :
    newLine (zipper before taken rest line) = pure (zipper before taken rest (line + 1)) := by
  rw [newLine, demand_of (by rwa [zipper_line])]
  rfl

/-- Behind a step there are fewer bytes to step over. -/
theorem remaining_zipper_lt (c : Char) (line' : Nat) :
    (zipper before (taken ++ [c]) rest line').remaining <
      (zipper before taken (c :: rest) line).remaining := by
  have hpos := c.utf8Size_pos
  simp only [remaining, zipper_size, zipper_current, byteLength_cons]
  omega

/-- A run of steps ends behind the longest run of a class, if `go` looks for that class. -/
theorem stepWhile_zipper {go : Cursor → Guarded Bool} {p : Char → Bool}
    (hend : ∀ t, go (zipper before t [] line) = pure false)
    (hgo : ∀ t c r, go (zipper before t (c :: r) line) = pure (p c)) :
    stepWhile go (zipper before taken rest line) =
      pure (zipper before (taken ++ rest.takeWhile p) (rest.dropWhile p) line) := by
  induction rest generalizing taken with
  | nil =>
    rw [stepWhile, hend]
    simp
  | cons c rest ih =>
    rw [stepWhile, hgo, pure_bind]
    by_cases h : p c = true
    · rw [if_pos h, advance_zipper, pure_bind, List.takeWhile_cons_of_pos h,
        List.dropWhile_cons_of_pos h]
      dsimp only
      rw [dif_pos (remaining_zipper_lt before taken rest line c line), ih, List.append_assoc,
        List.singleton_append]
    · rw [if_neg h, List.takeWhile_cons_of_neg h, List.dropWhile_cons_of_neg h, List.append_nil]

theorem eat_sees {p : Char → Bool} (hp : p endMark = false) :
    stepWhile (sees p) (zipper before taken rest line) =
      pure (zipper before (taken ++ rest.takeWhile p) (rest.dropWhile p) line) := by
  refine stepWhile_zipper before taken rest line (fun t => ?_) fun t c r => ?_
  · simp [sees, hp]
  · simp [sees]

theorem eat_meets (p : Char → Bool) :
    stepWhile (meets p) (zipper before taken rest line) =
      pure (zipper before (taken ++ rest.takeWhile p) (rest.dropWhile p) line) := by
  refine stepWhile_zipper before taken rest line (fun t => ?_) fun t c r => ?_
  · simp [meets]
  · simp [meets]

@[simp] theorem seesClose_zipper : seesClose (zipper before taken rest line) =
    pure (rest.headD endMark == '*' && rest.tail.headD endMark == '/') := by
  simp only [seesClose, peek_zipper, peekNext_zipper, pure_bind]
  cases rest.headD endMark == '*' with
  | true => rfl
  | false => rfl

/-- A line feed that is stepped over pays for the line that it begins. -/
theorem countLine_zipper (x : Char) (h : line + lineFeeds (x :: rest) < lineLimit) :
    countLine x (zipper before taken rest line) =
      pure (zipper before taken rest (line + lineFeeds [x])) := by
  unfold countLine
  by_cases hx : x = '\n'
  · subst hx
    rw [lineFeeds_cons_self] at h
    rw [if_pos (by simp), newLine_zipper before taken rest line (by omega)]
    rfl
  · rw [if_neg (by simpa using hx), lineFeeds_cons_of_ne hx]
    rfl

end Zipper

/-- Counting a line as the cursor of the scan does it. -/
theorem newLine_if_lineFeed (before taken rest : List Char) (line : Nat) (x : Char) :
    (if x == '\n' then (zipper before taken rest line).newLine else zipper before taken rest line) =
      zipper before taken rest (line + lineFeeds [x]) := by
  by_cases hx : x = '\n'
  · subst hx
    rfl
  · rw [if_neg (by simpa using hx), lineFeeds_cons_of_ne hx]
    rfl

/-- A block comment is gone over within the budget of lines. -/
theorem eatComment_zipper (before taken rest : List Char) (line : Nat)
    (h : line + lineFeeds rest < lineLimit) :
    eatComment (zipper before taken rest line) =
      pure (zipper before taken rest line).eatComment := by
  induction rest generalizing taken line with
  | nil =>
    rw [eatComment, Cursor.eatComment]
    simp
  | cons c rest ih =>
    rw [eatComment, Cursor.eatComment]
    simp only [zipper_atEnd, List.isEmpty_cons, seesClose_zipper, zipper_peek, zipper_peekNext,
      List.headD_cons, List.tail_cons, pure_bind, Bool.false_eq_true, if_false, dite_false,
      advance_zipper, zipper_advance]
    cases hclose : c == '*' && rest.headD endMark == '/' with
    | true =>
      have hslash : rest.headD endMark = '/' := by
        rw [Bool.and_eq_true] at hclose
        exact eq_of_beq hclose.2
      cases rest with
      | nil => exact absurd hslash (by decide)
      | cons d rest =>
        simp
    | false =>
      have hless := remaining_zipper_lt before taken rest line c (line + lineFeeds [c])
      have hrest : line + lineFeeds [c] + lineFeeds rest < lineLimit := by
        rwa [Nat.add_assoc, ← lineFeeds_append]
      simp only [countLine_zipper _ _ _ _ _ h, pure_bind, Bool.false_eq_true, if_false,
        dif_pos hless, newLine_if_lineFeed]
      exact ih _ _ hrest

/-! ## 3. Numbers -/

/-- Reading on never makes a number smaller. -/
theorem le_foldl_digits (digits : List Char) (n : Nat) :
    n ≤ digits.foldl (fun n c => 10 * n + digitValue c) n := by
  induction digits generalizing n with
  | nil => exact Nat.le_refl n
  | cons c digits ih => exact Nat.le_trans (by omega) (ih (10 * n + digitValue c))

/-- Digits are taken in until the number gets too large, which it does exactly if it is. -/
theorem takeDigits_digits {digits : List Char} (h : ∀ d ∈ digits, isDecimalDigit d = true)
    {n : Nat} (hn : n ≤ maxInteger) :
    takeDigits 1 n digits =
      if digits.foldl (fun n c => 10 * n + digitValue c) n ≤ maxInteger then
        .ok (digits.foldl (fun n c => 10 * n + digitValue c) n : Nat)
      else .error .tooLarge := by
  induction digits generalizing n with
  | nil => rw [takeDigits, List.foldl_nil, if_pos hn]
  | cons c digits ih =>
    have hnext : 10 * (n : Int) + 1 * (digitValue c : Int) = (10 * n + digitValue c : Nat) := by
      omega
    rw [takeDigits, if_pos (h c List.mem_cons_self), hnext, List.foldl_cons]
    by_cases hlarge : maxInteger < 10 * n + digitValue c
    · have hle := le_foldl_digits digits (10 * n + digitValue c)
      rw [if_pos (by exact_mod_cast hlarge), if_neg (by omega)]
    · rw [if_neg (by exact_mod_cast hlarge), if_neg (by omega)]
      exact ih (fun d hd => h d (List.mem_cons_of_mem _ hd)) (Nat.le_of_not_lt hlarge)

/-- **A run of digits reads as an integer unless it is out of range.** -/
theorem parseInteger_digits {c : Char} {digits : List Char}
    (h : ∀ d ∈ c :: digits, isDecimalDigit d = true) :
    parseInteger (c :: digits) =
      if digitsValue (c :: digits) ≤ maxInteger then .ok (digitsValue (c :: digits) : Nat)
      else .error .tooLarge := by
  have hc := h c List.mem_cons_self
  have hread := takeDigits_digits h (Nat.zero_le maxInteger)
  unfold parseInteger
  split
  · next heq => cases heq
  · next heq => cases heq; exact absurd hc (by decide)
  · next heq => cases heq; exact absurd hc (by decide)
  · next heq => cases heq; exact absurd hc (by decide)
  · next heq => cases heq; exact absurd hc (by decide)
  · exact hread

/-- No sign is in front of digits and points. -/
theorem dropSign_of_ne {text : List Char} (hplus : ∀ cs, text ≠ '+' :: cs)
    (hminus : ∀ cs, text ≠ '-' :: cs) : dropSign text = text := by
  unfold dropSign
  split
  · next cs => exact absurd rfl (hplus cs)
  · next cs => exact absurd rfl (hminus cs)
  · rfl

/-- **Digits around a point read as a float**, if there are any. -/
theorem readsAsFloat_fraction {whole fraction : List Char}
    (hwhole : ∀ d ∈ whole, isDecimalDigit d = true)
    (hfraction : ∀ d ∈ fraction, isDecimalDigit d = true) (hne : whole ++ fraction ≠ []) :
    readsAsFloat (whole ++ '.' :: fraction) = true := by
  have hhead : ∀ sign, sign = '+' ∨ sign = '-' → ∀ cs, whole ++ '.' :: fraction ≠ sign :: cs := by
    rintro sign hsign cs heq
    cases whole with
    | nil =>
      cases heq
      exact absurd hsign (by decide)
    | cons d whole =>
      cases heq
      rcases hsign with rfl | rfl
      · exact absurd (hwhole _ List.mem_cons_self) (by decide)
      · exact absurd (hwhole _ List.mem_cons_self) (by decide)
  have hnumeral : isNumeral (whole ++ '.' :: fraction) = true := by
    unfold isNumeral
    rw [List.dropWhile_append_of_pos hwhole, List.takeWhile_append_of_pos hwhole,
      List.dropWhile_cons_of_neg (by decide), List.takeWhile_cons_of_neg (by decide)]
    have htake : fraction.takeWhile isDecimalDigit = fraction :=
      List.takeWhile_eq_self_iff.mpr hfraction
    have hdrop : fraction.dropWhile isDecimalDigit = [] := List.dropWhile_eq_nil_iff.mpr hfraction
    simp only [htake, hdrop, List.append_nil, isExponent, Bool.and_true]
    simpa using hne
  rw [readsAsFloat, dropSign_of_ne (hhead '+' (.inl rfl)) (hhead '-' (.inr rfl)), hnumeral,
    Bool.true_or]

/-! ## 4. Pieces

Each of these goes on behind the first character, which has been stepped over. -/

section Pieces

variable (s : Scanner) (before cs : List Char) (line : Nat)

theorem emit_zipper (taken : List Char) (kind : Kind) (literal : Option Literal)
    (h : kind.hasLiteral = literal.isSome) :
    emit (s.moved (zipper before taken cs line)) kind literal =
      pure ((s.moved (zipper before taken cs line)).emit kind literal) := by
  have hspan : (s.moved (zipper before taken cs line)).cursor.start ≤
      (s.moved (zipper before taken cs line)).cursor.current := Nat.le_add_right ..
  rw [emit, demand_of h, demand_of hspan]
  simp only [Scanner.emit, Scanner.moved_cursor, lexeme_zipper, zipper_lexeme, pure_bind]

/-- The kinds of operators have no value. -/
theorem hasLiteral_of_lone {c : Char} {kind : Kind} (h : lone? c = some kind) :
    kind.hasLiteral = false := by
  unfold lone? at h
  split at h
  all_goals cases h
  all_goals rfl

theorem hasLiteral_of_pair {c : Char} {p : Pair} (h : pair? c = some p) (long : Bool) :
    (if long then p.long else p.short).hasLiteral = false := by
  unfold pair? at h
  split at h
  all_goals cases h
  all_goals cases long
  all_goals rfl

/-- The kinds of words have no value. -/
theorem hasLiteral_ofWord (word : String) : (Kind.ofWord word).hasLiteral = false := by
  unfold Kind.ofWord Kind.ofWord?
  cases h : Kind.reserved.lookup word with
  | none => rfl
  | some kind =>
    have hall : ∀ entry ∈ Kind.reserved, entry.2.hasLiteral = false := by decide
    obtain ⟨front, back, hsplit, -⟩ := List.lookup_eq_some_iff.mp h
    exact hall (word, kind) (hsplit ▸ by simp)

/-- A step over an expected character leaves a cursor where it is, or moves that character over. -/
theorem stepOver_cases (taken : List Char) (x : Char) :
    (zipper before taken cs line).stepOver x = (false, zipper before taken cs line) ∨
      ∃ rest, cs = x :: rest ∧
        (zipper before taken cs line).stepOver x =
          (true, zipper before (taken ++ [x]) rest line) := by
  cases cs with
  | nil => exact .inl (zipper_stepOver_nil ..)
  | cons c rest =>
    by_cases hc : c = x
    · subst hc
      exact .inr ⟨rest, rfl, by rw [zipper_stepOver, if_pos rfl]⟩
    · exact .inl (by rw [zipper_stepOver, if_neg hc])

theorem readPair_zipper {c : Char} {p : Pair} (h : pair? c = some p) :
    readPair (s.moved (zipper before [c] cs line)) p =
      pure ((s.moved (zipper before [c] cs line)).readPair p) := by
  have hkind := hasLiteral_of_pair h
  unfold readPair Scanner.readPair
  rw [Scanner.moved_cursor, stepOver_zipper, pure_bind]
  rcases stepOver_cases before cs line [c] p.second with hstay | ⟨rest, -, hover⟩
  · simp only [hstay]
    exact emit_zipper s before cs line [c] _ none (hkind false)
  · simp only [hover]
    exact emit_zipper s before rest line _ _ none (hkind true)

/-- Behind digits and a point there are digits, or there were some before it. -/
theorem readFraction_zipper {whole : List Char} (h : ∀ d ∈ whole, isDecimalDigit d = true)
    (hne : whole ++ cs.takeWhile isDecimalDigit ≠ []) :
    readFraction (s.moved (zipper before (whole ++ ['.']) cs line)) =
      pure ((s.moved (zipper before (whole ++ ['.']) cs line)).readFraction) := by
  have hreads : readsAsFloat (whole ++ '.' :: cs.takeWhile isDecimalDigit) = true :=
    readsAsFloat_fraction h (List.all_eq_true.mp List.all_takeWhile) hne
  have htaken : whole ++ ['.'] ++ cs.takeWhile isDecimalDigit =
      whole ++ '.' :: cs.takeWhile isDecimalDigit := by simp
  simp only [readFraction, Scanner.readFraction, Scanner.moved_cursor, Scanner.moved_moved,
    eat_sees before (whole ++ ['.']) cs line (p := isDecimalDigit) (by decide), zipper_eatDigits,
    pure_bind, peek_zipper, zipper_peek, lexeme_zipper, zipper_lexeme, String.toList_ofList, htaken,
    demand_of hreads]
  cases (cs.dropWhile isDecimalDigit).headD endMark == '.' with
  | true => rfl
  | false => exact emit_zipper s before _ line _ .float _ rfl

theorem readPoint_zipper :
    readPoint (s.moved (zipper before ['.'] cs line)) =
      pure ((s.moved (zipper before ['.'] cs line)).readPoint) := by
  simp only [readPoint, Scanner.readPoint, Scanner.moved_cursor, peek_zipper, zipper_peek,
    pure_bind]
  cases hd : isDecimalDigit (cs.headD endMark) with
  | true =>
    have hne : cs.takeWhile isDecimalDigit ≠ [] := by
      cases cs with
      | nil => exact absurd hd (by decide)
      | cons d ds =>
        rw [List.headD_cons] at hd
        simp [List.takeWhile_cons_of_pos hd]
    exact @readFraction_zipper s before cs line [] (by simp) hne
  | false => exact emit_zipper s before cs line ['.'] .dot none rfl

/-- The digits of a number that does not go on as a fraction are an integer or out of range. -/
theorem settleInteger_zipper {c : Char} {digits : List Char}
    (h : ∀ d ∈ c :: digits, isDecimalDigit d = true) :
    settleInteger (s.moved (zipper before (c :: digits) cs line)) (String.ofList (c :: digits)) =
      pure ((s.moved (zipper before (c :: digits) cs line)).settle
        (integerOutcome (c :: digits))) := by
  rw [settleInteger, String.toList_ofList, parseInteger_digits h, integerOutcome]
  by_cases hle : digitsValue (c :: digits) ≤ maxInteger
  · rw [if_pos hle, if_pos hle]
    exact emit_zipper s before cs line _ .int _ rfl
  · rw [if_neg hle, if_neg hle]
    rfl

@[simp] theorem seesFraction_zipper (taken : List Char) :
    seesFraction (zipper before taken cs line) =
      pure (cs.headD endMark == '.' && isDecimalDigit (cs.tail.headD endMark)) := by
  simp only [seesFraction, peek_zipper, peekNext_zipper, pure_bind]
  cases cs.headD endMark == '.' with
  | true => rfl
  | false => rfl

theorem readNumber_zipper {c : Char} (hc : isDecimalDigit c = true) :
    readNumber (s.moved (zipper before [c] cs line)) =
      pure ((s.moved (zipper before [c] cs line)).readNumber) := by
  have hdigits : ∀ d ∈ c :: cs.takeWhile isDecimalDigit, isDecimalDigit d = true := by
    intro d hd
    rcases List.mem_cons.mp hd with rfl | hd
    · exact hc
    · exact List.all_eq_true.mp List.all_takeWhile d hd
  simp only [readNumber, Scanner.readNumber, Scanner.moved_cursor, Scanner.moved_moved,
    eat_sees before [c] cs line (p := isDecimalDigit) (by decide), zipper_eatDigits, pure_bind,
    seesFraction_zipper, zipper_peek, zipper_peekNext, lexeme_zipper, zipper_lexeme,
    String.toList_ofList, List.singleton_append]
  cases hopen : (cs.dropWhile isDecimalDigit).headD endMark == '.' &&
      isDecimalDigit ((cs.dropWhile isDecimalDigit).tail.headD endMark) with
  | true =>
    obtain ⟨d, ds, hrest, -⟩ := (opensFraction_iff _).mpr hopen
    simp only [hrest, advance_zipper, zipper_advance, pure_bind]
    exact readFraction_zipper s before (d :: ds) line hdigits (by simp)
  | false => exact settleInteger_zipper s before _ line hdigits

theorem readSlash_zipper (h : line + lineFeeds cs < lineLimit) :
    readSlash (s.moved (zipper before ['/'] cs line)) =
      pure ((s.moved (zipper before ['/'] cs line)).readSlash) := by
  simp only [readSlash, Scanner.readSlash, Scanner.moved_cursor, Scanner.moved_moved,
    stepOver_zipper, pure_bind]
  rcases stepOver_cases before cs line ['/'] '*' with hstay | ⟨rest, rfl, hover⟩
  · rw [hstay]
    exact emit_zipper s before cs line ['/'] .slash none rfl
  · rw [hover]
    rw [lineFeeds_cons_of_ne (by decide)] at h
    dsimp only
    rw [eatComment_zipper before _ rest line h, pure_bind]
    rcases (zipper before (['/'] ++ ['*']) rest line).eatComment with ⟨c, closed⟩
    cases closed with
    | true => rfl
    | false => rfl

/-- A text between two quotes of one byte stands in them. -/
theorem standsIn_quotes {q : Char} (hq : q.utf8Size = 1) (body : List Char) :
    StandsIn q (String.ofList (q :: (body ++ [q]))) := by
  have hsize : (String.ofList (q :: (body ++ [q]))).utf8ByteSize = byteLength (q :: body) + 1 := by
    rw [utf8ByteSize_ofList, ← List.cons_append, byteLength_append, byteLength_cons q [], hq]
    rfl
  have hpos : 1 ≤ byteLength (q :: body) := by
    rw [byteLength_cons, hq]
    omega
  have hfirst := zipper_asciiAt? [] [] 1 [] (q :: (body ++ [q]))
  have hlast := zipper_asciiAt? [] [] 1 (q :: body) [q]
  refine ⟨by omega, ?_, ?_⟩
  · rw [ofString_eq_zipper, String.toList_ofList]
    simpa [Option.filter, hq] using hfirst
  · rw [ofString_eq_zipper, String.toList_ofList, hsize, Nat.add_sub_cancel]
    simpa [Option.filter, hq] using hlast

/-- What stands in quotes is cut out from between them. -/
theorem unquoted_quotes {q : Char} (hq : q.utf8Size = 1) (body : List Char) :
    unquoted q (String.ofList (q :: (body ++ [q]))) = pure (String.ofList body) := by
  have hcut := slice_ofList [q] body [q]
  have hsize : byteLength (q :: (body ++ [q])) - 1 = 1 + byteLength body := by
    simp only [byteLength_cons, byteLength_append, byteLength_nil, hq]
    omega
  rw [unquoted, demand_of (standsIn_quotes hq body), utf8ByteSize_ofList, hsize, pure_bind]
  simpa only [byteLength_cons, byteLength_nil, hq, Nat.add_zero, List.cons_append,
    List.nil_append] using hcut

@[simp] theorem breaksOff_zipper (taken : List Char) :
    breaksOff (zipper before taken cs line) =
      pure (cs.isEmpty || cs.headD endMark == '\n') := by
  cases cs with
  | nil => simp [breaksOff]
  | cons c cs => simp [breaksOff]

theorem readString_zipper {q : Char} (hq : q = '"' ∨ q = '\'')
    (h : line + lineFeeds cs < lineLimit) :
    readString (s.moved (zipper before [q] cs line)) q =
      pure ((s.moved (zipper before [q] cs line)).readString q) := by
  have hq1 : q.utf8Size = 1 := by rcases hq with rfl | rfl <;> rfl
  have happ := List.takeWhile_append_dropWhile (p := isInside q) (l := cs)
  simp only [readString, Scanner.readString, Scanner.moved_cursor, Scanner.moved_moved, eat_meets,
    zipper_eatString, pure_bind, breaksOff_zipper, zipper_atEnd, zipper_peek,
    List.singleton_append]
  cases hrest : cs.dropWhile (isInside q) with
  | nil => simp [Scanner.report, Scanner.reportAt, stepOver_zipper]
  | cons d rest =>
    by_cases hd : d = '\n'
    · -- the line feed that breaks the string off pays for the next line
      have hroom : line + 1 < lineLimit := by
        rw [hrest, hd] at happ
        rw [← happ, lineFeeds_append, lineFeeds_cons_self] at h
        omega
      subst hd
      simp [Scanner.report, Scanner.reportAt, stepOver_zipper, zipper_stepOver,
        newLine_zipper _ _ _ _ hroom]
    · have hend : d = q := by
        refine Scanner.eq_of_not_isInside ?_ hd
        have hhead := List.head?_dropWhile_not (isInside q) cs
        rw [hrest] at hhead
        simpa using hhead
      subst hend
      have hgo : ((d :: rest).isEmpty || (d :: rest).headD endMark == '\n') = false := by
        simpa using hd
      have hvalue := Scanner.unquoted_ofList (cs.takeWhile (isInside d)) hq1 hq1
      simp only [hgo, advance_zipper, zipper_advance, lexeme_zipper, zipper_lexeme, pure_bind,
        List.cons_append, unquoted_quotes hq1, hvalue, Bool.false_eq_true, if_false]
      exact emit_zipper s before rest line _ .string _ rfl

theorem readWord_zipper (c : Char) :
    readWord (s.moved (zipper before [c] cs line)) =
      pure ((s.moved (zipper before [c] cs line)).readWord) := by
  simp only [readWord, Scanner.readWord, Scanner.moved_cursor, Scanner.moved_moved,
    eat_sees before [c] cs line (p := isWordPart) (by decide), zipper_eatWord, pure_bind,
    lexeme_zipper, zipper_lexeme]
  exact emit_zipper s before _ line _ _ none (hasLiteral_ofWord _)

/-- **Reading a piece within the budget of lines meets every demand**, and does what the scan
does. -/
theorem readPiece_zipper (c : Char) (h : line + lineFeeds (c :: cs) < lineLimit) :
    readPiece (s.moved (zipper before [c] cs line)) c =
      pure ((s.moved (zipper before [c] cs line)).readPiece c) := by
  unfold readPiece Scanner.readPiece
  cases hlone : lone? c with
  | some kind => exact emit_zipper s before cs line [c] kind none (hasLiteral_of_lone hlone)
  | none =>
    cases hpair : pair? c with
    | some p => exact readPair_zipper s before cs line hpair
    | none =>
      dsimp only
      split
      · next hc =>
        subst hc
        exact readPoint_zipper s before cs line
      split
      · next hc =>
        subst hc
        exact readSlash_zipper s before cs line (by rwa [lineFeeds_cons_of_ne (by decide)] at h)
      split
      · rw [Scanner.moved_cursor, eat_meets, zipper_eatLine]
        rfl
      split
      · next hq =>
        have hc : c ≠ '\n' := by rcases hq with rfl | rfl <;> decide
        exact readString_zipper s before cs line hq (by rwa [lineFeeds_cons_of_ne hc] at h)
      split
      · next hc =>
        subst hc
        rw [lineFeeds_cons_self] at h
        rw [Scanner.moved_cursor, newLine_zipper _ _ _ _ (by omega), zipper_newLine]
        rfl
      split
      · rfl
      split
      · next hd => exact readNumber_zipper s before cs line hd
      split
      · exact readWord_zipper s before cs line c
      · rfl

end Pieces

/-! ## 5. Turns -/

/-- One turn meets every demand. -/
theorem step_zipper (s : Scanner) (before taken cs : List Char) (line : Nat) (c : Char)
    (h : line + lineFeeds (c :: cs) < lineLimit) :
    step (s.moved (zipper before taken (c :: cs) line)) =
      pure (s.moved (zipper before taken (c :: cs) line)).step := by
  simp only [step, Scanner.step, Scanner.mark, Scanner.moved_cursor, zipper_mark, advance_zipper,
    zipper_advance, zipper_line, pure_bind]
  exact readPiece_zipper _ (before ++ taken) cs line c h

/-- **A turn in the scan of a text meets every demand**, if the lines of the text can be counted. -/
theorem step_of_head {source : String} {sink : Collector} {s : Scanner}
    (hlines : lineFeeds source.toList + 1 < lineLimit) (h : Scanner.Head source sink s)
    (hend : s.cursor.atEnd = false) : step s = pure s.step := by
  obtain ⟨before, rest, done, hstands⟩ := h.stands
  obtain ⟨b, t, -, hcursor⟩ := hstands.cursor
  have hs : s = s.moved (zipper b t rest (1 + lineFeeds before)) := by
    rw [← hcursor]
    rfl
  cases rest with
  | nil =>
    rw [hcursor, zipper_atEnd] at hend
    exact absurd hend (by simp)
  | cons c cs =>
    -- the line feeds behind and ahead are those of the text
    have hbudget : 1 + lineFeeds before + lineFeeds (c :: cs) < lineLimit := by
      have hsplit := congrArg lineFeeds hstands.split
      rw [lineFeeds_append] at hsplit
      omega
    rw [hs]
    exact step_zipper s b t cs _ c hbudget

/-- From turn to turn no demand fails. -/
theorem loop_of_head {source : String} {sink : Collector} {s : Scanner}
    (hlines : lineFeeds source.toList + 1 < lineLimit) (h : Scanner.Head source sink s) :
    loop s = pure s.loop := by
  fun_induction Scanner.loop s with
  | case1 s hend => rw [loop, if_pos hend]
  | case2 s hend ih =>
    have hlive := Bool.eq_false_iff.mpr hend
    rw [loop, if_neg hend, step_of_head hlines h hlive, pure_bind,
      dif_pos (Scanner.step_remaining_lt hlive)]
    exact ih (h.turn hlive)

/-- **Scanning runs into no fault.**  Over every text with fewer than `2 ^ 32 - 1` line feeds, and
with any collector, every demand of the guarded scan is met, and it ends where the scan ends. -/
theorem scan_meets_demands (source : String) (sink : Collector)
    (hlines : lineFeeds source.toList < 2 ^ 32 - 1) :
    run source sink = .ok (Scanner.run source sink) := by
  have hcounted : lineFeeds source.toList + 1 < lineLimit := by
    rw [lineLimit]
    omega
  rw [run, loop_of_head hcounted .start, Scanner.run]
  rfl

/-- Quotes around characters of several bytes, numbers out of range and on both sides of a point, an
open comment and a line that breaks a string off. -/
theorem scan_meets_demands_mixed :
    let source := "'é€😀' 9223372036854775808 .5 1.5.\n\"ü\n/* \n"
    lineFeeds source.toList < 2 ^ 32 - 1 ∧ run source {} = .ok (Scanner.run source {}) := by
  intro source
  have hlines : lineFeeds source.toList < 2 ^ 32 - 1 := by decide +kernel
  exact ⟨hlines, scan_meets_demands source {} hlines⟩

end Guarded

end CpScan
