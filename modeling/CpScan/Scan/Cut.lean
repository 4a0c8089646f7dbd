/-
# Cutting one piece off a source text

A scan takes a source text apart into pieces.  `cut c cs` takes the first piece off the
non-empty text `c :: cs`: it says which characters the piece has, what the piece is, and what
text is left.  A piece is one of three things: a token, an error to report, or nothing of
interest, such as a blank or a comment.

The rules, by first character:

* `( ) { } , - + ;` are tokens of their own (`lone?`).
* `*`, `=`, `!`, `<`, `>` are operators that one certain second character makes longer (`pair?`).
* `.` before a digit opens a fraction, and is a token otherwise.
* `/` before `*` opens a comment up to the first `*/` behind it, and is a token otherwise.
* `#` opens a comment up to the end of the line, the line feed not included.
* `"` and `'` open a string up to the same character; a line feed or the end of the text cuts it
  off, and the line feed then belongs to the malformed piece.
* A digit opens an integer, or a fraction if a point and a digit follow the run.
* A letter or an underscore opens a word.
* A line feed and a blank are skipped; any other character is unexpected.

Every piece has at least one character and the pieces add up to the text: `taken_append_rest`.
-/
import CpScan.Decimal.Nearest
import CpScan.Scan.Error
import CpScan.Token.Basic

namespace CpScan

/-! ## 1. Pieces cut off -/

/-- What a piece of source text is. -/
inductive Outcome where
  /-- A token of this kind, standing for this value. -/
  | token (kind : Kind) (literal : Option Literal)
  /-- A malformed piece. -/
  | report (error : LexicalError)
  /-- A blank, a line feed or a comment. -/
  | skip
deriving DecidableEq, Repr, Inhabited

/-- The first piece of a text: its characters, what it is, and the text behind it. -/
structure Cut where
  taken : List Char
  outcome : Outcome
  rest : List Char
deriving DecidableEq, Repr

/-! ## 2. Operators -/

/-- The kind of a character that is a token of its own whatever follows. -/
def lone? : Char → Option Kind
  | '(' => some .leftParen
  | ')' => some .rightParen
  | '\x7b' => some .leftBrace
  | '\x7d' => some .rightBrace
  | ',' => some .comma
  | '-' => some .minus
  | '+' => some .plus
  | ';' => some .semicolon
  | _ => none

/-- A character that is an operator, and the second character that makes it a longer one. -/
structure Pair where
  second : Char
  short : Kind
  long : Kind

/-- The operators that a second character can make longer. -/
def pair? : Char → Option Pair
  | '*' => some ⟨'*', .star, .starStar⟩
  | '=' => some ⟨'=', .equal, .equalEqual⟩
  | '!' => some ⟨'=', .bang, .bangEqual⟩
  | '<' => some ⟨'=', .less, .lessEqual⟩
  | '>' => some ⟨'=', .greater, .greaterEqual⟩
  | _ => none

/-- Cut an operator of one or two characters. -/
def cutPair (c : Char) (p : Pair) : List Char → Cut
  | [] => ⟨[c], .token p.short none, []⟩
  | d :: ds =>
    if d = p.second then ⟨[c, d], .token p.long none, ds⟩
    else ⟨[c], .token p.short none, d :: ds⟩

/-! ## 3. Numbers -/

/-- The greatest integer literal. -/
def maxInteger : Nat := 0x7FFFFFFFFFFFFFFF

/-- What a run of digits is: an integer, if it is small enough. -/
def integerOutcome (digits : List Char) : Outcome :=
  if digitsValue digits ≤ maxInteger then .token .int (some (.int (digitsValue digits)))
  else .report .integerOverflow

/-- What a fraction is: a float, unless another point stands right behind it. -/
def fractionOutcome (whole fraction : List Char) : List Char → Outcome
  | '.' :: _ => .report .malformedFloat
  | _ => .token .float (some (.float (Double.ofDigits whole fraction)))

/-- Cut a fraction whose digits before the point are `whole`; the text starts behind the point. -/
def cutFraction (whole cs : List Char) : Cut :=
  let fraction := cs.takeWhile isDecimalDigit
  let rest := cs.dropWhile isDecimalDigit
  ⟨whole ++ '.' :: fraction, fractionOutcome whole fraction rest, rest⟩

/-- Cut a number that opens with the digit `c`. -/
def cutNumber (c : Char) (cs : List Char) : Cut :=
  let digits := c :: cs.takeWhile isDecimalDigit
  match cs.dropWhile isDecimalDigit with
  | '.' :: d :: ds =>
    if isDecimalDigit d then cutFraction digits (d :: ds)
    else ⟨digits, integerOutcome digits, '.' :: d :: ds⟩
  | rest => ⟨digits, integerOutcome digits, rest⟩

/-- Cut what a point opens. -/
def cutPoint : List Char → Cut
  | [] => ⟨['.'], .token .dot none, []⟩
  | d :: ds =>
    if isDecimalDigit d then cutFraction [] (d :: ds) else ⟨['.'], .token .dot none, d :: ds⟩

/-! ## 4. Comments -/

/-- The text up to and including the first `*/`, behind the characters `before`, the last of them
first; and the text behind it. -/
def closeComment (before : List Char) : List Char → Option (List Char × List Char)
  | [] => none
  | '*' :: '/' :: rest => some (('/' :: '*' :: before).reverse, rest)
  | c :: rest => closeComment (c :: before) rest

/-- Cut what a slash opens. -/
def cutSlash : List Char → Cut
  | '*' :: cs =>
    match closeComment ['*', '/'] cs with
    | some (taken, rest) => ⟨taken, .skip, rest⟩
    | none => ⟨'/' :: '*' :: cs, .report .unfinishedComment, []⟩
  | cs => ⟨['/'], .token .slash none, cs⟩

/-- Cut a comment that ends with the line. -/
def cutLineComment (cs : List Char) : Cut :=
  ⟨'#' :: cs.takeWhile (· != '\n'), .skip, cs.dropWhile (· != '\n')⟩

/-! ## 5. Strings and words -/

/-- A character that goes on a string with the quote `q`: neither the quote nor a line feed. -/
def isInside (q c : Char) : Bool := c != q && c != '\n'

/-- Cut a string that the quote `q` opens. -/
def cutString (q : Char) (cs : List Char) : Cut :=
  let body := cs.takeWhile (isInside q)
  match cs.dropWhile (isInside q) with
  | [] => ⟨q :: body, .report .unfinishedString, []⟩
  | d :: rest =>
    if d = '\n' then ⟨q :: (body ++ [d]), .report .unfinishedString, rest⟩
    else ⟨q :: (body ++ [d]), .token .string (some (.str (String.ofList body))), rest⟩

/-- Cut a word that opens with `c`. -/
def cutWord (c : Char) (cs : List Char) : Cut :=
  let word := c :: cs.takeWhile isWordPart
  ⟨word, .token (Kind.ofWord (String.ofList word)) none, cs.dropWhile isWordPart⟩

/-! ## 6. Any piece -/

/-- Cut the first piece off the text `c :: cs`. -/
def cut (c : Char) (cs : List Char) : Cut :=
  match lone? c with
  | some kind => ⟨[c], .token kind none, cs⟩
  | none =>
    match pair? c with
    | some p => cutPair c p cs
    | none =>
      if c = '.' then cutPoint cs
      else if c = '/' then cutSlash cs
      else if c = '#' then cutLineComment cs
      else if c = '"' ∨ c = '\'' then cutString c cs
      else if c = '\n' ∨ isBlank c then ⟨[c], .skip, cs⟩
      else if isDecimalDigit c then cutNumber c cs
      else if isWordStart c then cutWord c cs
      else ⟨[c], .report (.unexpectedCharacter c), cs⟩

/-! ## 7. Nothing is lost

Each way of cutting takes a non-empty stretch off the front of the text and leaves exactly what
is behind it. -/

/-- The piece and the rest make up the text, and the piece opens with its first character. -/
def Cut.Splits (k : Cut) (c : Char) (cs : List Char) : Prop :=
  ∃ more, k.taken = c :: more ∧ more ++ k.rest = cs

theorem cutPair_splits (c : Char) (p : Pair) (cs : List Char) : (cutPair c p cs).Splits c cs := by
  cases cs with
  | nil => exact ⟨[], rfl, rfl⟩
  | cons d ds =>
    simp only [cutPair]
    split
    · exact ⟨[d], rfl, rfl⟩
    · exact ⟨[], rfl, rfl⟩

theorem cutPoint_splits (cs : List Char) : (cutPoint cs).Splits '.' cs := by
  cases cs with
  | nil => exact ⟨[], rfl, rfl⟩
  | cons d ds =>
    simp only [cutPoint]
    split
    · exact ⟨_, rfl, List.takeWhile_append_dropWhile⟩
    · exact ⟨[], rfl, rfl⟩

theorem cutNumber_splits (c : Char) (cs : List Char) : (cutNumber c cs).Splits c cs := by
  have happ := List.takeWhile_append_dropWhile (p := isDecimalDigit) (l := cs)
  unfold cutNumber
  split
  · next d ds hd =>
    rw [hd] at happ
    split
    · refine ⟨cs.takeWhile isDecimalDigit ++ '.' :: (d :: ds).takeWhile isDecimalDigit, rfl, ?_⟩
      simp only [cutFraction, List.append_assoc, List.cons_append,
        List.takeWhile_append_dropWhile]
      exact happ
    · exact ⟨_, rfl, happ⟩
  · exact ⟨_, rfl, happ⟩

/-- A closed comment and the text behind it are the text before and after. -/
theorem closeComment_append {before cs taken rest : List Char}
    (h : closeComment before cs = some (taken, rest)) :
    taken ++ rest = before.reverse ++ cs := by
  fun_induction closeComment before cs with
  | case1 => simp at h
  | case2 =>
    obtain ⟨rfl, rfl⟩ : _ ∧ _ := by simpa using h
    simp
  | case3 before c rest _ ih => simpa using ih h

/-- The text behind a closed comment is shorter than the text that closes it. -/
theorem closeComment_rest {before cs taken rest : List Char}
    (h : closeComment before cs = some (taken, rest)) : rest.length < cs.length := by
  fun_induction closeComment before cs with
  | case1 => simp at h
  | case2 =>
    obtain ⟨-, rfl⟩ : _ ∧ _ := by simpa using h
    simp only [List.length_cons]
    omega
  | case3 before c rest _ ih => exact Nat.lt_trans (ih h) (by simp)

theorem cutSlash_splits (cs : List Char) : (cutSlash cs).Splits '/' cs := by
  unfold cutSlash
  split
  · next cs =>
    split
    · next taken rest h =>
      have happ := closeComment_append h
      cases taken with
      | nil => exact absurd (congrArg List.length happ) (by
          have := closeComment_rest h
          simp at this ⊢
          omega)
      | cons t more =>
        simp only [List.cons_append, List.reverse_cons, List.reverse_nil, List.nil_append,
          List.cons.injEq] at happ
        exact ⟨more, by rw [happ.1], happ.2⟩
    · exact ⟨'*' :: cs, rfl, by simp⟩
  · exact ⟨[], rfl, rfl⟩

theorem cutLineComment_splits (cs : List Char) : (cutLineComment cs).Splits '#' cs :=
  ⟨_, rfl, List.takeWhile_append_dropWhile⟩

theorem cutString_splits (q : Char) (cs : List Char) : (cutString q cs).Splits q cs := by
  have happ := List.takeWhile_append_dropWhile (p := isInside q) (l := cs)
  simp only [cutString]
  split
  · next h => exact ⟨_, rfl, by rw [h] at happ; exact happ⟩
  · next d rest h =>
    rw [h] at happ
    split
    · exact ⟨_, rfl, by rw [List.append_assoc]; exact happ⟩
    · exact ⟨_, rfl, by rw [List.append_assoc]; exact happ⟩

theorem cutWord_splits (c : Char) (cs : List Char) : (cutWord c cs).Splits c cs :=
  ⟨_, rfl, List.takeWhile_append_dropWhile⟩

/-- A cut loses nothing: the piece taken and the text left are the text, and the piece has the
first character. -/
theorem cut_splits (c : Char) (cs : List Char) : (cut c cs).Splits c cs := by
  unfold cut
  split
  · exact ⟨[], rfl, rfl⟩
  split
  · exact cutPair_splits ..
  split
  · next h => subst h; exact cutPoint_splits cs
  split
  · next h => subst h; exact cutSlash_splits cs
  split
  · next h => subst h; exact cutLineComment_splits cs
  split
  · exact cutString_splits ..
  split
  · exact ⟨[], rfl, rfl⟩
  split
  · exact cutNumber_splits ..
  split
  · exact cutWord_splits ..
  · exact ⟨[], rfl, rfl⟩

/-- The piece and the rest make up the text. -/
theorem taken_append_rest (c : Char) (cs : List Char) :
    (cut c cs).taken ++ (cut c cs).rest = c :: cs := by
  obtain ⟨more, htaken, hrest⟩ := cut_splits c cs
  rw [htaken, List.cons_append, hrest]

/-- The text left is no longer than the text behind the first character. -/
theorem cut_rest_length_le (c : Char) (cs : List Char) :
    (cut c cs).rest.length ≤ cs.length := by
  obtain ⟨more, -, h⟩ := cut_splits c cs
  have := congrArg List.length h
  simp only [List.length_append] at this
  omega

/-- Induction along the pieces: what holds of the empty text, and of a text if it holds of what is
left behind the first piece, holds of every text. -/
@[elab_as_elim]
theorem cut_induction {motive : List Char → Prop} (nil : motive [])
    (cons : ∀ c cs, motive (cut c cs).rest → motive (c :: cs)) (text : List Char) :
    motive text := by
  induction hn : text.length using Nat.strongRecOn generalizing text with
  | ind n ih =>
    cases text with
    | nil => exact nil
    | cons c cs =>
      have hlt : (cut c cs).rest.length < n := by
        rw [← hn]
        exact Nat.lt_succ_of_le (cut_rest_length_le c cs)
      exact cons c cs (ih _ hlt _ rfl)

end CpScan
