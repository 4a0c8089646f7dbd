/-
# The scan as a machine

`Scan.of` says what the pieces of a text are.  A `Scanner` is the machine that finds them while it
goes: a cursor over the bytes of the text, the line its mark is on, and four records that grow, the
tokens, the count of errors, a collector that is told of every error, and the log.

One turn of the machine (`Scanner.step`) puts the mark at the next character and takes one piece.
Which piece it is shows only as the cursor moves: the cursor looks at most two characters ahead,
and U+0000 stands for the end of the text as well as for itself.  A step of the cursor never counts
lines.  Whatever takes a line feed has to say so (`Cursor.newLine`), and that happens in three
places: a line feed between pieces, one inside a block comment, and one that breaks a string off.

An error is reported on the line the cursor is on when it is noticed, except that an open comment
is reported on the line of its mark.

`Scanner.run` turns until the text is used up, and logs that it is done.  Every turn takes at least
one character (`Scanner.step_remaining_lt`), which is why it ends.
-/
import CpScan.Log.Event
import CpScan.Text.Cursor

namespace CpScan

/-! ## 1. Longer moves of a cursor -/

namespace Cursor

/-- Bytes not yet stepped over. -/
def remaining (c : Cursor) : Nat := c.source.utf8ByteSize - c.current

/-- A step over a character leaves fewer bytes. -/
theorem advance_remaining_lt {c : Cursor} (h : c.atEnd = false) :
    c.advance.2.remaining < c.remaining := by
  have hpos := (c.charAt c.current).utf8Size_pos
  have hlt : c.current < c.source.utf8ByteSize := by simpa [atEnd] using h
  simp only [advance, h, remaining, Bool.false_eq_true, if_false]
  split
  · dsimp only
    omega
  · dsimp only
    omega

/-- Step over characters as long as `go` says so, which it never does at the end of the text. -/
def stepWhile (go : Cursor → Bool) (live : ∀ c, go c = true → c.atEnd = false) (c : Cursor) :
    Cursor :=
  if _ : go c = true then stepWhile go live c.advance.2 else c
termination_by c.remaining
decreasing_by exact advance_remaining_lt (live c ‹_›)

/-- At the end there is the end mark ahead. -/
theorem peek_of_atEnd {c : Cursor} (h : c.atEnd = true) : c.peek = endMark := by
  have hsize : c.source.utf8ByteSize ≤ c.current := by simpa [atEnd] using h
  have hnone : c.asciiAhead? c.current 0 = none := by
    simp only [asciiAhead?, asciiAt?]
    exact dif_neg (Nat.not_lt.mpr hsize)
  simp [peek, charAhead, hnone, decodeAhead, charAt, hsize]

/-- Whether the next character is of a class. -/
def sees (p : Char → Bool) (c : Cursor) : Bool := p c.peek

/-- A class without the end mark is not seen at the end. -/
theorem sees_live {p : Char → Bool} (hp : p endMark = false) (c : Cursor) (h : c.sees p = true) :
    c.atEnd = false := by
  cases hend : c.atEnd with
  | false => rfl
  | true => simp [sees, peek_of_atEnd hend, hp] at h

/-- Step over the digits that come next. -/
def eatDigits (c : Cursor) : Cursor := c.stepWhile (sees isDecimalDigit) (sees_live (by decide))

/-- Step over what goes on a word. -/
def eatWord (c : Cursor) : Cursor := c.stepWhile (sees isWordPart) (sees_live (by decide))

/-- Whether there is a next character, and it is of a class. -/
def meets (p : Char → Bool) (c : Cursor) : Bool := !c.atEnd && p c.peek

theorem meets_live {p : Char → Bool} (c : Cursor) (h : c.meets p = true) : c.atEnd = false := by
  simp only [meets, Bool.and_eq_true, Bool.not_eq_eq_eq_not, Bool.not_true] at h
  exact h.1

/-- Step over what is left of the line. -/
def eatLine (c : Cursor) : Cursor := c.stepWhile (meets (· != '\n')) meets_live

/-- Step over what goes on a string with the quote `q`. -/
def eatString (q : Char) (c : Cursor) : Cursor := c.stepWhile (meets (isInside q)) meets_live

/-- Step over a block comment up to and including its end, counting lines; the flag says whether
there was an end. -/
def eatComment (c : Cursor) : Cursor × Bool :=
  if _ : c.atEnd = true then (c, false)
  else if c.peek == '*' && c.peekNext == '/' then (c.advance.2.advance.2, true)
  else eatComment (if c.advance.1 == '\n' then c.advance.2.newLine else c.advance.2)
termination_by c.remaining
decreasing_by
  have hlt := advance_remaining_lt (Bool.eq_false_iff.mpr ‹_›)
  split
  · exact hlt
  · exact hlt

end Cursor

/-! ## 2. The machine -/

/-- A scan under way. -/
structure Scanner where
  cursor : Cursor
  /-- Number of the line the mark is on. -/
  startLine : Nat := 1
  tokens : Array Token := #[]
  /-- How many errors were reported. -/
  errors : Nat := 0
  /-- Where errors are reported to. -/
  sink : Collector := {}
  log : Array Event := #[]
deriving Repr

namespace Scanner

/-- A scan that has not begun, with a collector that may hold something already. -/
def start (source : String) (sink : Collector) : Scanner :=
  { cursor := Cursor.ofString source, sink := sink }

/-- The scan with its cursor elsewhere. -/
def moved (s : Scanner) (c : Cursor) : Scanner := { s with cursor := c }

/-- The text between the mark and the cursor is a token. -/
def emit (s : Scanner) (kind : Kind) (literal : Option Literal) : Scanner :=
  { s with
    tokens := s.tokens.push
      ⟨kind, s.cursor.lexeme, literal, ⟨s.cursor.start, s.cursor.current, s.startLine⟩⟩ }

/-- Report an error on the line with the number `line`. -/
def reportAt (s : Scanner) (line : Nat) (error : LexicalError) : Scanner :=
  { s with
    log := s.log.push (.lexicalError ⟨⟨s.cursor.start, line⟩, error⟩)
    errors := s.errors + 1
    sink := s.sink.report line error.message }

/-- Report an error on the line the cursor is on. -/
def report (s : Scanner) (error : LexicalError) : Scanner := s.reportAt s.cursor.line error

/-- Do what the outcome of a piece asks for. -/
def settle (s : Scanner) : Outcome → Scanner
  | .token kind literal => s.emit kind literal
  | .report error => s.report error
  | .skip => s

/-! ## 3. Pieces, by their first character

Each of these goes on behind the first character, which has been stepped over. -/

/-- An operator that a second character can make longer. -/
def readPair (s : Scanner) (p : Pair) : Scanner :=
  let (long, c) := s.cursor.stepOver p.second
  (s.moved c).emit (if long then p.long else p.short) none

/-- The value of a decimal fraction, written with its point. -/
def fractionValue (text : String) : Double :=
  Double.ofDigits (text.toList.takeWhile (· != '.')) (text.toList.dropWhile (· != '.')).tail

/-- The digits behind a point. -/
def readFraction (s : Scanner) : Scanner :=
  let s := s.moved s.cursor.eatDigits
  if s.cursor.peek == '.' then s.report .malformedFloat
  else s.emit .float (some (.float (fractionValue s.cursor.lexeme)))

/-- A number. -/
def readNumber (s : Scanner) : Scanner :=
  let s := s.moved s.cursor.eatDigits
  if s.cursor.peek == '.' && isDecimalDigit s.cursor.peekNext then
    (s.moved s.cursor.advance.2).readFraction
  else s.settle (integerOutcome s.cursor.lexeme.toList)

/-- What a point opens. -/
def readPoint (s : Scanner) : Scanner :=
  if isDecimalDigit s.cursor.peek then s.readFraction else s.emit .dot none

/-- What a slash opens. -/
def readSlash (s : Scanner) : Scanner :=
  match s.cursor.stepOver '*' with
  | (false, c) => (s.moved c).emit .slash none
  | (true, c) =>
    match c.eatComment with
    | (c, true) => s.moved c
    | (c, false) => (s.moved c).reportAt s.startLine .unfinishedComment

/-- A text without its first and its last byte. -/
def unquoted (text : String) : String :=
  String.Pos.Raw.extract text ⟨1⟩ ⟨text.utf8ByteSize - 1⟩

/-- A string with the quote `q`. -/
def readString (s : Scanner) (q : Char) : Scanner :=
  let s := s.moved (s.cursor.eatString q)
  if s.cursor.atEnd || s.cursor.peek == '\n' then
    let s := s.report .unfinishedString
    match s.cursor.stepOver '\n' with
    | (true, c) => s.moved c.newLine
    | (false, c) => s.moved c
  else
    let s := s.moved s.cursor.advance.2
    s.emit .string (some (.str (unquoted s.cursor.lexeme)))

/-- A word. -/
def readWord (s : Scanner) : Scanner :=
  let s := s.moved s.cursor.eatWord
  s.emit (Kind.ofWord s.cursor.lexeme) none

/-- What the character `c` opens. -/
def readPiece (s : Scanner) (c : Char) : Scanner :=
  match lone? c with
  | some kind => s.emit kind none
  | none =>
    match pair? c with
    | some p => s.readPair p
    | none =>
      if c = '.' then s.readPoint
      else if c = '/' then s.readSlash
      else if c = '#' then s.moved s.cursor.eatLine
      else if c = '"' ∨ c = '\'' then s.readString c
      else if c = '\n' then s.moved s.cursor.newLine
      else if isBlank c then s
      else if isDecimalDigit c then s.readNumber
      else if isWordStart c then s.readWord
      else s.report (.unexpectedCharacter c)

/-- Put the mark at the next character. -/
def mark (s : Scanner) : Scanner := { s with cursor := s.cursor.mark, startLine := s.cursor.line }

/-- One turn: take the piece that the next character opens. -/
def step (s : Scanner) : Scanner :=
  let s := s.mark
  (s.moved s.cursor.advance.2).readPiece s.cursor.advance.1

end Scanner

/-! ## 4. Every turn takes something

A cursor is only ever moved onward over one text, and a turn begins by stepping over a character. -/

/-- The second cursor is over the same text, and not behind the first. -/
structure Cursor.Onward (c d : Cursor) : Prop where
  source : d.source = c.source
  current : c.current ≤ d.current

namespace Cursor

theorem Onward.refl (c : Cursor) : c.Onward c := ⟨rfl, Nat.le_refl _⟩

theorem Onward.trans {c d e : Cursor} (h : c.Onward d) (g : d.Onward e) : c.Onward e :=
  ⟨g.source.trans h.source, Nat.le_trans h.current g.current⟩

/-- Onward from a cursor, no more bytes are left. -/
theorem Onward.remaining_le {c d : Cursor} (h : c.Onward d) : d.remaining ≤ c.remaining := by
  have := h.current
  simp only [remaining, h.source]
  omega

theorem advance_onward (c : Cursor) : c.Onward c.advance.2 := by
  unfold advance
  split
  · exact .refl c
  split
  · exact ⟨rfl, Nat.le_add_right ..⟩
  · exact ⟨rfl, Nat.le_add_right ..⟩

theorem stepOver_onward (c : Cursor) (x : Char) : c.Onward (c.stepOver x).2 := by
  unfold stepOver
  split
  · exact .refl c
  · exact ⟨rfl, Nat.le_add_right ..⟩

theorem stepWhile_onward (go : Cursor → Bool) (live : ∀ c, go c = true → c.atEnd = false)
    (c : Cursor) : c.Onward (c.stepWhile go live) := by
  fun_induction stepWhile go live c with
  | case1 c _ ih => exact c.advance_onward.trans ih
  | case2 c _ => exact .refl c

theorem eatComment_onward (c : Cursor) : c.Onward c.eatComment.1 := by
  fun_induction eatComment c with
  | case1 c _ => exact .refl c
  | case2 c _ _ => exact c.advance_onward.trans c.advance.2.advance_onward
  | case3 c _ _ ih =>
    refine Onward.trans ?_ ih
    split
    · exact ⟨c.advance_onward.source, c.advance_onward.current⟩
    · exact c.advance_onward

end Cursor

namespace Scanner

theorem settle_cursor (s : Scanner) (o : Outcome) : (s.settle o).cursor = s.cursor := by
  cases o <;> rfl

theorem readFraction_onward (s : Scanner) : s.cursor.Onward s.readFraction.cursor := by
  simp only [readFraction]
  split
  · exact s.cursor.stepWhile_onward ..
  · exact s.cursor.stepWhile_onward ..

theorem readNumber_onward (s : Scanner) : s.cursor.Onward s.readNumber.cursor := by
  have hdigits : s.cursor.Onward s.cursor.eatDigits := s.cursor.stepWhile_onward ..
  simp only [readNumber]
  split
  · have hfraction := readFraction_onward (s.moved s.cursor.eatDigits.advance.2)
    exact hdigits.trans (s.cursor.eatDigits.advance_onward.trans hfraction)
  · rw [settle_cursor]
    exact hdigits

theorem readPoint_onward (s : Scanner) : s.cursor.Onward s.readPoint.cursor := by
  unfold readPoint
  split
  · exact s.readFraction_onward
  · exact .refl _

theorem readSlash_onward (s : Scanner) : s.cursor.Onward s.readSlash.cursor := by
  have hover := s.cursor.stepOver_onward '*'
  unfold readSlash
  split
  · next c h =>
    rw [h] at hover
    exact hover
  · next c h =>
    rw [h] at hover
    have heat := c.eatComment_onward
    split
    · next d g =>
      rw [g] at heat
      exact hover.trans heat
    · next d g =>
      rw [g] at heat
      exact hover.trans heat

theorem readString_onward (s : Scanner) (q : Char) : s.cursor.Onward (s.readString q).cursor := by
  have hbody : s.cursor.Onward (s.cursor.eatString q) := s.cursor.stepWhile_onward ..
  simp only [readString]
  split
  · have hover := (s.cursor.eatString q).stepOver_onward '\n'
    split
    · next c h =>
      have h : (s.cursor.eatString q).stepOver '\n' = (true, c) := h
      rw [h] at hover
      exact hbody.trans ⟨hover.source, hover.current⟩
    · next c h =>
      have h : (s.cursor.eatString q).stepOver '\n' = (false, c) := h
      rw [h] at hover
      exact hbody.trans hover
  · exact hbody.trans (s.cursor.eatString q).advance_onward

theorem readPiece_onward (s : Scanner) (c : Char) : s.cursor.Onward (s.readPiece c).cursor := by
  unfold readPiece
  split
  · exact .refl _
  split
  · exact s.cursor.stepOver_onward _
  split
  · exact s.readPoint_onward
  split
  · exact s.readSlash_onward
  split
  · exact s.cursor.stepWhile_onward ..
  split
  · exact s.readString_onward c
  split
  · exact ⟨rfl, Nat.le_refl _⟩
  split
  · exact .refl _
  split
  · exact s.readNumber_onward
  split
  · exact s.cursor.stepWhile_onward ..
  · exact .refl _

/-- **A turn takes at least one character.** -/
theorem step_remaining_lt {s : Scanner} (h : s.cursor.atEnd = false) :
    s.step.cursor.remaining < s.cursor.remaining :=
  Nat.lt_of_le_of_lt (readPiece_onward _ _).remaining_le
    (Cursor.advance_remaining_lt (c := s.cursor.mark) h)

/-! ## 5. The whole run -/

/-- Turn until the text is used up. -/
def loop (s : Scanner) : Scanner :=
  if _ : s.cursor.atEnd = true then s else s.step.loop
termination_by s.cursor.remaining
decreasing_by exact step_remaining_lt (Bool.eq_false_iff.mpr ‹_›)

/-- Log that the scan is done: how many tokens and errors there were, and the line it ended on. -/
def finish (s : Scanner) : Scanner :=
  { s with log := s.log.push (.scanFinished s.tokens.size s.errors s.cursor.line) }

/-- Scan a whole text, reporting to a collector. -/
def run (source : String) (sink : Collector) : Scanner := (start source sink).loop.finish

end Scanner

end CpScan
