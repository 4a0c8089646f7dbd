/-
# The scan under guard

A `Scanner` takes a good deal for granted: that the byte it looks at is there, that it cuts the text
between characters and not inside one, that what it takes the quotes off stands in quotes.  The
guarded scan is the same machine and takes nothing for granted.  Wherever a step rests on such a
fact it demands it, and a demand that is not met ends the scan with a `Fault`.

What is demanded:

* a text is cut at the beginnings of characters and not past its end (`slice`), be it the lexeme,
  the text ahead of the cursor or the inside of a string;
* a step of the cursor goes over exactly the bytes of the character at its place (`advance`,
  `stepOver`);
* the quotes of a string are its first and its last byte, and two bytes (`unquoted`);
* a span does not end before it starts, and a token has a value exactly if its kind has one
  (`emit`);
* a run of digits reads as an integer unless it is out of range (`parseInteger`), and a fraction
  reads as a float (`readsAsFloat`);
* the line number fits in 32 bits (`newLine`);
* a turn takes something, be it a turn of a loop over characters or one of the whole machine.
-/
import CpScan.Scan.Scanner

namespace CpScan

/-! ## 1. Faults -/

/-- What a guarded scan breaks off at. -/
inductive Fault where
  /-- A text is cut past its end or inside a character. -/
  | cut
  /-- A byte past the end of the text is looked at. -/
  | byte
  /-- A step does not go over exactly the character at the place. -/
  | stride
  /-- The quotes are taken off a text that does not stand in quotes. -/
  | quotes
  /-- A span ends before it starts. -/
  | span
  /-- A token lacks the value of its kind, or has one that its kind has not. -/
  | literal
  /-- A text does not read as an integer, for another reason than its size. -/
  | integer
  /-- A text does not read as a float. -/
  | float
  /-- A line number does not fit. -/
  | line
  /-- A turn takes nothing. -/
  | stuck
deriving DecidableEq, Repr

/-- A step that may run into a fault. -/
abbrev Guarded := Except Fault

namespace Guarded

/-- Go on only if a fact holds. -/
def demand (fact : Prop) [Decidable fact] (fault : Fault) : Guarded Unit :=
  if fact then .ok () else .error fault

/-! ## 2. Numbers as they are read in general -/

/-- Why a text does not read as an integer. -/
inductive IntegerError where
  | empty
  | invalidDigit
  | tooLarge
  | tooSmall
deriving DecidableEq, Repr

/-- Take in digits from the left, with `value` read so far, upwards or downwards by the sign. -/
def takeDigits (sign value : Int) : List Char → Except IntegerError Int
  | [] => .ok value
  | c :: cs =>
    if isDecimalDigit c then
      let next := 10 * value + sign * digitValue c
      if maxInteger < next then .error .tooLarge
      else if next < -maxInteger - 1 then .error .tooSmall
      else takeDigits sign next cs
    else .error .invalidDigit

/-- Read a 64-bit integer: digits, behind a sign if there is one. -/
def parseInteger (text : List Char) : Except IntegerError Int :=
  match text with
  | [] => .error .empty
  | ['+'] | ['-'] => .error .invalidDigit
  | '+' :: cs => takeDigits 1 0 cs
  | '-' :: cs => takeDigits (-1) 0 cs
  | cs => takeDigits 1 0 cs

/-- A text without a sign in front. -/
def dropSign : List Char → List Char
  | '+' :: cs | '-' :: cs => cs
  | cs => cs

/-- Whether a text is an exponent, or nothing. -/
def isExponent : List Char → Bool
  | [] => true
  | e :: cs => (e == 'e' || e == 'E') && !(dropSign cs).isEmpty && (dropSign cs).all isDecimalDigit

/-- Whether a text is digits with at most one point, at least one digit, and an exponent if it has
one. -/
def isNumeral (text : List Char) : Bool :=
  match text.dropWhile isDecimalDigit with
  | '.' :: cs =>
    !(text.takeWhile isDecimalDigit ++ cs.takeWhile isDecimalDigit).isEmpty &&
      isExponent (cs.dropWhile isDecimalDigit)
  | cs => !(text.takeWhile isDecimalDigit).isEmpty && isExponent cs

/-- Whether a text reads as a float: a numeral or a name of what is no number, behind a sign if
there is one. -/
def readsAsFloat (text : List Char) : Bool :=
  isNumeral (dropSign text) ||
    (String.ofList ((dropSign text).map Char.toLower)) ∈ ["inf", "infinity", "nan"]

/-! ## 3. The cursor -/

/-- The offsets cut a stretch out of a text: they are in order, and each is at the beginning of a
character or at the end of the text. -/
def Cuts (text : String) (start stop : Nat) : Prop :=
  start ≤ stop ∧ String.Pos.Raw.IsValid text ⟨start⟩ ∧ String.Pos.Raw.IsValid text ⟨stop⟩

instance (text : String) (start stop : Nat) : Decidable (Cuts text start stop) :=
  inferInstanceAs (Decidable (_ ∧ _))

/-- The text between two offsets. -/
def slice (text : String) (start stop : Nat) : Guarded String := do
  demand (Cuts text start stop) .cut
  return String.Pos.Raw.extract text ⟨start⟩ ⟨stop⟩

/-- The character so many characters ahead.  It must be possible to cut off the text ahead, also
where bytes would tell. -/
def charAhead (c : Cursor) (n : Nat) : Guarded Char := do
  let _ ← slice c.source c.current c.source.utf8ByteSize
  return c.charAhead n

/-- The next character. -/
def peek (c : Cursor) : Guarded Char := charAhead c 0

/-- The character behind the next one. -/
def peekNext (c : Cursor) : Guarded Char := charAhead c 1

/-- Step over the next character; at the end, stay. -/
def advance (c : Cursor) : Guarded (Char × Cursor) := do
  if c.atEnd then
    return (Cursor.endMark, c)
  else
    demand (c.current < c.source.utf8ByteSize) .byte
    let _ ← slice c.source c.current c.source.utf8ByteSize
    demand (c.advance.2.current = c.current + (c.charAt c.current).utf8Size) .stride
    return c.advance

/-- Step over the next character if it is `expected`, and tell whether it was. -/
def stepOver (c : Cursor) (expected : Char) : Guarded (Bool × Cursor) := do
  if c.atEnd then
    return (false, c)
  else if (← peek c) != expected then
    return (false, c)
  else
    demand (expected.utf8Size = (c.charAt c.current).utf8Size) .stride
    return (true, { c with current := c.current + expected.utf8Size })

/-- The text from the mark to the place. -/
def lexeme (c : Cursor) : Guarded String := slice c.source c.start c.current

/-- Line numbers are below this. -/
def lineLimit : Nat := 0x100000000

/-- Go on to the next line number. -/
def newLine (c : Cursor) : Guarded Cursor := do
  demand (c.line + 1 < lineLimit) .line
  return c.newLine

/-- Step over characters as long as `go` says so. -/
def stepWhile (go : Cursor → Guarded Bool) (c : Cursor) : Guarded Cursor := do
  if ← go c then
    let (_, d) ← advance c
    if _ : d.remaining < c.remaining then stepWhile go d else throw .stuck
  else
    return c
termination_by c.remaining

/-- Whether the next character is of a class. -/
def sees (p : Char → Bool) (c : Cursor) : Guarded Bool := return p (← peek c)

/-- Whether there is a next character, and it is of a class. -/
def meets (p : Char → Bool) (c : Cursor) : Guarded Bool := do
  if c.atEnd then return false else return p (← peek c)

/-- Whether the next two characters end a block comment. -/
def seesClose (c : Cursor) : Guarded Bool := do
  if (← peek c) == '*' then return (← peekNext c) == '/' else return false

/-- Count a line if the character stepped over ends one. -/
def countLine (x : Char) (c : Cursor) : Guarded Cursor :=
  if x == '\n' then newLine c else return c

/-- Step over a block comment up to and including its end, counting lines; the flag says whether
there was an end. -/
def eatComment (c : Cursor) : Guarded (Cursor × Bool) := do
  if c.atEnd then
    return (c, false)
  else if ← seesClose c then
    let (_, d) ← advance c
    let (_, d) ← advance d
    return (d, true)
  else
    let (x, d) ← advance c
    let d ← countLine x d
    if _ : d.remaining < c.remaining then eatComment d else throw .stuck
termination_by c.remaining

/-! ## 4. Pieces, by their first character -/

/-- The text between the mark and the cursor is a token. -/
def emit (s : Scanner) (kind : Kind) (literal : Option Literal) : Guarded Scanner := do
  demand (kind.hasLiteral = literal.isSome) .literal
  demand (s.cursor.start ≤ s.cursor.current) .span
  let text ← lexeme s.cursor
  return { s with
    tokens := s.tokens.push
      ⟨kind, text, literal, ⟨s.cursor.start, s.cursor.current, s.startLine⟩⟩ }

/-- An operator that a second character can make longer. -/
def readPair (s : Scanner) (p : Pair) : Guarded Scanner := do
  let (long, c) ← stepOver s.cursor p.second
  emit (s.moved c) (if long then p.long else p.short) none

/-- The digits behind a point. -/
def readFraction (s : Scanner) : Guarded Scanner := do
  let s := s.moved (← stepWhile (sees isDecimalDigit) s.cursor)
  if (← peek s.cursor) == '.' then
    return s.report .malformedFloat
  else
    let text ← lexeme s.cursor
    demand (readsAsFloat text.toList = true) .float
    emit s .float (some (.float (Scanner.fractionValue text)))

/-- What a run of digits is: an integer, unless it is out of range. -/
def settleInteger (s : Scanner) (text : String) : Guarded Scanner :=
  match parseInteger text.toList with
  | .ok value => emit s .int (some (.int value))
  | .error .tooLarge | .error .tooSmall => return s.report .integerOverflow
  | .error .empty | .error .invalidDigit => throw .integer

/-- Whether a run of digits goes on as a fraction. -/
def seesFraction (c : Cursor) : Guarded Bool := do
  if (← peek c) == '.' then return isDecimalDigit (← peekNext c) else return false

/-- A number. -/
def readNumber (s : Scanner) : Guarded Scanner := do
  let s := s.moved (← stepWhile (sees isDecimalDigit) s.cursor)
  if ← seesFraction s.cursor then
    let (_, c) ← advance s.cursor
    readFraction (s.moved c)
  else
    settleInteger s (← lexeme s.cursor)

/-- What a point opens. -/
def readPoint (s : Scanner) : Guarded Scanner := do
  if isDecimalDigit (← peek s.cursor) then readFraction s else emit s .dot none

/-- What a slash opens. -/
def readSlash (s : Scanner) : Guarded Scanner := do
  match ← stepOver s.cursor '*' with
  | (false, c) => emit (s.moved c) .slash none
  | (true, c) =>
    match ← eatComment c with
    | (c, true) => return s.moved c
    | (c, false) => return (s.moved c).reportAt s.startLine .unfinishedComment

/-- A text stands in quotes: it has two bytes or more, and the first and the last of them are the
quote, which has one byte. -/
def StandsIn (quote : Char) (text : String) : Prop :=
  2 ≤ text.utf8ByteSize ∧ (Cursor.ofString text).asciiAt? 0 = some quote ∧
    (Cursor.ofString text).asciiAt? (text.utf8ByteSize - 1) = some quote

instance (quote : Char) (text : String) : Decidable (StandsIn quote text) :=
  inferInstanceAs (Decidable (_ ∧ _))

/-- A text without its quotes. -/
def unquoted (quote : Char) (text : String) : Guarded String := do
  demand (StandsIn quote text) .quotes
  slice text 1 (text.utf8ByteSize - 1)

/-- Whether a string breaks off here: at the end of the text, or before a line feed. -/
def breaksOff (c : Cursor) : Guarded Bool := do
  if c.atEnd then return true else return (← peek c) == '\n'

/-- A string with the quote `q`. -/
def readString (s : Scanner) (q : Char) : Guarded Scanner := do
  let s := s.moved (← stepWhile (meets (isInside q)) s.cursor)
  if ← breaksOff s.cursor then
    let s := s.report .unfinishedString
    match ← stepOver s.cursor '\n' with
    | (true, c) => return s.moved (← newLine c)
    | (false, c) => return s.moved c
  else
    let (_, c) ← advance s.cursor
    let value ← unquoted q (← lexeme c)
    emit (s.moved c) .string (some (.str value))

/-- A word. -/
def readWord (s : Scanner) : Guarded Scanner := do
  let s := s.moved (← stepWhile (sees isWordPart) s.cursor)
  emit s (Kind.ofWord (← lexeme s.cursor)) none

/-- What the character `c` opens. -/
def readPiece (s : Scanner) (c : Char) : Guarded Scanner :=
  match lone? c with
  | some kind => emit s kind none
  | none =>
    match pair? c with
    | some p => readPair s p
    | none =>
      if c = '.' then readPoint s
      else if c = '/' then readSlash s
      else if c = '#' then return s.moved (← stepWhile (meets (· != '\n')) s.cursor)
      else if c = '"' ∨ c = '\'' then readString s c
      else if c = '\n' then return s.moved (← newLine s.cursor)
      else if isBlank c then return s
      else if isDecimalDigit c then readNumber s
      else if isWordStart c then readWord s
      else return s.report (.unexpectedCharacter c)

/-! ## 5. Turns -/

/-- One turn: take the piece that the next character opens. -/
def step (s : Scanner) : Guarded Scanner := do
  let (x, c) ← advance s.mark.cursor
  readPiece (s.mark.moved c) x

/-- Turn until the text is used up. -/
def loop (s : Scanner) : Guarded Scanner := do
  if s.cursor.atEnd then
    return s
  else
    let t ← step s
    if _ : t.cursor.remaining < s.cursor.remaining then loop t else throw .stuck
termination_by s.cursor.remaining

/-- Scan a whole text, reporting to a collector. -/
def run (source : String) (sink : Collector) : Guarded Scanner :=
  return (← loop (Scanner.start source sink)).finish

end Guarded

end CpScan
