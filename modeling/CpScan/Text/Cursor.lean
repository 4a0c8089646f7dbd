/-
# A cursor over UTF-8 text

A cursor walks a text by byte offsets.  It has a mark, where the lexeme in hand began, a place,
where the next character is, and a line number that is only ever moved by hand (`newLine`).
Offsets are always on character boundaries, and the mark is never behind the place.

Looking past the end of the text gives U+0000, and so does stepping there; `atEnd` tells the end
of the text from a U+0000 that is in it.

Most source text is ASCII, where a byte is a character (`asciiAt?`); only where a byte is not of
ASCII is a character decoded (`charAt`).
-/

namespace CpScan

/-- A place in a text, with a mark behind it. -/
structure Cursor where
  source : String
  /-- Byte offset of the mark. -/
  start : Nat
  /-- Byte offset of the next character. -/
  current : Nat
  line : Nat
deriving Repr

namespace Cursor

/-- A cursor at the beginning of a text, on line one. -/
def ofString (source : String) : Cursor := ⟨source, 0, 0, 1⟩

/-- Whether no character is left. -/
def atEnd (c : Cursor) : Bool := c.source.utf8ByteSize ≤ c.current

/-- The character that stands for the end of the text. -/
def endMark : Char := '\x00'

/-- The character at a byte offset, or the end mark past the end. -/
def charAt (c : Cursor) (offset : Nat) : Char :=
  if c.source.utf8ByteSize ≤ offset then endMark else String.Pos.Raw.get c.source ⟨offset⟩

/-- The byte at an offset as a character, if it is one of ASCII. -/
def asciiAt? (c : Cursor) (offset : Nat) : Option Char :=
  if h : (⟨offset⟩ : String.Pos.Raw) < c.source.rawEndPos then
    let byte := c.source.getUTF8Byte ⟨offset⟩ h
    if byte < 0x80 then some (Char.ofNat byte.toNat) else none
  else none

/-- The byte so many bytes behind an offset as a character, if it and all bytes before it are of
ASCII. -/
def asciiAhead? (c : Cursor) (offset : Nat) : Nat → Option Char
  | 0 => c.asciiAt? offset
  | n + 1 => (c.asciiAt? offset).bind fun _ => c.asciiAhead? (offset + 1) n

/-- The character so many characters behind the one at an offset, or the end mark. -/
def decodeAhead (c : Cursor) (offset : Nat) : Nat → Char
  | 0 => c.charAt offset
  | n + 1 =>
    if c.source.utf8ByteSize ≤ offset then endMark
    else c.decodeAhead (offset + (c.charAt offset).utf8Size) n

/-- The character so many characters ahead, which takes no decoding where there is only ASCII up to
it. -/
def charAhead (c : Cursor) (n : Nat) : Char :=
  match c.asciiAhead? c.current n with
  | some x => x
  | none => c.decodeAhead c.current n

/-- The next character. -/
def peek (c : Cursor) : Char := c.charAhead 0

/-- The character behind the next one. -/
def peekNext (c : Cursor) : Char := c.charAhead 1

/-- Step over the next character; at the end, stay. -/
def advance (c : Cursor) : Char × Cursor :=
  if c.atEnd then (endMark, c)
  else
    match c.asciiAt? c.current with
    | some x => (x, { c with current := c.current + 1 })
    | none =>
      let x := c.charAt c.current
      (x, { c with current := c.current + x.utf8Size })

/-- Step over the next character if it is `expected`, and tell whether it was. -/
def stepOver (c : Cursor) (expected : Char) : Bool × Cursor :=
  if c.atEnd || c.peek != expected then (false, c)
  else (true, { c with current := c.current + expected.utf8Size })

/-- Put the mark at the next character. -/
def mark (c : Cursor) : Cursor := { c with start := c.current }

/-- Go on to the next line number. -/
def newLine (c : Cursor) : Cursor := { c with line := c.line + 1 }

/-- The text from the mark to the place. -/
def lexeme (c : Cursor) : String := String.Pos.Raw.extract c.source ⟨c.start⟩ ⟨c.current⟩

end Cursor

end CpScan
