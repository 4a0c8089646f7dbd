/-
# Character classes of Cp source text

Cp is classified on ASCII.  A word is `[A-Za-z_][A-Za-z0-9_]*`, a number is written with the
decimal digits `0` to `9`, and the blanks between tokens are the space, the tab and the
carriage return.  The line feed is in none of these classes: it separates lines, so the
scanner names it on its own.

Core's `Char.isAlpha`, `Char.isAlphanum` and `Char.isDigit` know ASCII only, which is exactly
what the language asks for: no letter or digit outside ASCII is ever in a class below.
-/

namespace CpScan

/-- A character that can open a word: an ASCII letter or the underscore. -/
def isWordStart (c : Char) : Bool := c.isAlpha || c == '_'

/-- A character that can continue a word: an ASCII letter, an ASCII digit or the underscore. -/
def isWordPart (c : Char) : Bool := c.isAlphanum || c == '_'

/-- A decimal digit, `0` to `9`. -/
def isDecimalDigit (c : Char) : Bool := c.isDigit

/-- A blank other than a line feed: space, tab or carriage return. -/
def isBlank (c : Char) : Bool := c == ' ' || c == '\t' || c == '\r'

/-- The number a decimal digit stands for. -/
def digitValue (c : Char) : Nat := c.toNat - '0'.toNat

/-- The number that a run of decimal digits denotes; the empty run denotes zero. -/
def digitsValue (digits : List Char) : Nat := digits.foldl (fun n c => 10 * n + digitValue c) 0

end CpScan
