/-
# Lexical errors

The five ways a piece of source text can be malformed.  An error never stops a scan: it is
reported with the line of the piece, and scanning goes on behind it.
-/

namespace CpScan

/-- What is wrong with a malformed piece of source text. -/
inductive LexicalError where
  /-- A character that opens no piece. -/
  | unexpectedCharacter (c : Char)
  /-- A string cut off by a line feed or by the end of the text. -/
  | unfinishedString
  /-- A block comment that is never closed. -/
  | unfinishedComment
  /-- A decimal fraction with another point right behind it. -/
  | malformedFloat
  /-- A run of digits too large for a 64-bit signed integer. -/
  | integerOverflow
deriving DecidableEq, Repr, Inhabited

namespace LexicalError

/-- The wording of an error. -/
def message : LexicalError → String
  | unexpectedCharacter c => "unexpected character '" ++ String.singleton c ++ "'"
  | unfinishedString => "Unfinished string"
  | unfinishedComment => "unfinished multiline comment"
  | malformedFloat => "unexpected leading '.' in float"
  | integerOverflow => "integer literal out of range"

end LexicalError

end CpScan
