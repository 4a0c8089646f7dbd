/-
# Text in quotes

Where the log shows a text as a value, the text stands in double quotes on one line.  The quote
and the backslash are written behind a backslash, the tab, the line feed, the carriage return
and U+0000 by a letter or digit behind one, and every other character that is not graphic by its
code point, as in `\u{301}`.
-/
import CpScan.Text.Graphic

namespace CpScan.Text

/-- A character as it stands between the quotes. -/
def quotedChar (c : Char) : List Char :=
  if c = '\x00' then ['\\', '0']
  else if c = '\t' then ['\\', 't']
  else if c = '\r' then ['\\', 'r']
  else if c = '\n' then ['\\', 'n']
  else if c = '"' then ['\\', '"']
  else if c = '\\' then ['\\', '\\']
  else if isGraphic c then [c]
  else '\\' :: 'u' :: '\x7b' :: (Nat.toDigits 16 c.toNat ++ ['\x7d'])

/-- A text in double quotes. -/
def quoted (text : String) : String :=
  String.ofList ('"' :: (text.toList.flatMap quotedChar ++ ['"']))

end CpScan.Text
