/-
# Characters, line ends, strings and keys of TOML

A reader takes a value off the front of a text and gives it with the text behind it, or nothing
if the text does not start with one.

A document has spaces and tabs between its parts, line feeds (or carriage returns directly
before line feeds) between its lines, and comments from `#` to the end of a line.  No other
control character may stand anywhere, not even in a comment; a tab may.

Strings come in four forms.  Basic strings, in double quotes, know escapes; literal strings, in
single quotes, do not.  Both have a form in triple quotes that goes over several lines: a line
end right behind the opening quotes is left out, a carriage return before a line feed is left
out, and one or two more quotes may stand before the closing ones.  In the basic form, a
backslash at the end of a line takes away the line end and all blanks that follow.
-/

namespace CpScan.Toml

/-- A reader of values at the front of a text. -/
abbrev Reader (α : Type) := List Char → Option (α × List Char)

/-! ## 1. Blanks, comments and line ends -/

/-- A blank inside a line. -/
def isSpace (c : Char) : Bool := c == ' ' || c == '\t'

/-- A character that may stand in a comment, or for itself in a string: a tab, or any character
that is not an ASCII control character. -/
def isText (c : Char) : Bool := c == '\t' || (0x20 ≤ c.toNat && c.toNat != 0x7F)

/-- The text behind the blanks at its front. -/
def dropSpaces (cs : List Char) : List Char := cs.dropWhile isSpace

/-- The text behind the line end at its front. -/
def newline? : List Char → Option (List Char)
  | '\n' :: rest => some rest
  | '\r' :: '\n' :: rest => some rest
  | _ => none

/-- The text behind the line end at its front, if there is one. -/
def dropNewline (cs : List Char) : List Char := (newline? cs).getD cs

/-- The text behind the rest of a line: blanks, maybe a comment, and the end of the line or of the
document. -/
def lineEnd? (cs : List Char) : Option (List Char) :=
  let rest := match dropSpaces cs with
    | '#' :: comment => comment.dropWhile isText
    | rest => rest
  match rest with
  | [] => some []
  | rest => newline? rest

/-- The text behind blanks, line ends and comments, as they may stand between the items of an
array.  With `comment` set, the text starts inside a comment. -/
def dropFill (comment : Bool) : List Char → Option (List Char)
  | [] => some []
  | '\r' :: '\n' :: rest => dropFill false rest
  | c :: rest =>
    if c == '\n' then dropFill false rest
    else if comment then (if isText c then dropFill true rest else none)
    else if isSpace c then dropFill false rest
    else if c == '#' then dropFill true rest
    else some (c :: rest)

/-! ## 2. Escapes -/

/-- The value of a hexadecimal digit. -/
def hexValue? (c : Char) : Option Nat :=
  if c.isDigit then some (c.toNat - '0'.toNat)
  else if 'a' ≤ c ∧ c ≤ 'f' then some (c.toNat - 'a'.toNat + 10)
  else if 'A' ≤ c ∧ c ≤ 'F' then some (c.toNat - 'A'.toNat + 10)
  else none

/-- The number that hexadecimal digits denote. -/
def hexNumber? (digits : List Char) : Option Nat :=
  digits.foldlM (fun n c => (hexValue? c).map (16 * n + ·)) 0

/-- The character with a code point given by hexadecimal digits; surrogates and numbers past the
last code point have none. -/
def codePoint? (digits : List Char) : Option Char :=
  (hexNumber? digits).bind fun n => if n.isValidChar then some (Char.ofNat n) else none

/-- The character that one character behind a backslash stands for. -/
def letterEscape? : Char → Option Char
  | 'b' => some '\x08'
  | 't' => some '\t'
  | 'n' => some '\n'
  | 'f' => some '\x0c'
  | 'r' => some '\r'
  | '"' => some '"'
  | '\\' => some '\\'
  | _ => none

/-! ## 3. Strings -/

/-- The body of a basic string, behind its opening quote; `done` has the characters read, the last
first. -/
def basicBody (done : List Char) : Reader (List Char)
  | [] => none
  | '"' :: rest => some (done.reverse, rest)
  | '\\' :: 'u' :: a :: b :: c :: d :: rest =>
    match codePoint? [a, b, c, d] with
    | some x => basicBody (x :: done) rest
    | none => none
  | '\\' :: 'U' :: a :: b :: c :: d :: e :: f :: g :: h :: rest =>
    match codePoint? [a, b, c, d, e, f, g, h] with
    | some x => basicBody (x :: done) rest
    | none => none
  | '\\' :: e :: rest =>
    match letterEscape? e with
    | some x => basicBody (x :: done) rest
    | none => none
  | c :: rest => if isText c && c != '\\' then basicBody (c :: done) rest else none

/-- The end of a string in triple quotes `q`, behind three of them: up to two more belong to the
string. -/
def closeTriple (q : Char) (done : List Char) : List Char → List Char × List Char
  | a :: b :: rest =>
    if a = q then
      if b = q then ((q :: q :: done).reverse, rest) else ((q :: done).reverse, b :: rest)
    else (done.reverse, a :: b :: rest)
  | [a] => if a = q then ((q :: done).reverse, []) else (done.reverse, [a])
  | [] => (done.reverse, [])

/-- Whether a backslash before this text stands at the end of its line. -/
def atLineEnd (cs : List Char) : Bool := (newline? (dropSpaces cs)).isSome

/-- The body of a basic string in triple quotes.  With `skip` set, blanks and line ends at the front
of the text are left out. -/
def longBasicBody (skip : Bool) (done : List Char) : Reader (List Char)
  | [] => none
  | '"' :: '"' :: '"' :: rest => some (closeTriple '"' done rest)
  | '\\' :: 'u' :: a :: b :: c :: d :: rest =>
    match codePoint? [a, b, c, d] with
    | some x => longBasicBody false (x :: done) rest
    | none => none
  | '\\' :: 'U' :: a :: b :: c :: d :: e :: f :: g :: h :: rest =>
    match codePoint? [a, b, c, d, e, f, g, h] with
    | some x => longBasicBody false (x :: done) rest
    | none => none
  | '\\' :: e :: rest =>
    match letterEscape? e with
    | some x => longBasicBody false (x :: done) rest
    | none => if atLineEnd (e :: rest) then longBasicBody true done (e :: rest) else none
  | '\r' :: '\n' :: rest => longBasicBody skip (if skip then done else '\n' :: done) rest
  | c :: rest =>
    if skip && (isSpace c || c == '\n') then longBasicBody true done rest
    else if c == '\n' || (isText c && c != '\\') then longBasicBody false (c :: done) rest
    else none

/-- The body of a literal string, behind its opening quote. -/
def literalBody (cs : List Char) : Option (List Char × List Char) :=
  let inside (c : Char) : Bool := isText c && c != '\''
  match cs.dropWhile inside with
  | '\'' :: rest => some (cs.takeWhile inside, rest)
  | _ => none

/-- The body of a literal string in triple quotes. -/
def longLiteralBody (done : List Char) : Reader (List Char)
  | [] => none
  | '\'' :: '\'' :: '\'' :: rest => some (closeTriple '\'' done rest)
  | '\r' :: '\n' :: rest => longLiteralBody ('\n' :: done) rest
  | c :: rest => if c == '\n' || isText c then longLiteralBody (c :: done) rest else none

/-- A string in any of its forms. -/
def readString : Reader String
  | '"' :: '"' :: '"' :: rest => packed (longBasicBody false [] (dropNewline rest))
  | '"' :: rest => packed (basicBody [] rest)
  | '\'' :: '\'' :: '\'' :: rest => packed (longLiteralBody [] (dropNewline rest))
  | '\'' :: rest => packed (literalBody rest)
  | _ => none
where
  /-- The characters read, as a string. -/
  packed (r : Option (List Char × List Char)) : Option (String × List Char) :=
    r.map fun (text, rest) => (String.ofList text, rest)

/-! ## 4. Keys -/

/-- A character of a key without quotes. -/
def isBareKey (c : Char) : Bool := c.isAlphanum || c == '-' || c == '_'

/-- A key without dots: bare, or a string on one line. -/
def readSimpleKey : Reader String
  | '"' :: rest => (basicBody [] rest).map fun (text, rest) => (String.ofList text, rest)
  | '\'' :: rest => (literalBody rest).map fun (text, rest) => (String.ofList text, rest)
  | cs =>
    match cs.takeWhile isBareKey with
    | [] => none
    | word => some (String.ofList word, cs.dropWhile isBareKey)

/-- A key: the keys on the way, and the last one. -/
structure Key where
  parents : List String
  last : String
deriving DecidableEq, Repr

/-- How deep values may be nested, and how many parts a key may have: fewer than this. -/
def depthLimit : Nat := 80

/-- Keys divided by dots, with blanks around each; `done` has the keys before, the last first, and
at most so many may still follow. -/
def readKeyParts (done : List String) : Nat → Reader Key
  | 0, _ => none
  | limit + 1, cs =>
    match readSimpleKey (dropSpaces cs) with
    | none => none
    | some (part, rest) =>
      match dropSpaces rest with
      | '.' :: rest => readKeyParts (part :: done) limit rest
      | rest => some (⟨done.reverse, part⟩, rest)

/-- A dotted key, with the blanks around it. -/
def readKey : Reader Key := readKeyParts [] (depthLimit - 1)

end CpScan.Toml
