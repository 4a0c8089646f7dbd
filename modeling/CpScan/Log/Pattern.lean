/-
# Patterns for values

A directive of a log filter may ask for the content of a value: a number, or a pattern, which is a
regular expression.  No value is ever compared with one, because no event takes place in a span;
what is asked of a pattern is only whether it is one (`Pattern.isWellFormed`).

A pattern is read from left to right, with what is known on the way in a `Pattern.Reading`: the
groups that are open with their flags, and whether something stands before the next character that
can be repeated.  It is built of

    characters           a  .  ^  $
    escapes              \n  \.  \x41  \u00e9  \d  \b
    sets                 [a-z]  [^a]  [[:alpha:]&&[^x]]
    groups               (a)  (?:a)  (?<name>a)  (?i)  (?i-u:a)
    repetitions          a*  a+  a?  a*?
    alternatives         a|b

Repetitions by numbers, and escapes by numbers or names in braces, do not occur: a brace that closes
ends the value.  Patterns match whole characters and are matched without the tables of Unicode.  So
a set such as `\d`, the edge of a word and the flag `i` on anything with letters need the flag `-u`,
under which in turn nothing may match a part of a character.

A pattern has a depth: groups, sets and repetitions are one deeper than what they hold, and so are
things side by side (`Row`).  It is at most `deepest`.
-/
import CpScan.Text.Alphanumeric

namespace CpScan.Pattern

/-! ## 1. Depth -/

/-- The greatest depth of a pattern. -/
def deepest : Nat := 250

/-- Things side by side: how many there are, and the depth of the deepest. -/
structure Row where
  count : Nat := 0
  depth : Nat := 0
deriving DecidableEq, Repr, Inhabited

namespace Row

/-- One more thing of this depth. -/
def add (r : Row) (depth : Nat) : Row := ⟨r.count + 1, max r.depth depth⟩

/-- The depth of all of them together; a thing by itself is no deeper for that. -/
def total (r : Row) : Nat := if r.count ≤ 1 then r.depth else r.depth + 1

end Row

/-! ## 2. Flags and layout -/

/-- The flags that decide what is well formed. -/
structure Flags where
  /-- Whether letters stand for both cases (`i`). -/
  ignoresCase : Bool := false
  /-- Whether characters are those of Unicode (`u`). -/
  unicode : Bool := true
  /-- Whether space and comments may stand in between (`x`). -/
  spaced : Bool := false
deriving DecidableEq, Repr, Inhabited

/-- A pattern without the space and comments in front; a comment ends with its line. -/
def dropLayout : (comment : Bool) → List Char → List Char
  | _, [] => []
  | true, c :: cs => dropLayout (c != '\n') cs
  | false, c :: cs =>
    if c = '#' then dropLayout true cs
    else if Text.isSpace c then dropLayout false cs
    else c :: cs

namespace Flags

/-- A pattern from its next character on that counts. -/
def skip (f : Flags) (cs : List Char) : List Char := if f.spaced then dropLayout false cs else cs

/-- The character that decides whether a hyphen in a set stands for itself: the next one that is no
space.  Of a comment only the mark in front is passed over. -/
def behindHyphen (f : Flags) (cs : List Char) : Option Char :=
  if f.spaced then
    match cs.dropWhile Text.isSpace with
    | '#' :: cs => (cs.dropWhile Text.isSpace).head?
    | cs => cs.head?
  else cs.head?

/-- Whether a character can stand for itself, and for its other case if need be. -/
def admitsLetters (f : Flags) : Bool := !(f.ignoresCase && f.unicode)

/-- The flags after one was turned on or off; the other flags change nothing here. -/
def turn (f : Flags) (flag : Char) (on : Bool) : Flags :=
  match flag with
  | 'i' => { f with ignoresCase := on }
  | 'u' => { f with unicode := on }
  | 'x' => { f with spaced := on }
  | _ => f

/-- Read flags up to a colon or a closing parenthesis, and give this character back with the rest.
No flag comes twice, and a minus sign comes once and before a flag. -/
def read (f : Flags) (seen : List Char) (on : Bool) (dangling : Bool) :
    List Char → Option (Flags × Char × List Char)
  | [] => none
  | c :: cs =>
    if c = ':' ∨ c = ')' then
      if dangling ∨ (c = ')' ∧ seen.isEmpty ∧ on) then none else some (f, c, cs)
    else if c = '-' then
      if on then read f seen false true cs else none
    else if c ∈ ['i', 'm', 's', 'U', 'u', 'R', 'x'] ∧ c ∉ seen then
      read (f.turn c on) (c :: seen) on false cs
    else none

end Flags

/-! ## 3. Escapes -/

/-- What an escape stands for. -/
inductive Escaped where
  | char (c : Char)
  /-- One of several characters. -/
  | set
  /-- A place between characters. -/
  | edge
deriving DecidableEq, Repr

/-- The value of a hexadecimal digit. -/
def hexValue? (c : Char) : Option Nat :=
  if c.isDigit then some (c.toNat - '0'.toNat)
  else if 'a' ≤ c ∧ c ≤ 'f' then some (c.toNat - 'a'.toNat + 10)
  else if 'A' ≤ c ∧ c ≤ 'F' then some (c.toNat - 'A'.toNat + 10)
  else none

/-- Read a number of hexadecimal digits. -/
def readHex (f : Flags) : (digits : Nat) → (value : Nat) → List Char → Option (Nat × List Char)
  | 0, value, cs => some (value, cs)
  | digits + 1, value, cs =>
    match cs with
    | [] => none
    | c :: cs => do readHex f digits (16 * value + (← hexValue? c)) (f.skip cs)

/-- Read a character by its number. -/
def readNumbered (f : Flags) (digits : Nat) (cs : List Char) : Option (Char × List Char) := do
  let (value, cs) ← readHex f digits 0 (f.skip cs)
  if value.isValidChar then some (Char.ofNat value, cs) else none

/-- Whether a character stands for itself behind a backslash: ASCII, but no letter, digit or angle
bracket. -/
def isEscapable (c : Char) : Bool :=
  c.toNat < 0x80 && !c.isAlphanum && c != '<' && c != '>'

/-- Read an escape, from behind the backslash. -/
def readEscape (f : Flags) : List Char → Option (Escaped × List Char)
  | [] => none
  | c :: cs =>
    match c with
    | 'x' => do
      let (c, cs) ← readNumbered f 2 cs
      if f.unicode || c.toNat < 0x80 then some (.char c, cs) else none
    | 'u' => (readNumbered f 4 cs).map fun (c, cs) => (.char c, cs)
    | 'U' => (readNumbered f 8 cs).map fun (c, cs) => (.char c, cs)
    | 'd' | 's' | 'w' => if f.unicode then none else some (.set, cs)
    | 'b' | 'B' | '<' | '>' => if f.unicode then none else some (.edge, cs)
    | 'A' | 'z' => some (.edge, cs)
    | 'a' => some (.char '\x07', cs)
    | 'f' => some (.char '\x0c', cs)
    | 't' => some (.char '\t', cs)
    | 'n' => some (.char '\n', cs)
    | 'r' => some (.char '\r', cs)
    | 'v' => some (.char '\x0b', cs)
    | c => if isEscapable c then some (.char c, cs) else none

/-! ## 4. Sets in brackets -/

/-- The names of sets of ASCII characters. -/
def setNames : List String :=
  ["alnum", "alpha", "ascii", "blank", "cntrl", "digit", "graph", "lower", "print", "punct",
   "space", "upper", "word", "xdigit"]

/-- Read a named set, from behind its opening bracket: whether it is one of all other characters,
and the rest. -/
def readNamed : List Char → Option (Bool × List Char)
  | ':' :: cs =>
    let (other, cs) := match cs with
      | '^' :: cs => (true, cs)
      | _ => (false, cs)
    let name := cs.takeWhile (· != ':')
    match cs.drop name.length with
    | ':' :: ']' :: cs =>
      if setNames.contains (String.ofList name) then some (other, cs) else none
    | _ => none
  | _ => none

/-- What is known of an open set. -/
structure OpenSet where
  /-- The items since the last operator. -/
  items : Row := {}
  /-- The depth of what stands before that operator. -/
  left : Option Nat := none
deriving DecidableEq, Repr, Inhabited

namespace OpenSet

/-- One more item of this depth. -/
def add (s : OpenSet) (depth : Nat) : OpenSet := { s with items := s.items.add depth }

/-- The depth of what the set holds so far. -/
def depth (s : OpenSet) : Nat :=
  match s.left with
  | none => s.items.total
  | some left => max left s.items.total + 1

/-- Behind an operator. -/
def operator (s : OpenSet) : OpenSet := ⟨{}, some s.depth⟩

end OpenSet

/-- Take the hyphens off the front of a set. -/
def takeHyphens (f : Flags) : (fuel : Nat) → OpenSet → List Char → OpenSet × List Char
  | fuel + 1, s, '-' :: cs => takeHyphens f fuel (s.add 0) (f.skip cs)
  | _, s, cs => (s, cs)

/-- Read the front of a set, from behind its opening bracket: a hat if it is one of all other
characters, and what can only stand there for itself, hyphens or a closing bracket. -/
def openSet (f : Flags) (cs : List Char) : Option (OpenSet × List Char) :=
  let cs := f.skip cs
  let hat := cs.head? = some '^'
  let cs := if hat then f.skip cs.tail else cs
  if hat && !f.unicode then none
  else
    let (s, cs) := takeHyphens f cs.length {} cs
    let (s, cs) :=
      if s.items.count = 0 ∧ cs.head? = some ']' then (s.add 0, f.skip cs.tail) else (s, cs)
    if cs.isEmpty || (s.items.count != 0 && !f.admitsLetters) then none else some (s, cs)

/-- Read a character or escape of a set: the character, or nothing for a set. -/
def readItem (f : Flags) : List Char → Option (Option Char × List Char)
  | [] => none
  | '\\' :: cs =>
    match readEscape f cs with
    | some (.char c, cs) => if f.unicode || c.toNat < 0x80 then some (some c, cs) else none
    | some (.set, cs) => some (none, cs)
    | _ => none
  | c :: cs => if f.unicode || c.toNat < 0x80 then some (some c, cs) else none

/-- Read an item of a set, or a range from one character to another that is not before it.  There
is no range where the end of the set or another hyphen is seen behind the hyphen. -/
def readRange (f : Flags) (cs : List Char) : Option (List Char) := do
  let (low, cs) ← readItem f cs
  match f.skip cs with
  | [] => none
  | '-' :: behind =>
    if f.behindHyphen behind = some ']' ∨ f.behindHyphen behind = some '-' then some ('-' :: behind)
    else
      match low, ← readItem f (f.skip behind) with
      | some low, (some high, cs) => if low ≤ high then some cs else none
      | _, _ => none
  | cs => some cs

/-- Read the rest of a set that stands in the sets `outer`: its depth, and what is behind it. -/
def readSet (f : Flags) :
    (fuel : Nat) → (outer : List OpenSet) → OpenSet → List Char → Option (Nat × List Char)
  | 0, _, _, _ => none
  | fuel + 1, outer, s, cs =>
    match f.skip cs with
    | [] => none
    | '[' :: cs =>
      match readNamed cs with
      | some (other, cs) =>
        if !f.admitsLetters || (other && !f.unicode) then none
        else readSet f fuel outer (s.add 0) cs
      | none =>
        match openSet f cs with
        | some (inner, cs) => readSet f fuel (s :: outer) inner cs
        | none => none
    | ']' :: cs =>
      match outer with
      | [] => some (s.depth + 1, cs)
      | s' :: outer => readSet f fuel outer (s'.add (s.depth + 1)) cs
    | '&' :: '&' :: cs | '-' :: '-' :: cs | '~' :: '~' :: cs => readSet f fuel outer s.operator cs
    | cs =>
      match if f.admitsLetters then readRange f cs else none with
      | some cs => readSet f fuel outer (s.add 0) cs
      | none => none

/-! ## 5. Groups -/

/-- Whether a character can be part of the name of a group, and stand first in it. -/
def isNamePart (first : Bool) (c : Char) : Bool :=
  c = '_' ||
    if first then Text.isAlphabetic c
    else c = '.' || c = '[' || c = ']' || Text.isAlphanumeric c

/-- Read the name of a group, and the bracket that ends it. -/
def readName (cs : List Char) : Option (List Char × List Char) :=
  let name := cs.takeWhile (· != '>')
  match name, cs.drop name.length with
  | first :: more, '>' :: cs =>
    if isNamePart true first && more.all (isNamePart false) then some (name, cs) else none
  | _, _ => none

/-- What is known of a group, or of the pattern as a whole. -/
structure Group where
  flags : Flags := {}
  /-- The alternatives that are complete. -/
  alternatives : Row := {}
  /-- What stands in the present one. -/
  items : Row := {}
deriving DecidableEq, Repr, Inhabited

/-- The depth of what a group holds. -/
def Group.depth (g : Group) : Nat := (g.alternatives.add g.items.total).total

/-- What is known of a pattern on the way. -/
structure Reading where
  /-- The innermost group that is open. -/
  group : Group := {}
  /-- The groups around it. -/
  outer : List Group := []
  /-- The names of groups. -/
  names : List (List Char) := []
  /-- The depth of what stands before, if it can be repeated. -/
  last : Option Nat := none
deriving DecidableEq, Repr, Inhabited

namespace Reading

/-- The flags in force. -/
def flags (r : Reading) : Flags := r.group.flags

/-- Behind something of this depth that can be repeated. -/
def item (r : Reading) (depth : Nat) : Reading :=
  { r with group := { r.group with items := r.group.items.add depth }, last := some depth }

/-- Behind a character that stands for itself. -/
def letter (r : Reading) : Option Reading :=
  if r.flags.admitsLetters then some (r.item 0) else none

/-- In a group with flags of its own. -/
def enter (r : Reading) (flags : Flags) : Reading :=
  { r with group := { flags := flags }, outer := r.group :: r.outer, last := none }

/-- Behind the innermost group. -/
def leave (r : Reading) : Option Reading :=
  match r.outer with
  | [] => none
  | group :: outer => some ({ r with group := group, outer := outer }.item (r.group.depth + 1))

/-- At the next alternative. -/
def alternative (r : Reading) : Reading :=
  { r with
    group :=
      { r.group with
        alternatives := r.group.alternatives.add r.group.items.total
        items := {} }
    last := none }

/-- Behind a repetition of what stands before. -/
def repetition (r : Reading) : Option Reading :=
  r.last.map fun depth =>
    let items := r.group.items
    { r with
      group := { r.group with items := { items with depth := max items.depth (depth + 1) } }
      last := some (depth + 1) }

/-- Behind flags for the rest of the group. -/
def setFlags (r : Reading) (flags : Flags) : Reading :=
  { r with group := { r.group with flags := flags, items := r.group.items.add 0 }, last := none }

/-- Read a named group, from its name on. -/
def openNamed (r : Reading) (cs : List Char) : Option (Reading × List Char) := do
  let (name, cs) ← readName cs
  if name ∈ r.names then none
  else some ({ r.enter r.flags with names := name :: r.names }, cs)

/-- Read the front of a group, from behind its opening parenthesis. -/
def openGroup (r : Reading) (cs : List Char) : Option (Reading × List Char) :=
  match r.flags.skip cs with
  | '?' :: 'P' :: '<' :: cs => r.openNamed cs
  | '?' :: '<' :: cs => r.openNamed cs
  | '?' :: cs => do
    let (flags, stop, cs) ← r.flags.read [] true false cs
    if stop = ':' then some (r.enter flags, cs) else some (r.setFlags flags, cs)
  | cs => some (r.enter r.flags, cs)

/-- Read what starts with this character. -/
def step (r : Reading) (c : Char) (cs : List Char) : Option (Reading × List Char) :=
  match c with
  | '(' => r.openGroup cs
  | ')' => r.leave.map fun r => (r, cs)
  | '|' => some (r.alternative, cs)
  | '[' => do
    let (s, cs) ← openSet r.flags cs
    let (depth, cs) ← readSet r.flags (cs.length + 1) [] s cs
    some (r.item depth, cs)
  | '*' | '+' | '?' =>
    r.repetition.map fun r =>
      match cs with
      | '?' :: cs => (r, cs)
      | _ => (r, cs)
  | '\x7b' => none
  | '\\' => do
    match ← readEscape r.flags cs with
    | (.char _, cs) => some (← r.letter, cs)
    | (_, cs) => some (r.item 0, cs)
  | '.' => if r.flags.unicode then some (r.item 0, cs) else none
  | '^' | '$' => some (r.item 0, cs)
  | _ => do some (← r.letter, cs)

end Reading

/-! ## 6. Patterns -/

/-- Whether the rest of a pattern is well formed; each step takes a character at least. -/
def isWellFormedFrom : (fuel : Nat) → Reading → List Char → Bool
  | 0, _, _ => false
  | fuel + 1, r, cs =>
    match r.flags.skip cs with
    | [] => r.outer.isEmpty && r.group.depth ≤ deepest
    | c :: cs =>
      match r.step c cs with
      | some (r, cs) => isWellFormedFrom fuel r cs
      | none => false

/-- Whether a text is a pattern. -/
def isWellFormed (cs : List Char) : Bool := isWellFormedFrom (cs.length + 1) {} cs

/-! ## 7. Numbers -/

/-- A text behind its sign. -/
def unsigned : List Char → List Char
  | '+' :: cs | '-' :: cs => cs
  | cs => cs

/-- Whether a text is an exponent, or nothing. -/
def isExponent : List Char → Bool
  | [] => true
  | 'e' :: cs | 'E' :: cs => !(unsigned cs).isEmpty && (unsigned cs).all Char.isDigit
  | _ => false

/-- Whether a text is a decimal number, or the name of one that has no digits. -/
def isNumber (cs : List Char) : Bool :=
  let cs := unsigned cs
  let whole := cs.takeWhile Char.isDigit
  let rest := cs.drop whole.length
  let places := match rest with
    | '.' :: more => more.takeWhile Char.isDigit
    | _ => []
  let behind := match rest with
    | '.' :: more => more.drop places.length
    | _ => rest
  ["inf", "infinity", "nan"].contains (String.ofList (cs.map Char.toLower)) ||
    (!(whole.isEmpty && places.isEmpty) && isExponent behind)

/-- Whether a text can be asked for as the content of a value. -/
def isContent (cs : List Char) : Bool := isNumber cs || isWellFormed cs

end CpScan.Pattern
