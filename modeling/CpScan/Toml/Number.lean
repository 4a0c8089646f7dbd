/-
# Numbers and dates of TOML

Integers are written in decimal with an optional sign and no leading zero, or in hexadecimal,
octal or binary behind `0x`, `0o` or `0b`; an underscore may stand between two digits, and the
value must fit in 64 bits with a sign.  Floats have a fraction, an exponent or both, or are `inf`
or `nan` with an optional sign; a float too large for binary64 is refused, though not a negative
one.  Dates and times are those of the calendar: four digits of year, a month, a day that the
month has, and a time with seconds, possibly with a fraction and an offset.
-/
import CpScan.Text.CharClass
import CpScan.Toml.Reader
import CpScan.Toml.Value

namespace CpScan.Toml

/-! ## 1. Digits -/

/-- Digits behind a first one, with single underscores between them; `done` has the digits read,
the last first. -/
def moreDigits (isDigit : Char → Bool) (done : List Char) : Reader (List Char)
  | [] => some (done.reverse, [])
  | '_' :: c :: rest => if isDigit c then moreDigits isDigit (c :: done) rest else none
  | c :: rest =>
    if isDigit c then moreDigits isDigit (c :: done) rest
    else if c == '_' then none
    else some (done.reverse, c :: rest)

/-- One digit or more, with single underscores between them. -/
def readDigits (isDigit : Char → Bool) : Reader (List Char)
  | c :: rest => if isDigit c then moreDigits isDigit [c] rest else none
  | [] => none

/-- The digits of a decimal integer: a zero by itself, or digits that start with none. -/
def readWhole : Reader (List Char)
  | '0' :: rest => some (['0'], rest)
  | cs => readDigits Char.isDigit cs

/-! ## 2. Integers -/

/-- Whether an integer fits in 64 bits with a sign. -/
def fitsInteger (n : Int) : Bool := -0x8000000000000000 ≤ n && n ≤ 0x7FFFFFFFFFFFFFFF

/-- An integer in the base `base`, behind the letters that tell the base. -/
def readBase (base : Nat) (cs : List Char) : Option (Value × List Char) :=
  let isDigit (c : Char) : Bool := (hexValue? c).any (· < base)
  match readDigits isDigit cs with
  | none => none
  | some (digits, rest) =>
    let n : Nat := digits.foldl (fun n c => base * n + (hexValue? c).getD 0) 0
    if fitsInteger n then some (.integer n, rest) else none

/-! ## 3. Floats -/

/-- Whether the decimal `digits * 10 ^ e` is too large for a finite binary64 number.  Beyond the two
bounds on the exponent the answer does not depend on the digits. -/
def overflows (digits : List Char) (e : Int) : Bool :=
  let n := digitsValue digits
  if n = 0 ∨ e + digits.length ≤ 0 then false
  else if 400 ≤ e then true
  else (Nat.pow 2 1024 - Nat.pow 2 970) * Nat.pow 10 (-e).toNat ≤ n * Nat.pow 10 e.toNat

/-- The fraction of a float, without its point; none if there is no point. -/
def readFraction : Reader (Option (List Char))
  | '.' :: cs => (readDigits Char.isDigit cs).map fun (digits, rest) => (some digits, rest)
  | cs => some (none, cs)

/-- The exponent of a float; none if there is none. -/
def readExponent : Reader (Option Int)
  | 'e' :: cs => signed cs
  | 'E' :: cs => signed cs
  | cs => some (none, cs)
where
  /-- An exponent with an optional sign. -/
  signed : Reader (Option Int)
    | '-' :: cs => digits (-1) cs
    | '+' :: cs => digits 1 cs
    | cs => digits 1 cs
  /-- The digits of an exponent. -/
  digits (sign : Int) (cs : List Char) : Option (Option Int × List Char) :=
    (readDigits Char.isDigit cs).map fun (ds, rest) => (some (sign * digitsValue ds), rest)

/-- The text between a place and a later one. -/
def written (cs rest : List Char) : String := String.ofList (cs.take (cs.length - rest.length))

/-- A decimal number behind its sign, if it has one; `cs` is the text with the sign. -/
def readDecimal (negative : Bool) (cs unsigned : List Char) : Option (Value × List Char) := do
  let (whole, rest) ← readWhole unsigned
  let (fraction, rest) ← readFraction rest
  let (exponent, rest) ← readExponent rest
  match fraction, exponent with
  | none, none =>
    let n : Int := digitsValue whole
    let n := if negative then -n else n
    if fitsInteger n then some (.integer n, rest) else none
  | _, _ =>
    let fraction := fraction.getD []
    if !negative && overflows (whole ++ fraction) (exponent.getD 0 - fraction.length) then none
    else some (.float (written cs rest), rest)

/-- A number behind an optional sign. -/
def readSigned (negative : Bool) (cs unsigned : List Char) : Option (Value × List Char) :=
  match unsigned with
  | 'i' :: 'n' :: 'f' :: rest => some (.float (written cs rest), rest)
  | 'n' :: 'a' :: 'n' :: rest => some (.float (written cs rest), rest)
  | _ => readDecimal negative cs unsigned

/-- A number. -/
def readNumber : Reader Value
  | '0' :: 'x' :: rest => readBase 16 rest
  | '0' :: 'o' :: rest => readBase 8 rest
  | '0' :: 'b' :: rest => readBase 2 rest
  | '-' :: rest => readSigned true ('-' :: rest) rest
  | '+' :: rest => readSigned false ('+' :: rest) rest
  | cs => readSigned false cs cs

/-! ## 4. Dates and times -/

/-- A number of two digits, within bounds. -/
def readTwo (low high : Nat) : Reader Nat
  | a :: b :: rest =>
    let n := digitsValue [a, b]
    if a.isDigit && b.isDigit && low ≤ n && n ≤ high then some (n, rest) else none
  | _ => none

/-- The text behind one certain character. -/
def expect (x : Char) : List Char → Option (List Char)
  | c :: rest => if c = x then some rest else none
  | [] => none

/-- The number of days in a month. -/
def daysIn (year month : Nat) : Nat :=
  if month = 2 then
    if year % 4 = 0 ∧ (year % 100 ≠ 0 ∨ year % 400 = 0) then 29 else 28
  else if month = 4 ∨ month = 6 ∨ month = 9 ∨ month = 11 then 30
  else 31

/-- The text behind a month and a day. -/
def dropMonthDay (year : Nat) (cs : List Char) : Option (List Char) := do
  let (month, rest) ← readTwo 1 12 cs
  let rest ← expect '-' rest
  let (_, rest) ← readTwo 1 (daysIn year month) rest
  return rest

/-- The text behind the fraction of a second, if there is one. -/
def dropSecondFraction : List Char → Option (List Char)
  | '.' :: c :: rest => if c.isDigit then some (rest.dropWhile Char.isDigit) else none
  | cs => some cs

/-- The text behind a time of day. -/
def dropTime (cs : List Char) : Option (List Char) := do
  let (_, rest) ← readTwo 0 23 cs
  let rest ← expect ':' rest
  let (_, rest) ← readTwo 0 59 rest
  let rest ← expect ':' rest
  let (_, rest) ← readTwo 0 60 rest
  dropSecondFraction rest

/-- The text behind an offset from universal time, if there is one. -/
def dropOffset : List Char → Option (List Char)
  | 'Z' :: rest => some rest
  | 'z' :: rest => some rest
  | '+' :: rest => dropClock rest
  | '-' :: rest => dropClock rest
  | cs => some cs
where
  /-- The text behind hours and minutes. -/
  dropClock (cs : List Char) : Option (List Char) := do
    let (_, rest) ← readTwo 0 23 cs
    let rest ← expect ':' rest
    let (_, rest) ← readTwo 0 59 rest
    return rest

/-- The text behind the time that may follow a date. -/
def dropTimeBehindDate : List Char → Option (List Char)
  | d :: a :: b :: ':' :: rest =>
    if (d == 'T' || d == 't' || d == ' ') && a.isDigit && b.isDigit then
      (dropTime (a :: b :: ':' :: rest)).bind dropOffset
    else some (d :: a :: b :: ':' :: rest)
  | cs => some cs

/-- A date, a time or both, or else a number: four digits and a hyphen tell a date, two digits and
a colon a time. -/
def readMomentOrNumber (cs : List Char) : Option (Value × List Char) :=
  match cs with
  | a :: b :: ':' :: _ =>
    if a.isDigit && b.isDigit then stamp (dropTime cs) else readNumber cs
  | a :: b :: c :: d :: '-' :: rest =>
    if [a, b, c, d].all Char.isDigit then
      stamp ((dropMonthDay (digitsValue [a, b, c, d]) rest).bind dropTimeBehindDate)
    else readNumber cs
  | _ => readNumber cs
where
  /-- The date or time in front of the text left. -/
  stamp (rest : Option (List Char)) : Option (Value × List Char) :=
    rest.map fun rest => (.moment (written cs rest), rest)

end CpScan.Toml
