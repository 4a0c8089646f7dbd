/-
# The text of a number

`Double.render` lays the shortest digits of a number out as text.  The decisions of the format
are one record, `Layout.literal`: a value whose first digit stands between four places behind the
point and sixteen before it is written positionally, always with a digit on both sides of the
point; any other is written with an exponent, `1.5e-10`, without a point when there is only one
digit, and without a plus sign.
-/
import CpScan.Decimal.Shortest

namespace CpScan

/-! ## 1. The format -/

/-- The decisions of a number format. -/
structure Layout where
  /-- Least position of the point, counted from the first digit, that is written positionally. -/
  leastPoint : Int
  /-- Greatest such position. -/
  greatestPoint : Int
  /-- The text of an infinity. -/
  infinity : String
  /-- The text of a number that is none. -/
  nan : String

/-- The format of literals: positional from `0.0001` up to below `10 ^ 16`. -/
def Layout.literal : Layout := ⟨-3, 16, "inf", "NaN"⟩

/-! ## 2. Laying digits out -/

namespace Layout

/-- A row of `count` zeros. -/
def zeros (count : Nat) : List Char := List.replicate count '0'

/-- The digits with a point at position `point`, and a digit on both sides of it. -/
def positional (digits : List Char) (point : Int) : List Char :=
  if point ≤ 0 then '0' :: '.' :: (zeros (-point).toNat ++ digits)
  else
    let k := point.toNat
    if k < digits.length then digits.take k ++ '.' :: digits.drop k
    else digits ++ zeros (k - digits.length) ++ ['.', '0']

/-- The digits as one digit, a fraction if there are more, and an exponent. -/
def scientific (digits : List Char) (point : Int) : List Char :=
  let mantissa := match digits with
    | [] => []
    | [d] => [d]
    | d :: rest => d :: '.' :: rest
  mantissa ++ 'e' :: (toString (point - 1)).toList

/-- A decimal `d * 10 ^ p` as text. -/
def decimal (l : Layout) (d : Nat) (p : Int) : List Char :=
  let digits := Nat.toDigits 10 d
  let point := (digits.length : Int) + p
  if d = 0 ∨ (l.leastPoint ≤ point ∧ point ≤ l.greatestPoint) then positional digits point
  else scientific digits point

/-- A number as text. -/
def double (l : Layout) (x : Double) : String :=
  if x.isNaN then l.nan
  else
    let sign := if x.isNegative then "-" else ""
    if x.isInfinite then sign ++ l.infinity
    else
      let (d, p) := x.shortest
      sign ++ String.ofList (l.decimal d p)

end Layout

/-- A number in the format of literals. -/
def Double.render (x : Double) : String := Layout.literal.double x

end CpScan
