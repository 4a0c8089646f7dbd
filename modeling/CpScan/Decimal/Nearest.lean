/-
# Reading a decimal: the nearest binary64 number

The decimal `digits / 10 ^ places` is read as the binary64 number nearest to it, a tie going to
the even significand.  The computation is exact: the value is a quotient of natural numbers, the
exponent is fixed by comparing that quotient with powers of two, and the significand is one
rounded division.

* `roundDiv n d` is the natural number nearest to `n / d`, a half going to the even neighbour.
* `floorLog2 n d` is the greatest `e` with `2 ^ e ≤ n / d`.
* `ofDecimal digits places` puts the two together.  The exponent is `floorLog2 - 52`, which gives
  a significand of 53 bits, but never below the least exponent: there the numbers are evenly
  spaced down to zero, and the same rounding is right.  A value that rounds past the last finite
  number is infinity.
-/
import CpScan.Decimal.Double
import CpScan.Text.CharClass

namespace CpScan

/-! ## 1. Rounded division -/

/-- The natural number nearest to `n / d`; a half goes to the even neighbour. -/
def roundDiv (n d : Nat) : Nat :=
  let q := n / d
  let twice := 2 * (n % d)
  if twice < d then q
  else if d < twice then q + 1
  else if q % 2 = 0 then q else q + 1

/-! ## 2. The binary order of a quotient -/

/-- The power `2 ^ e`, as a numerator over a denominator. -/
def powerOfTwo : Int → Nat × Nat
  | .ofNat e => (Nat.pow 2 e, 1)
  | .negSucc e => (1, Nat.pow 2 (e + 1))

/-- The greatest `e` with `2 ^ e ≤ n / d`, for positive `n` and `d`.  The difference of the two
bit lengths is that exponent or one more. -/
def floorLog2 (n d : Nat) : Int :=
  let e : Int := (n.log2 : Int) - (d.log2 : Int)
  let (up, down) := powerOfTwo e
  if up * d ≤ n * down then e else e - 1

/-! ## 3. The nearest number -/

namespace Double

/-- The number nearest to `n / d`, for a positive `d`; ties go to the even significand. -/
def ofQuotient (n d : Nat) : Double :=
  if n = 0 then ofMagnitude 0
  else
    let q := max (floorLog2 n d - 52) minExponent
    let (up, down) := powerOfTwo q
    ofScaled (roundDiv (n * down) (d * up)) (q - minExponent).toNat

/-- The number nearest to `digits / 10 ^ places`. -/
def ofDecimal (digits places : Nat) : Double := ofQuotient digits (Nat.pow 10 places)

/-- The number written as the digits `whole`, a point and the digits `fraction`. -/
def ofDigits (whole fraction : List Char) : Double :=
  ofDecimal (digitsValue (whole ++ fraction)) fraction.length

end Double

end CpScan
