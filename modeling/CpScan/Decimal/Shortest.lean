/-
# Writing a decimal: the fewest digits that read back

Every finite number other than zero has an interval of reals that are read as it: from half way
to the number below up to half way to the number above, the ends belonging to it exactly when
its significand is even, since ties go to even.  The digits written are those of the coarsest
decimal grid that has a point in this interval.  On the grid of multiples of `10 ^ p` only the two
neighbours of the value have to be looked at: if any multiple is inside, one of these is.

If both are inside, the nearer is taken, and of two equally near ones the greater.  The grids
are tried from a power of ten that is certainly past the interval downwards, so the first hit
is the coarsest grid, and its point has the fewest digits.

All comparisons are between natural numbers.  With `significand * 2 ^ exponent` written over four,
the value is `4 * m`, the interval ends are `4 * m - 2` (or `4 * m - 1` at the bottom of a binade,
where the number below is twice as near) and `4 * m + 2`, all times `2 ^ (q - 2)`.
-/
import CpScan.Decimal.Double

namespace CpScan

/-! ## 1. The interval of a number -/

/-- The reals that are read as one number: from `low` to `high`, around `value`, all in units of
`2 ^ unit`; the ends count when `closed` is set. -/
structure ReadingInterval where
  low : Nat
  value : Nat
  high : Nat
  unit : Int
  closed : Bool
deriving Repr

/-- The interval of the positive number `m * 2 ^ q`. -/
def ReadingInterval.of (m : Nat) (q : Int) : ReadingInterval where
  low := if m = Double.hiddenBit ∧ q ≠ Double.minExponent then 4 * m - 1 else 4 * m - 2
  value := 4 * m
  high := 4 * m + 2
  unit := q - 2
  closed := m % 2 = 0

/-! ## 2. One decimal grid -/

/-- The factors `(a, b)` for which `d * 10 ^ p` compares with `x * 2 ^ u` as `d * a` does with
`x * b`. -/
def gridFactors (p u : Int) : Nat × Nat :=
  (Nat.pow 10 p.toNat * Nat.pow 2 (-u).toNat, Nat.pow 10 (-p).toNat * Nat.pow 2 u.toNat)

namespace ReadingInterval

/-- The point of the grid of multiples of `10 ^ p` to write: the neighbour of the value that lies
in the interval, the nearer if both do, the greater if they are equally near. -/
def pointOn (i : ReadingInterval) (p : Int) : Option Nat :=
  let (a, b) := gridFactors p i.unit
  let v := i.value * b
  let d := v / a
  let inside (n : Nat) : Bool :=
    if i.closed then i.low * b ≤ n * a ∧ n * a ≤ i.high * b
    else i.low * b < n * a ∧ n * a < i.high * b
  match inside d, inside (d + 1) with
  | true, true => if 2 * (v - d * a) < a then some d else some (d + 1)
  | true, false => some d
  | false, true => some (d + 1)
  | false, false => none

/-- The first point found on the grids `10 ^ p`, `10 ^ (p - 1)`, and so on, over `steps` grids. -/
def search (i : ReadingInterval) : Nat → Int → Option (Nat × Int)
  | 0, _ => none
  | steps + 1, p =>
    match i.pointOn p with
    | some d => some (d, p)
    | none => i.search steps (p - 1)

/-- A power of ten past the interval: three binary digits make less than one decimal digit, and
four of them more than one. -/
def topGrid (i : ReadingInterval) : Int :=
  let e : Int := i.high.log2 + 1 + i.unit
  if 0 ≤ e then e / 3 + 1 else e / 4 + 1

end ReadingInterval

/-! ## 3. Digits of a number -/

namespace Double

/-- More grids than lie between the greatest power of ten tried for a number and the finest
grid it can need. -/
def gridLimit : Nat := 800

/-- The shortest decimal `d * 10 ^ p` that reads back as the finite number `x`, as the pair of `d`
and `p`; zero is `0` at `0`. -/
def shortest (x : Double) : Nat × Int :=
  if x.isZero then (0, 0)
  else
    let i := ReadingInterval.of x.significand x.exponent
    (i.search gridLimit i.topGrid).getD (0, 0)

end Double

end CpScan
