/-
# Binary64 numbers by their bits

A `Double` is the 64-bit pattern of an IEEE 754 binary64 number: a sign bit, eleven exponent
bits and fifty-two fraction bits.  Everything the library says about floating-point numbers is
said on these patterns and on exact natural numbers; no floating-point operation is used, so
reading and writing a number can be reasoned about digit by digit.

A finite magnitude is `significand * 2 ^ exponent`, with the exponent at least `-1074`
(`minExponent`).  Consecutive magnitudes have consecutive patterns, which is why a rounded
significand `m` at exponent `q` has the pattern `(q + 1074) * 2 ^ 52 + m` in every case: below the
normal range, inside it, and also when rounding carried `m` up to `2 ^ 53` (`ofScaled`).
-/

namespace CpScan

/-- An IEEE 754 binary64 number, by its bit pattern. -/
structure Double where
  bits : UInt64
deriving DecidableEq, Repr, Inhabited

namespace Double

/-! ## 1. The parts of a pattern -/

/-- The number `2 ^ 52`: the weight of the exponent field, and the hidden bit of a normal
significand. -/
def hiddenBit : Nat := 0x10000000000000

/-- The pattern of positive infinity; smaller magnitudes are finite and greater ones NaN. -/
def infinityPattern : Nat := 0x7FF0000000000000

/-- The least binary exponent of a significand. -/
def minExponent : Int := -1074

/-- The pattern without its sign bit. -/
def magnitude (x : Double) : Nat := x.bits.toNat % 0x8000000000000000

/-- Whether the sign bit is set. -/
def isNegative (x : Double) : Bool := 0x8000000000000000 ≤ x.bits.toNat

/-- Whether the number is not a number. -/
def isNaN (x : Double) : Bool := infinityPattern < x.magnitude

/-- Whether the number is an infinity. -/
def isInfinite (x : Double) : Bool := x.magnitude == infinityPattern

/-- Whether the number is a zero of either sign. -/
def isZero (x : Double) : Bool := x.magnitude == 0

/-- The integer significand of a finite number. -/
def significand (x : Double) : Nat :=
  let field := x.magnitude / hiddenBit
  let fraction := x.magnitude % hiddenBit
  if field = 0 then fraction else hiddenBit + fraction

/-- The binary exponent of a finite number's significand. -/
def exponent (x : Double) : Int :=
  let field := x.magnitude / hiddenBit
  if field = 0 then minExponent else minExponent + (field - 1 : Nat)

/-! ## 2. Building a number -/

/-- The positive number with magnitude pattern `n`; anything from infinity on is infinity. -/
def ofMagnitude (n : Nat) : Double := ⟨UInt64.ofNat (min n infinityPattern)⟩

/-- The positive number with significand `m` at the exponent `steps` above the least one.  The
significand may have just reached `2 ^ 53`; a number too large is infinity. -/
def ofScaled (m steps : Nat) : Double := ofMagnitude (steps * hiddenBit + m)

/-! ## 3. Equality of numbers -/

/-- Equality as numbers: a NaN equals nothing, and the two zeros are equal. -/
def same (x y : Double) : Bool :=
  !x.isNaN && !y.isNaN && (x.bits == y.bits || (x.isZero && y.isZero))

end Double

end CpScan
