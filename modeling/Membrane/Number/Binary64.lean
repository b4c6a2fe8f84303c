/-!
# Binary64 numbers by their bits

A `Binary64` is the 64-bit word of a floating-point number, so that equality of the type is equality
of bits. `reading` takes the word apart, `nearest` rounds a quotient of natural numbers to the
nearest number with ties to even, and `numericEq` is the comparison of numbers: a NaN differs from
everything and the two zeros are the same.
-/

namespace Membrane

/-- A floating-point number of the 64-bit interchange format, given by its bits. -/
structure Binary64 where
  bits : UInt64
deriving DecidableEq, Repr, Inhabited

namespace Binary64

/-- What the bits of a number stand for. A finite number is `significand · 2 ^ exponent`. -/
inductive Reading where
  | nan
  | infinity (negative : Bool)
  | finite (negative : Bool) (significand : Nat) (exponent : Int)
deriving DecidableEq, Repr

/-- The sign bit. -/
def isNegative (x : Binary64) : Bool := decide (Nat.pow 2 63 ≤ x.bits.toNat)

/-- The eleven bits of the biased exponent. -/
def biasedExponent (x : Binary64) : Nat := x.bits.toNat / Nat.pow 2 52 % Nat.pow 2 11

/-- The fifty-two bits of the fraction. -/
def fraction (x : Binary64) : Nat := x.bits.toNat % Nat.pow 2 52

/-- The number that the bits stand for. The biased exponent zero holds the numbers without a leading
bit, the largest one the infinities and the NaNs. -/
def reading (x : Binary64) : Reading :=
  if x.biasedExponent = 2047 then
    if x.fraction = 0 then .infinity x.isNegative else .nan
  else if x.biasedExponent = 0 then .finite x.isNegative x.fraction (-1074)
  else .finite x.isNegative (Nat.pow 2 52 + x.fraction) ((x.biasedExponent : Int) - 1075)

/-- Whether the bits stand for no number at all. -/
def isNaN (x : Binary64) : Bool := x.biasedExponent = 2047 && x.fraction != 0

/-- Whether the number is a zero of either sign. -/
def isZero (x : Binary64) : Bool := x.bits.toNat % Nat.pow 2 63 = 0

/-- Whether the number is neither infinite nor a NaN. -/
def isFinite (x : Binary64) : Bool := x.biasedExponent != 2047

/-- Positive infinity. -/
def infinity : Binary64 := ⟨0x7ff0000000000000⟩

/-- Negative infinity. -/
def negInfinity : Binary64 := ⟨0xfff0000000000000⟩

/-- The quiet NaN without a payload. -/
def nan : Binary64 := ⟨0x7ff8000000000000⟩

/-- Equality of numbers: no NaN equals anything, and the two zeros are equal. -/
def numericEq (x y : Binary64) : Bool :=
  !x.isNaN && !y.isNaN && (x == y || (x.isZero && y.isZero))

/-- A quotient rounded to the nearest integer, a half to the even neighbour. -/
def roundedQuotient (num den : Nat) : Nat :=
  let q := num / den
  let r := num % den
  if den < 2 * r then q + 1
  else if 2 * r = den && q % 2 = 1 then q + 1
  else q

/-- The exponent of the last place of the number nearest to `num / den`: the quotient divided by its
power of two lies below `2 ^ 53`, and not below `2 ^ 52` unless the exponent is the least one. -/
def lastPlace (num den : Nat) : Int :=
  let guess : Int := (num.log2 : Int) - (den.log2 : Int) - 52
  let fits := decide (num * Nat.pow 2 (-guess).toNat <
    den * Nat.pow 2 guess.toNat * Nat.pow 2 52)
  max (if fits then guess - 1 else guess) (-1074)

/-- The number with the given sign nearest to `num / den`, a tie to the even significand. A quotient
that rounds to `2 ^ 1024` or more is infinite. -/
def nearest (negative : Bool) (num den : Nat) : Binary64 :=
  let place := if num = 0 then -1074 else lastPlace num den
  let significand := roundedQuotient (num * Nat.pow 2 (-place).toNat)
    (den * Nat.pow 2 place.toNat)
  let magnitude := min ((place + 1074).toNat * Nat.pow 2 52 + significand)
    (2047 * Nat.pow 2 52)
  ⟨UInt64.ofNat (if negative then Nat.pow 2 63 + magnitude else magnitude)⟩

/-- The number nearest to an integer. -/
def ofInt (i : Int) : Binary64 := nearest (decide (i < 0)) i.natAbs 1

end Binary64

end Membrane
