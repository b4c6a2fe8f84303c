import Membrane.Number.Binary64

/-!
# The fewest digits that read back

A positive number `significand · 2 ^ exponent` stands for an interval of reals: those that round to
it. `shortest` finds a decimal of that interval with as few digits as possible, and among those the
nearest to the number itself. For each count of digits it looks at the two neighbours of the number
on the grid of that many digits, in exact arithmetic; the first grid with a hit wins. A tie between
the neighbours goes to the larger one.
-/

namespace Membrane

/-- The decimal `digits · 10 ^ exponent`. -/
structure Decimal where
  digits : Nat
  exponent : Int
deriving DecidableEq, Repr

namespace Decimal

/-- A quotient of natural numbers equal to `factor · 2 ^ two · 10 ^ ten`. -/
def scaled (factor : Nat) (two ten : Int) : Nat × Nat :=
  (factor * Nat.pow 2 two.toNat * Nat.pow 10 ten.toNat,
    Nat.pow 2 (-two).toNat * Nat.pow 10 (-ten).toNat)

/-- Compares `a · 10 ^ i` with `n · 2 ^ j`. -/
def compareScaled (a : Nat) (i : Int) (n : Nat) (j : Int) : Ordering :=
  compare (a * Nat.pow 10 i.toNat * Nat.pow 2 (-j).toNat)
    (n * Nat.pow 2 j.toNat * Nat.pow 10 (-i).toNat)

/-- Whether a decimal lies among the reals that round to `significand · 2 ^ exponent`. The interval
reaches halfway to both neighbours, and its ends belong to it when the significand is even. Below a
power of two the neighbour is half as far away, the least exponent excepted. -/
def readsBack (significand : Nat) (exponent : Int) (d : Decimal) : Bool :=
  let narrow := significand = Nat.pow 2 52 && exponent != -1074
  let low := compareScaled d.digits d.exponent
    (if narrow then 4 * significand - 1 else 4 * significand - 2) (exponent - 2)
  let high := compareScaled d.digits d.exponent (4 * significand + 2) (exponent - 2)
  let closed := significand % 2 = 0
  (low == .gt || (closed && low == .eq)) && (high == .lt || (closed && high == .eq))

/-- The number of decimal digits of a natural number. -/
def digitCount (n : Nat) : Nat := (Nat.toDigits 10 n).length

/-- The place of the leading digit of a positive quotient: the least `k` with `num / den < 10 ^ k`.
-/
def leadingPlace (num den : Nat) : Int :=
  if den ≤ num then digitCount (num / den)
  else 1 - (digitCount ((den - 1) / num) : Int)

/-- The decimal of at most `count` digits nearest to `significand · 2 ^ exponent`, if one reads
back. -/
def withDigits (significand : Nat) (exponent : Int) (place : Int) (count : Nat) : Option Decimal :=
  let grid := place - count
  let (num, den) := scaled significand exponent (-grid)
  let below : Decimal := ⟨num / den, grid⟩
  let above : Decimal := ⟨num / den + 1, grid⟩
  match readsBack significand exponent below, readsBack significand exponent above with
  | true, true => some (if 2 * (num % den) < den then below else above)
  | true, false => some below
  | false, true => some above
  | false, false => none

/-- Moves trailing zeros of the digits into the exponent. -/
def normalize (d : Decimal) : Decimal :=
  go (digitCount d.digits) d
where
  /-- Drops at most the given number of trailing zeros. -/
  go : Nat → Decimal → Decimal
    | 0, d => d
    | n + 1, d => if d.digits % 10 = 0 then go n ⟨d.digits / 10, d.exponent + 1⟩ else d

/-- Every digit of `significand · 2 ^ exponent`. -/
def exact (significand : Nat) (exponent : Int) : Decimal :=
  ⟨significand * Nat.pow 2 exponent.toNat * Nat.pow 5 (-exponent).toNat, min exponent 0⟩

/-- The nearest of the decimals with the fewest digits that round to `significand · 2 ^ exponent`,
for a positive significand. -/
def shortest (significand : Nat) (exponent : Int) : Decimal :=
  let (num, den) := scaled significand exponent 0
  let place := leadingPlace num den
  let found := (List.range 17).findSome? fun n => withDigits significand exponent place (n + 1)
  normalize (found.getD (exact significand exponent))

end Decimal

end Membrane
