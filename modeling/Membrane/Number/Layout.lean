import Membrane.Number.Shortest

/-!
# How a number is written

`Layout` is the record of decisions of a written form: whether a whole number keeps a point and a
zero, and which magnitudes are written with an exponent. `Layout.plain` is the form of values shown
to people, `Layout.literal` the form of values quoted for inspection.
-/

namespace Membrane

/-- The decisions of a written form of floating-point numbers. -/
structure Layout where
  /-- Whole numbers in positional form end in `.0`. -/
  pointZero : Bool
  /-- Given the place of the leading digit, whether the number is written with an exponent. -/
  exponential : Int → Bool

namespace Layout

/-- Always positional, and whole numbers without a point. -/
def plain : Layout := ⟨false, fun _ => false⟩

/-- Positional from `10 ^ -4` up to `10 ^ 16` with a point throughout, an exponent outside. -/
def literal : Layout := ⟨true, fun place => decide (place ≤ -4) || decide (17 ≤ place)⟩

/-- A run of zeros. -/
def zeros (n : Nat) : String := String.ofList (List.replicate n '0')

/-- The digits `ds` with the point after the first `place` of them, zeros supplied on either side.
-/
def positional (pointZero : Bool) (ds : List Char) (place : Int) : String :=
  if place ≤ 0 then "0." ++ zeros (-place).toNat ++ String.ofList ds
  else if ds.length ≤ place.toNat then
    String.ofList ds ++ zeros (place.toNat - ds.length) ++ (if pointZero then ".0" else "")
  else String.ofList (ds.take place.toNat) ++ "." ++ String.ofList (ds.drop place.toNat)

/-- The digits `ds` with a point after the first, and the exponent of that digit. -/
def scientific (ds : List Char) (place : Int) : String :=
  let mantissa := match ds with
    | [] => "0"
    | [d] => String.ofList [d]
    | d :: rest => String.ofList [d, '.'] ++ String.ofList rest
  mantissa ++ "e" ++ toString (place - 1)

/-- The written form of a positive decimal. -/
def decimal (layout : Layout) (d : Decimal) : String :=
  let ds := Nat.toDigits 10 d.digits
  let place := (ds.length : Int) + d.exponent
  if layout.exponential place then scientific ds place
  else positional layout.pointZero ds place

/-- The written form of a number: a sign, and the fewest digits that read back. -/
def render (layout : Layout) (x : Binary64) : String :=
  match x.reading with
  | .nan => "NaN"
  | .infinity negative => (if negative then "-" else "") ++ "inf"
  | .finite negative significand exponent =>
    (if negative then "-" else "") ++
      if significand = 0 then (if layout.pointZero then "0.0" else "0")
      else layout.decimal (Decimal.shortest significand exponent)

end Layout

end Membrane
