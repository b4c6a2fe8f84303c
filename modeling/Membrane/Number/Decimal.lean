import Membrane.Number.Shortest

/-!
# Decimals read as numbers

`Decimal.nearest` is the floating-point number nearest to a decimal. Magnitudes far outside the
range are decided by their leading place, so that no large power of ten is ever computed.
-/

namespace Membrane.Decimal

/-- The number with the given sign nearest to `digits · 10 ^ exponent`. -/
def nearest (negative : Bool) (d : Decimal) : Binary64 :=
  let place := (digitCount d.digits : Int) + d.exponent
  if d.digits = 0 || place < -400 then Binary64.nearest negative 0 1
  else if 400 < place then if negative then Binary64.negInfinity else Binary64.infinity
  else Binary64.nearest negative (d.digits * Nat.pow 10 d.exponent.toNat)
    (Nat.pow 10 (-d.exponent).toNat)

end Membrane.Decimal
