/-!
# Decimal fractions

Numbers of the form `mantissa * 10 ^ exponent`, and which of them have a nearest floating-point
number of 64 bits.
-/

namespace TrafficWarden.Text

/-- A decimal fraction: `mantissa * 10 ^ exponent`. -/
structure Decimal where
  mantissa : Nat
  exponent : Int
deriving DecidableEq, Repr

namespace Decimal

/-- The least integer that no floating-point number of 64 bits is nearest to. -/
def bound : Nat := Nat.pow 2 1024 - Nat.pow 2 970

def places (d : Decimal) : Int := ((toString d.mantissa).length : Int) + d.exponent

/-- Whether a fraction is below the bound. The digits before the point decide, save for numbers
with 309 of them. -/
def isFinite (d : Decimal) : Bool :=
  if d.mantissa = 0 || d.places ≤ 308 then true
  else if 309 < d.places then false
  else d.mantissa * Nat.pow 10 d.exponent.toNat < bound * Nat.pow 10 (-d.exponent).toNat

end Decimal

end TrafficWarden.Text
