import QubitRouting.Decimal.Shortest

/-!
# The range of binary64

A decimal that lies half a unit or more above the largest finite binary64 number is nearest to infinity.
-/

namespace QubitRouting.Decimal

/-- The least number whose nearest binary64 number is infinite. -/
def overflow : Nat := Nat.pow 2 1024 - Nat.pow 2 970

/-- Whether the nearest binary64 number is finite. A number of at most 308 digits is below the bound
without more ado, which keeps the powers of ten small. -/
def isFinite (decimal : Decimal) : Bool :=
  let point : Int := (Nat.toDigits 10 decimal.digits).length + decimal.exponent
  if decimal.digits = 0 ∨ point ≤ 308 then true
  else if point > 400 then false
  else if decimal.exponent ≥ 0 then decimal.digits * Nat.pow 10 decimal.exponent.toNat < overflow
  else decimal.digits < overflow * Nat.pow 10 (-decimal.exponent).toNat

end QubitRouting.Decimal
