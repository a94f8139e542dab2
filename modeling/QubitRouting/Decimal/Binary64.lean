/-!
# Binary64 arithmetic

The binary64 numbers without their signs, and their exact arithmetic. Each of them is a whole number of
units of `2 ^ -1074`, the least number above zero. A result that has more than 53 significant bits is
rounded to the nearest number that has not, and to the one with an even significand if two are equally
near.
-/

namespace QubitRouting

/-- A finite binary64 number that is not negative. -/
structure Binary64 where
  /-- The number in units of `2 ^ -1074`. -/
  units : Nat
deriving DecidableEq

namespace Binary64

/-- The number one, in units. -/
def one : Nat := Nat.pow 2 1074

/-- The least number of units that is too large. -/
def overflow : Nat := Nat.pow 2 2098

/-- The whole number nearest to a fraction, the even one of two that are equally near. -/
def nearest (numerator denominator : Nat) : Nat :=
  let quotient := numerator / denominator
  let rest := numerator % denominator
  if 2 * rest < denominator ∨ 2 * rest = denominator ∧ quotient % 2 = 0 then quotient else quotient + 1

/-- The binary64 number nearest to a fraction of units, unless it is too large. -/
def round? (numerator denominator : Nat) : Option Binary64 :=
  let excess := Nat.pow 2 (Nat.log2 (numerator / denominator) - 52)
  let units := nearest numerator (denominator * excess) * excess
  if units < overflow then some ⟨units⟩ else none

/-- The binary64 number nearest to a natural number. -/
def ofNat? (n : Nat) : Option Binary64 := round? (n * one) 1

/-- The product of two numbers. -/
def mul? (a b : Binary64) : Option Binary64 := round? (a.units * b.units) one

/-- The quotient of two numbers. -/
def div? (a b : Binary64) : Option Binary64 := round? (a.units * one) b.units

/-- The bits of a number, the sign bit not set. -/
def bits (number : Binary64) : Nat :=
  let shift := Nat.log2 number.units - 52
  shift * Nat.pow 2 52 + number.units / Nat.pow 2 shift

end Binary64

end QubitRouting
