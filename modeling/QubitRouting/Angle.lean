import QubitRouting.Decimal.Numeral

/-!
# Rotation angles

A rotation angle is a binary64 number, kept as its bits: routing only passes angles through, so two
angles are the same exactly when their bits are.
-/

namespace QubitRouting

/-- A rotation angle, by the bits of its binary64 number. -/
structure Angle where
  /-- Sign bit, eleven bits of exponent, fifty-two bits of fraction. -/
  bits : UInt64
deriving DecidableEq

namespace Angle

/-- Whether the sign bit is set. -/
def negative (angle : Angle) : Bool := angle.bits.toNat / Nat.pow 2 63 == 1

/-- The biased exponent. -/
def biasedExponent (angle : Angle) : Nat := angle.bits.toNat / Nat.pow 2 52 % Nat.pow 2 11

/-- The fraction field. -/
def fraction (angle : Angle) : Nat := angle.bits.toNat % Nat.pow 2 52

/-- Whether the angle is a number, neither infinite nor undefined. -/
def isFinite (angle : Angle) : Bool := angle.biasedExponent != 2047

/-- Whether the angle is no number at all. -/
def isNaN (angle : Angle) : Bool := angle.biasedExponent == 2047 && angle.fraction != 0

/-- The shortest decimal that reads back as the magnitude of a finite angle. -/
def magnitude (angle : Angle) (tie : Decimal.Tie) : Decimal :=
  if angle.biasedExponent = 0 then
    if angle.fraction = 0 then ⟨0, 0⟩
    else (Decimal.Interval.ofBinary angle.fraction (-1074) false).shortest tie
  else
    let narrowBelow := angle.fraction == 0 && angle.biasedExponent != 1
    (Decimal.Interval.ofBinary (Nat.pow 2 52 + angle.fraction) (angle.biasedExponent - 1075)
      narrowBelow).shortest tie

/-- The numeral of a finite angle in a given style. -/
def toNumeral (style : Numeral.Style) (angle : Angle) : Numeral :=
  style.layOut angle.negative (angle.magnitude style.tie)

/-- Descriptions write angles positionally from `0.0001` up to sixteen digits before the point. -/
def descriptionStyle : Numeral.Style :=
  { leftmostPoint := -4, rightmostPoint := 16, tie := .up }

/-- The angle as it stands in a description of a command. -/
def describe (angle : Angle) : String :=
  if angle.isNaN then "NaN"
  else if angle.isFinite then String.ofList ((angle.toNumeral descriptionStyle).write .negative)
  else if angle.negative then "-inf"
  else "inf"

end Angle

end QubitRouting
