import QubitRouting.Decimal.Binary64
import QubitRouting.Decimal.Numeral

/-!
# Reading numerals as binary64 numbers

The digits are gathered into a 64-bit significand, as many of them as fit, and the significand is
scaled by a power of ten in binary64 arithmetic. Numbers with a significand below `2 ^ 53` and a
small exponent are read exactly.
-/

namespace QubitRouting.Numeral

/-- A significand and the power of ten it is scaled by. -/
structure Scaled where
  /-- The digits that fit 64 bits. -/
  significand : Nat := 0
  exponent : Int := 0
  /-- Whether a digit did not fit. -/
  full : Bool := false

/-- Take in one more digit before the point; one that does not fit only scales the number. -/
def Scaled.addWhole (scaled : Scaled) (c : Char) : Scaled :=
  let significand := scaled.significand * 10 + digitValue c
  if scaled.full || UInt64.size ≤ significand then
    { scaled with exponent := scaled.exponent + 1, full := true }
  else { scaled with significand }

/-- Take in one more digit after the point; from the first one on that does not fit they are
dropped. -/
def Scaled.addFraction (scaled : Scaled) (c : Char) : Scaled :=
  let significand := scaled.significand * 10 + digitValue c
  if scaled.full || UInt64.size ≤ significand then { scaled with full := true }
  else { scaled with significand, exponent := scaled.exponent - 1 }

/-- The significand and exponent of a numeral's digits. -/
def scaled (numeral : Numeral) : Scaled :=
  let whole := numeral.whole.foldl Scaled.addWhole {}
  numeral.fraction.foldl Scaled.addFraction { whole with full := false }

/-- A power of ten as a binary64 number. -/
def powerOfTen? (exponent : Nat) : Option Binary64 := Binary64.ofNat? (Nat.pow 10 exponent)

/-- Scale a number by a power of ten, in steps of `10 ^ 308`. There is no result if it is too large.
The first argument bounds the number of steps; a number that is not zero by then would be below every
binary64 number. -/
def scale? : Nat → Binary64 → Int → Option Binary64
  | 0, _, _ => some ⟨0⟩
  | steps + 1, number, exponent =>
    if exponent.natAbs ≤ 308 then do
      let power ← powerOfTen? exponent.natAbs
      if exponent ≥ 0 then number.mul? power else number.div? power
    else if number.units = 0 then some number
    else if exponent ≥ 0 then none
    else do scale? steps (← number.div? (← powerOfTen? 308)) (exponent + 308)

/-- The magnitude of a numeral. An exponent beyond 31 bits makes it zero or too large. -/
def magnitude? (numeral : Numeral) : Option Binary64 := do
  let scaled := numeral.scaled
  let number ← Binary64.ofNat? scaled.significand
  let exponent := numeral.exponent.getD 0
  if exponent.natAbs < Nat.pow 2 31 then scale? 8 number (scaled.exponent + exponent)
  else if scaled.significand ≠ 0 ∧ exponent > 0 then none
  else some ⟨0⟩

/-- The bits of the binary64 number of a numeral, unless it is too large. -/
def bits? (numeral : Numeral) : Option UInt64 :=
  numeral.magnitude?.map fun magnitude =>
    UInt64.ofNat (magnitude.bits + if numeral.negative then Nat.pow 2 63 else 0)

end QubitRouting.Numeral
