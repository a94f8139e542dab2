import QubitRouting.Decimal.Shortest

/-!
# Numerals

A numeral is a number as it is written: a sign, the digits before and after the point, and an
exponent. Numerals are laid out from decimals: positionally, with at least one digit after the point,
while the point stays close to the digits, and with an exponent outside that range.
-/

namespace QubitRouting

/-- A number as it is written. -/
structure Numeral where
  negative : Bool := false
  /-- The digits before the point. -/
  whole : List Char
  /-- The digits after the point; without any there is no point. -/
  fraction : List Char := []
  /-- The power of ten, if one is written. -/
  exponent : Option Int := none
deriving DecidableEq

namespace Numeral

/-- The numeral of a natural number. -/
def ofNat (n : Nat) : Numeral := { whole := Nat.toDigits 10 n }

/-- The value of a digit. -/
def digitValue (c : Char) : Nat := c.toNat - '0'.toNat

/-- The number that a list of digits stands for. -/
def valueOf (digits : List Char) : Nat := digits.foldl (fun n c => 10 * n + digitValue c) 0

/-- The natural number written, if there is no sign, point or exponent. -/
def toNat? (numeral : Numeral) : Option Nat :=
  if numeral.negative || !numeral.fraction.isEmpty || numeral.exponent.isSome then none
  else some (valueOf numeral.whole)

/-- Which exponents are written with a sign. -/
inductive ExponentSign where
  | negative
  | always
deriving DecidableEq

/-- The sign of an exponent. -/
def ExponentSign.write (sign : ExponentSign) (exponent : Int) : List Char :=
  if exponent < 0 then ['-']
  else
    match sign with
    | negative => []
    | always => ['+']

/-- The text of a numeral. -/
def write (sign : ExponentSign) (numeral : Numeral) : List Char :=
  (if numeral.negative then ['-'] else []) ++ numeral.whole
    ++ (if numeral.fraction.isEmpty then [] else '.' :: numeral.fraction)
    ++ (match numeral.exponent with
      | some exponent => 'e' :: sign.write exponent ++ Nat.toDigits 10 exponent.natAbs
      | none => [])

/-- The choices that tell two layouts of decimals apart. -/
structure Style where
  /-- Positional notation is used while the point stands right of this position. -/
  leftmostPoint : Int
  /-- Positional notation is used while the point stands at most this far right. -/
  rightmostPoint : Int
  /-- Which of two equally near shortest decimals is written. -/
  tie : Decimal.Tie

/-- A run of zeros. -/
def zeros (count : Nat) : List Char := List.replicate count '0'

/-- The numeral of a decimal. -/
def Style.layOut (style : Style) (negative : Bool) (decimal : Decimal) : Numeral :=
  let digits := Nat.toDigits 10 decimal.digits
  let point : Int := digits.length + decimal.exponent
  if decimal.digits = 0 then { negative, whole := ['0'], fraction := ['0'] }
  else if style.leftmostPoint < point ∧ point ≤ style.rightmostPoint then
    if point ≤ 0 then
      { negative, whole := ['0'], fraction := zeros (-point).toNat ++ digits }
    else if digits.length ≤ point.toNat then
      { negative, whole := digits ++ zeros (point.toNat - digits.length), fraction := ['0'] }
    else
      { negative, whole := digits.take point.toNat, fraction := digits.drop point.toNat }
  else
    { negative, whole := digits.take 1, fraction := digits.drop 1, exponent := some (point - 1) }

end Numeral

end QubitRouting
