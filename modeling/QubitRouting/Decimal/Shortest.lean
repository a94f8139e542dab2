/-!
# Shortest decimals

The shortest decimal that rounds to a given binary fraction, found by exact arithmetic on natural
numbers. A binary fraction stands for every real that rounds to it: an interval around its value,
whose ends belong to it exactly when its significand is even. Among the decimals of the fewest
digits inside the interval the one nearest to the value is taken.
-/

namespace QubitRouting

/-- The number `digits * 10 ^ exponent`. -/
structure Decimal where
  /-- The significant digits, read as one number. -/
  digits : Nat
  /-- The power of ten the digits are scaled by. -/
  exponent : Int
deriving DecidableEq

namespace Decimal

/-- Which of two decimals at the same distance from the value is taken. -/
inductive Tie where
  | up
  /-- The one whose last digit is even. -/
  | even
deriving DecidableEq

/-- The reals that round to one binary fraction, over a common denominator. -/
structure Interval where
  /-- Numerator of the fraction itself. -/
  value : Nat
  /-- Numerator of the lower end. -/
  low : Nat
  /-- Numerator of the upper end. -/
  high : Nat
  denominator : Nat
  /-- Whether the ends belong to the interval. -/
  closed : Bool

/-- The interval of `significand * 2 ^ power`. The gap below is half as wide when the significand is
the least one of its binade and a smaller binade follows. -/
def Interval.ofBinary (significand : Nat) (power : Int) (narrowBelow : Bool) : Interval :=
  let scale := Nat.pow 2 (power - 2).toNat
  { value := 4 * significand * scale
    low := (4 * significand - (if narrowBelow then 1 else 2)) * scale
    high := (4 * significand + 2) * scale
    denominator := Nat.pow 2 (2 - power).toNat
    closed := significand % 2 == 0 }

/-- The number of decimal digits of a natural number. -/
def digitCount (n : Nat) : Nat := (Nat.toDigits 10 n).length

/-- Compare `digits * 10 ^ exponent` with `numerator / denominator`. -/
def compareTo (decimal : Decimal) (numerator denominator : Nat) : Ordering :=
  compare (decimal.digits * Nat.pow 10 decimal.exponent.toNat * denominator)
    (numerator * Nat.pow 10 (-decimal.exponent).toNat)

/-- Whether a decimal lies in an interval. -/
def Interval.contains (interval : Interval) (decimal : Decimal) : Bool :=
  let below := decimal.compareTo interval.low interval.denominator
  let above := decimal.compareTo interval.high interval.denominator
  (below == .gt || interval.closed && below == .eq) && (above == .lt || interval.closed && above == .eq)

/-- The position of the decimal point of `numerator / denominator`, counted from the left of its
first digit: the least `e` with `numerator / denominator < 10 ^ e`. -/
def pointPosition (numerator denominator : Nat) : Int :=
  let guess : Int := (digitCount numerator : Int) - digitCount denominator
  if compareTo ⟨1, guess⟩ numerator denominator == .gt then guess else guess + 1

/-- The decimals just below and just above the value among those of a given number of digits, the
better of the two if it lies in the interval. -/
def Interval.nearest? (interval : Interval) (tie : Tie) (exponent : Int) : Option Decimal :=
  let scaled := interval.value * Nat.pow 10 (-exponent).toNat
  let unit := interval.denominator * Nat.pow 10 exponent.toNat
  let lower : Decimal := ⟨scaled / unit, exponent⟩
  let upper : Decimal := ⟨scaled / unit + 1, exponent⟩
  match interval.contains lower, interval.contains upper with
  | false, false => none
  | true, false => some lower
  | false, true => some upper
  | true, true =>
    match compare (2 * (scaled % unit)) unit, tie with
    | .lt, _ => some lower
    | .gt, _ => some upper
    | .eq, .up => some upper
    | .eq, .even => if lower.digits % 2 == 0 then some lower else some upper

/-- Move trailing zeros from the digits to the exponent. -/
def trimZeros : Nat → Decimal → Decimal
  | 0, decimal => decimal
  | fuel + 1, decimal =>
    if decimal.digits ≠ 0 ∧ decimal.digits % 10 = 0 then
      trimZeros fuel ⟨decimal.digits / 10, decimal.exponent + 1⟩
    else decimal

/-- The shortest decimal in an interval, nearest to its value. Seventeen digits always suffice for a
53-bit significand. -/
def Interval.shortest (interval : Interval) (tie : Tie) : Decimal :=
  let point := pointPosition interval.value interval.denominator
  let found := (List.range 17).findSome? fun extra => interval.nearest? tie (point - (extra + 1 : Nat))
  trimZeros 20 (found.getD ⟨0, 0⟩)

end Decimal

end QubitRouting
