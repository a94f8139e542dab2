/-!
# Hexadecimal digits
-/

namespace QubitRouting.Text

/-- The value of a hexadecimal digit of either case. -/
def hexValue? (c : Char) : Option Nat :=
  if c.isDigit then some (c.toNat - '0'.toNat)
  else if 'a' ≤ c ∧ c ≤ 'f' then some (c.toNat - 'a'.toNat + 10)
  else if 'A' ≤ c ∧ c ≤ 'F' then some (c.toNat - 'A'.toNat + 10)
  else none

/-- The value of a digit in a base up to sixteen. -/
def digitIn? (base : Nat) (c : Char) : Option Nat := (hexValue? c).filter (· < base)

/-- The number of a list of digits, at least one. -/
def numberIn? (base : Nat) (digits : List Char) : Option Nat :=
  if digits.isEmpty then none
  else digits.foldlM (fun n c => (digitIn? base c).map (base * n + ·)) 0

/-- Two hexadecimal digits of a number below 256. -/
def hexPair (n : Nat) : List Char := [Nat.digitChar (n / 16), Nat.digitChar (n % 16)]

end QubitRouting.Text
