/-!
# Faults

A fault is a breach of the machine's own rules: a number that does not fit its word, a division by
zero, an index outside its table. No input is to blame for it, so it is kept apart from the errors
that are reported about an input.
-/

namespace QubitRouting

/-- How a computation can break down. -/
inductive Fault where
  /-- A result does not fit its word. -/
  | overflow
  | divisionByZero
  | outOfRange
deriving DecidableEq

/-- A number that has to fit a 32-bit word. -/
def word32 (n : Nat) : Except Fault Nat :=
  if n < UInt32.size then .ok n else .error .overflow

/-- A number below the size of a word is accepted as it is. -/
theorem word32_of_lt {n : Nat} (h : n < UInt32.size) : word32 n = .ok n := if_pos h

end QubitRouting
