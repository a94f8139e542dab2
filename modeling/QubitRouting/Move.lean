import QubitRouting.Layout
import QubitRouting.OddEven

/-!
# Moves between layouts

Two layouts say where the qubits they share have to go. The other positions are sent to the targets
that are left, in ascending order, which makes the move a permutation of all positions. On a chain it
is carried out by sorting the positions by their targets.
-/

namespace QubitRouting.Move

/-- Give the free targets, in order, to the positions that have none. -/
def fill : List (Option Nat) → List Nat → List Nat
  | [], _ => []
  | some target :: rest, free => target :: fill rest free
  | none :: rest, target :: free => target :: fill rest free
  | none :: rest, [] => fill rest []

/-- For each position, where its content has to go. -/
def targets (numQubits : Nat) (old new : Layout Nat) : List Nat :=
  let slots := (List.range numQubits).map fun p => (old.occupant? p).bind new.position?
  let used := slots.filterMap id
  fill slots ((List.range numQubits).filter (· ∉ used))

/-- The swaps on a chain that move every shared qubit to its new position. -/
def chainSwaps (numQubits : Nat) (old new : Layout Nat) : List Swap :=
  (OddEven.sort id (targets numQubits old new)).2.map fun place => (place, place + 1)

end QubitRouting.Move
