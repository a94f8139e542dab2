import QubitRouting.Move
import QubitRouting.Topology

/-!
# Destinations of the cells of a grid

For each cell of a grid, where its content has to go. Swapping two cells exchanges their destinations
and leaves the cells where they are.
-/

namespace QubitRouting.Grid

/-- Where the content of a cell has to go. -/
structure Destination where
  finalRow : Nat
  finalColumn : Nat
  /-- The row it is in while the rows are sorted. -/
  intermediateRow : Option Nat := none
deriving DecidableEq

/-- A cell and the destination of its content. -/
structure Record where
  row : Nat
  column : Nat
  /-- Where its content has to go. -/
  destination : Destination
deriving DecidableEq

/-- The record of a cell whose content goes to the given position. -/
def record (grid : Grid) (cell target : Nat) : Except Fault Record := do
  let (row, column) ← grid.coordinates cell
  let (finalRow, finalColumn) ← grid.coordinates target
  return { row, column, destination := { finalRow, finalColumn } }

/-- The records of all cells, row by row, for a move between two layouts. -/
def records (grid : Grid) (old new : Layout Nat) : Except Fault (List Record) := do
  let numQubits ← grid.numQubits
  (Move.targets numQubits old new).zipIdx.mapM fun (target, cell) => grid.record cell target

end QubitRouting.Grid
