import QubitRouting.Fault

/-!
# Topologies

A topology numbers its positions from zero and says which pairs of positions are neighbours, the
pairs on which a two-qubit gate can run.
-/

namespace QubitRouting

/-- A chain of positions, which may be closed into a ring. -/
structure Chain where
  numQubits : Nat
  /-- Whether the last position neighbours the first. -/
  cyclic : Bool
deriving DecidableEq

namespace Chain

/-- Whether two positions are neighbours. -/
def adjacent (chain : Chain) (a b : Nat) : Bool :=
  let distance := max a b - min a b
  distance == 1 || chain.cyclic && chain.numQubits > 1 && distance == chain.numQubits - 1

end Chain

/-- A rectangle of positions, numbered row by row. -/
structure Grid where
  rows : Nat
  columns : Nat
deriving DecidableEq

namespace Grid

/-- The number of positions. -/
def numQubits (grid : Grid) : Except Fault Nat := word32 (grid.rows * grid.columns)

/-- Row and column of a position. -/
def coordinates (grid : Grid) (position : Nat) : Except Fault (Nat × Nat) :=
  if grid.columns = 0 then .error .divisionByZero
  else .ok (position / grid.columns, position % grid.columns)

/-- The position in a given row and column. -/
def position (grid : Grid) (row column : Nat) : Except Fault Nat := do
  let start ← word32 (row * grid.columns)
  word32 (start + column)

/-- Whether two positions are neighbours: in one column and adjacent rows, or side by side in a row. -/
def adjacent (grid : Grid) (a b : Nat) : Except Fault Bool :=
  let low := min a b
  let high := max a b
  if high - low = grid.columns then .ok true
  else if high - low = 1 then
    if grid.columns = 0 then .error .divisionByZero else .ok (high % grid.columns != 0)
  else .ok false

/-- Reverse the odd rows: a position in an odd row goes to the opposite end of its row. -/
def reverseOddRows (grid : Grid) (position : Nat) : Except Fault Nat := do
  let (row, column) ← grid.coordinates position
  if row % 2 = 0 then return position
  grid.position row (grid.columns - 1 - column)

/-- The position at an index of the snake, which runs through even rows from left to right and
through odd rows from right to left, so that it only ever steps to a neighbour. -/
def ofSnake (grid : Grid) (index : Nat) : Except Fault Nat := grid.reverseOddRows index

/-- The index of a position along the snake: reversing the odd rows once more. -/
def toSnake (grid : Grid) (position : Nat) : Except Fault Nat := grid.reverseOddRows position

end Grid

end QubitRouting
