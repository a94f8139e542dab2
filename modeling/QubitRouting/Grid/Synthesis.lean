import QubitRouting.Grid.RowMatching
import QubitRouting.Grid.Record

/-!
# Swaps on a grid

A permutation of the cells of a grid is carried out by sorting three times: every column by
intermediate row, every row by final column, and every column by final row. The intermediate rows come
from the row matchings, so that after the first phase each row holds one content per final column.
-/

namespace QubitRouting.Grid

/-- The state of a synthesis: the records and the swaps made. -/
structure Board where
  /-- The records of all cells, row by row. -/
  records : Array Record
  swaps : List Swap := []

/-- The cells of a column from top to bottom. -/
def columnCells (grid : Grid) (column : Nat) : Except Fault (List Nat) :=
  (List.range grid.rows).mapM fun row => grid.position row column

/-- The cells of a row from left to right. -/
def rowCells (grid : Grid) (row : Nat) : Except Fault (List Nat) :=
  (List.range grid.columns).mapM fun column => grid.position row column

/-- The destination of the content of a cell. -/
def destinationOf (records : Array Record) (cell : Nat) : Except Fault Destination :=
  match records[cell]? with
  | some record => .ok record.destination
  | none => .error .outOfRange

/-- Give the content of a cell another destination. -/
def setDestination (records : Array Record) (cell : Nat) (destination : Destination) : Array Record :=
  records.modify cell fun record => { record with destination := destination }

/-- The first of the items with the least key. -/
def firstLeast? {α : Type} (key : α → Nat) (items : List α) : Option α :=
  items.foldl
    (fun least item =>
      match least with
      | none => some item
      | some best => if key item < key best then some item else some best)
    none

/-- Let one content of a column visit the given row between the phases: of those that go to the column
which the matching asks for and have no such row yet, the one with the least final row. -/
def assignRow (grid : Grid) (matchings : List (List Nat)) (column : Nat) (records : Array Record)
    (row index : Nat) : Except Failure (Array Record) := do
  let some target := matchings[index]?.bind (·[column]?)
    | throw (.error (.matching (.missingMatching index)))
  let cells ← Failure.ofChecked (grid.columnCells column)
  let contents ← Failure.ofChecked (cells.mapM fun cell => do
    return (cell, ← destinationOf records cell))
  let free := contents.filter fun (_, destination) =>
    destination.intermediateRow.isNone && destination.finalColumn == target
  match firstLeast? (fun (_, destination) => destination.finalRow) free with
  | none => throw (.error (.matching (.noQubitLeft column target)))
  | some (cell, destination) =>
    return setDestination records cell { destination with intermediateRow := some row }

/-- Assign the rows of a column in the order of a permutation of the matchings. -/
def assignColumn (grid : Grid) (matchings : List (List Nat)) (permutation : List Nat)
    (records : Array Record) (column : Nat) : Except Failure (Array Record) :=
  permutation.zipIdx.foldlM
    (fun records (index, row) => grid.assignRow matchings column records row index) records

/-- Sort the destinations along a line of cells by exchanging neighbours. A line of fewer than two
cells is left alone. -/
def sortLine (key : Destination → Nat) (board : Board) (cells : List Nat) : Except Fault Board :=
  if cells.length < 2 then .ok board
  else do
    let destinations ← cells.mapM (destinationOf board.records)
    let (sorted, log) := OddEven.sort key destinations
    let steps := cells.zip cells.tail
    return {
      records := (cells.zip sorted).foldl (fun records (cell, d) => setDestination records cell d)
        board.records
      swaps := board.swaps ++ log.filterMap (steps[·]?) }

/-- Sort every column. -/
def sortColumns (grid : Grid) (key : Destination → Nat) (board : Board) : Except Fault Board :=
  (List.range grid.columns).foldlM
    (fun board column => do sortLine key board (← grid.columnCells column)) board

/-- Sort every row. -/
def sortRows (grid : Grid) (key : Destination → Nat) (board : Board) : Except Fault Board :=
  (List.range grid.rows).foldlM
    (fun board row => do sortLine key board (← grid.rowCells row)) board

/-- Contents without an intermediate row sort after all others. -/
def Destination.intermediateKey (destination : Destination) : Nat :=
  destination.intermediateRow.getD (UInt32.size - 1)

/-- The three phases of sorting. -/
def sortPhases (grid : Grid) (records : Array Record) : Except Fault (List Swap) := do
  let board ← grid.sortColumns Destination.intermediateKey { records }
  let board ← grid.sortRows Destination.finalColumn board
  let board ← grid.sortColumns Destination.finalRow board
  return board.swaps

/-- The swaps that carry out a move, with the matchings taken in the order of a permutation. -/
def swapsFor (grid : Grid) (records : List Record) (matchings : List (List Nat))
    (permutation : List Nat) : Except Failure (List Swap) := do
  let records ← (List.range grid.columns).foldlM (grid.assignColumn matchings permutation)
    records.toArray
  Failure.ofChecked (grid.sortPhases records)

end QubitRouting.Grid
