import QubitRouting.Error
import QubitRouting.Matching
import QubitRouting.Topology

/-!
# Row matchings

Every cell of a grid sends its content from its column to a destination column. If every column
receives as many as it has rows, the moves split into as many perfect matchings of columns with
columns as there are rows. Each matching says what one intermediate row holds.
-/

namespace QubitRouting.Grid

/-- A move between columns: where from and where to. -/
abbrev ColumnMove := Nat × Nat

/-- The moves of all cells, row by row. The column of a cell is that of the low 32 bits of its number. -/
def columnMoves (grid : Grid) (finalColumns : List Nat) : Except Failure (List ColumnMove) :=
  finalColumns.zipIdx.mapM fun (destination, cell) => do
    let (_, column) ← Failure.ofChecked (grid.coordinates (cell % UInt32.size))
    if destination < grid.columns then return (column, destination)
    else throw (.error (.matching (.outsideGrid destination)))

/-- The bipartite graph of the moves: sources come first, destinations after them, and neighbours are
listed from the last one down. -/
def moveGraph (columns : Nat) (moves : List ColumnMove) : Graph :=
  let descending := (List.range columns).reverse
  let destinations (source : Nat) :=
    (descending.filter fun destination => (source, destination) ∈ moves).map (columns + ·)
  let sources (destination : Nat) :=
    descending.filter fun source => (source, destination) ∈ moves
  ⟨((List.range columns).map destinations ++ (List.range columns).map sources).toArray⟩

/-- Take one move between two columns out of the list. -/
def takeMove (moves : List ColumnMove) (move : ColumnMove) : Except Fault (List ColumnMove) :=
  if move ∈ moves then .ok (moves.erase move) else .error .overflow

/-- The destination a matching gives to each source column, and the moves that are left. -/
def matchColumns (columns round : Nat) (mates : Graph.Mates) :
    List Nat → List ColumnMove → Except Failure (List Nat × List ColumnMove)
  | [], moves => .ok ([], moves)
  | source :: sources, moves =>
    match mates.find? source with
    | some mate =>
      if columns ≤ mate then do
        let moves ← Failure.ofChecked (takeMove moves (source, mate - columns))
        let (destinations, moves) ← matchColumns columns round mates sources moves
        return ((mate - columns) :: destinations, moves)
      else .error (.error (.matching (.noPerfectMatching round)))
    | none => .error (.error (.matching (.noPerfectMatching round)))

/-- As many rounds of matching as asked for, counted from the given round on. -/
def matchingRounds (columns : Nat) : Nat → Nat → List ColumnMove → Except Failure (List (List Nat))
  | 0, _, _ => .ok []
  | count + 1, round, moves => do
    let mates := (moveGraph columns moves).maximumMatching
    let (destinations, moves) ← matchColumns columns round mates (List.range columns) moves
    let rest ← matchingRounds columns count (round + 1) moves
    return destinations :: rest

/-- The moves split into one matching per row. `finalColumns` lists the destination column of every
cell, row by row; each matching lists the destination of every source column. -/
def rowMatchings (grid : Grid) (finalColumns : List Nat) : Except Failure (List (List Nat)) := do
  let moves ← grid.columnMoves finalColumns
  matchingRounds grid.columns grid.rows 0 moves

end QubitRouting.Grid
