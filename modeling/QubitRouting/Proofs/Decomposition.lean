import QubitRouting.Proofs.RowMatching

/-!
# Which moves split into matchings

A round of matching takes one move out of every column, or it reports that there is no perfect matching. As
many rounds as rows use up the moves of all cells, so they succeed exactly if as many moves leave and as
many enter every column as there are rows. The first holds unless the numbers of the cells overrun a word
that rows do not fill evenly; the second is up to the destinations.
-/

namespace QubitRouting.Grid

open QubitRouting.Graph
open scoped List

variable {grid : Grid} {columns c d : Nat} {moves : List ColumnMove} {finalColumns : List Nat}
  {matchings : List (List Nat)}

/-- Every destination is a column, and every column is the destination of as many cells as there are
rows. -/
structure Balanced (grid : Grid) (finalColumns : List Nat) : Prop where
  within : ∀ d ∈ finalColumns, d < grid.columns
  arriving : ∀ d < grid.columns, finalColumns.count d = grid.rows

/-- Cutting the numbers of cells to 32 bits keeps their columns: all of them fit, or rows fill the word
evenly. -/
def WordAligned (grid : Grid) : Prop :=
  grid.rows * grid.columns ≤ 2 ^ 32 ∨ grid.columns ∣ 2 ^ 32

instance (grid : Grid) : Decidable grid.WordAligned :=
  inferInstanceAs (Decidable (_ ∨ _))

section Word

variable {word columns n p : Nat}

end Word

/-- In an aligned grid the column of a cell is that of its number. -/
lemma WordAligned.column_eq (aligned : grid.WordAligned) {p : Nat} (lt : p < grid.rows * grid.columns) :
    p % UInt32.size % grid.columns = p % grid.columns := by
  rcases aligned with fits | even
  · have small : p < UInt32.size := lt.trans_le fits
    rw [Nat.mod_eq_of_lt small]
  · exact Nat.mod_mod_of_dvd p even

/-! ### The moves of the cells -/

/-- The moves of all cells of a grid whose cells have the listed destinations. -/
def cellMoves (grid : Grid) (finalColumns : List Nat) : List ColumnMove :=
  (List.range (grid.rows * grid.columns)).map fun p =>
    (p % UInt32.size % grid.columns, finalColumns.getD p 0)

/-- A list is read back entry by entry. -/
lemma map_getD_range (items : List Nat) : (List.range items.length).map (items.getD · 0) = items := by
  apply List.ext_getElem
  · simp
  · intro i _ lt
    simp [List.getElem?_eq_getElem lt]

/-- In an aligned grid a cell moves from the column it is in. -/
lemma WordAligned.cellMoves_eq (aligned : grid.WordAligned) (finalColumns : List Nat) :
    grid.cellMoves finalColumns = (List.range (grid.rows * grid.columns)).map fun p =>
      (p % grid.columns, finalColumns.getD p 0) :=
  List.map_congr_left fun p mem => by rw [aligned.column_eq (List.mem_range.mp mem)]

/-- The cells move to their destinations. -/
lemma map_snd_cellMoves (length : finalColumns.length = grid.rows * grid.columns) :
    (grid.cellMoves finalColumns).map Prod.snd = finalColumns := by
  rw [cellMoves, List.map_map, ← length]
  exact map_getD_range finalColumns

/-- In an aligned grid balanced destinations move regularly. -/
lemma Balanced.regular (balanced : grid.Balanced finalColumns) (aligned : grid.WordAligned)
    (positive : 0 < grid.columns) (length : finalColumns.length = grid.rows * grid.columns) :
    Regular grid.columns grid.rows (grid.cellMoves finalColumns) := by
  have destinations := map_snd_cellMoves length
  refine ⟨?_, ?_, ?_⟩
  · intro move mem
    refine ⟨?_, balanced.within move.2 ?_⟩
    · obtain ⟨p, _, rfl⟩ := List.mem_map.mp mem
      exact Nat.mod_lt _ positive
    · rw [← destinations]
      exact List.mem_map_of_mem mem
  · intro c lt
    rw [aligned.cellMoves_eq, List.map_map]
    exact count_column lt
  · intro d lt
    rw [destinations]
    exact balanced.arriving d lt

/-! ### Matchings and the moves they use up -/

section Matchings

variable (perms : ∀ destinations ∈ matchings, destinations ~ List.range columns)
include perms

end Matchings

end QubitRouting.Grid
