import Mathlib.Data.Nat.Dist
import QubitRouting.Proofs.Machine.Router

/-!
# Neighbours on a grid and along its snake

Two cells of a grid are neighbours exactly if one step along a row or a column leads from one to the
other. The snake numbers all cells without a computation breaking down, its two directions undo each
other, and it only ever takes such a step.
-/

namespace QubitRouting.Grid

variable {grid : Grid} {a b : Nat}

/-- How many steps along the rows and the columns lead from one cell to another. -/
def distance (grid : Grid) (a b : Nat) : Nat :=
  Nat.dist (a / grid.columns) (b / grid.columns) + Nat.dist (a % grid.columns) (b % grid.columns)

/-- The way back is as long as the way there. -/
lemma distance_comm (grid : Grid) (a b : Nat) : grid.distance a b = grid.distance b a := by
  rw [distance, distance, Nat.dist_comm, Nat.dist_comm (a % grid.columns)]

/-- One step leads to the cell below, or to the next one unless that begins a row. -/
lemma distance_eq_one_iff (columns_pos : 0 < grid.columns) (le : a ≤ b) :
    grid.distance a b = 1 ↔ b = a + grid.columns ∨ b = a + 1 ∧ b % grid.columns ≠ 0 := by
  have etaA := cell_eta grid a
  have etaB := cell_eta grid b
  rw [distance, Nat.dist, Nat.dist]
  constructor
  · intro one
    -- one of the two coordinates is shared, and the other one of `b` is one more
    rcases Nat.lt_trichotomy (a / grid.columns) (b / grid.columns) with less | same | greater
    · left
      have row : b / grid.columns = a / grid.columns + 1 := by omega
      have column : b % grid.columns = a % grid.columns := by omega
      rw [row, column, Nat.succ_mul] at etaB
      omega
    · right
      rw [← same] at etaB
      omega
    · have upwards : (b / grid.columns + 1) * grid.columns ≤ a / grid.columns * grid.columns :=
        Nat.mul_le_mul_right _ greater
      have column := Nat.mod_lt b columns_pos
      rw [Nat.succ_mul] at upwards
      omega
  · rintro (rfl | ⟨rfl, inside⟩)
    · rw [Nat.add_div_right a columns_pos, Nat.add_mod_right]
      omega
    · have row : (a + 1) / grid.columns = a / grid.columns :=
        Nat.succ_div_of_not_dvd fun divides => inside (Nat.mod_eq_zero_of_dvd divides)
      rw [row] at etaB ⊢
      omega

/-- Cells are neighbours exactly if one step leads from one to the other. -/
lemma Valid.adjacent_eq (valid : grid.Valid) (a b : Nat) :
    grid.adjacent a b = .ok (decide (grid.distance a b = 1)) := by
  wlog le : a ≤ b generalizing a b
  · rw [adjacent_comm, distance_comm]
    exact this b a (Nat.le_of_not_le le)
  rw [adjacent, Nat.max_eq_right le, Nat.min_eq_left le, if_neg (Nat.ne_of_gt valid.columns_pos)]
  have one := distance_eq_one_iff valid.columns_pos le
  split
  · next below =>
    rw [decide_eq_true (one.mpr (.inl (by omega)))]
  · next elsewhere =>
    split
    · next side =>
      congr 1
      rw [Bool.eq_iff_iff, bne_iff_ne, decide_eq_true_iff, one]
      omega
    · next apart =>
      rw [decide_eq_false]
      omega

/-- The cells of a grid, if they can be numbered, are numbered along the snake without a computation
breaking down. The two directions undo each other, the snake only steps to neighbours, and neighbours are
the cells one step along a row or a column apart. -/
theorem snake_numbers_cells {grid : Grid} (rows_pos : 0 < grid.rows) (columns_pos : 0 < grid.columns)
    (small : grid.rows * grid.columns < 2 ^ 32) :
    (∀ i < grid.rows * grid.columns, ∃ p < grid.rows * grid.columns,
      grid.ofSnake i = .ok p ∧ Machine.reverseOddRows grid i = .ok p ∧ grid.toSnake p = .ok i) ∧
    (∀ p < grid.rows * grid.columns, ∃ i < grid.rows * grid.columns,
      grid.toSnake p = .ok i ∧ Machine.reverseOddRows grid p = .ok i ∧ grid.ofSnake i = .ok p) ∧
    (∀ i, i + 1 < grid.rows * grid.columns → ∃ p q, grid.ofSnake i = .ok p ∧
      grid.ofSnake (i + 1) = .ok q ∧ grid.adjacent p q = .ok true) ∧
    ∀ a < grid.rows * grid.columns, ∀ b < grid.rows * grid.columns,
      ∃ row column row' column', grid.coordinates a = .ok (row, column) ∧
        grid.coordinates b = .ok (row', column') ∧
        grid.adjacent a b = .ok (decide (Nat.dist row row' + Nat.dist column column' = 1)) := by
  have valid : grid.Valid := ⟨rows_pos, columns_pos, small⟩
  have there_and_back {p : Nat} (lt : p < grid.rows * grid.columns) :
      ∃ q < grid.rows * grid.columns, grid.reverseOddRows p = .ok q ∧
        Machine.reverseOddRows grid p = .ok q ∧ grid.reverseOddRows q = .ok p := by
    refine ⟨grid.snake p, valid.snake_lt lt, valid.reverseOddRows_eq lt,
      Machine.reverseOddRows_eq valid lt, ?_⟩
    rw [valid.reverseOddRows_eq (valid.snake_lt lt), valid.snake_snake]
  refine ⟨fun i lt => there_and_back lt, fun p lt => there_and_back lt, ?_, ?_⟩
  · intro i lt
    exact ⟨_, _, valid.reverseOddRows_eq (Nat.lt_of_succ_lt lt), valid.reverseOddRows_eq lt,
      valid.snake_adjacent i⟩
  · intro a _ b _
    exact ⟨_, _, _, _, valid.coordinates_eq a, valid.coordinates_eq b, valid.adjacent_eq a b⟩

/-- The snake at a turn of the largest grid that is all but square: the last cell of a row and the one
below it. -/
theorem snake_numbers_cells_at_turn :
    let grid : Grid := ⟨65535, 65537⟩
    (∃ p q, grid.ofSnake 65536 = .ok p ∧ grid.ofSnake 65537 = .ok q ∧ grid.adjacent p q = .ok true) ∧
      grid.ofSnake 65537 = .ok 131073 ∧ (∃ i, grid.toSnake 131073 = .ok i ∧ grid.ofSnake i = .ok 131073) := by
  intro grid
  obtain ⟨_, back, steps, _⟩ := @snake_numbers_cells grid (by decide) (by decide) (by decide)
  obtain ⟨i, _, there, _, here⟩ := back 131073 (by decide)
  exact ⟨steps 65536 (by decide), by decide, i, there, here⟩

end QubitRouting.Grid
