import Mathlib.Tactic
import QubitRouting.Topology

/-!
# The snake runs through neighbours

On a grid whose positions fit a word no computation breaks down. Consecutive cells of a row or of a
column are neighbours, and so are consecutive positions of the snake.
-/

namespace QubitRouting

namespace Chain

variable {chain : Chain} {a b : Nat}

/-- Being neighbours on a chain is mutual. -/
lemma adjacent_comm : chain.adjacent a b = chain.adjacent b a := by
  rw [adjacent, adjacent, Nat.max_comm, Nat.min_comm]

/-- A position of a chain is a neighbour of the next one. -/
lemma adjacent_succ : chain.adjacent a (a + 1) = true := by
  simp [adjacent]

end Chain

namespace Grid

/-- A grid that has cells, all of which can be numbered. -/
structure Valid (grid : Grid) : Prop where
  rows_pos : 0 < grid.rows
  columns_pos : 0 < grid.columns
  small : grid.rows * grid.columns < 2 ^ 32

variable {grid : Grid} {a b p row column : Nat}

/-- The cells of a valid grid can be numbered. -/
lemma Valid.numQubits_eq (valid : grid.Valid) : grid.numQubits = .ok (grid.rows * grid.columns) :=
  word32_of_lt valid.small

/-- The coordinates of a position are its quotient and its remainder by the number of columns. -/
lemma Valid.coordinates_eq (valid : grid.Valid) (p : Nat) :
    grid.coordinates p = .ok (p / grid.columns, p % grid.columns) :=
  if_neg (Nat.ne_of_gt valid.columns_pos)

/-- A row and a column of the grid meet in a cell. -/
lemma cell_lt (inRows : row < grid.rows) (inColumns : column < grid.columns) :
    row * grid.columns + column < grid.rows * grid.columns := by
  calc row * grid.columns + column
    _ < row * grid.columns + grid.columns := Nat.add_lt_add_left inColumns _
    _ = (row + 1) * grid.columns := (Nat.succ_mul row grid.columns).symm
    _ ≤ grid.rows * grid.columns := Nat.mul_le_mul_right _ inRows

/-- The row of a cell is found again from its number. -/
lemma cell_div (inColumns : column < grid.columns) :
    (row * grid.columns + column) / grid.columns = row := by
  rw [Nat.mul_comm, Nat.mul_add_div (Nat.zero_lt_of_lt inColumns), Nat.div_eq_of_lt inColumns,
    Nat.add_zero]

/-- The column of a cell is found again from its number. -/
lemma cell_mod (inColumns : column < grid.columns) :
    (row * grid.columns + column) % grid.columns = column := by
  rw [Nat.mul_comm, Nat.mul_add_mod, Nat.mod_eq_of_lt inColumns]

/-- Every position is the cell of its row and column. -/
lemma cell_eta (grid : Grid) (p : Nat) : p / grid.columns * grid.columns + p % grid.columns = p := by
  rw [Nat.mul_comm]
  exact Nat.div_add_mod p grid.columns

/-- A cell is in a row of the grid. -/
lemma div_lt_rows (lt : p < grid.rows * grid.columns) : p / grid.columns < grid.rows :=
  Nat.div_lt_of_lt_mul (Nat.mul_comm grid.rows grid.columns ▸ lt)

/-- The position of a cell is computed without a fault. -/
lemma Valid.position_eq (valid : grid.Valid) (inRows : row < grid.rows)
    (inColumns : column < grid.columns) :
    grid.position row column = .ok (row * grid.columns + column) := by
  have fits : row * grid.columns + column < UInt32.size := (cell_lt inRows inColumns).trans valid.small
  have below : row * grid.columns < UInt32.size := (Nat.le_add_right _ column).trans_lt fits
  rw [position, word32_of_lt below]
  exact word32_of_lt fits

/-! ### Neighbours -/

/-- Being neighbours on a grid is mutual. -/
lemma adjacent_comm : grid.adjacent a b = grid.adjacent b a := by
  rw [adjacent, adjacent, Nat.max_comm, Nat.min_comm]

/-- Whether two positions are neighbours is always known. -/
lemma Valid.exists_adjacent (valid : grid.Valid) (a b : Nat) : ∃ answer, grid.adjacent a b = .ok answer := by
  rw [adjacent, if_neg (Nat.ne_of_gt valid.columns_pos)]
  split
  · exact ⟨_, rfl⟩
  · split
    · exact ⟨_, rfl⟩
    · exact ⟨_, rfl⟩

/-- A cell is a neighbour of the one below. -/
lemma adjacent_below : grid.adjacent p (p + grid.columns) = .ok true := by
  have distance : max p (p + grid.columns) - min p (p + grid.columns) = grid.columns := by omega
  rw [adjacent, if_pos distance]

/-- A cell is a neighbour of the one to its right. -/
lemma adjacent_right (inColumns : column + 1 < grid.columns) :
    grid.adjacent (row * grid.columns + column) (row * grid.columns + (column + 1)) = .ok true := by
  have high : max (row * grid.columns + column) (row * grid.columns + (column + 1))
      = row * grid.columns + (column + 1) := by
    omega
  have low : min (row * grid.columns + column) (row * grid.columns + (column + 1))
      = row * grid.columns + column := by
    omega
  rw [adjacent, high, low, cell_mod inColumns, if_neg (by omega), if_pos (by omega),
    if_neg (by omega)]
  rfl

/-! ### The snake -/

/-- The position at an index of the snake. -/
def snake (grid : Grid) (index : Nat) : Nat :=
  if index / grid.columns % 2 = 0 then index
  else index / grid.columns * grid.columns + (grid.columns - 1 - index % grid.columns)

/-- The snake runs along even rows from left to right. -/
lemma snake_even (inColumns : column < grid.columns) (even : row % 2 = 0) :
    grid.snake (row * grid.columns + column) = row * grid.columns + column := by
  rw [snake, cell_div inColumns, if_pos even]

/-- The snake runs along odd rows from right to left. -/
lemma snake_odd (inColumns : column < grid.columns) (odd : row % 2 = 1) :
    grid.snake (row * grid.columns + column) = row * grid.columns + (grid.columns - 1 - column) := by
  rw [snake, cell_div inColumns, cell_mod inColumns, if_neg (by omega)]

/-- Reversing the odd rows follows the snake. -/
lemma Valid.reverseOddRows_eq (valid : grid.Valid) (lt : p < grid.rows * grid.columns) :
    grid.reverseOddRows p = .ok (grid.snake p) := by
  rw [reverseOddRows, valid.coordinates_eq, snake]
  by_cases even : p / grid.columns % 2 = 0
  · rw [if_pos even]
    change (if p / grid.columns % 2 = 0 then _ else _) = _
    rw [if_pos even]
    rfl
  · rw [if_neg even]
    change (if p / grid.columns % 2 = 0 then _ else _) = _
    rw [if_neg even]
    have := valid.columns_pos
    exact valid.position_eq (div_lt_rows lt) (by omega)

/-- The snake stays on the grid. -/
lemma Valid.snake_lt (valid : grid.Valid) (lt : p < grid.rows * grid.columns) :
    grid.snake p < grid.rows * grid.columns := by
  rw [snake]
  split
  · exact lt
  · have := valid.columns_pos
    exact cell_lt (div_lt_rows lt) (by omega)

/-- Running along the snake twice leads back. -/
lemma Valid.snake_snake (valid : grid.Valid) (p : Nat) : grid.snake (grid.snake p) = p := by
  have inColumns : p % grid.columns < grid.columns := Nat.mod_lt p valid.columns_pos
  rw [← cell_eta grid p]
  rcases Nat.mod_two_eq_zero_or_one (p / grid.columns) with even | odd
  · rw [snake_even inColumns even, snake_even inColumns even]
  · rw [snake_odd inColumns odd, snake_odd (by omega) odd]
    omega

/-- The snake comes through no cell twice. -/
lemma Valid.snake_inj (valid : grid.Valid) (same : grid.snake a = grid.snake b) : a = b := by
  rw [← valid.snake_snake a, same, valid.snake_snake]

/-- The snake only ever steps to a neighbour. -/
lemma Valid.snake_adjacent (valid : grid.Valid) (p : Nat) :
    grid.adjacent (grid.snake p) (grid.snake (p + 1)) = .ok true := by
  have inColumns : p % grid.columns < grid.columns := Nat.mod_lt p valid.columns_pos
  have eta : p / grid.columns * grid.columns + p % grid.columns = p := cell_eta grid p
  generalize p / grid.columns = row at eta
  generalize p % grid.columns = column at eta inColumns
  subst eta
  by_cases more : column + 1 < grid.columns
  · -- within a row, the direction depends on the row
    rw [Nat.add_assoc]
    rcases Nat.mod_two_eq_zero_or_one row with even | odd
    · rw [snake_even inColumns even, snake_even more even]
      exact adjacent_right more
    · rw [snake_odd inColumns odd, snake_odd more odd, adjacent_comm]
      have back : grid.columns - 1 - column = grid.columns - 1 - (column + 1) + 1 := by omega
      rw [back]
      exact adjacent_right (by omega)
  · -- at the end of a row, the next one begins right below
    have last : column = grid.columns - 1 := by omega
    have next : row * grid.columns + column + 1 = (row + 1) * grid.columns + 0 := by
      rw [Nat.succ_mul]
      omega
    have below : row * grid.columns + column + grid.columns
        = (row + 1) * grid.columns + (grid.columns - 1 - 0) := by
      rw [Nat.succ_mul]
      omega
    rw [next]
    rcases Nat.mod_two_eq_zero_or_one row with even | odd
    · rw [snake_even inColumns even, snake_odd valid.columns_pos (by omega), ← below]
      exact adjacent_below
    · rw [snake_odd inColumns odd, snake_even valid.columns_pos (by omega)]
      have above : (row + 1) * grid.columns + 0
          = row * grid.columns + (grid.columns - 1 - column) + grid.columns := by
        rw [Nat.succ_mul]
        omega
      rw [above]
      exact adjacent_below

end Grid

end QubitRouting
