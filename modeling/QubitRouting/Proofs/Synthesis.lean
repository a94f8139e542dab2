import QubitRouting.Proofs.LineSort
import QubitRouting.Proofs.RowMatching

/-!
# Three phases of sorting carry out a permutation

The matchings give every content an intermediate row. Once the columns are sorted by it, each row holds
one content per final column; once the rows are sorted, each content is in its final column; and once
the columns are sorted again, it is in its final cell.
-/

namespace QubitRouting.Grid

open scoped List

variable {grid : Grid} {d d' : Nat → Destination} {p : Nat}

/-! ### Rows and columns -/

/-- The cells of a column from top to bottom. -/
def column (grid : Grid) (c : Nat) : List Nat :=
  (List.range grid.rows).map fun r => r * grid.columns + c

/-- The cells of a row from left to right. -/
def row (grid : Grid) (r : Nat) : List Nat :=
  (List.range grid.columns).map fun c => r * grid.columns + c

/-- On a valid grid the cells of a column are computed without a fault. -/
lemma Valid.columnCells_eq (valid : grid.Valid) {c : Nat} (lt : c < grid.columns) :
    grid.columnCells c = .ok (grid.column c) :=
  Checked.mapM_eq_ok fun _ mem => valid.position_eq (List.mem_range.mp mem) lt

/-- On a valid grid the cells of a row are computed without a fault. -/
lemma Valid.rowCells_eq (valid : grid.Valid) {r : Nat} (lt : r < grid.rows) :
    grid.rowCells r = .ok (grid.row r) :=
  Checked.mapM_eq_ok fun _ mem => valid.position_eq lt (List.mem_range.mp mem)

/-- The cells of a grid split into lines: which line a cell is on, and where on it. -/
structure Lines (grid : Grid) (count length : Nat) (line : Nat → List Nat) (label index : Nat → Nat) :
    Prop where
  label_lt : ∀ p < grid.rows * grid.columns, label p < count
  mem_iff : ∀ i < count, ∀ {p}, p ∈ line i ↔ p < grid.rows * grid.columns ∧ label p = i
  nodup : ∀ i, (line i).Nodup
  length_eq : ∀ i, (line i).length = length
  index_lt : ∀ p < grid.rows * grid.columns, index p < length
  getElem?_index : ∀ p < grid.rows * grid.columns, (line (label p))[index p]? = some p

/-- The cells of a valid grid split into columns. -/
lemma Valid.columns (valid : grid.Valid) :
    Lines grid grid.columns grid.rows grid.column (· % grid.columns) (· / grid.columns) where
  label_lt p _ := Nat.mod_lt p valid.columns_pos
  mem_iff c lt p := by
    rw [column, List.mem_map]
    constructor
    · rintro ⟨r, mem, rfl⟩
      exact ⟨cell_lt (List.mem_range.mp mem) lt, cell_mod lt⟩
    · rintro ⟨within, rfl⟩
      exact ⟨p / grid.columns, List.mem_range.mpr (div_lt_rows within), cell_eta grid p⟩
  nodup c := List.nodup_range.map fun _ _ same =>
    Nat.eq_of_mul_eq_mul_right valid.columns_pos (Nat.add_right_cancel same)
  length_eq c := by simp [column]
  index_lt p lt := div_lt_rows lt
  getElem?_index p lt := by simp [column, div_lt_rows lt, cell_eta]

/-- The cells of a valid grid split into rows. -/
lemma Valid.rows (valid : grid.Valid) :
    Lines grid grid.rows grid.columns grid.row (· / grid.columns) (· % grid.columns) where
  label_lt p lt := div_lt_rows lt
  mem_iff r lt p := by
    rw [row, List.mem_map]
    constructor
    · rintro ⟨c, mem, rfl⟩
      have inColumns := List.mem_range.mp mem
      exact ⟨cell_lt lt inColumns, cell_div inColumns⟩
    · rintro ⟨_, rfl⟩
      exact ⟨p % grid.columns, List.mem_range.mpr (Nat.mod_lt p valid.columns_pos), cell_eta grid p⟩
  nodup r := List.nodup_range.map fun _ _ same => Nat.add_left_cancel same
  length_eq r := by simp [row]
  index_lt p _ := Nat.mod_lt p valid.columns_pos
  getElem?_index p _ := by simp [row, Nat.mod_lt p valid.columns_pos, cell_eta]

/-! ### Phases -/

variable {count length : Nat} {line : Nat → List Nat} {label index : Nat → Nat} {swaps : List Swap}

/-- How the destinations change when all lines of one direction are sorted: they are carried along the
swaps, which keep every cell on its line. -/
structure Phase (grid : Grid) (label : Nat → Nat) (swaps : List Swap) (d d' : Nat → Destination) :
    Prop where
  carried : ∀ p, d' (Swap.perm swaps p) = d p
  within : ∀ p < grid.rows * grid.columns, Swap.perm swaps p < grid.rows * grid.columns
  label_eq : ∀ p < grid.rows * grid.columns, label (Swap.perm swaps p) = label p

/-- Every content came from a cell of the same line. -/
lemma Phase.exists_source (phase : Phase grid label swaps d d') (lt : p < grid.rows * grid.columns) :
    ∃ q < grid.rows * grid.columns, Swap.perm swaps q = p ∧ label q = label p ∧ d' p = d q := by
  -- the swaps map the finitely many cells to themselves injectively, hence onto
  obtain ⟨q, mem, rfl⟩ := Finset.surj_on_of_inj_on_of_card_le
    (s := Finset.range (grid.rows * grid.columns)) (t := Finset.range (grid.rows * grid.columns))
    (fun q _ => Swap.perm swaps q)
    (fun q mem => Finset.mem_range.mpr (phase.within q (Finset.mem_range.mp mem)))
    (fun _ _ _ _ same => (Swap.perm swaps).injective same) (Nat.le_refl _) p (Finset.mem_range.mpr lt)
  have ltQ := Finset.mem_range.mp mem
  exact ⟨q, ltQ, rfl, (phase.label_eq q ltQ).symm, phase.carried q⟩

/-- One phase after the other, whatever their lines. -/
lemma Phase.trans {label' : Nat → Nat} {more : List Swap} {d'' : Nat → Destination}
    (first : Phase grid label swaps d d') (second : Phase grid label' more d' d'') :
    Phase grid (fun _ => 0) (swaps ++ more) d d'' := by
  refine ⟨?_, ?_, fun _ _ => rfl⟩
  · intro p
    rw [Swap.perm_append_apply, second.carried, first.carried]
  · intro p lt
    rw [Swap.perm_append_apply]
    exact second.within _ (first.within p lt)

/-- No two lines of one direction have a cell in common. -/
lemma Lines.apart (lines : Lines grid count length line label index) :
    (List.range count).Pairwise fun a b => (line a).Disjoint (line b) := by
  refine List.nodup_range.imp_of_mem ?_
  intro a b memA memB ne p inA inB
  obtain ⟨_, sameA⟩ := (lines.mem_iff a (List.mem_range.mp memA)).mp inA
  obtain ⟨_, sameB⟩ := (lines.mem_iff b (List.mem_range.mp memB)).mp inB
  exact ne (sameA.symm.trans sameB)

/-- Sorting all lines of one direction is a phase, and keys that number the cells of each line end in
order. -/
lemma Lines.sort_eq (lines : Lines grid count length line label index) (key : Destination → Nat)
    {cellsOf : Nat → Except Fault (List Nat)} (known : ∀ i < count, cellsOf i = .ok (line i))
    {board : Board} (holds : Holds board.records (grid.rows * grid.columns) d) :
    ∃ records d' swaps,
      (List.range count).foldlM (fun board i => do sortLine key board (← cellsOf i)) board
        = .ok ⟨records, board.swaps ++ swaps⟩ ∧
      Holds records (grid.rows * grid.columns) d' ∧ Phase grid label swaps d d' ∧
      swaps = ((List.range count).map line).flatMap
        (fun cells => lineSwaps cells (OddEven.sort key (cells.map d)).2) ∧
      ((∀ i < count, (line i).map (fun p => key (d p)) ~ List.range length) →
        ∀ p < grid.rows * grid.columns, key (d' p) = index p) := by
  obtain ⟨records, d', swaps, run, holds', sorted⟩ := sortLines_eq key
    (fun i mem => known i (List.mem_range.mp mem)) (fun i _ => lines.nodup i)
    (fun i mem p here => ((lines.mem_iff i (List.mem_range.mp mem)).mp here).1) lines.apart holds
  have isLine {p : Nat} (lt : p < grid.rows * grid.columns) :
      line (label p) ∈ (List.range count).map line :=
    List.mem_map_of_mem (List.mem_range.mpr (lines.label_lt p lt))
  have stays {p : Nat} (lt : p < grid.rows * grid.columns) :
      Swap.perm swaps p < grid.rows * grid.columns ∧ label (Swap.perm swaps p) = label p :=
    (lines.mem_iff _ (lines.label_lt p lt)).mp <|
      sorted.inside _ (isLine lt) p ((lines.mem_iff _ (lines.label_lt p lt)).mpr ⟨lt, rfl⟩)
  refine ⟨records, d', swaps, run, holds',
    ⟨sorted.carried, fun p lt => (stays lt).1, fun p lt => (stays lt).2⟩, sorted.swaps_eq, ?_⟩
  intro keys p lt
  have perm := keys _ (lines.label_lt p lt)
  rw [← lines.length_eq (label p)] at perm
  -- keys that number the cells of a line are in order after it is sorted
  have ordered : ((line (label p)).map fun p => key (d' p))[index p]?
      = (List.range (line (label p)).length)[index p]? := by
    rw [sorted.keys _ (isLine lt) perm]
  rw [List.getElem?_map, lines.getElem?_index p lt, lines.length_eq,
    List.getElem?_range (lines.index_lt p lt)] at ordered
  exact Option.some.inj ordered

/-- What the three phases need: final cells that are the targets of a permutation, intermediate rows
that number the cells of each column, and one content per final column in each intermediate row. -/
structure Prepared (grid : Grid) (targets : Nat → Nat) (between : Nat → Nat → Nat)
    (d : Nat → Destination) : Prop where
  targets_perm : (List.range (grid.rows * grid.columns)).map targets ~
    List.range (grid.rows * grid.columns)
  finalRow : ∀ p < grid.rows * grid.columns, (d p).finalRow = targets p / grid.columns
  finalColumn : ∀ p < grid.rows * grid.columns, (d p).finalColumn = targets p % grid.columns
  rows : ∀ c < grid.columns,
    (grid.column c).map (fun p => (d p).intermediateKey) ~ List.range grid.rows
  between_eq : ∀ p < grid.rows * grid.columns,
    (d p).finalColumn = between (d p).intermediateKey (p % grid.columns)
  between_perm : ∀ r < grid.rows,
    (List.range grid.columns).map (between r) ~ List.range grid.columns

variable {targets : Nat → Nat} {between : Nat → Nat → Nat}

/-- Targets are cells of the grid. -/
lemma Prepared.target_lt (prepared : Prepared grid targets between d)
    (lt : p < grid.rows * grid.columns) : targets p < grid.rows * grid.columns :=
  List.mem_range.mp (prepared.targets_perm.mem_iff.mp (List.mem_map_of_mem (List.mem_range.mpr lt)))

/-- No two contents have the same target. -/
lemma Prepared.target_inj (prepared : Prepared grid targets between d) {q : Nat}
    (ltP : p < grid.rows * grid.columns) (ltQ : q < grid.rows * grid.columns)
    (same : targets p = targets q) : p = q := by
  have nodup := prepared.targets_perm.nodup_iff.mpr List.nodup_range
  exact List.inj_on_of_nodup_map nodup (List.mem_range.mpr ltP) (List.mem_range.mpr ltQ) same

/-- Contents in their final columns number the cells of each column by their final rows. -/
lemma Prepared.finalRows_perm (prepared : Prepared grid targets between d) (valid : grid.Valid)
    (phase : Phase grid label swaps d d')
    (column_eq : ∀ p < grid.rows * grid.columns, (d' p).finalColumn = p % grid.columns) {c : Nat}
    (lt : c < grid.columns) :
    (grid.column c).map (fun p => (d' p).finalRow) ~ List.range grid.rows := by
  refine map_perm_range (valid.columns.length_eq c) (valid.columns.nodup c) ?_ ?_
  · intro p mem
    obtain ⟨within, _⟩ := (valid.columns.mem_iff c lt).mp mem
    obtain ⟨q, ltQ, _, _, same⟩ := phase.exists_source within
    rw [same, prepared.finalRow q ltQ]
    exact div_lt_rows (prepared.target_lt ltQ)
  · intro p mem p' mem' sameRow
    obtain ⟨within, inColumn⟩ := (valid.columns.mem_iff c lt).mp mem
    obtain ⟨within', inColumn'⟩ := (valid.columns.mem_iff c lt).mp mem'
    obtain ⟨q, ltQ, rfl, _, same⟩ := phase.exists_source within
    obtain ⟨q', ltQ', rfl, _, same'⟩ := phase.exists_source within'
    -- contents of one column that end in one row have the same target
    have sameColumn : targets q % grid.columns = targets q' % grid.columns := by
      rw [← prepared.finalColumn q ltQ, ← prepared.finalColumn q' ltQ', ← same, ← same',
        column_eq _ within, column_eq _ within']
      exact inColumn.trans inColumn'.symm
    rw [same, same', prepared.finalRow q ltQ, prepared.finalRow q' ltQ'] at sameRow
    rw [prepared.target_inj ltQ ltQ']
    rw [← cell_eta grid (targets q), ← cell_eta grid (targets q'), sameRow, sameColumn]

/-- The three phases carry every content to its target. -/
theorem Valid.sortPhases_eq (valid : grid.Valid) {records : Array Record}
    (holds : Holds records (grid.rows * grid.columns) d)
    (prepared : Prepared grid targets between d) :
    ∃ swaps, grid.sortPhases records = .ok swaps ∧
      ∀ p < grid.rows * grid.columns, Swap.perm swaps p = targets p := by
  have start : Holds (Board.mk records []).records (grid.rows * grid.columns) d := holds
  obtain ⟨records₁, d₁, swaps₁, run₁, holds₁, phase₁, _, keys₁⟩ := valid.columns.sort_eq
    Destination.intermediateKey (fun c lt => valid.columnCells_eq lt) start
  have row_eq := keys₁ prepared.rows
  -- a row now holds the contents that visit it, one of each column
  have between_eq : ∀ p < grid.rows * grid.columns,
      (d₁ p).finalColumn = between (p / grid.columns) (p % grid.columns) := by
    intro p lt
    obtain ⟨q, ltQ, rfl, label, same⟩ := phase₁.exists_source lt
    rw [← row_eq _ lt, same, prepared.between_eq q ltQ, label]
  obtain ⟨records₂, d₂, swaps₂, run₂, holds₂, phase₂, _, keys₂⟩ := valid.rows.sort_eq
    Destination.finalColumn (fun r lt => valid.rowCells_eq lt)
    (show Holds (Board.mk records₁ ([] ++ swaps₁)).records (grid.rows * grid.columns) d₁ from holds₁)
  -- a column now holds the contents that end there, though in any order
  have column_eq : ∀ p < grid.rows * grid.columns, (d₂ p).finalColumn = p % grid.columns := by
    apply keys₂
    intro r lt
    rw [row, List.map_map]
    refine List.Perm.trans (.of_eq (List.map_congr_left fun c mem => ?_)) (prepared.between_perm r lt)
    have inColumns := List.mem_range.mp mem
    change (d₁ (r * grid.columns + c)).finalColumn = _
    rw [between_eq _ (cell_lt lt inColumns), cell_div inColumns, cell_mod inColumns]
  have both := phase₁.trans phase₂
  obtain ⟨records₃, d₃, swaps₃, run₃, holds₃, phase₃, _, keys₃⟩ := valid.columns.sort_eq
    Destination.finalRow (fun c lt => valid.columnCells_eq lt)
    (show Holds (Board.mk records₂ ([] ++ swaps₁ ++ swaps₂)).records _ d₂ from holds₂)
  have finalRow_eq : ∀ p < grid.rows * grid.columns, (d₃ p).finalRow = p / grid.columns := by
    apply keys₃
    intro c lt
    exact prepared.finalRows_perm valid both column_eq lt
  have finalColumn_eq : ∀ p < grid.rows * grid.columns, (d₃ p).finalColumn = p % grid.columns := by
    intro p lt
    obtain ⟨q, ltQ, _, label, same⟩ := phase₃.exists_source lt
    rw [same, column_eq q ltQ]
    exact label
  refine ⟨[] ++ swaps₁ ++ swaps₂ ++ swaps₃, ?_, ?_⟩
  · apply Checked.bind_eq_ok.mpr
    refine ⟨_, run₁, Checked.bind_eq_ok.mpr ⟨_, run₂, Checked.bind_eq_ok.mpr ⟨_, run₃, rfl⟩⟩⟩
  · intro p lt
    have all := both.trans phase₃
    rw [List.nil_append]
    generalize place : Swap.perm (swaps₁ ++ swaps₂ ++ swaps₃) p = x
    have within : x < grid.rows * grid.columns := place ▸ all.within p lt
    have same : d₃ x = d p := place ▸ all.carried p
    have sameRow : x / grid.columns = targets p / grid.columns := by
      rw [← finalRow_eq x within, same, prepared.finalRow p lt]
    have sameColumn : x % grid.columns = targets p % grid.columns := by
      rw [← finalColumn_eq x within, same, prepared.finalColumn p lt]
    rw [← cell_eta grid x, ← cell_eta grid (targets p), sameRow, sameColumn]

/-! ### Swaps of neighbours -/

/-- Swaps between neighbouring cells of the grid. -/
def Neighbouring (grid : Grid) (swaps : List Swap) : Prop :=
  ∀ swap ∈ swaps, grid.adjacent swap.1 swap.2 = .ok true ∧
    swap.1 < grid.rows * grid.columns ∧ swap.2 < grid.rows * grid.columns

/-- A step of a line goes from some place to the next one. -/
lemma exists_getElem?_of_mem_steps {cells : List Nat} {swap : Swap}
    (mem : swap ∈ cells.zip cells.tail) :
    ∃ i : Nat, cells[i]? = some swap.1 ∧ cells[i + 1]? = some swap.2 := by
  obtain ⟨i, here⟩ := List.getElem?_of_mem mem
  rw [List.getElem?_zip_eq_some, List.getElem?_tail] at here
  exact ⟨i, here⟩

/-- The steps along a column are between neighbours. -/
lemma column_neighbouring (c : Nat) (lt : c < grid.columns) :
    Neighbouring grid ((grid.column c).zip (grid.column c).tail) := by
  rintro ⟨a, b⟩ mem
  obtain ⟨i, first, second⟩ := exists_getElem?_of_mem_steps mem
  rw [column, List.getElem?_map, Option.map_eq_some_iff] at first second
  obtain ⟨r, row, rfl⟩ := first
  obtain ⟨r', row', rfl⟩ := second
  obtain ⟨_, rfl⟩ := List.getElem?_eq_some_iff.mp row
  obtain ⟨more, rfl⟩ := List.getElem?_eq_some_iff.mp row'
  rw [List.length_range] at more
  rw [List.getElem_range, List.getElem_range]
  refine ⟨?_, cell_lt (by omega) lt, cell_lt more lt⟩
  have below : (i + 1) * grid.columns + c = i * grid.columns + c + grid.columns := by
    rw [Nat.succ_mul]
    omega
  rw [below]
  exact adjacent_below

/-- The steps along a row are between neighbours. -/
lemma row_neighbouring (r : Nat) (lt : r < grid.rows) :
    Neighbouring grid ((grid.row r).zip (grid.row r).tail) := by
  rintro ⟨a, b⟩ mem
  obtain ⟨i, first, second⟩ := exists_getElem?_of_mem_steps mem
  rw [row, List.getElem?_map, Option.map_eq_some_iff] at first second
  obtain ⟨c, column, rfl⟩ := first
  obtain ⟨c', column', rfl⟩ := second
  obtain ⟨_, rfl⟩ := List.getElem?_eq_some_iff.mp column
  obtain ⟨more, rfl⟩ := List.getElem?_eq_some_iff.mp column'
  rw [List.length_range] at more
  rw [List.getElem_range, List.getElem_range]
  exact ⟨adjacent_right more, cell_lt lt (by omega), cell_lt lt more⟩

/-- Sorting a line whose steps are between neighbours swaps neighbours only. -/
lemma sortLine_neighbouring {key : Destination → Nat} {board board' : Board} {cells : List Nat}
    (steps : Neighbouring grid (cells.zip cells.tail)) (before : Neighbouring grid board.swaps)
    (run : sortLine key board cells = .ok board') : Neighbouring grid board'.swaps := by
  rw [sortLine] at run
  split at run
  · cases run
    exact before
  · obtain ⟨destinations, _, run⟩ := Checked.bind_eq_ok.mp run
    cases run
    intro swap mem
    rcases List.mem_append.mp mem with mem | mem
    · exact before swap mem
    · obtain ⟨i, _, found⟩ := List.mem_filterMap.mp mem
      exact steps swap (List.mem_of_getElem? found)

/-- Sorting lines of neighbours swaps neighbours only. -/
lemma sortLines_neighbouring {key : Destination → Nat} {board board' : Board}
    {cellsOf : Nat → Except Fault (List Nat)} (known : ∀ i < count, cellsOf i = .ok (line i))
    (steps : ∀ i < count, Neighbouring grid ((line i).zip (line i).tail))
    (before : Neighbouring grid board.swaps)
    (run : (List.range count).foldlM (fun board i => do sortLine key board (← cellsOf i)) board
      = .ok board') : Neighbouring grid board'.swaps := by
  refine Checked.foldlM_keeps (fun board => Neighbouring grid board.swaps) ?_ before run
  intro i mem board board' before run
  have lt := List.mem_range.mp mem
  obtain ⟨cells, here, run⟩ := Checked.bind_eq_ok.mp run
  rw [known i lt] at here
  obtain rfl := Except.ok.inj here
  exact sortLine_neighbouring (steps i lt) before run

/-- The swaps of the three phases are between neighbours, whatever the destinations. -/
lemma Valid.sortPhases_neighbouring (valid : grid.Valid) {records : Array Record}
    (run : grid.sortPhases records = .ok swaps) : Neighbouring grid swaps := by
  obtain ⟨board₁, run₁, run⟩ := Checked.bind_eq_ok.mp run
  obtain ⟨board₂, run₂, run⟩ := Checked.bind_eq_ok.mp run
  obtain ⟨board₃, run₃, run⟩ := Checked.bind_eq_ok.mp run
  cases run
  have columns : ∀ c < grid.columns, grid.columnCells c = .ok (grid.column c) :=
    fun c lt => valid.columnCells_eq lt
  have rows : ∀ r < grid.rows, grid.rowCells r = .ok (grid.row r) := fun r lt => valid.rowCells_eq lt
  have start : Neighbouring grid (Board.mk records []).swaps := by
    intro swap mem
    cases mem
  have after₁ := sortLines_neighbouring columns column_neighbouring start run₁
  have after₂ := sortLines_neighbouring rows row_neighbouring after₁ run₂
  exact sortLines_neighbouring columns column_neighbouring after₂ run₃

end QubitRouting.Grid
