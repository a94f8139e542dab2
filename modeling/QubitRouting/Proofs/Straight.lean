import QubitRouting.Proofs.Search

/-!
# Moves along lines

When every content stays in its column, it visits its final row between the phases, whatever the order of
the matchings: the first phase does it all, and the other two find nothing to sort. A grid of one row has
nothing but the second phase. So on a grid of one row or one column the search finds the swaps of a
chain, and where nothing has to move it finds none.
-/

namespace QubitRouting

open scoped List

/-- The only numbering that keeps an order is the one by that order. -/
lemma eq_of_increasing {cells : List Nat} {f g : Nat → Nat} {n : Nat} (perm : cells.map f ~ List.range n)
    (within : ∀ p ∈ cells, g p < n)
    (increasing : ∀ p ∈ cells, ∀ q ∈ cells, f p < f q → g p < g q) {p : Nat} (mem : p ∈ cells) :
    g p = f p := by
  have exists_of_lt {i : Nat} (lt : i < n) : ∃ q ∈ cells, f q = i :=
    List.mem_map.mp (perm.mem_iff.mpr (List.mem_range.mpr lt))
  have bounded : ∀ q ∈ cells, f q < n :=
    fun q mem => List.mem_range.mp (perm.mem_iff.mp (List.mem_map_of_mem mem))
  -- from the bottom up, no number is too small
  have lower : ∀ i, ∀ q ∈ cells, f q = i → i ≤ g q := by
    intro i
    induction i with
    | zero => exact fun q _ _ => Nat.zero_le _
    | succ i ih =>
      intro q memQ same
      have lt := bounded q memQ
      obtain ⟨r, memR, before⟩ := exists_of_lt (show i < n by omega)
      have := ih r memR before
      have := increasing r memR q memQ (by omega)
      omega
  -- from the top down, none is too large
  have upper : ∀ k, ∀ q ∈ cells, f q + k + 1 = n → g q + k + 1 ≤ n := by
    intro k
    induction k with
    | zero => exact fun q memQ _ => within q memQ
    | succ k ih =>
      intro q memQ same
      obtain ⟨r, memR, after⟩ := exists_of_lt (show f q + 1 < n by omega)
      have := ih r memR (by omega)
      have := increasing q memQ r memR (by omega)
      omega
  have lt := bounded p mem
  have := lower (f p) p mem rfl
  have := upper (n - 1 - f p) p mem (by omega)
  omega

namespace Grid

variable {grid : Grid} {d d' : Nat → Destination} {cells wanted : List Nat} {lines : List (List Nat)}
  {key : Destination → Nat}

/-- Contents that all go to one column are given their final rows. -/
lemma Assigned.intermediateKey_eq (assigned : Assigned cells wanted wanted.length d)
    (oneColumn : ∀ p ∈ cells, ∀ q ∈ cells, (d p).finalColumn = (d q).finalColumn)
    (rows : cells.map (fun p => (d p).finalRow) ~ List.range wanted.length) {p : Nat} (mem : p ∈ cells) :
    (d p).intermediateKey = (d p).finalRow := by
  refine eq_of_increasing (g := fun p => (d p).intermediateKey) rows ?_ ?_ mem
  · intro q memQ
    exact assigned.lt_of_visits memQ (assigned.intermediateRow_eq memQ)
  · intro q memQ r memR less
    obtain ⟨row, before, visits⟩ := assigned.ordered q memQ r memR (oneColumn q memQ r memR) less
      (assigned.intermediateRow_eq memR)
    rw [assigned.intermediateRow_eq memQ] at visits
    exact Option.some.inj visits ▸ before

/-- Lines in order need no swaps. -/
lemma lineSwaps_of_sorted
    (sorted : ∀ cells ∈ lines, (cells.map fun p => key (d p)).Pairwise (· ≤ ·)) :
    lines.flatMap (fun cells => lineSwaps cells (OddEven.sort key (cells.map d)).2) = [] := by
  apply List.flatMap_eq_nil_iff.mpr
  intro cells mem
  have inOrder : (cells.map d).Pairwise (key · ≤ key ·) :=
    List.pairwise_map.mpr (List.pairwise_map.mp (sorted cells mem))
  rw [OddEven.sort_of_sorted inOrder]
  rfl

/-- The rows of the cells of a column are in order. -/
lemma column_sorted {f : Nat → Nat} {c : Nat} (lt : c < grid.columns)
    (rows : ∀ p < grid.rows * grid.columns, f p = p / grid.columns) :
    ((grid.column c).map f).Pairwise (· ≤ ·) := by
  have ascending : (grid.column c).map f = List.range grid.rows := by
    rw [column, List.map_map]
    refine (List.map_congr_left fun r mem => ?_).trans (List.map_id _)
    have inRows := List.mem_range.mp mem
    rw [Function.comp_apply, rows _ (cell_lt inRows lt), cell_div lt]
    rfl
  rw [ascending]
  exact List.pairwise_lt_range.imp Nat.le_of_lt

/-- The columns of the cells of a row are in order. -/
lemma row_sorted {f : Nat → Nat} {r : Nat} (lt : r < grid.rows)
    (columns : ∀ p < grid.rows * grid.columns, f p = p % grid.columns) :
    ((grid.row r).map f).Pairwise (· ≤ ·) := by
  have ascending : (grid.row r).map f = List.range grid.columns := by
    rw [row, List.map_map]
    refine (List.map_congr_left fun c mem => ?_).trans (List.map_id _)
    have inColumns := List.mem_range.mp mem
    rw [Function.comp_apply, columns _ (cell_lt lt inColumns), cell_mod inColumns]
    rfl
  rw [ascending]
  exact List.pairwise_lt_range.imp Nat.le_of_lt

/-- Contents of which each stays in its column and visits its final row, numbered by the rows in every
column. -/
structure Level (grid : Grid) (d : Nat → Destination) : Prop where
  visits : ∀ p < grid.rows * grid.columns, (d p).intermediateKey = (d p).finalRow
  stays : ∀ p < grid.rows * grid.columns, (d p).finalColumn = p % grid.columns
  rows : ∀ c < grid.columns,
    (grid.column c).map (fun p => (d p).intermediateKey) ~ List.range grid.rows

/-- Contents that stay in their columns are moved by the first phase alone. -/
lemma Valid.sortPhases_level (valid : grid.Valid) {records : Array Record}
    (holds : Holds records (grid.rows * grid.columns) d) (level : Level grid d) :
    grid.sortPhases records = .ok ((List.range grid.columns).flatMap fun c =>
      lineSwaps (grid.column c) (OddEven.sort id ((grid.column c).map fun p => (d p).finalRow)).2) := by
  have start : Holds (Board.mk records []).records (grid.rows * grid.columns) d := holds
  obtain ⟨records₁, d₁, swaps₁, run₁, holds₁, phase₁, swaps₁_eq, keys₁⟩ := valid.columns.sort_eq
    Destination.intermediateKey (fun c lt => valid.columnCells_eq lt) start
  have row_eq : ∀ p < grid.rows * grid.columns, (d₁ p).finalRow = p / grid.columns := by
    intro p lt
    obtain ⟨q, ltQ, _, _, same⟩ := phase₁.exists_source lt
    rw [← keys₁ level.rows p lt, same, level.visits q ltQ]
  have column_eq : ∀ p < grid.rows * grid.columns, (d₁ p).finalColumn = p % grid.columns := by
    intro p lt
    obtain ⟨q, ltQ, _, label, same⟩ := phase₁.exists_source lt
    rw [same, level.stays q ltQ]
    exact label
  -- every content is where it has to go, so the other phases find all lines in order
  obtain ⟨records₂, d₂, swaps₂, run₂, holds₂, phase₂, swaps₂_eq, _⟩ := valid.rows.sort_eq
    Destination.finalColumn (fun r lt => valid.rowCells_eq lt)
    (show Holds (Board.mk records₁ ([] ++ swaps₁)).records (grid.rows * grid.columns) d₁ from holds₁)
  have none₂ : swaps₂ = [] := by
    rw [swaps₂_eq]
    apply lineSwaps_of_sorted
    intro cells mem
    obtain ⟨r, inRows, rfl⟩ := List.mem_map.mp mem
    exact row_sorted (List.mem_range.mp inRows) column_eq
  subst none₂
  obtain ⟨records₃, d₃, swaps₃, run₃, _, _, swaps₃_eq, _⟩ := valid.columns.sort_eq
    Destination.finalRow (fun c lt => valid.columnCells_eq lt)
    (show Holds (Board.mk records₂ ([] ++ swaps₁ ++ [])).records _ d₂ from holds₂)
  have none₃ : swaps₃ = [] := by
    rw [swaps₃_eq]
    apply lineSwaps_of_sorted
    intro cells mem
    obtain ⟨c, inColumns, rfl⟩ := List.mem_map.mp mem
    refine column_sorted (List.mem_range.mp inColumns) fun p lt => ?_
    have same : d₂ p = d₁ p := phase₂.carried p
    rw [same, row_eq p lt]
  have first : swaps₁ = (List.range grid.columns).flatMap fun c =>
      lineSwaps (grid.column c) (OddEven.sort id ((grid.column c).map fun p => (d p).finalRow)).2 := by
    rw [swaps₁_eq, List.flatMap_map]
    refine List.flatMap_congr fun c mem => ?_
    rw [OddEven.sort_log_eq, List.map_map]
    refine congrArg (fun keys => lineSwaps (grid.column c) (OddEven.sort id keys).2) ?_
    refine List.map_congr_left fun p inColumn => ?_
    have within := (valid.columns.mem_iff c (List.mem_range.mp mem)).mp inColumn
    exact level.visits p within.1
  refine Checked.bind_eq_ok.mpr ⟨_, run₁, Checked.bind_eq_ok.mpr ⟨_, run₂, Checked.bind_eq_ok.mpr ⟨_, run₃, ?_⟩⟩⟩
  rw [none₃, List.append_nil, List.append_nil, List.nil_append, first]
  rfl

/-- On a grid of one row, the second phase is all there is. -/
lemma Valid.sortPhases_row (valid : grid.Valid) (one : grid.rows = 1) {records : Array Record}
    (holds : Holds records (grid.rows * grid.columns) d) :
    grid.sortPhases records
      = .ok (lineSwaps (grid.row 0) (OddEven.sort id ((grid.row 0).map fun p => (d p).finalColumn)).2) := by
  have short : ∀ c < grid.columns, ∃ cells, grid.columnCells c = .ok cells ∧ cells.length < 2 := by
    intro c lt
    refine ⟨_, valid.columnCells_eq lt, ?_⟩
    rw [valid.columns.length_eq, one]
    exact Nat.one_lt_two
  obtain ⟨records', d', swaps, run, _, _, swaps_eq, _⟩ := valid.rows.sort_eq Destination.finalColumn
    (fun r lt => valid.rowCells_eq lt)
    (show Holds (Board.mk records []).records (grid.rows * grid.columns) d from holds)
  have only : swaps
      = lineSwaps (grid.row 0) (OddEven.sort id ((grid.row 0).map fun p => (d p).finalColumn)).2 := by
    rw [swaps_eq, one, List.range_one, List.map_singleton, List.flatMap_singleton, OddEven.sort_log_eq,
      List.map_map]
    rfl
  refine Checked.bind_eq_ok.mpr ⟨_, sortLines_short _ short _, ?_⟩
  refine Checked.bind_eq_ok.mpr ⟨_, run, ?_⟩
  refine Checked.bind_eq_ok.mpr ⟨_, sortLines_short _ short _, ?_⟩
  rw [only, List.nil_append]
  rfl

variable {old new : Layout Nat} {targets : Nat → Nat} {records : List Record} {matchings : List (List Nat)}
  {order : List Nat}

/-- The swaps that take every content to its final row along its column. -/
def columnSwaps (grid : Grid) (targets : Nat → Nat) : List Swap :=
  (List.range grid.columns).flatMap fun c =>
    lineSwaps (grid.column c) (OddEven.sort id ((grid.column c).map fun p => targets p / grid.columns)).2

/-- Targets are cells of the grid. -/
lemma Posed.target_lt (posed : Posed grid old new targets records matchings) {p : Nat}
    (lt : p < grid.rows * grid.columns) : targets p < grid.rows * grid.columns :=
  List.mem_range.mp (posed.perm.mem_iff.mp (List.mem_map_of_mem (List.mem_range.mpr lt)))

/-- If all contents stay in their columns, they number each column by their final rows. -/
lemma Posed.rows_perm (posed : Posed grid old new targets records matchings) (valid : grid.Valid)
    (straight : ∀ p < grid.rows * grid.columns, targets p % grid.columns = p % grid.columns) {c : Nat}
    (lt : c < grid.columns) :
    (grid.column c).map (fun p => targets p / grid.columns) ~ List.range grid.rows := by
  refine map_perm_range (valid.columns.length_eq c) (valid.columns.nodup c) ?_ ?_
  · intro p mem
    exact div_lt_rows (posed.target_lt ((valid.columns.mem_iff c lt).mp mem).1)
  · intro p mem q memQ sameRow
    obtain ⟨within, inColumn⟩ := (valid.columns.mem_iff c lt).mp mem
    obtain ⟨withinQ, inColumnQ⟩ := (valid.columns.mem_iff c lt).mp memQ
    have sameColumn : targets p % grid.columns = targets q % grid.columns := by
      rw [straight p within, straight q withinQ]
      exact inColumn.trans inColumnQ.symm
    have same : targets p = targets q := by
      rw [← cell_eta grid (targets p), ← cell_eta grid (targets q), sameRow, sameColumn]
    exact List.inj_on_of_nodup_map (posed.perm.nodup_iff.mpr List.nodup_range)
      (List.mem_range.mpr within) (List.mem_range.mpr withinQ) same

/-- Contents that stay in their columns are moved along them, whatever the order of the matchings. -/
lemma Posed.swapsFor_straight (posed : Posed grid old new targets records matchings) (valid : grid.Valid)
    (straight : ∀ p < grid.rows * grid.columns, targets p % grid.columns = p % grid.columns)
    (perm : order ~ List.range grid.rows) :
    grid.swapsFor records matchings order = .ok (grid.columnSwaps targets) := by
  obtain ⟨records', assign, d', holds', assigned⟩ :=
    valid.assignColumns_eq posed.splits perm posed.holds (fun _ => rfl) fun _ _ => rfl
  have length : order.length = grid.rows := by rw [perm.length_eq, List.length_range]
  have finalRow : ∀ p, (d' p).finalRow = targets p / grid.columns := assigned.finalRow
  have finalColumn : ∀ p, (d' p).finalColumn = targets p % grid.columns := assigned.finalColumn
  have all {c : Nat} (lt : c < grid.columns) : Assigned (grid.column c)
      (order.map (sendsTo matchings · c)) (order.map (sendsTo matchings · c)).length d' := by
    rw [List.length_map]
    exact assigned.done c lt lt
  -- contents that stay in their columns are handed the very rows they go to
  have level : Level grid d' := by
    refine ⟨?_, ?_, ?_⟩
    · intro p lt
      have ltC := Nat.mod_lt p valid.columns_pos
      have inColumn : p ∈ grid.column (p % grid.columns) := (valid.columns.mem_iff _ ltC).mpr ⟨lt, rfl⟩
      refine (all ltC).intermediateKey_eq ?_ ?_ inColumn
      · intro a memA b memB
        obtain ⟨ltA, columnA⟩ := (valid.columns.mem_iff _ ltC).mp memA
        obtain ⟨ltB, columnB⟩ := (valid.columns.mem_iff _ ltC).mp memB
        rw [finalColumn, finalColumn, straight a ltA, straight b ltB]
        exact columnA.trans columnB.symm
      · rw [List.map_congr_left fun p _ => finalRow p, List.length_map, length]
        exact posed.rows_perm valid straight ltC
    · intro p lt
      rw [finalColumn, straight p lt]
    · intro c lt
      have keys := (all lt).keys_perm
      rwa [List.length_map, length] at keys
  have run := valid.sortPhases_level holds' level
  simp only [finalRow] at run
  exact Checked.bind_eq_ok.mpr ⟨records', assign, Failure.ofChecked_eq_ok.mpr run⟩

/-- On a grid of one row the swaps are those of sorting this row by its target columns. -/
lemma Posed.swapsFor_row (posed : Posed grid old new targets records matchings) (valid : grid.Valid)
    (one : grid.rows = 1) (perm : order ~ List.range grid.rows) :
    grid.swapsFor records matchings order = .ok (lineSwaps (grid.row 0)
      (OddEven.sort id ((grid.row 0).map fun p => targets p % grid.columns)).2) := by
  obtain ⟨records', assign, d', holds', assigned⟩ :=
    valid.assignColumns_eq posed.splits perm posed.holds (fun _ => rfl) fun _ _ => rfl
  have finalColumn : ∀ p, (d' p).finalColumn = targets p % grid.columns := assigned.finalColumn
  have run := valid.sortPhases_row one holds'
  simp only [finalColumn] at run
  exact Checked.bind_eq_ok.mpr ⟨records', assign, Failure.ofChecked_eq_ok.mpr run⟩

/-- Contents that all stay where they are need no swaps, whatever the order of the matchings. -/
lemma Posed.swapsFor_still (posed : Posed grid old new targets records matchings) (valid : grid.Valid)
    (unmoved : Move.targets (grid.rows * grid.columns) old new = List.range (grid.rows * grid.columns))
    (perm : order ~ List.range grid.rows) : grid.swapsFor records matchings order = .ok [] := by
  have still : ∀ p < grid.rows * grid.columns, targets p = p := by
    intro p lt
    have listed := posed.listed
    rw [unmoved] at listed
    have here := congrArg (·[p]?) listed
    rw [List.getElem?_map, List.getElem?_range lt] at here
    exact (Option.some.inj here).symm
  rw [posed.swapsFor_straight valid (fun p lt => by rw [still p lt]) perm, columnSwaps,
    List.flatMap_eq_nil_iff.mpr]
  intro c mem
  have sorted : ((grid.column c).map fun p => targets p / grid.columns).Pairwise (id · ≤ id ·) :=
    column_sorted (List.mem_range.mp mem) fun p lt => by rw [still p lt]
  rw [OddEven.sort_of_sorted sorted]
  rfl

/-- Where nothing has to move, the search finds no swaps. -/
lemma Valid.optimalSwaps_of_still (valid : grid.Valid) (oldFits : old.Fits (grid.rows * grid.columns))
    (newFits : new.Fits (grid.rows * grid.columns))
    (unmoved : Move.targets (grid.rows * grid.columns) old new = List.range (grid.rows * grid.columns))
    (cost : Cost) (steps : Nat) (stream : Random.Stream) :
    (grid.optimalSwaps old new cost steps stream).1 = .ok [] := by
  obtain ⟨targets, records, matchings, posed⟩ := valid.exists_posed oldFits newFits
  obtain ⟨order, _, found⟩ := posed.optimalSwaps_eq cost steps stream
    fun order perm => posed.swapsFor_still valid unmoved perm
  exact found

/-- From an empty layout nothing moves. -/
lemma Valid.optimalSwaps_of_empty (valid : grid.Valid) (newFits : new.Fits (grid.rows * grid.columns))
    (cost : Cost) (steps : Nat) (stream : Random.Stream) :
    (grid.optimalSwaps ∅ new cost steps stream).1 = .ok [] :=
  valid.optimalSwaps_of_still (Layout.fits_empty _) newFits
    (Move.targets_of_still (Move.still_empty new _)) cost steps stream

/-! ### Single lines -/

/-- On the cells numbered from zero on, the swaps are those of the places in the log. -/
lemma lineSwaps_range {n : Nat} {log : List Nat} (within : ∀ i ∈ log, i + 1 < n) :
    lineSwaps (List.range n) log = log.map fun place => (place, place + 1) := by
  rw [lineSwaps, ← List.filterMap_eq_map]
  refine List.filterMap_congr fun i mem => ?_
  have lt := within i mem
  rw [getElem?_steps (by rwa [List.length_range]), List.getElem_range, List.getElem_range]
  rfl

/-- Sorting a line of all positions gives the swaps of a chain. -/
lemma lineSwaps_targets {n : Nat} {keys : List Nat} (oldFits : old.Fits n) (newFits : new.Fits n)
    (same : keys = Move.targets n old new) :
    lineSwaps (List.range n) (OddEven.sort id keys).2 = Move.chainSwaps n old new := by
  subst same
  apply lineSwaps_range
  intro i logged
  have := (OddEven.sort_exchanges id (Move.targets n old new)).lt logged
  rwa [(Move.targets_perm oldFits.consistent newFits).length_eq, List.length_range] at this

variable {n : Nat} (positive : 0 < n) (small : n < 2 ^ 32) (oldFits : old.Fits n) (newFits : new.Fits n)
  (cost : Cost) (steps : Nat) (stream : Random.Stream)
include positive small oldFits newFits

/-- A grid of one row is a chain. -/
lemma optimalSwaps_of_row :
    ((Grid.mk 1 n).optimalSwaps old new cost steps stream).1 = .ok (Move.chainSwaps n old new) := by
  have valid : (Grid.mk 1 n).Valid := ⟨Nat.one_pos, positive, by rwa [Nat.one_mul]⟩
  have size : (Grid.mk 1 n).rows * (Grid.mk 1 n).columns = n := Nat.one_mul n
  obtain ⟨targets, records, matchings, posed⟩ :=
    valid.exists_posed (size.symm ▸ oldFits) (size.symm ▸ newFits)
  obtain ⟨order, _, found⟩ := posed.optimalSwaps_eq cost steps stream
    fun order perm => posed.swapsFor_row valid rfl perm
  rw [found]
  have cells : (Grid.mk 1 n).row 0 = List.range n := by
    simp [row]
  rw [cells]
  refine congrArg Except.ok (lineSwaps_targets oldFits newFits ?_)
  have listed := posed.listed
  rw [size] at listed
  rw [listed]
  refine List.map_congr_left fun p mem => Nat.mod_eq_of_lt ?_
  have lt := posed.target_lt (size.symm ▸ List.mem_range.mp mem)
  rwa [size] at lt

/-- A grid of one column is a chain. -/
lemma optimalSwaps_of_column :
    ((Grid.mk n 1).optimalSwaps old new cost steps stream).1 = .ok (Move.chainSwaps n old new) := by
  have valid : (Grid.mk n 1).Valid := ⟨positive, Nat.one_pos, by rwa [Nat.mul_one]⟩
  have size : (Grid.mk n 1).rows * (Grid.mk n 1).columns = n := Nat.mul_one n
  obtain ⟨targets, records, matchings, posed⟩ :=
    valid.exists_posed (size.symm ▸ oldFits) (size.symm ▸ newFits)
  have straight : ∀ p < (Grid.mk n 1).rows * (Grid.mk n 1).columns,
      targets p % (Grid.mk n 1).columns = p % (Grid.mk n 1).columns := by
    intro p _
    rw [Nat.mod_one, Nat.mod_one]
  obtain ⟨order, _, found⟩ := posed.optimalSwaps_eq cost steps stream
    fun order perm => posed.swapsFor_straight valid straight perm
  rw [found]
  have cells : (Grid.mk n 1).column 0 = List.range n := by
    simp [column]
  rw [columnSwaps, List.range_one, List.flatMap_singleton, cells]
  refine congrArg Except.ok (lineSwaps_targets oldFits newFits ?_)
  have listed := posed.listed
  rw [size] at listed
  rw [listed]
  exact List.map_congr_left fun p _ => Nat.div_one _

end Grid

end QubitRouting
