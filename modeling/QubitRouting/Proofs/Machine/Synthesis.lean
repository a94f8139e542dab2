import QubitRouting.Proofs.Machine.Matching
import QubitRouting.Proofs.Search

/-!
# Swap synthesis on a machine

The lines of a grid are sorted in place: the loop reads the destinations through the cells of a line
and exchanges them in the table of records. The table then holds what sorting the list of destinations
and writing it back gives. All cells lie in the table, and the swaps of the three phases are no more
than the square of the number of cells.
-/

namespace QubitRouting.Machine

open Grid (Board Destination Holds Record destinationOf setDestination)

/-! ### Records -/

/-- Give the content of a cell another destination. -/
def writeDestination (records : Array Record) (cell : Nat) (destination : Destination) :
    Except Fault (Array Record) :=
  if cell < records.size then .ok (setDestination records cell destination) else .error .outOfRange

/-- Let one content of a column visit the given row between the phases. -/
def assignRow (grid : Grid) (matchings : List (List Nat)) (column : Nat) (records : Array Record)
    (row index : Nat) : Except Failure (Array Record) := do
  let some target := matchings[index]?.bind (·[column]?)
    | throw (.error (.matching (.missingMatching index)))
  let cells ← Failure.ofChecked (grid.columnCells column)
  let contents ← Failure.ofChecked (cells.mapM fun cell => do
    return (cell, ← destinationOf records cell))
  let free := contents.filter fun (_, destination) =>
    destination.intermediateRow.isNone && destination.finalColumn == target
  match Grid.firstLeast? (fun (_, destination) => destination.finalRow) free with
  | none => throw (.error (.matching (.noQubitLeft column target)))
  | some (cell, destination) =>
    Failure.ofChecked (writeDestination records cell { destination with intermediateRow := some row })

/-- The line of a board that runs through the given cells. -/
def boardLine (key : Destination → Nat) (cells : List Nat) : Line Board where
  length := cells.length
  key board place := do return key (← destinationOf board.records (← item cells place))
  exchange board place next := do
    let left ← item cells place
    let right ← item cells next
    let moved ← destinationOf board.records left
    let records ← writeDestination board.records left (← destinationOf board.records right)
    let records ← writeDestination records right moved
    return { records, swaps := board.swaps ++ [(left, right)] }

/-- Sort the destinations along a line of cells by exchanging neighbours. -/
def sortLine (limit : Nat) (key : Destination → Nat) (board : Board) (cells : List Nat) :
    Except Fault Board :=
  (boardLine key cells).sort limit (cells.length * cells.length + 1) board

variable {records : Array Record} {cells : List Nat} {p : Nat}

/-- A destination is read exactly from a record that is there. -/
lemma destinationOf_eq_ok {destination : Destination} :
    destinationOf records p = .ok destination ↔
      ∃ record, records[p]? = some record ∧ record.destination = destination := by
  rw [destinationOf]
  split
  · next record here => simp [here]
  · next nothing => simp [nothing]

/-- A cell with a destination is in the table. -/
lemma lt_size_of_destinationOf {destination : Destination}
    (found : destinationOf records p = .ok destination) : p < records.size := by
  obtain ⟨record, here, _⟩ := destinationOf_eq_ok.mp found
  exact (Array.getElem?_eq_some_iff.mp here).1

/-- A cell in the table can be given a destination. -/
lemma writeDestination_of_lt (lt : p < records.size) (destination : Destination) :
    writeDestination records p destination = .ok (setDestination records p destination) := if_pos lt

/-- A row that can be handed out is handed out in the table, whose cells are all there. -/
lemma assignRow_eq {grid : Grid} {matchings : List (List Nat)} {column row index : Nat}
    {after : Array Record} (run : grid.assignRow matchings column records row index = .ok after) :
    assignRow grid matchings column records row index = .ok after := by
  rw [Grid.assignRow] at run
  split at run
  · next target given =>
    obtain ⟨cells, listed, run⟩ := Checked.bind_eq_ok.mp run
    obtain ⟨contents, read, run⟩ := Checked.bind_eq_ok.mp run
    simp only at run
    split at run
    · cases run
    · next cell destination found =>
      cases run
      have mem := List.mem_of_mem_filter (Grid.firstLeast?_mem found)
      obtain ⟨_, _, taken⟩ := Checked.exists_of_forall₂
        (Checked.forall₂_of_mapM (Failure.ofChecked_eq_ok.mp read)) mem
      obtain ⟨_, here, same⟩ := Checked.bind_eq_ok.mp taken
      cases same
      simp only [assignRow, given, listed, read, found, Checked.ok_bind,
        writeDestination_of_lt (lt_size_of_destinationOf here)]
      rfl
  · cases run

/-! ### Sorting a line in place -/

/-- The records with the given destinations written to some cells. -/
def written (records : Array Record) (cells : List Nat) (items : List Destination) : Array Record :=
  (cells.zip items).foldl (fun records entry => setDestination records entry.1 entry.2) records

/-- Giving the content of a cell another destination changes the record of this cell alone. -/
lemma getElem?_setDestination (records : Array Record) (cell p : Nat) (destination : Destination) :
    (setDestination records cell destination)[p]?
      = if cell = p then records[p]?.map fun record => { record with destination } else records[p]? :=
  Array.getElem?_modify

/-- Writing to some cells leaves the other records. -/
lemma getElem?_written_outside (outside : p ∉ cells) (items : List Destination) :
    (written records cells items)[p]? = records[p]? := by
  induction cells generalizing records items with
  | nil => rfl
  | cons cell rest ih =>
    rw [List.mem_cons, not_or] at outside
    cases items with
    | nil => rfl
    | cons item items =>
      rw [written, List.zip_cons_cons, List.foldl_cons, ← written, ih outside.2,
        getElem?_setDestination, if_neg (Ne.symm outside.1)]

/-- Each cell written to has the destination given for it. -/
lemma getElem?_written_inside (nodup : cells.Nodup) {i : Nat} {items : List Destination}
    {destination : Destination} (here : cells[i]? = some p) (given : items[i]? = some destination) :
    (written records cells items)[p]? = records[p]?.map fun record => { record with destination } := by
  induction cells generalizing records items i with
  | nil => simp at here
  | cons cell rest ih =>
    obtain ⟨notMem, nodup⟩ := List.nodup_cons.mp nodup
    cases items with
    | nil => simp at given
    | cons item items =>
      rw [written, List.zip_cons_cons, List.foldl_cons, ← written]
      cases i with
      | zero =>
        obtain rfl : cell = p := by simpa using here
        obtain rfl : item = destination := by simpa using given
        rw [getElem?_written_outside notMem, getElem?_setDestination, if_pos rfl]
      | succ i =>
        rw [List.getElem?_cons_succ] at here given
        have other : cell ≠ p := by
          rintro rfl
          exact notMem (List.mem_of_getElem? here)
        rw [ih nodup here given, getElem?_setDestination, if_neg other]

/-- Writing back what the cells hold changes nothing. -/
lemma written_self (nodup : cells.Nodup) {items : List Destination}
    (length : items.length = cells.length)
    (hold : ∀ i p : Nat, cells[i]? = some p → ∀ d, items[i]? = some d → destinationOf records p = .ok d) :
    written records cells items = records := by
  apply Array.ext_getElem?
  intro p
  by_cases mem : p ∈ cells
  · obtain ⟨i, lt, same⟩ := List.mem_iff_getElem.mp mem
    have here : cells[i]? = some p := by rw [List.getElem?_eq_getElem lt, same]
    have given : items[i]? = some items[i] := List.getElem?_eq_getElem (length ▸ lt)
    obtain ⟨record, found, destination⟩ := destinationOf_eq_ok.mp (hold i p here _ given)
    rw [getElem?_written_inside nodup here given, found, Option.map_some, ← destination]
  · exact getElem?_written_outside mem items

/-- Writing to a cell of the line is writing to its place in the list. -/
lemma setDestination_written (nodup : cells.Nodup) {items : List Destination}
    (length : items.length = cells.length) {i : Nat} (here : cells[i]? = some p) (new : Destination) :
    setDestination (written records cells items) p new = written records cells (items.set i new) := by
  have lt : i < items.length := length ▸ (List.getElem?_eq_some_iff.mp here).1
  apply Array.ext_getElem?
  intro q
  rw [getElem?_setDestination]
  by_cases same : p = q
  · subst same
    rw [if_pos rfl, getElem?_written_inside nodup here (List.getElem?_eq_getElem lt),
      getElem?_written_inside nodup here (List.getElem?_set_self lt), Option.map_map]
    rfl
  · rw [if_neg same]
    by_cases mem : q ∈ cells
    · obtain ⟨j, there⟩ := List.getElem?_of_mem mem
      have other : i ≠ j := by
        rintro rfl
        exact same (Option.some.inj (here.symm.trans there))
      have given := List.getElem?_eq_getElem (length ▸ (List.getElem?_eq_some_iff.mp there).1)
      rw [getElem?_written_inside nodup there given, getElem?_written_inside nodup there
        ((List.getElem?_set_ne other).trans given)]
    · rw [getElem?_written_outside mem, getElem?_written_outside mem]

/-- Writing does not change the size of the table. -/
lemma size_written (records : Array Record) (cells : List Nat) (items : List Destination) :
    (written records cells items).size = records.size := by
  rw [written]
  generalize cells.zip items = entries
  induction entries generalizing records with
  | nil => rfl
  | cons entry rest ih => rw [List.foldl_cons, ih, setDestination, Array.size_modify]

/-- The destination written to a cell is read there. -/
lemma destinationOf_written (nodup : cells.Nodup) {i : Nat} {items : List Destination}
    {destination : Destination} (here : cells[i]? = some p) (given : items[i]? = some destination)
    (lt : p < records.size) : destinationOf (written records cells items) p = .ok destination := by
  refine destinationOf_eq_ok.mpr ⟨{ records[p] with destination }, ?_, rfl⟩
  rw [getElem?_written_inside nodup here given, Array.getElem?_eq_getElem lt, Option.map_some]

/-- Writing to one of the cells once more is writing the changed list. -/
lemma writeDestination_written (nodup : cells.Nodup) {items : List Destination}
    (length : items.length = cells.length) {i : Nat} (here : cells[i]? = some p)
    (lt : p < records.size) (new : Destination) :
    writeDestination (written records cells items) p new
      = .ok (written records cells (items.set i new)) := by
  rw [writeDestination_of_lt (size_written records cells items ▸ lt),
    setDestination_written nodup length here]

/-- The line shows the destinations of its cells: the table is the one before with the list written to
the cells, and the swaps are those of the exchanges. -/
lemma boardLine_shows (key : Destination → Nat) (nodup : cells.Nodup) {board : Board}
    (inside : ∀ c ∈ cells, c < board.records.size) :
    (boardLine key cells).Shows key fun state items log =>
      items.length = cells.length ∧
        state = ⟨written board.records cells items, board.swaps ++ Grid.lineSwaps cells log⟩ where
  length_eq here := here.1
  key_eq := by
    rintro _ before x after log ⟨length, rfl⟩
    have lt : before.length < cells.length := by
      rw [← length, List.length_append, List.length_cons]
      omega
    have cell := List.getElem?_eq_getElem lt
    have found := destinationOf_written nodup cell
      (show (before ++ x :: after)[before.length]? = some x by simp)
      (inside _ (List.getElem_mem lt))
    simp only [boardLine, item_of_getElem? cell, found, Checked.ok_bind]
    rfl
  exchange_eq := by
    rintro _ before x y after log ⟨length, rfl⟩
    have ltRight : before.length + 1 < cells.length := by
      rw [← length, List.length_append, List.length_cons, List.length_cons]
      omega
    have ltLeft : before.length < cells.length := by omega
    have left := List.getElem?_eq_getElem ltLeft
    have right := List.getElem?_eq_getElem ltRight
    have insideLeft := inside _ (List.getElem_mem ltLeft)
    have insideRight := inside _ (List.getElem_mem ltRight)
    have foundLeft := destinationOf_written nodup left
      (show (before ++ x :: y :: after)[before.length]? = some x by simp) insideLeft
    have foundRight := destinationOf_written nodup right
      (show (before ++ x :: y :: after)[before.length + 1]? = some y by simp) insideRight
    -- the first write leaves `y` in both cells, the second one puts `x` in its place
    have first := writeDestination_written nodup length left insideLeft y
    rw [List.set_append_right _ _ le_rfl, Nat.sub_self, List.set_cons_zero] at first
    have second := writeDestination_written nodup
      (show (before ++ y :: y :: after).length = cells.length by simpa using length) right insideRight x
    rw [List.set_append_right _ _ (Nat.le_add_right _ 1), Nat.add_sub_cancel_left, List.set_cons_succ,
      List.set_cons_zero] at second
    refine ⟨_, ?_, by simpa using length, rfl⟩
    simp only [boardLine, item_of_getElem? left, item_of_getElem? right, foundLeft, foundRight, first,
      second, Checked.ok_bind]
    simp [Grid.lineSwaps, Grid.getElem?_steps ltRight, pure, Except.pure]

/-- Writing the destinations of the cells to the cells changes nothing. -/
lemma written_map {n : Nat} {d : Nat → Destination} (holds : Holds records n d) (nodup : cells.Nodup)
    (lt : ∀ c ∈ cells, c < n) : written records cells (cells.map d) = records := by
  refine written_self nodup (List.length_map d) fun i p here destination given => ?_
  rw [List.getElem?_map, here, Option.map_some] at given
  rw [← Option.some.inj given]
  exact holds.destination p (lt p (List.mem_of_getElem? here))

/-- Sorting a line in place is sorting the list of its destinations and writing it back. -/
lemma sortLine_eq {limit n : Nat} {d : Nat → Destination} (key : Destination → Nat) {board : Board}
    (holds : Holds board.records n d) (nodup : cells.Nodup) (lt : ∀ c ∈ cells, c < n)
    (small : cells.length < limit) :
    sortLine limit key board cells = Grid.sortLine key board cells := by
  have inside : ∀ c ∈ cells, c < board.records.size := fun c mem => holds.size ▸ lt c mem
  have start : (cells.map d).length = cells.length ∧ board
      = ⟨written board.records cells (cells.map d), board.swaps ++ Grid.lineSwaps cells []⟩ := by
    refine ⟨List.length_map d, ?_⟩
    rw [written_map holds nodup lt, Grid.lineSwaps, List.filterMap_nil, List.append_nil]
  have few := OddEven.inversions_le key (cells.map d)
  rw [List.length_map] at few
  obtain ⟨final, run, _, rfl⟩ := (boardLine_shows key nodup inside).sort_eq small start
    (le_refl (OddEven.inversions key (cells.map d)))
    (show _ ≤ cells.length * cells.length by omega)
  rw [sortLine, run, Grid.sortLine]
  by_cases short : cells.length < 2
  · have none_inverted : OddEven.inversions key (cells.map d) = 0 := by
      interval_cases cells.length <;> omega
    rw [if_pos short, none_inverted, OddEven.passes, List.append_nil, ← start.2]
  · have read : cells.mapM (destinationOf board.records) = .ok (cells.map d) :=
      Checked.mapM_eq_ok fun c mem => holds.destination c (lt c mem)
    rw [if_neg short, read]
    rfl

/-! ### The three phases -/

/-- Sort every column. -/
def sortColumns (limit : Nat) (grid : Grid) (key : Destination → Nat) (board : Board) :
    Except Fault Board :=
  (List.range grid.columns).foldlM
    (fun board column => do sortLine limit key board (← grid.columnCells column)) board

/-- Sort every row. -/
def sortRows (limit : Nat) (grid : Grid) (key : Destination → Nat) (board : Board) :
    Except Fault Board :=
  (List.range grid.rows).foldlM
    (fun board row => do sortLine limit key board (← grid.rowCells row)) board

/-- The three phases of sorting. -/
def sortPhases (limit : Nat) (grid : Grid) (records : Array Record) : Except Fault (List Swap) := do
  let board ← sortColumns limit grid Destination.intermediateKey { records }
  let board ← sortRows limit grid Destination.finalColumn board
  let board ← sortColumns limit grid Destination.finalRow board
  return board.swaps

/-- The swaps that carry out a move, with the matchings taken in the order of a permutation. -/
def swapsFor (limit : Nat) (grid : Grid) (records : List Record) (matchings : List (List Nat))
    (permutation : List Nat) : Except Failure (List Swap) := do
  let records ← (List.range grid.columns).foldlM
    (fun records column => permutation.zipIdx.foldlM
      (fun records entry => assignRow grid matchings column records entry.2 entry.1) records)
    records.toArray
  Failure.ofChecked (sortPhases limit grid records)

variable {limit n : Nat} {d : Nat → Destination} {grid : Grid}

/-- Sorting lines in place one after the other is sorting their lists. -/
lemma sortLines_eq (key : Destination → Nat) {indices : List Nat} {line : Nat → List Nat}
    {cellsOf : Nat → Except Fault (List Nat)} (known : ∀ i ∈ indices, cellsOf i = .ok (line i))
    (nodup : ∀ i ∈ indices, (line i).Nodup) (lt : ∀ i ∈ indices, ∀ p ∈ line i, p < n)
    (small : ∀ i ∈ indices, (line i).length < limit) {board : Board}
    (holds : Holds board.records n d) :
    indices.foldlM (fun board i => do sortLine limit key board (← cellsOf i)) board
      = indices.foldlM (fun board i => do Grid.sortLine key board (← cellsOf i)) board := by
  induction indices generalizing board d with
  | nil => rfl
  | cons i rest ih =>
    have head := List.mem_cons_self (a := i) (l := rest)
    obtain ⟨_, _, _, run, holdsAfter, _⟩ := Grid.sortLine_eq key holds (nodup i head) (lt i head)
    have step := sortLine_eq key holds (nodup i head) (lt i head) (small i head)
    rw [List.foldlM_cons, List.foldlM_cons, known i head, Checked.ok_bind, Checked.ok_bind, step, run,
      Checked.ok_bind, Checked.ok_bind]
    have later {j : Nat} (mem : j ∈ rest) : j ∈ i :: rest := List.mem_cons_of_mem i mem
    exact ih (fun j mem => known j (later mem)) (fun j mem => nodup j (later mem))
      (fun j mem => lt j (later mem)) (fun j mem => small j (later mem)) holdsAfter

/-- Sorting a line takes no more swaps than it has pairs of cells. -/
lemma length_lineSwaps_le (key : Destination → Nat) (cells : List Nat) (d : Nat → Destination) :
    2 * (Grid.lineSwaps cells (OddEven.sort key (cells.map d)).2).length + cells.length
      ≤ cells.length * cells.length := by
  have logged := (OddEven.sort_exchanges key (cells.map d)).inversions_eq
  have bound := OddEven.inversions_le key (cells.map d)
  have kept : (Grid.lineSwaps cells (OddEven.sort key (cells.map d)).2).length
      ≤ (OddEven.sort key (cells.map d)).2.length := List.length_filterMap_le _ _
  rw [List.length_map] at bound
  omega

/-- If each line takes as many swaps as it has pairs at most, so do all lines together. -/
lemma length_flatMap_le {length : Nat} {lines : List (List Nat)} {swapsOf : List Nat → List Swap}
    (few : ∀ cells ∈ lines, 2 * (swapsOf cells).length + length ≤ length * length) :
    2 * (lines.flatMap swapsOf).length + lines.length * length
      ≤ lines.length * (length * length) := by
  induction lines with
  | nil => simp
  | cons cells rest ih =>
    have head := few cells List.mem_cons_self
    have tail := ih fun other mem => few other (List.mem_cons_of_mem cells mem)
    rw [List.flatMap_cons, List.length_append, List.length_cons, Nat.add_mul, Nat.add_mul]
    omega

/-- A phase does on the machine what it does on the board, and its swaps are counted. -/
lemma phase_eq {count length : Nat} {line : Nat → List Nat} {label index : Nat → Nat}
    (lines : Grid.Lines grid count length line label index) (small : length < limit)
    (key : Destination → Nat) {cellsOf : Nat → Except Fault (List Nat)}
    (known : ∀ i < count, cellsOf i = .ok (line i)) {board : Board}
    (holds : Holds board.records (grid.rows * grid.columns) d) :
    ∃ records d' swaps,
      (List.range count).foldlM (fun board i => do Grid.sortLine key board (← cellsOf i)) board
        = .ok ⟨records, board.swaps ++ swaps⟩ ∧
      (List.range count).foldlM (fun board i => do sortLine limit key board (← cellsOf i)) board
        = .ok ⟨records, board.swaps ++ swaps⟩ ∧
      Holds records (grid.rows * grid.columns) d' ∧
      2 * swaps.length + count * length ≤ count * (length * length) := by
  obtain ⟨records, d', swaps, run, holdsAfter, _, listed, _⟩ := lines.sort_eq key known holds
  refine ⟨records, d', swaps, run, ?_, holdsAfter, ?_⟩
  · rw [← run]
    exact sortLines_eq key (fun i mem => known i (List.mem_range.mp mem)) (fun i _ => lines.nodup i)
      (fun i mem p inside => ((lines.mem_iff i (List.mem_range.mp mem)).mp inside).1)
      (fun i _ => (lines.length_eq i).trans_lt small) holds
  · rw [listed]
    have few : ∀ cells ∈ (List.range count).map line,
        2 * (Grid.lineSwaps cells (OddEven.sort key (cells.map d)).2).length + length
          ≤ length * length := by
      intro cells mem
      obtain ⟨i, _, rfl⟩ := List.mem_map.mp mem
      rw [← lines.length_eq i]
      exact length_lineSwaps_le key (line i) d
    simpa using length_flatMap_le few

/-- The three phases succeed in place as they do on lists, with swaps up to the square of the
number of cells. -/
lemma sortPhases_eq (valid : grid.Valid) (rows : grid.rows < limit) (columns : grid.columns < limit)
    (holds : Holds records (grid.rows * grid.columns) d) :
    ∃ swaps, grid.sortPhases records = .ok swaps ∧ sortPhases limit grid records = .ok swaps ∧
      swaps.length ≤ (grid.rows * grid.columns) * (grid.rows * grid.columns) := by
  have start : Holds (Board.mk records []).records (grid.rows * grid.columns) d := holds
  obtain ⟨records₁, d₁, swaps₁, plain₁, checked₁, holds₁, few₁⟩ := phase_eq valid.columns rows
    Destination.intermediateKey (fun c lt => valid.columnCells_eq lt) start
  have middle : Holds (Board.mk records₁ ([] ++ swaps₁)).records _ d₁ := holds₁
  obtain ⟨records₂, d₂, swaps₂, plain₂, checked₂, holds₂, few₂⟩ := phase_eq valid.rows columns
    Destination.finalColumn (fun r lt => valid.rowCells_eq lt) middle
  have last : Holds (Board.mk records₂ ([] ++ swaps₁ ++ swaps₂)).records _ d₂ := holds₂
  obtain ⟨records₃, d₃, swaps₃, plain₃, checked₃, _, few₃⟩ := phase_eq valid.columns rows
    Destination.finalRow (fun c lt => valid.columnCells_eq lt) last
  refine ⟨[] ++ swaps₁ ++ swaps₂ ++ swaps₃, ?_, ?_, ?_⟩
  · exact Checked.bind_eq_ok.mpr ⟨_, plain₁, Checked.bind_eq_ok.mpr
      ⟨_, plain₂, Checked.bind_eq_ok.mpr ⟨_, plain₃, rfl⟩⟩⟩
  · exact Checked.bind_eq_ok.mpr ⟨_, checked₁, Checked.bind_eq_ok.mpr
      ⟨_, checked₂, Checked.bind_eq_ok.mpr ⟨_, checked₃, rfl⟩⟩⟩
  · have atLeast : grid.rows + grid.columns ≤ grid.rows * grid.columns + 1 := by
      nlinarith [valid.rows_pos, valid.columns_pos]
    simp only [List.nil_append, List.length_append]
    nlinarith

/-- The swaps for an order are found in place as they are on lists, and can be counted. -/
lemma swapsFor_eq (valid : grid.Valid) (rows : grid.rows < limit) (columns : grid.columns < limit)
    {old new : Layout Nat} {targets : Nat → Nat} {records : List Record} {matchings : List (List Nat)}
    (posed : Grid.Posed grid old new targets records matchings) {order : List Nat}
    (perm : order.Perm (List.range grid.rows)) :
    ∃ swaps, grid.swapsFor records matchings order = .ok swaps ∧
      swapsFor limit grid records matchings order = .ok swaps ∧
      swaps.length ≤ (grid.rows * grid.columns) * (grid.rows * grid.columns) := by
  obtain ⟨assigned, assign, d', holds, _⟩ := valid.assignColumns_eq posed.splits perm posed.holds
    (fun _ => rfl) fun _ _ => rfl
  obtain ⟨swaps, plain, checked, few⟩ := sortPhases_eq valid rows columns holds
  refine ⟨swaps, Checked.bind_eq_ok.mpr ⟨assigned, assign, Failure.ofChecked_eq_ok.mpr plain⟩, ?_, few⟩
  refine Checked.bind_eq_ok.mpr ⟨assigned, ?_, Failure.ofChecked_eq_ok.mpr checked⟩
  refine Checked.foldlM_refines (fun column _ before after run => ?_) assign
  exact Checked.foldlM_refines (fun entry _ one other step => assignRow_eq step) run

end QubitRouting.Machine
