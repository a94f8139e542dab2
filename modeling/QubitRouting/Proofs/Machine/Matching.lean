import QubitRouting.Proofs.Machine.Sort
import QubitRouting.Proofs.RowMatching

/-!
# Row matchings on a machine

The moves between the columns of a grid are held as a table of counts: one is added for every cell,
and each round of matching takes one away for every column. `Counted` says that the table holds the
moves that are left. The search for a matching is taken as it is. Its matching is made of edges of the
graph, so the count that is taken from is never zero and its indices lie in the table.
-/

namespace QubitRouting.Machine

open Grid (ColumnMove)

/-- For each source column, how many moves go to each destination column. -/
abbrev Counts := List (List Nat)

/-- Count the move of a cell, given with its destination column. The number of the cell is cut to a word. -/
def countMove (limit : Nat) (grid : Grid) (counts : Counts) (cell : Nat × Nat) :
    Except Failure Counts := do
  let (_, column) ← Failure.ofChecked (grid.coordinates (cell.2 % UInt32.size))
  match counts[column]? with
  | none => throw (.error (.matching (.outsideGrid cell.1)))
  | some row =>
    match row[cell.1]? with
    | none => throw (.error (.matching (.outsideGrid cell.1)))
    | some count => return counts.set column (row.set cell.1 (← Failure.ofChecked (size limit (count + 1))))

/-- The bipartite graph of the moves that are left. -/
def moveGraph (limit columns : Nat) (counts : Counts) : Except Fault Graph := do
  let _ ← size limit (2 * columns)
  let _ ← size limit (columns * columns)
  let descending := (List.range columns).reverse
  let occurs (source destination : Nat) :=
    decide (0 < (counts[source]?.bind (·[destination]?)).getD 0)
  let destinations ← (List.range columns).mapM fun source =>
    (descending.filter (occurs source)).mapM fun destination => size limit (columns + destination)
  let sources := (List.range columns).map fun destination => descending.filter (occurs · destination)
  return ⟨(destinations ++ sources).toArray⟩

/-- Take one move between two columns away. -/
def takeMove (counts : Counts) (source destination : Nat) : Except Fault Counts := do
  let row ← item counts source
  let count ← item row destination
  put counts source (← put row destination (← less count 1))

/-- The destination a matching gives to each source column, and the moves that are left. -/
def matchColumns (columns round : Nat) (mates : Graph.Mates) :
    List Nat → Counts → Except Failure (List Nat × Counts)
  | [], counts => .ok ([], counts)
  | source :: sources, counts =>
    match (mates.find? source).filter (columns ≤ ·) with
    | none => .error (.error (.matching (.noPerfectMatching round)))
    | some mate => do
      let destination ← Failure.ofChecked (less mate columns)
      let counts ← Failure.ofChecked (takeMove counts source destination)
      let (destinations, counts) ← matchColumns columns round mates sources counts
      return (destination :: destinations, counts)

/-- As many rounds of matching as asked for, counted from the given round on. -/
def matchingRounds (limit columns : Nat) : Nat → Nat → Counts → Except Failure (List (List Nat))
  | 0, _, _ => .ok []
  | count + 1, round, counts => do
    let graph ← Failure.ofChecked (moveGraph limit columns counts)
    let (destinations, counts) ←
      matchColumns columns round graph.maximumMatching (List.range columns) counts
    let rest ← matchingRounds limit columns count (round + 1) counts
    return destinations :: rest

/-- The moves split into one matching per row. -/
def rowMatchings (limit : Nat) (grid : Grid) (finalColumns : List Nat) :
    Except Failure (List (List Nat)) := do
  let none_counted := List.replicate grid.columns (List.replicate grid.columns 0)
  let counts ← finalColumns.zipIdx.foldlM (countMove limit grid) none_counted
  matchingRounds limit grid.columns grid.rows 0 counts

variable {limit columns s d : Nat} {moves left : List ColumnMove} {counts : Counts} {grid : Grid}

/-- A table holds the given moves. -/
structure Counted (columns : Nat) (moves : List ColumnMove) (counts : Counts) : Prop where
  within : ∀ move ∈ moves, move.1 < columns ∧ move.2 < columns
  length_eq : counts.length = columns
  row : ∀ s < columns, ∃ row, counts[s]? = some row ∧ row.length = columns ∧
    ∀ d < columns, row[d]? = some (moves.count (s, d))

/-- A table of zeros holds no moves. -/
lemma counted_nil (columns : Nat) :
    Counted columns [] (List.replicate columns (List.replicate columns 0)) where
  within := by simp
  length_eq := List.length_replicate
  row s lt := ⟨List.replicate columns 0, by simp [lt], List.length_replicate, fun d ltD => by simp [ltD]⟩

/-- A table whose count of one move is changed holds moves that differ in this one only. -/
lemma Counted.set (counted : Counted columns moves counts) (ltS : s < columns) (ltD : d < columns)
    {row : List Nat} (here : counts[s]? = some row)
    (within : ∀ move ∈ left, move.1 < columns ∧ move.2 < columns)
    (others : ∀ move, move ≠ (s, d) → left.count move = moves.count move) :
    Counted columns left (counts.set s (row.set d (left.count (s, d)))) where
  within := within
  length_eq := by rw [List.length_set, counted.length_eq]
  row := by
    intro s' ltS'
    obtain ⟨row', here', length, entries⟩ := counted.row s' ltS'
    by_cases same : s = s'
    · subst same
      obtain rfl : row = row' := Option.some.inj (here.symm.trans here')
      refine ⟨_, List.getElem?_set_self (counted.length_eq ▸ ltS), by rw [List.length_set, length], ?_⟩
      intro d' ltD'
      by_cases sameD : d = d'
      · subst sameD
        exact List.getElem?_set_self (length ▸ ltD)
      · rw [List.getElem?_set_ne sameD, entries d' ltD', others]
        intro equal
        cases equal
        exact sameD rfl
    · refine ⟨row', by rw [List.getElem?_set_ne same, here'], length, ?_⟩
      intro d' ltD'
      rw [entries d' ltD', others]
      intro equal
      cases equal
      exact same rfl

/-- Counting a move up adds it to the moves. -/
lemma Counted.add (counted : Counted columns moves counts) (ltS : s < columns) (ltD : d < columns)
    {row : List Nat} (here : counts[s]? = some row) :
    Counted columns (moves ++ [(s, d)]) (counts.set s (row.set d (moves.count (s, d) + 1))) := by
  have more : (moves ++ [(s, d)]).count (s, d) = moves.count (s, d) + 1 := by simp
  rw [← more]
  refine counted.set ltS ltD here ?_ ?_
  · intro move mem
    rcases List.mem_append.mp mem with mem | mem
    · exact counted.within move mem
    · rw [List.mem_singleton.mp mem]
      exact ⟨ltS, ltD⟩
  · intro move ne
    rw [List.count_append, List.count_singleton, if_neg (by simpa using Ne.symm ne), Nat.add_zero]

/-- A move that is there is taken away from the table. -/
lemma Counted.take (counted : Counted columns moves counts)
    (taken : Grid.takeMove moves (s, d) = .ok left) :
    ∃ fewer, takeMove counts s d = .ok fewer ∧ Counted columns left fewer := by
  rw [Grid.takeMove] at taken
  split at taken
  · next mem =>
    cases taken
    obtain ⟨ltS, ltD⟩ := counted.within _ mem
    obtain ⟨row, here, length, entries⟩ := counted.row s ltS
    have positive : 1 ≤ moves.count (s, d) := List.count_pos_iff.mpr mem
    have fewer : (moves.erase (s, d)).count (s, d) = moves.count (s, d) - 1 := List.count_erase_self
    refine ⟨_, ?_, counted.set ltS ltD here (fun move inside => counted.within move
      (List.mem_of_mem_erase inside)) fun move ne => List.count_erase_of_ne ne⟩
    rw [takeMove, item_of_getElem? here, Checked.ok_bind, item_of_getElem? (entries d ltD),
      Checked.ok_bind, less_of_le positive, Checked.ok_bind, put_of_lt (length ▸ ltD),
      Checked.ok_bind, put_of_lt (counted.length_eq ▸ ltS), fewer]
  · cases taken

/-- A cell, given with its destination column, sends its content from one column to another. -/
def Sends (grid : Grid) (cell : Nat × Nat) (move : ColumnMove) : Prop :=
  ∃ row, grid.coordinates (cell.2 % UInt32.size) = .ok (row, move.1) ∧ move.2 = cell.1 ∧
    move.1 < grid.columns ∧ move.2 < grid.columns

/-- The moves of the cells are what each cell sends. -/
lemma sends_of_columnMoves {finalColumns : List Nat} (run : grid.columnMoves finalColumns = .ok moves) :
    List.Forall₂ (Sends grid) finalColumns.zipIdx moves := by
  refine (Checked.forall₂_of_mapM run).imp ?_
  rintro ⟨destination, cell⟩ move sent
  obtain ⟨⟨row, column⟩, found, sent⟩ := Checked.bind_eq_ok.mp sent
  have coordinates := Failure.ofChecked_eq_ok.mp found
  have ltColumn : column < grid.columns := by
    rw [Grid.coordinates] at coordinates
    split at coordinates
    · cases coordinates
    · next columns =>
      cases coordinates
      exact Nat.mod_lt _ (Nat.pos_of_ne_zero columns)
  simp only at sent
  split at sent
  · next lt =>
    cases sent
    exact ⟨row, coordinates, rfl, ltColumn, lt⟩
  · cases sent

/-- Counting the move of a cell succeeds if there is room for one more. -/
lemma Counted.countMove_eq (counted : Counted grid.columns moves counts)
    (few : moves.length + 1 < limit) {cell : Nat × Nat} {move : ColumnMove} (sends : Sends grid cell move) :
    ∃ more, countMove limit grid counts cell = .ok more ∧
      Counted grid.columns (moves ++ [move]) more := by
  obtain ⟨target, cell⟩ := cell
  obtain ⟨source, destination⟩ := move
  obtain ⟨_, coordinates, rfl, ltS, ltD⟩ := sends
  obtain ⟨row, here, _, entries⟩ := counted.row source ltS
  have small : moves.count (source, destination) + 1 < limit :=
    (Nat.succ_le_succ List.count_le_length).trans_lt few
  refine ⟨_, ?_, counted.add ltS ltD here⟩
  rw [countMove, coordinates]
  simp only [Failure.ofChecked, Checked.ok_bind, here, entries destination ltD, size_of_lt small]
  rfl

/-- Counting the moves of all cells succeeds if there is room for them. -/
lemma Counted.countMoves_eq {cells : List (Nat × Nat)} {more : List ColumnMove}
    (sends : List.Forall₂ (Sends grid) cells more) :
    ∀ {moves : List ColumnMove} {counts : Counts}, Counted grid.columns moves counts →
      moves.length + cells.length < limit →
      ∃ final, cells.foldlM (countMove limit grid) counts = .ok final ∧
        Counted grid.columns (moves ++ more) final := by
  induction sends with
  | nil => exact fun counted _ => ⟨_, rfl, by rwa [List.append_nil]⟩
  | @cons cell move cells more head _ ih =>
    intro moves counts counted few
    rw [List.length_cons] at few
    have room : moves.length + 1 < limit := by omega
    obtain ⟨next, counting, nextCounted⟩ := counted.countMove_eq room head
    have shorter : (moves ++ [move]).length + cells.length < limit := by
      rw [List.length_append, List.length_singleton]
      omega
    obtain ⟨final, run, finalCounted⟩ := ih nextCounted shorter
    refine ⟨final, by rw [List.foldlM_cons, counting, Checked.ok_bind, run], ?_⟩
    rwa [List.append_assoc, List.singleton_append] at finalCounted

/-- The graph made from the table is that of the moves it holds. -/
lemma Counted.moveGraph_eq (counted : Counted columns moves counts) (double : 2 * columns < limit)
    (square : columns * columns < limit) :
    moveGraph limit columns counts = .ok (Grid.moveGraph columns moves) := by
  -- a count is positive exactly if its move is there
  have occurs : ∀ s < columns, ∀ d < columns,
      decide (0 < (counts[s]?.bind (·[d]?)).getD 0) = decide ((s, d) ∈ moves) := by
    intro s ltS d ltD
    obtain ⟨row, here, _, entries⟩ := counted.row s ltS
    rw [here, Option.bind_some, entries d ltD, Option.getD_some, decide_eq_decide]
    exact List.count_pos_iff
  have descends : ∀ {d}, d ∈ (List.range columns).reverse → d < columns := by
    intro d mem
    exact List.mem_range.mp (List.mem_reverse.mp mem)
  have destinations : (List.range columns).mapM (fun source =>
      ((List.range columns).reverse.filter fun destination =>
        decide (0 < (counts[source]?.bind (·[destination]?)).getD 0)).mapM
          fun destination => size limit (columns + destination))
      = .ok ((List.range columns).map fun source =>
          ((List.range columns).reverse.filter fun destination =>
            decide ((source, destination) ∈ moves)).map (columns + ·)) := by
    refine Checked.mapM_eq_ok fun source mem => ?_
    rw [List.filter_congr fun destination inside =>
      occurs source (List.mem_range.mp mem) destination (descends inside)]
    refine Checked.mapM_eq_ok fun destination inside => ?_
    have lt := descends (List.mem_of_mem_filter inside)
    exact size_of_lt (by omega)
  have sources : ((List.range columns).map fun destination =>
      (List.range columns).reverse.filter fun source =>
        decide (0 < (counts[source]?.bind (·[destination]?)).getD 0))
      = (List.range columns).map fun destination =>
          (List.range columns).reverse.filter fun source => decide ((source, destination) ∈ moves) := by
    refine List.map_congr_left fun destination mem => ?_
    exact List.filter_congr fun source inside =>
      occurs source (descends inside) destination (List.mem_range.mp mem)
  simp only [moveGraph, size_of_lt double, size_of_lt square, Checked.ok_bind, destinations, sources]
  rfl

/-- A round that matches the moves matches the table alike. -/
lemma Counted.matchColumns_eq {round : Nat} {mates : Graph.Mates} {sources destinations : List Nat}
    (counted : Counted columns moves counts)
    (run : Grid.matchColumns columns round mates sources moves = .ok (destinations, left)) :
    ∃ fewer, matchColumns columns round mates sources counts = .ok (destinations, fewer) ∧
      Counted columns left fewer := by
  induction sources generalizing moves counts destinations with
  | nil =>
    cases run
    exact ⟨counts, rfl, counted⟩
  | cons source sources ih =>
    obtain ⟨mate, found, le, next, rest, taken, matched, rfl⟩ := Grid.matchColumns_cons run
    obtain ⟨fewer, taking, fewerCounted⟩ := counted.take taken
    obtain ⟨final, remaining, finalCounted⟩ := ih fewerCounted matched
    refine ⟨final, ?_, finalCounted⟩
    have kept : (mates.find? source).filter (columns ≤ ·) = some mate := by simp [found, le]
    simp only [matchColumns, kept, less_of_le le, Failure.ofChecked, Checked.ok_bind, taking, remaining]
    rfl

/-- Rounds that match the moves match the table alike. -/
lemma Counted.matchingRounds_eq (double : 2 * columns < limit) (square : columns * columns < limit)
    {count : Nat} : ∀ {round : Nat} {moves : List ColumnMove} {counts : Counts}
      {matchings : List (List Nat)}, Counted columns moves counts →
      Grid.matchingRounds columns count round moves = .ok matchings →
      matchingRounds limit columns count round counts = .ok matchings := by
  induction count with
  | zero => exact fun _ run => run
  | succ count ih =>
    intro round moves counts matchings counted run
    rw [Grid.matchingRounds] at run
    obtain ⟨⟨destinations, left⟩, matched, run⟩ := Checked.bind_eq_ok.mp run
    obtain ⟨rest, remaining, run⟩ := Checked.bind_eq_ok.mp run
    obtain ⟨fewer, matching, fewerCounted⟩ := counted.matchColumns_eq matched
    cases run
    simp only [matchingRounds, counted.moveGraph_eq double square, Failure.ofChecked, Checked.ok_bind,
      matching, ih fewerCounted remaining]
    rfl

/-- The matchings that the moves split into are those found by counting. -/
lemma rowMatchings_eq {finalColumns : List Nat} {matchings : List (List Nat)}
    (double : 2 * grid.columns < limit) (square : grid.columns * grid.columns < limit)
    (few : finalColumns.length < limit) (run : grid.rowMatchings finalColumns = .ok matchings) :
    rowMatchings limit grid finalColumns = .ok matchings := by
  obtain ⟨moves, listed, run⟩ := Checked.bind_eq_ok.mp run
  have room : ([] : List ColumnMove).length + finalColumns.zipIdx.length < limit := by simpa using few
  obtain ⟨counts, counting, counted⟩ :=
    Counted.countMoves_eq (sends_of_columnMoves listed) (counted_nil grid.columns) room
  rw [rowMatchings]
  simp only [counting, Checked.ok_bind]
  exact counted.matchingRounds_eq double square run

end QubitRouting.Machine
