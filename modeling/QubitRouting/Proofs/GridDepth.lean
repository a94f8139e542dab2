import QubitRouting.Proofs.GridSwaps
import QubitRouting.Proofs.HalfPass

/-!
# How deep the swaps on a grid are

Every line of a grid is sorted in as many layers as it has cells. The lines of one direction have no cell
in common, so they share their layers, though they are sorted one after the other. The three phases are
stacked: twice as many layers as there are rows, for the columns, and as many as there are columns, for the
rows.
-/

namespace QubitRouting.Grid

open scoped List

variable {grid : Grid} {cells : List Nat} {key : Destination → Nat} {board board' : Board}
  {swaps : List Swap}

/-! ### One line -/

/-- Swaps along a line are swaps of places, with the cells for their places. -/
lemma lineSwaps_eq_map {log : List Nat} (lt : ∀ i ∈ log, i + 1 < cells.length) :
    lineSwaps cells log
      = (OddEven.swapsOf log).map (Prod.map (fun i => cells.getD i 0) fun i => cells.getD i 0) := by
  induction log with
  | nil => rfl
  | cons i rest ih =>
    have ltI := lt i List.mem_cons_self
    rw [lineSwaps_cons ltI, ih fun j mem => lt j (List.mem_cons_of_mem i mem)]
    simp [OddEven.swapsOf, ltI, Nat.lt_of_succ_lt ltI]

/-- A line is sorted in as many layers as it has cells. -/
lemma layered_lineSwaps (nodup : cells.Nodup) {destinations : List Destination}
    (length : destinations.length = cells.length) :
    Swap.Layered cells.length (lineSwaps cells (OddEven.sort key destinations).2) := by
  have within : ∀ i ∈ (OddEven.sort key destinations).2, i + 1 < cells.length := by
    intro i mem
    rw [← length]
    exact (OddEven.sort_exchanges key destinations).lt mem
  rw [lineSwaps_eq_map within, ← length]
  refine (OddEven.layered_sort key destinations).map {i | i < cells.length} ?_ ?_
  · intro swap mem
    obtain ⟨i, memLog, rfl⟩ := List.mem_map.mp mem
    have lt := within i memLog
    exact ⟨Nat.lt_of_succ_lt lt, lt⟩
  · intro i ltI j ltJ same
    have ltI : i < cells.length := ltI
    have ltJ : j < cells.length := ltJ
    simp only [List.getD_eq_getElem?_getD, List.getElem?_eq_getElem, ltI, ltJ, Option.getD_some] at same
    exact nodup.getElem_inj_iff.mp same

/-- Sorting a line adds swaps of its cells, in as many layers as there are cells. -/
lemma layered_sortLine (nodup : cells.Nodup) (run : sortLine key board cells = .ok board') :
    ∃ swaps, board'.swaps = board.swaps ++ swaps ∧ Swap.Layered cells.length swaps ∧
      ∀ swap ∈ swaps, swap.1 ∈ cells ∧ swap.2 ∈ cells := by
  rw [sortLine] at run
  split at run
  · cases run
    refine ⟨[], (List.append_nil _).symm, Swap.layered_nil.mono (Nat.zero_le _), ?_⟩
    intro swap mem
    cases mem
  · obtain ⟨destinations, read, run⟩ := Checked.bind_eq_ok.mp run
    cases run
    have length : destinations.length = cells.length := (Checked.forall₂_of_mapM read).length_eq.symm
    exact ⟨_, rfl, layered_lineSwaps nodup length, fun swap mem => mem_of_mem_lineSwaps mem⟩

/-! ### The lines of one direction -/

/-- Lines without common cells are sorted in as many layers as the longest of them has cells. -/
lemma layered_sortLines {line : Nat → List Nat} {indices : List Nat} {length : Nat}
    {cellsOf : Nat → Except Fault (List Nat)} (known : ∀ i ∈ indices, cellsOf i = .ok (line i))
    (nodup : ∀ i ∈ indices, (line i).Nodup) (short : ∀ i ∈ indices, (line i).length ≤ length)
    (apart : indices.Pairwise fun i j => (line i).Disjoint (line j))
    (run : indices.foldlM (fun board i => do sortLine key board (← cellsOf i)) board = .ok board') :
    ∃ swaps, board'.swaps = board.swaps ++ swaps ∧ Swap.Layered length swaps ∧
      ∀ swap ∈ swaps, ∃ i ∈ indices, swap.1 ∈ line i ∧ swap.2 ∈ line i := by
  induction indices generalizing board with
  | nil =>
    cases run
    refine ⟨[], (List.append_nil _).symm, Swap.layered_nil.mono (Nat.zero_le _), ?_⟩
    intro swap mem
    cases mem
  | cons i rest ih =>
    obtain ⟨first, apart⟩ := List.pairwise_cons.mp apart
    rw [List.foldlM_cons] at run
    obtain ⟨next, sorted, run⟩ := Checked.bind_eq_ok.mp run
    rw [known i List.mem_cons_self] at sorted
    obtain ⟨swaps, grown, layered, inside⟩ := layered_sortLine (nodup i List.mem_cons_self) sorted
    obtain ⟨more, grown', layered', inside'⟩ := ih (fun j mem => known j (List.mem_cons_of_mem i mem))
      (fun j mem => nodup j (List.mem_cons_of_mem i mem))
      (fun j mem => short j (List.mem_cons_of_mem i mem)) apart run
    refine ⟨swaps ++ more, ?_, ?_, ?_⟩
    · rw [grown', grown, List.append_assoc]
    · -- the line has no cell in common with the others, so it shares their layers
      refine (layered.mono (short i List.mem_cons_self)).beside layered' ?_
      intro a memA b memB meets
      obtain ⟨firstA, secondA⟩ := inside a memA
      obtain ⟨j, memJ, firstB, secondB⟩ := inside' b memB
      have disjoint := first j memJ
      rcases meets with same | same | same | same
      · exact disjoint firstA (same ▸ firstB)
      · exact disjoint firstA (same ▸ secondB)
      · exact disjoint secondA (same ▸ firstB)
      · exact disjoint secondA (same ▸ secondB)
    · intro swap mem
      rcases List.mem_append.mp mem with mem | mem
      · exact ⟨i, List.mem_cons_self, inside swap mem⟩
      · obtain ⟨j, memJ, both⟩ := inside' swap mem
        exact ⟨j, List.mem_cons_of_mem i memJ, both⟩

/-- Sorting lines without a common cell takes as many layers as a line has cells. -/
lemma Lines.layered {count length : Nat} {line : Nat → List Nat} {label index : Nat → Nat}
    (lines : Lines grid count length line label index) {cellsOf : Nat → Except Fault (List Nat)}
    (known : ∀ i < count, cellsOf i = .ok (line i))
    (run : (List.range count).foldlM (fun board i => do sortLine key board (← cellsOf i)) board
      = .ok board') :
    ∃ swaps, board'.swaps = board.swaps ++ swaps ∧ Swap.Layered length swaps := by
  obtain ⟨swaps, grown, layered, _⟩ := layered_sortLines
    (fun i mem => known i (List.mem_range.mp mem)) (fun i _ => lines.nodup i)
    (fun i _ => (lines.length_eq i).le) lines.apart run
  exact ⟨swaps, grown, layered⟩

/-! ### The three phases -/

/-- The three phases of sorting take at most twice as many layers as there are rows, and as many more as
there are columns. -/
lemma Valid.layered_sortPhases (valid : grid.Valid) {records : Array Record}
    (run : grid.sortPhases records = .ok swaps) :
    Swap.Layered (grid.rows + grid.columns + grid.rows) swaps := by
  obtain ⟨board₁, run₁, run⟩ := Checked.bind_eq_ok.mp run
  obtain ⟨board₂, run₂, run⟩ := Checked.bind_eq_ok.mp run
  obtain ⟨board₃, run₃, run⟩ := Checked.bind_eq_ok.mp run
  cases run
  obtain ⟨swaps₁, grown₁, layered₁⟩ := valid.columns.layered (fun c lt => valid.columnCells_eq lt) run₁
  obtain ⟨swaps₂, grown₂, layered₂⟩ := valid.rows.layered (fun r lt => valid.rowCells_eq lt) run₂
  obtain ⟨swaps₃, grown₃, layered₃⟩ := valid.columns.layered (fun c lt => valid.columnCells_eq lt) run₃
  rw [grown₃, grown₂, grown₁]
  exact (layered₁.append layered₂).append layered₃

/-- Whatever the order of the matchings, the swaps for it are that shallow. -/
lemma Valid.depth_swapsFor_le (valid : grid.Valid) {records : List Record} {matchings : List (List Nat)}
    {order : List Nat} (run : grid.swapsFor records matchings order = .ok swaps) :
    Swap.depth swaps ≤ 2 * grid.rows + grid.columns := by
  obtain ⟨assigned, _, run⟩ := Checked.bind_eq_ok.mp run
  have layered := valid.layered_sortPhases (Failure.ofChecked_eq_ok.mp run)
  calc Swap.depth swaps
    _ ≤ grid.rows + grid.columns + grid.rows := layered.depth_le
    _ = 2 * grid.rows + grid.columns := by omega

/-- The swaps found on a grid are at most as deep as twice its number of rows and its number of columns
together. If the cells can be numbered there are such swaps, and they take every shared qubit to its new
cell. -/
theorem optimalSwaps_depth_le {grid : Grid} {old new : Layout Nat} (rows_pos : 0 < grid.rows)
    (columns_pos : 0 < grid.columns) (oldFits : old.Fits (grid.rows * grid.columns))
    (newFits : new.Fits (grid.rows * grid.columns)) (cost : Cost) (steps : Nat) (stream : Random.Stream) :
    (∀ swaps, (grid.optimalSwaps old new cost steps stream).1 = .ok swaps →
      Swap.depth swaps ≤ 2 * grid.rows + grid.columns) ∧
    (grid.rows * grid.columns < 2 ^ 32 → ∃ swaps,
      (grid.optimalSwaps old new cost steps stream).1 = .ok swaps ∧ Realises grid old new swaps) := by
  constructor
  · intro swaps found
    have valid : grid.Valid := ⟨rows_pos, columns_pos, small_of_optimalSwaps found⟩
    obtain ⟨records, matchings, order, run⟩ := exists_order_of_optimalSwaps found
    exact valid.depth_swapsFor_le run
  · intro small
    have valid : grid.Valid := ⟨rows_pos, columns_pos, small⟩
    obtain ⟨targets, records, matchings, posed⟩ := valid.exists_posed oldFits newFits
    obtain ⟨order, swaps, _, run, found, carries⟩ :=
      posed.exists_order valid oldFits newFits cost steps stream
    exact ⟨swaps, found, valid.realises oldFits.consistent run carries⟩

/-- Two rows of three qubits are turned upside down and back to front. Whatever the search looks for, it
finds swaps of at most seven layers. -/
theorem optimalSwaps_depth_le_turned :
    let old : Layout Nat := .ofPairs [(⟨0⟩, 0), (⟨1⟩, 1), (⟨2⟩, 2), (⟨3⟩, 3), (⟨4⟩, 4), (⟨5⟩, 5)]
    let new : Layout Nat := .ofPairs [(⟨0⟩, 5), (⟨1⟩, 4), (⟨2⟩, 3), (⟨3⟩, 2), (⟨4⟩, 1), (⟨5⟩, 0)]
    ∀ cost steps stream, ∃ swaps, (Grid.optimalSwaps ⟨2, 3⟩ old new cost steps stream).1 = .ok swaps ∧
      (old.applySwaps swaps).position? ⟨0⟩ = some 5 ∧ Swap.depth swaps ≤ 7 := by
  intro old new cost steps stream
  have oldFits : old.Fits ((⟨2, 3⟩ : Grid).rows * (⟨2, 3⟩ : Grid).columns) := Layout.fits_ofPairs (by decide)
  have newFits : new.Fits ((⟨2, 3⟩ : Grid).rows * (⟨2, 3⟩ : Grid).columns) := Layout.fits_ofPairs (by decide)
  obtain ⟨shallow, exist⟩ :=
    optimalSwaps_depth_le (by decide) (by decide) oldFits newFits cost steps stream
  obtain ⟨swaps, found, realises⟩ := exist (by decide)
  exact ⟨swaps, found, realises.arrives ⟨0⟩ 0 5 (by decide) (by decide), shallow swaps found⟩

end QubitRouting.Grid
