import QubitRouting.Proofs.ChainSwaps
import QubitRouting.Proofs.GridDepth
import QubitRouting.Proofs.Machine.Synthesis

/-!
# Sorting a line in place

The loop that sorts a line of cells has no bound of its own: it makes half-passes over the odd and over
the even places by turns, until neither of two exchanges anything. It ends, and what it leaves is the
stable sort of the destinations, whether or not keys are equal: an exchange is only made between different
keys, so the contents of one key never change their order. The swaps are the exchanges it made, so that
making them again on the cells as they were gives the cells as they are.
-/

namespace QubitRouting

open scoped List

/-! ### Stability -/

namespace OddEven

variable {α : Type} {key : α → Nat} {items final others : List α} {log : List Nat}

/-- The items of one key keep their order. -/
lemma Exchanges.filter_key (exchanges : Exchanges key items log final) (k : Nat) :
    final.filter (key · = k) = items.filter (key · = k) := by
  induction exchanges with
  | nil => rfl
  | @cons before x y after _ _ less _ ih =>
    rw [ih, List.filter_append, List.filter_append]
    congr 1
    by_cases first : key x = k
    · have second : ¬key y = k := by omega
      simp [first, second]
    · simp [List.filter_cons, first]

/-- Lists that have the same items at each key have the same items. -/
lemma mem_iff_of_filter_key (same : ∀ k, items.filter (key · = k) = others.filter (key · = k)) (x : α) :
    x ∈ items ↔ x ∈ others := by
  have member (list : List α) : x ∈ list ↔ x ∈ list.filter (key · = key x) := by simp
  rw [member items, same, ← member]

/-- A list in order is told by what it has of each key. -/
lemma eq_of_filter_key (sorted : items.Pairwise (key · ≤ key ·)) (sorted' : others.Pairwise (key · ≤ key ·))
    (same : ∀ k, items.filter (key · = k) = others.filter (key · = k)) : items = others := by
  induction items generalizing others with
  | nil =>
    cases others with
    | nil => rfl
    | cons y _ => exact absurd ((mem_iff_of_filter_key same y).mpr List.mem_cons_self) List.not_mem_nil
  | cons x rest ih =>
    cases others with
    | nil => exact absurd ((mem_iff_of_filter_key same x).mp List.mem_cons_self) List.not_mem_nil
    | cons y others =>
      obtain ⟨least, tail⟩ := List.pairwise_cons.mp sorted
      obtain ⟨least', tail'⟩ := List.pairwise_cons.mp sorted'
      -- both lists begin with the first item of the least key
      have le : key x ≤ key y := by
        rcases List.mem_cons.mp ((mem_iff_of_filter_key same y).mpr List.mem_cons_self) with rfl | mem
        · exact Nat.le_refl _
        · exact least y mem
      have ge : key y ≤ key x := by
        rcases List.mem_cons.mp ((mem_iff_of_filter_key same x).mp List.mem_cons_self) with rfl | mem
        · exact Nat.le_refl _
        · exact least' x mem
      have heads := same (key x)
      rw [List.filter_cons_of_pos (by simp), List.filter_cons_of_pos (by simp; omega)] at heads
      obtain rfl := (List.cons.inj heads).1
      refine congrArg _ (ih tail tail' fun k => ?_)
      have both := same k
      rw [List.filter_cons, List.filter_cons] at both
      split at both
      · exact (List.cons.inj both).2
      · exact both

/-- The sort is stable. -/
lemma sort_eq_mergeSort (key : α → Nat) (items : List α) :
    (sort key items).1 = items.mergeSort (key · ≤ key ·) := by
  have trans (a b c : α) (first : decide (key a ≤ key b) = true) (second : decide (key b ≤ key c) = true) :
      decide (key a ≤ key c) = true := by
    simp only [decide_eq_true_eq] at first second ⊢
    omega
  have total (a b : α) : (decide (key a ≤ key b) || decide (key b ≤ key a)) = true := by
    simp only [Bool.or_eq_true, decide_eq_true_eq]
    omega
  have perm := List.mergeSort_perm items (key · ≤ key ·)
  refine eq_of_filter_key (sorted_sort key items) ?_ fun k => ?_
  · simpa using List.pairwise_mergeSort trans total items
  · rw [(sort_exchanges key items).filter_key k]
    -- what has one key is in order already, so sorting keeps it as it is
    have inOrder : (items.filter (key · = k)).Pairwise fun a b => decide (key a ≤ key b) = true := by
      refine List.pairwise_of_forall_mem_list fun a memA b memB => ?_
      have first := (List.mem_filter.mp memA).2
      have second := (List.mem_filter.mp memB).2
      simp only [decide_eq_true_eq] at first second ⊢
      omega
    have kept := (List.sublist_mergeSort trans total inOrder List.filter_sublist).filter (key · = k)
    rw [List.filter_filter] at kept
    simp only [Bool.and_self] at kept
    exact kept.eq_of_length ((perm.filter _).length_eq.symm)

/-- The inversions of a line are its pairs of places with keys in the wrong order. -/
lemma inversions_eq_card (key : α → Nat) (items : List α) :
    inversions key items = (Finset.univ.filter fun pair : Fin items.length × Fin items.length =>
      pair.1 < pair.2 ∧ key items[pair.2] < key items[pair.1]).card := by
  have listed : items.map key = List.ofFn fun i : Fin items.length => key items[i] := by
    apply List.ext_getElem
    · simp
    · intro i _ _
      simp
  have same := inversions_map id key items
  rw [listed, inversions_ofFn] at same
  exact same.symm

end OddEven

/-! ### The loop -/

namespace Machine.Line

variable {α σ : Type} {limit : Nat} {line : Line σ} {key : α → Nat} {R : σ → List α → List Nat → Prop}
  {items final : List α} {logs : List (List Nat)} {state : σ} {log : List Nat}

/-- The loop over a line without a bound on the number of passes. For each half-pass it is noted whether
anything was exchanged. -/
inductive Loops (limit : Nat) (line : Line σ) : σ → List Bool → σ → Prop where
  | done {state middle final} :
    line.halfPass limit true (state, false) = .ok (middle, false) →
    line.halfPass limit false (middle, false) = .ok (final, false) →
    Loops limit line state [false, false] final
  | again {state middle next final odd even busy} :
    line.halfPass limit true (state, false) = .ok (middle, odd) →
    line.halfPass limit false (middle, false) = .ok (next, even) →
    (odd || even) = true →
    Loops limit line next busy final →
    Loops limit line state (odd :: even :: busy) final

/-- The loop over a line that shows a list does what the loop over the list does. -/
lemma Shows.loops (shows : line.Shows key R) (small : line.length < limit)
    (loops : OddEven.Loops key items logs final) (here : R state items log) :
    ∃ state', Loops limit line state (logs.map (!·.isEmpty)) state' ∧
      R state' final (log ++ logs.flatten) := by
  induction loops generalizing state log with
  | @done items nothing =>
    obtain ⟨oddNothing, evenNothing⟩ : (OddEven.oddPass key items).2 = [] ∧
        (OddEven.evenPass key (OddEven.oddPass key items).1).2 = [] := List.append_eq_nil_iff.mp nothing
    have same : (OddEven.pass key items).1 = items := (OddEven.pass_exchanges key items).eq_of_nil nothing
    obtain ⟨middle, odd, shown⟩ := shows.halfPass_eq small true false here
    obtain ⟨last, even, shown⟩ := shows.halfPass_eq small false false shown
    simp only [OddEven.halfPass, if_true, Bool.false_eq_true, if_false, oddNothing, evenNothing,
      List.isEmpty_nil, Bool.not_true, Bool.or_false] at odd even shown
    refine ⟨last, .done odd even, ?_⟩
    have unchanged : (OddEven.evenPass key (OddEven.oddPass key items).1).1 = items := same
    simpa [unchanged] using shown
  | @again items logs final something _ ih =>
    obtain ⟨middle, odd, shown⟩ := shows.halfPass_eq small true false here
    obtain ⟨next, even, shown⟩ := shows.halfPass_eq small false false shown
    obtain ⟨last, rest, shown⟩ := ih shown
    refine ⟨last, .again odd even ?_ rest, by simpa [OddEven.halfPass] using shown⟩
    by_contra nothing
    simp only [Bool.or_eq_true, Bool.not_eq_true', not_or, Bool.not_eq_false,
      List.isEmpty_iff] at nothing
    exact something (List.append_eq_nil_iff.mpr nothing)

end Machine.Line

/-! ### Cells of a grid -/

namespace Grid

open Machine (written)

variable {key : Destination → Nat} {board : Board} {cells : List Nat} {records : Array Record}
  {items final : List Destination} {log : List Nat}

/-- Exchange the contents of two cells. -/
def exchangeCells (records : Array Record) (swap : Swap) : Except Fault (Array Record) := do
  let left ← destinationOf records swap.1
  let right ← destinationOf records swap.2
  return setDestination (setDestination records swap.1 right) swap.2 left

/-- What it means to sort the contents of a line of cells in place, from one board to another, when the
contents are given from the first cell to the last. -/
structure SortedInPlace (key : Destination → Nat) (cells : List Nat) (contents : List Destination)
    (board board' : Board) (swaps : List Swap) : Prop where
  /-- Only the given swaps are added. -/
  log : board'.swaps = board.swaps ++ swaps
  /-- They are between consecutive cells of the line. -/
  consecutive : ∀ swap ∈ swaps, ∃ i : Nat, cells[i]? = some swap.1 ∧ cells[i + 1]? = some swap.2
  /-- There is one for each pair of contents in the wrong order. -/
  count : swaps.length = (Finset.univ.filter fun pair : Fin contents.length × Fin contents.length =>
    pair.1 < pair.2 ∧ key contents[pair.2] < key contents[pair.1]).card
  /-- Made one after the other, they lead from the records before to those after. -/
  replay : swaps.foldlM exchangeCells board.records = .ok board'.records
  /-- The contents are sorted, and those with the same key are in the order they were in. -/
  stable : cells.mapM (destinationOf board'.records) = .ok (contents.mergeSort (key · ≤ key ·))
  /-- Other records stay as they are. -/
  outside : ∀ p ∉ cells, board'.records[p]? = board.records[p]?
  /-- No record changes its cell. -/
  coordinates : board'.records.map (fun record => (record.row, record.column))
    = board.records.map fun record => (record.row, record.column)

/-- The swaps of exchanges along a line lead from the line before to the line after. -/
lemma replay_lineSwaps (nodup : cells.Nodup) (inside : ∀ c ∈ cells, c < records.size)
    (exchanges : OddEven.Exchanges key items log final) (length : items.length = cells.length) :
    (lineSwaps cells log).foldlM exchangeCells (written records cells items)
      = .ok (written records cells final) := by
  induction exchanges with
  | nil => rfl
  | @cons before x y after log final _ _ ih =>
    have shorter : (before ++ y :: x :: after).length = cells.length := by simpa using length
    have ltRight : before.length + 1 < cells.length := by
      rw [← length, List.length_append, List.length_cons, List.length_cons]
      omega
    have left := List.getElem?_eq_getElem (Nat.lt_of_succ_lt ltRight)
    have right := List.getElem?_eq_getElem ltRight
    have foundLeft := Machine.destinationOf_written nodup left
      (show (before ++ x :: y :: after)[before.length]? = some x by simp) (inside _ (List.getElem_mem _))
    have foundRight := Machine.destinationOf_written nodup right
      (show (before ++ x :: y :: after)[before.length + 1]? = some y by simp)
      (inside _ (List.getElem_mem _))
    -- in between, `y` is in both cells
    have first : setDestination (written records cells (before ++ x :: y :: after)) cells[before.length] y
        = written records cells (before ++ y :: y :: after) := by
      rw [Machine.setDestination_written nodup length left, List.set_append_right _ _ le_rfl, Nat.sub_self,
        List.set_cons_zero]
    have second : setDestination (written records cells (before ++ y :: y :: after))
        cells[before.length + 1] x = written records cells (before ++ y :: x :: after) := by
      rw [Machine.setDestination_written nodup (by simpa using length) right,
        List.set_append_right _ _ (Nat.le_add_right _ 1), Nat.add_sub_cancel_left, List.set_cons_succ,
        List.set_cons_zero]
    have exchanged : exchangeCells (written records cells (before ++ x :: y :: after))
        (cells[before.length], cells[before.length + 1])
          = .ok (written records cells (before ++ y :: x :: after)) := by
      simp only [exchangeCells, foundLeft, foundRight, Checked.ok_bind, first, second]
      rfl
    rw [lineSwaps_cons ltRight, List.foldlM_cons, exchanged]
    exact ih shorter

/-- Writing destinations leaves the coordinates of the records alone. -/
lemma coordinates_written (records : Array Record) (cells : List Nat) (items : List Destination) :
    (written records cells items).map (fun record => (record.row, record.column))
      = records.map fun record => (record.row, record.column) := by
  rw [written]
  generalize cells.zip items = entries
  induction entries generalizing records with
  | nil => rfl
  | cons entry rest ih =>
    rw [List.foldl_cons, ih]
    apply Array.ext_getElem?
    intro p
    rw [Array.getElem?_map, Array.getElem?_map, Machine.getElem?_setDestination]
    split
    · rw [Option.map_map]
      rfl
    · rfl

/-- Every table of records has destinations. -/
lemma exists_holds (records : Array Record) : ∃ d, Holds records records.size d := by
  refine ⟨fun p => (records[p]?.map Record.destination).getD ⟨0, 0, none⟩, rfl, ?_⟩
  intro p lt
  rw [destinationOf, Array.getElem?_eq_getElem lt]
  rfl

/-- Sorting a line writes the sorted contents to its cells and adds the swaps of the exchanges. -/
lemma sortLine_eq_written {n : Nat} {d : Nat → Destination} (holds : Holds board.records n d)
    (nodup : cells.Nodup) (lt : ∀ c ∈ cells, c < n) :
    sortLine key board cells = .ok ⟨written board.records cells (OddEven.sort key (cells.map d)).1,
      board.swaps ++ lineSwaps cells (OddEven.sort key (cells.map d)).2⟩ := by
  by_cases short : cells.length < 2
  · have few := OddEven.inversions_le key (cells.map d)
    have inOrder : OddEven.inversions key (cells.map d) = 0 := by
      rw [List.length_map] at few
      interval_cases cells.length <;> omega
    rw [sortLine, if_pos short, OddEven.sort_of_sorted (OddEven.sorted_of_inversions_eq_zero inOrder),
      Machine.written_map holds nodup lt, lineSwaps, List.filterMap_nil, List.append_nil]
  · have read : cells.mapM (destinationOf board.records) = .ok (cells.map d) :=
      Checked.mapM_eq_ok fun c mem => holds.destination c (lt c mem)
    rw [sortLine, if_neg short, read]
    rfl

/-- Exchanges along a line are noted as swaps of consecutive cells. -/
lemma consecutive_lineSwaps (within : ∀ i ∈ log, i + 1 < cells.length) :
    ∀ swap ∈ lineSwaps cells log, ∃ i : Nat, cells[i]? = some swap.1 ∧ cells[i + 1]? = some swap.2 := by
  intro swap mem
  obtain ⟨i, memLog, found⟩ := List.mem_filterMap.mp mem
  rw [getElem?_steps (within i memLog)] at found
  cases found
  exact ⟨i, List.getElem?_eq_getElem _, List.getElem?_eq_getElem _⟩

/-- The sort makes one exchange for each inversion. -/
lemma length_lineSwaps_sort (within : ∀ i ∈ (OddEven.sort key items).2, i + 1 < cells.length) :
    (lineSwaps cells (OddEven.sort key items).2).length = OddEven.inversions key items := by
  have removed := (OddEven.sort_exchanges key items).inversions_eq
  rw [OddEven.inversions_eq_zero (OddEven.sorted_sort key _), Nat.zero_add] at removed
  rw [removed, lineSwaps_eq_map within, List.length_map, OddEven.swapsOf, List.length_map]

/-- Writing the sorted contents to the cells of a line sorts it in place. -/
lemma Holds.sortedInPlace {n : Nat} {d : Nat → Destination} (holds : Holds board.records n d)
    (nodup : cells.Nodup) (lt : ∀ c ∈ cells, c < n) :
    SortedInPlace key cells (cells.map d) board
      ⟨written board.records cells (OddEven.sort key (cells.map d)).1,
        board.swaps ++ lineSwaps cells (OddEven.sort key (cells.map d)).2⟩
      (lineSwaps cells (OddEven.sort key (cells.map d)).2) := by
  have exchanges := OddEven.sort_exchanges key (cells.map d)
  have within : ∀ i ∈ (OddEven.sort key (cells.map d)).2, i + 1 < cells.length := by
    intro i mem
    have := exchanges.lt mem
    rwa [List.length_map] at this
  have length : (OddEven.sort key (cells.map d)).1.length = cells.length := by
    rw [exchanges.length_eq, List.length_map]
  refine ⟨rfl, consecutive_lineSwaps within, ?_, ?_, ?_, ?_, coordinates_written _ _ _⟩
  · rw [length_lineSwaps_sort within, OddEven.inversions_eq_card]
  · have inside : ∀ c ∈ cells, c < board.records.size := fun c mem => holds.size ▸ lt c mem
    have replayed := replay_lineSwaps nodup inside exchanges (List.length_map d)
    rwa [Machine.written_map holds nodup lt] at replayed
  · obtain ⟨d', holds', sorted, _⟩ := holds.setAll nodup length
    rw [← OddEven.sort_eq_mergeSort]
    exact (Checked.mapM_eq_ok fun c mem => holds'.destination c (lt c mem)).trans (congrArg _ sorted)
  · exact fun p outside => Machine.getElem?_written_outside outside _

/-- The loop without a bound ends where the sort does, and no more of its half-passes exchange anything than
there are cells. -/
lemma Holds.exists_loops {n limit : Nat} {d : Nat → Destination} (holds : Holds board.records n d)
    (nodup : cells.Nodup) (lt : ∀ c ∈ cells, c < n) (small : cells.length < limit) :
    ∃ busy, (Machine.boardLine key cells).Loops limit board busy
      ⟨written board.records cells (OddEven.sort key (cells.map d)).1,
        board.swaps ++ lineSwaps cells (OddEven.sort key (cells.map d)).2⟩ ∧
      busy.count true ≤ cells.length := by
  have inside : ∀ c ∈ cells, c < board.records.size := fun c mem => holds.size ▸ lt c mem
  obtain ⟨logs, loops, flat⟩ := OddEven.loops_sort key (cells.map d)
  have start : (cells.map d).length = cells.length ∧ board
      = ⟨written board.records cells (cells.map d), board.swaps ++ lineSwaps cells []⟩ := by
    refine ⟨List.length_map d, ?_⟩
    rw [Machine.written_map holds nodup lt, lineSwaps, List.filterMap_nil, List.append_nil]
  obtain ⟨final, run, _, rfl⟩ := (Machine.boardLine_shows key nodup inside).loops small loops start
  rw [List.nil_append, flat] at run
  refine ⟨_, run, ?_⟩
  have few := loops.busy_le
  rw [List.length_map] at few
  rw [List.count, List.countP_map]
  refine le_trans (le_of_eq (List.countP_congr fun log _ => ?_)) few
  simp

/-- The contents of distinct cells of a table are sorted in place. The loop without a bound does so: it
ends, and no more of its half-passes exchange anything than there are cells. -/
theorem sortLine_in_place {key : Destination → Nat} {board : Board} {cells : List Nat}
    (nodup : cells.Nodup) (inside : ∀ c ∈ cells, c < board.records.size) :
    ∃ contents board' swaps, cells.mapM (destinationOf board.records) = .ok contents ∧
      sortLine key board cells = .ok board' ∧ SortedInPlace key cells contents board board' swaps ∧
      ∀ limit, cells.length < limit → ∃ busy,
        (Machine.boardLine key cells).Loops limit board busy board' ∧ busy.count true ≤ cells.length := by
  obtain ⟨d, holds⟩ := exists_holds board.records
  exact ⟨_, _, _, Checked.mapM_eq_ok fun c mem => holds.destination c (inside c mem),
    sortLine_eq_written holds nodup inside, holds.sortedInPlace nodup inside,
    fun limit small => holds.exists_loops nodup inside small⟩

/-- Three contents, of which the first and the last have no row to visit and so the same key, on cells that
are not side by side in the table. -/
theorem sortLine_in_place_of_equal_keys :
    let board : Board :=
      { records := #[⟨0, 0, ⟨2, 0, none⟩⟩, ⟨0, 1, ⟨0, 1, none⟩⟩, ⟨1, 0, ⟨1, 0, some 4⟩⟩, ⟨1, 1, ⟨1, 1, none⟩⟩,
          ⟨2, 0, ⟨0, 0, none⟩⟩]
        swaps := [(0, 1)] }
    ∃ contents board' swaps, [0, 2, 4].mapM (destinationOf board.records) = .ok contents ∧
      sortLine Destination.intermediateKey board [0, 2, 4] = .ok board' ∧
      SortedInPlace Destination.intermediateKey [0, 2, 4] contents board board' swaps ∧
      board'.swaps = [(0, 1), (0, 2)] := by
  intro board
  obtain ⟨contents, board', swaps, read, run, sorted, _⟩ :=
    @sortLine_in_place Destination.intermediateKey board [0, 2, 4] (by decide) (by decide)
  refine ⟨contents, board', swaps, read, run, sorted, ?_⟩
  cases run
  decide

end Grid

end QubitRouting
