import QubitRouting.Grid.Synthesis
import QubitRouting.Proofs.Checked
import QubitRouting.Proofs.OddEven

/-!
# Sorting lines of cells

Sorting a line of cells carries the destinations along the swaps it makes, and touches no cell outside
the line. Lines without common cells can be sorted one after the other.
-/

namespace QubitRouting.Grid

open scoped List

variable {n : Nat} {records : Array Record} {d d' d'' : Nat → Destination} {cells : List Nat}
  {key : Destination → Nat}

/-- The records of `n` cells, with the given destinations. -/
structure Holds (records : Array Record) (n : Nat) (d : Nat → Destination) : Prop where
  size : records.size = n
  destination : ∀ p < n, destinationOf records p = .ok (d p)

/-- Giving the content of a cell another destination changes what the records hold there. -/
lemma Holds.set (holds : Holds records n d) (cell : Nat) (new : Destination) :
    Holds (setDestination records cell new) n (Function.update d cell new) := by
  refine ⟨?_, ?_⟩
  · rw [setDestination, Array.size_modify, holds.size]
  · intro p ltP
    have here : p < records.size := holds.size ▸ ltP
    have found := holds.destination p ltP
    rw [destinationOf, Array.getElem?_eq_getElem here] at found
    rw [destinationOf, setDestination, Array.getElem?_modify, Array.getElem?_eq_getElem here]
    by_cases same : cell = p
    · subst same
      simp
    · rw [if_neg same, Function.update_of_ne (Ne.symm same)]
      exact found

/-- Writing new destinations to the cells of a line. -/
lemma Holds.setAll (holds : Holds records n d) (nodup : cells.Nodup)
    {new : List Destination} (length : new.length = cells.length) :
    ∃ d', Holds ((cells.zip new).foldl (fun records (cell, d) => setDestination records cell d) records)
        n d' ∧
      cells.map d' = new ∧ ∀ p ∉ cells, d' p = d p := by
  induction cells generalizing new records d with
  | nil =>
    obtain rfl := List.eq_nil_of_length_eq_zero length
    exact ⟨d, holds, rfl, fun _ _ => rfl⟩
  | cons cell rest ih =>
    obtain ⟨head, tail, rfl⟩ := List.exists_cons_of_length_eq_add_one length
    obtain ⟨notMem, nodup⟩ := List.nodup_cons.mp nodup
    obtain ⟨d', holds', map, outside⟩ := ih (holds.set cell head) nodup (Nat.succ.inj length)
    refine ⟨d', holds', ?_, ?_⟩
    · rw [List.map_cons, map, outside cell notMem, Function.update_self]
    · intro p notMem'
      rw [List.mem_cons, not_or] at notMem'
      rw [outside p notMem'.2, Function.update_of_ne notMem'.1]

/-! ### Swaps along a line -/

/-- The swaps of neighbours of a line, at the given places. -/
def lineSwaps (cells : List Nat) (log : List Nat) : List Swap :=
  log.filterMap ((cells.zip cells.tail)[·]?)

/-- The steps of a line go from each cell to the next one. -/
lemma getElem?_steps {i : Nat} (lt : i + 1 < cells.length) :
    (cells.zip cells.tail)[i]? = some (cells[i], cells[i + 1]) := by
  rw [List.getElem?_eq_getElem (by simp; omega)]
  simp

/-- The first place of a log gives the swap of its cell with the next one. -/
lemma lineSwaps_cons {i : Nat} (lt : i + 1 < cells.length) (log : List Nat) :
    lineSwaps cells (i :: log) = (cells[i], cells[i + 1]) :: lineSwaps cells log := by
  rw [lineSwaps, List.filterMap_cons, getElem?_steps lt]
  rfl

/-- A swap of neighbours of a line exchanges their places. -/
lemma swap_cells (nodup : cells.Nodup) {i j p : Nat} (lt : i + 1 < cells.length)
    (here : cells[j]? = some p) :
    cells[Equiv.swap i (i + 1) j]? = some (Equiv.swap cells[i] cells[i + 1] p) := by
  obtain ⟨ltJ, rfl⟩ := List.getElem?_eq_some_iff.mp here
  by_cases first : j = i
  · subst first
    rw [Equiv.swap_apply_left, Equiv.swap_apply_left, List.getElem?_eq_getElem lt]
  · by_cases second : j = i + 1
    · subst second
      rw [Equiv.swap_apply_right, Equiv.swap_apply_right, List.getElem?_eq_getElem (by omega)]
    · have neFirst : cells[j] ≠ cells[i] := fun same => first (nodup.getElem_inj_iff.mp same)
      have neSecond : cells[j] ≠ cells[i + 1] := fun same => second (nodup.getElem_inj_iff.mp same)
      rw [Equiv.swap_apply_of_ne_of_ne first second, Equiv.swap_apply_of_ne_of_ne neFirst neSecond,
        here]

/-- Swaps along a line move cells like exchanges move places. -/
lemma perm_lineSwaps (nodup : cells.Nodup) {log : List Nat}
    (lt : ∀ i ∈ log, i + 1 < cells.length) {j p : Nat} (here : cells[j]? = some p) :
    cells[Swap.perm (OddEven.swapsOf log) j]? = some (Swap.perm (lineSwaps cells log) p) := by
  induction log generalizing j p with
  | nil => exact here
  | cons i rest ih =>
    have ltI := lt i List.mem_cons_self
    rw [lineSwaps_cons ltI, Swap.perm_cons_apply, OddEven.swapsOf, List.map_cons, Swap.perm_cons_apply]
    exact ih (fun k mem => lt k (List.mem_cons_of_mem i mem)) (swap_cells nodup ltI here)

/-- Swaps along a line are between its cells. -/
lemma mem_of_mem_lineSwaps {log : List Nat} {swap : Swap} (mem : swap ∈ lineSwaps cells log) :
    swap.1 ∈ cells ∧ swap.2 ∈ cells := by
  obtain ⟨i, _, found⟩ := List.mem_filterMap.mp mem
  obtain ⟨first, second⟩ := List.of_mem_zip (List.mem_of_getElem? found)
  exact ⟨first, List.mem_of_mem_tail second⟩

/-- Swaps along a line leave other cells alone. -/
lemma perm_lineSwaps_outside {log : List Nat} {p : Nat} (outside : p ∉ cells) :
    Swap.perm (lineSwaps cells log) p = p := by
  apply Swap.perm_eq_self
  intro swap mem
  obtain ⟨first, second⟩ := mem_of_mem_lineSwaps mem
  constructor
  · rintro rfl
    exact outside first
  · rintro rfl
    exact outside second

/-! ### Sorted lines -/

/-- How the destinations change when lines are sorted by a key: they are carried along the swaps, every
line keeps its cells, and keys that number the cells of a line end in order. -/
structure Sorted (key : Destination → Nat) (lines : List (List Nat)) (swaps : List Swap)
    (d d' : Nat → Destination) : Prop where
  swaps_eq : swaps = lines.flatMap fun cells => lineSwaps cells (OddEven.sort key (cells.map d)).2
  carried : ∀ p, d' (Swap.perm swaps p) = d p
  inside : ∀ cells ∈ lines, ∀ p ∈ cells, Swap.perm swaps p ∈ cells
  outside : ∀ p ∉ lines.flatten, Swap.perm swaps p = p
  keys : ∀ cells ∈ lines, (cells.map fun p => key (d p)) ~ List.range cells.length →
    (cells.map fun p => key (d' p)) = List.range cells.length

/-- Sorting a line succeeds and carries the destinations along its swaps. -/
lemma sortLine_eq (key : Destination → Nat) {board : Board} (holds : Holds board.records n d)
    (nodup : cells.Nodup) (lt : ∀ c ∈ cells, c < n) :
    ∃ records d' swaps, sortLine key board cells = .ok ⟨records, board.swaps ++ swaps⟩ ∧
      Holds records n d' ∧ Sorted key [cells] swaps d d' := by
  by_cases short : cells.length < 2
  · refine ⟨board.records, d, [], ?_, holds, ?_⟩
    · rw [sortLine, if_pos short, List.append_nil]
    · have nothing : (OddEven.sort key (cells.map d)).2 = [] := by
        apply List.eq_nil_iff_forall_not_mem.mpr
        intro i mem
        have := (OddEven.sort_exchanges key (cells.map d)).lt mem
        rw [List.length_map] at this
        omega
      refine ⟨?_, fun _ => rfl, fun cells _ p mem => mem, fun _ _ => rfl, ?_⟩
      · rw [List.flatMap_singleton, nothing]
        rfl
      · intro line mem perm
        obtain rfl := List.mem_singleton.mp mem
        match line, short with
        | [], _ => rfl
        | [c], _ => exact List.perm_singleton.mp perm
  · have read : cells.mapM (destinationOf board.records) = .ok (cells.map d) :=
      Checked.mapM_eq_ok fun c mem => holds.destination c (lt c mem)
    have exchanges := OddEven.sort_exchanges key (cells.map d)
    have length : (OddEven.sort key (cells.map d)).1.length = cells.length := by
      rw [exchanges.length_eq, List.length_map]
    have within : ∀ i ∈ (OddEven.sort key (cells.map d)).2, i + 1 < cells.length := by
      intro i mem
      have := exchanges.lt mem
      rwa [List.length_map] at this
    obtain ⟨d', holds', map, outside⟩ := holds.setAll nodup length
    refine ⟨_, d', lineSwaps cells (OddEven.sort key (cells.map d)).2, ?_, holds', ?_⟩
    · rw [sortLine, if_neg short, read]
      rfl
    -- the swaps carry the content of a cell to where the sorted line has it
    have inside {p : Nat} (mem : p ∈ cells) :
        ∃ j : Nat, cells[j]? = some (Swap.perm (lineSwaps cells (OddEven.sort key (cells.map d)).2) p) ∧
          d' (Swap.perm (lineSwaps cells (OddEven.sort key (cells.map d)).2) p) = d p := by
      obtain ⟨i, here⟩ := List.getElem?_of_mem mem
      have there := perm_lineSwaps nodup within here
      refine ⟨_, there, ?_⟩
      have moved := exchanges.getElem?_perm i
      rw [← map, List.getElem?_map, there, List.getElem?_map, here] at moved
      exact Option.some.inj moved
    refine ⟨(List.flatMap_singleton _ _).symm, ?_, ?_, ?_, ?_⟩
    · intro p
      by_cases mem : p ∈ cells
      · obtain ⟨_, _, same⟩ := inside mem
        exact same
      · rw [perm_lineSwaps_outside mem, outside p mem]
    · intro line memLine p mem
      obtain rfl := List.mem_singleton.mp memLine
      obtain ⟨j, there, _⟩ := inside mem
      exact List.mem_of_getElem? there
    · intro p notMem
      rw [List.flatten_singleton] at notMem
      exact perm_lineSwaps_outside notMem
    · intro line memLine perm
      obtain rfl := List.mem_singleton.mp memLine
      have keys : (line.map d).map key ~ List.range line.length := by
        rw [List.map_map]
        exact perm
      have sorted := OddEven.map_sort_eq_range keys
      rw [← map, List.map_map] at sorted
      exact sorted

variable {lines : List (List Nat)} {swaps more : List Swap}

/-- Sorting lines changes nothing outside them. -/
lemma Sorted.eq_outside (sorted : Sorted key lines swaps d d') {p : Nat}
    (outside : p ∉ lines.flatten) : d' p = d p := by
  rw [← sorted.carried p, sorted.outside p outside]

/-- A line and others that have no cell in common with it are sorted one after the other. -/
lemma Sorted.cons (first : Sorted key [cells] swaps d d') (rest : Sorted key lines more d' d'')
    (disjoint : ∀ p ∈ cells, p ∉ lines.flatten) :
    Sorted key (cells :: lines) (swaps ++ more) d d'' := by
  -- sorting the first line touches no cell of the others
  have apart {p : Nat} {line : List Nat} (mem : line ∈ lines) (here : p ∈ line) :
      p ∉ [cells].flatten := by
    rw [List.flatten_singleton]
    intro mem'
    exact disjoint p mem' (List.mem_flatten.mpr ⟨line, mem, here⟩)
  refine ⟨?_, ?_, ?_, ?_, ?_⟩
  · rw [List.flatMap_cons, first.swaps_eq, List.flatMap_singleton, rest.swaps_eq]
    congr 1
    refine List.flatMap_congr fun line mem => ?_
    rw [List.map_congr_left fun p here => first.eq_outside (apart mem here)]
  · intro p
    rw [Swap.perm_append_apply, rest.carried, first.carried]
  · intro line mem p here
    rw [Swap.perm_append_apply]
    rcases List.mem_cons.mp mem with rfl | mem
    · have stays := first.inside line List.mem_cons_self p here
      rwa [rest.outside _ (disjoint _ stays)]
    · rw [first.outside p (apart mem here)]
      exact rest.inside line mem p here
  · intro p outside
    rw [List.flatten_cons, List.mem_append, not_or] at outside
    rw [Swap.perm_append_apply, first.outside p (by rw [List.flatten_singleton]; exact outside.1),
      rest.outside p outside.2]
  · intro line mem perm
    rcases List.mem_cons.mp mem with rfl | mem
    · rw [← first.keys line List.mem_cons_self perm]
      refine List.map_congr_left fun p here => ?_
      rw [rest.eq_outside (disjoint p here)]
    · apply rest.keys line mem
      rwa [List.map_congr_left fun p here => by rw [first.eq_outside (apart mem here)]]

/-- Lines without common cells are sorted one after the other. -/
lemma sortLines_eq (key : Destination → Nat) {indices : List Nat}
    {cellsOf : Nat → Except Fault (List Nat)} {line : Nat → List Nat} (known : ∀ i ∈ indices, cellsOf i = .ok (line i))
    (nodup : ∀ i ∈ indices, (line i).Nodup) (lt : ∀ i ∈ indices, ∀ p ∈ line i, p < n)
    (apart : indices.Pairwise fun i j => (line i).Disjoint (line j))
    {board : Board} (holds : Holds board.records n d) :
    ∃ records d' swaps,
      indices.foldlM (fun board i => do sortLine key board (← cellsOf i)) board
        = .ok ⟨records, board.swaps ++ swaps⟩ ∧
      Holds records n d' ∧ Sorted key (indices.map line) swaps d d' := by
  induction indices generalizing board d with
  | nil =>
    refine ⟨board.records, d, [], ?_, holds, ?_⟩
    · rw [List.append_nil]
      rfl
    · exact ⟨rfl, fun _ => rfl, nofun, fun _ _ => rfl, nofun⟩
  | cons i rest ih =>
    obtain ⟨first, apart⟩ := List.pairwise_cons.mp apart
    obtain ⟨records, d', swaps, run, holds', sorted⟩ := sortLine_eq key holds
      (nodup i List.mem_cons_self) (lt i List.mem_cons_self)
    have next : Holds (Board.mk records (board.swaps ++ swaps)).records n d' := holds'
    obtain ⟨records', d'', more, run', holds'', sorted'⟩ :=
      ih (fun j mem => known j (List.mem_cons_of_mem i mem))
        (fun j mem => nodup j (List.mem_cons_of_mem i mem))
        (fun j mem => lt j (List.mem_cons_of_mem i mem)) apart next
    refine ⟨records', d'', swaps ++ more, ?_, holds'', ?_⟩
    · rw [List.foldlM_cons, known i List.mem_cons_self]
      apply Checked.bind_eq_ok.mpr
      exact ⟨_, run, by rw [run', List.append_assoc]⟩
    · refine sorted.cons sorted' ?_
      intro p here mem
      obtain ⟨line', memLine, there⟩ := List.mem_flatten.mp mem
      obtain ⟨j, memJ, rfl⟩ := List.mem_map.mp memLine
      exact first j memJ here there

/-- Lines of fewer than two cells need no sorting. -/
lemma sortLines_short (key : Destination → Nat) {count : Nat} {cellsOf : Nat → Except Fault (List Nat)}
    (short : ∀ i < count, ∃ cells, cellsOf i = .ok cells ∧ cells.length < 2) (board : Board) :
    (List.range count).foldlM (fun board i => do sortLine key board (← cellsOf i)) board = .ok board := by
  apply Checked.foldlM_stays
  intro i mem
  obtain ⟨cells, known, few⟩ := short i (List.mem_range.mp mem)
  refine Checked.bind_eq_ok.mpr ⟨cells, known, ?_⟩
  rw [sortLine, if_pos few]

end QubitRouting.Grid
