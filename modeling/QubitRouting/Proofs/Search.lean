import QubitRouting.Grid.Search
import QubitRouting.Proofs.Assignment
import QubitRouting.Proofs.Move

/-!
# Every order of the matchings will do

The orders that a search tries are permutations of the rows, and there is at least one. So the cheapest
swaps found carry every shared qubit to its new position.
-/

namespace QubitRouting

open scoped List

/-! ### Arrangements -/

section Arrangements

variable {α : Type} {items order : List α}

/-- An item that is picked and what is left are the items. -/
lemma perm_of_mem_picks {y : α} {others : List α} (mem : (y, others) ∈ picks items) :
    y :: others ~ items := by
  induction items generalizing y others with
  | nil => cases mem
  | cons x rest ih =>
    rcases List.mem_cons.mp mem with same | mem
    · cases same
      exact .refl _
    · obtain ⟨⟨z, fewer⟩, inRest, same⟩ := List.mem_map.mp mem
      cases same
      exact (List.Perm.swap x y fewer).trans ((ih inRest).cons x)

/-- Picking all items one after the other rearranges them. -/
lemma perm_of_mem_picksInOrder {count : Nat} (length : items.length = count)
    (mem : order ∈ picksInOrder count items) : order ~ items := by
  induction count generalizing items order with
  | zero =>
    obtain rfl := List.eq_nil_of_length_eq_zero length
    obtain rfl := List.mem_singleton.mp mem
    exact .nil
  | succ count ih =>
    obtain ⟨⟨x, rest⟩, memPick, mem⟩ := List.mem_flatMap.mp mem
    obtain ⟨tail, memTail, rfl⟩ := List.mem_map.mp mem
    have perm := perm_of_mem_picks memPick
    have shorter : rest.length = count := by
      have := perm.length_eq
      rw [List.length_cons] at this
      omega
    exact ((ih shorter memTail).cons x).trans perm

/-- Every item can be picked, in order. -/
lemma map_fst_picks (items : List α) : (picks items).map Prod.fst = items := by
  induction items with
  | nil => rfl
  | cons x rest ih =>
    rw [picks, List.map_cons, List.map_map]
    exact congrArg (x :: ·) ih

/-- Every rearrangement is found by picking. -/
lemma mem_picksInOrder_of_perm (perm : order ~ items) : order ∈ picksInOrder items.length items := by
  induction order generalizing items with
  | nil =>
    obtain rfl := List.nil_perm.mp perm
    exact List.mem_singleton.mpr rfl
  | cons x tail ih =>
    have picked : x ∈ (picks items).map Prod.fst := by
      rw [map_fst_picks]
      exact perm.subset List.mem_cons_self
    obtain ⟨⟨x, rest⟩, memPick, rfl⟩ := List.mem_map.mp picked
    have permRest : tail ~ rest := (perm.trans (perm_of_mem_picks memPick).symm).cons_inv
    rw [← (perm_of_mem_picks memPick).length_eq]
    exact List.mem_flatMap.mpr ⟨(x, rest), memPick, List.mem_map_of_mem (ih permRest)⟩

/-- The arrangements of a list are its permutations. -/
lemma mem_arrangements_iff : order ∈ arrangements items ↔ order ~ items :=
  ⟨perm_of_mem_picksInOrder rfl, mem_picksInOrder_of_perm⟩

end Arrangements

/-! ### Shuffles -/

namespace Random

variable {items : Array Nat} {stream : Stream}

/-- Exchanging two items rearranges them. -/
lemma exchange_perm (items : Array Nat) (i j : Nat) : (exchange items i j).toList ~ items.toList := by
  rw [exchange]
  split
  case h_1 x y first second =>
    obtain ⟨ltI, rfl⟩ := Array.getElem?_eq_some_iff.mp first
    obtain ⟨ltJ, rfl⟩ := Array.getElem?_eq_some_iff.mp second
    have swapped : (items.setIfInBounds i items[j]).setIfInBounds j items[i] = items.swap i j ltI ltJ := by
      simp [Array.swap_def, Array.setIfInBounds, ltI, ltJ]
    rw [swapped]
    exact Array.perm_iff_toList_perm.mp (Array.swap_perm ltI ltJ)
  · exact .refl _

/-- A shuffle rearranges the items. -/
lemma shuffleFrom_perm (place : Nat) : (shuffleFrom place items stream).1.toList ~ items.toList := by
  induction place generalizing items stream with
  | zero => exact .refl _
  | succ place ih => exact ih.trans (exchange_perm items (place + 1) _)

/-- A shuffled range is a rearrangement of it. -/
lemma shuffledRange_perm (count : Nat) : (shuffledRange count stream).1 ~ List.range count := by
  rw [← Array.toList_range]
  exact shuffleFrom_perm (count - 1)

end Random

namespace Grid

open Move

variable {grid : Grid} {rows steps : Nat} {stream : Random.Stream} {cost : Cost}

/-- Random orders are orders of the rows. -/
lemma randomOrders_perm {count : Nat} {order : List Nat}
    (mem : order ∈ (randomOrders rows count stream).1) : order ~ List.range rows := by
  induction count generalizing stream with
  | zero => cases mem
  | succ count ih =>
    rcases List.mem_cons.mp mem with rfl | mem
    · exact Random.shuffledRange_perm rows
    · exact ih mem

/-- The orders to try are permutations of the rows. -/
lemma orders_perm {order : List Nat} (mem : order ∈ (orders rows steps stream).1) :
    order ~ List.range rows := by
  rw [orders] at mem
  split at mem
  · exact mem_arrangements_iff.mp mem
  · exact randomOrders_perm mem

/-- There is always an order to try. -/
lemma orders_ne_nil : (orders rows steps stream).1 ≠ [] := by
  rw [orders]
  split
  · exact List.ne_nil_of_mem (mem_arrangements_iff.mpr (.refl (List.range rows)))
  · obtain ⟨count, more⟩ := Nat.exists_eq_add_of_le' (Nat.le_max_right steps 1)
    rw [more]
    exact List.cons_ne_nil _ _

/-- The cheapest list is one of those found. -/
lemma cheapest_mem {lists : List (List Swap)} (given : lists ≠ []) : cheapest cost lists ∈ lists := by
  have notEmpty : (lists.map fun swaps => (cost swaps, swaps)) ≠ [] := by simpa using given
  obtain ⟨best, found⟩ := exists_firstLeast? Prod.fst notEmpty
  obtain ⟨swaps, mem, rfl⟩ := List.mem_map.mp (firstLeast?_mem found)
  rw [cheapest, found]
  exact mem

/-- The records of a move. -/
lemma Valid.records_eq (valid : grid.Valid) {old new : Layout Nat} {targets : Nat → Nat}
    (listed : Move.targets (grid.rows * grid.columns) old new
      = (List.range (grid.rows * grid.columns)).map targets) :
    grid.records old new = .ok ((List.range (grid.rows * grid.columns)).map fun p =>
      { row := p / grid.columns, column := p % grid.columns
        destination :=
          { finalRow := targets p / grid.columns, finalColumn := targets p % grid.columns } }) := by
  have zipped : ((List.range (grid.rows * grid.columns)).map targets).zipIdx
      = (List.range (grid.rows * grid.columns)).map fun p => (targets p, p) := by
    apply List.ext_getElem
    · simp
    · intro i _ _
      simp
  refine Checked.bind_eq_ok.mpr ⟨_, valid.numQubits_eq, ?_⟩
  rw [listed, zipped, List.mapM_map]
  apply Checked.mapM_eq_ok
  intro p _
  refine Checked.bind_eq_ok.mpr ⟨_, valid.coordinates_eq p, ?_⟩
  exact Checked.bind_eq_ok.mpr ⟨_, valid.coordinates_eq (targets p), rfl⟩

/-- On a grid whose cells cannot be numbered the search overflows before it draws an order. -/
lemma optimalSwaps_of_large (large : ¬grid.rows * grid.columns < 2 ^ 32) (old new : Layout Nat) :
    grid.optimalSwaps old new cost steps stream = (.error (.fault .overflow), stream) := by
  have overflows : grid.numQubits = .error .overflow := if_neg large
  have unrecorded : grid.records old new = .error .overflow := by
    rw [records, overflows]
    rfl
  simp only [optimalSwaps, unrecorded, Failure.ofChecked, bind, Except.bind]

/-- Swaps are only found on a grid whose cells can be numbered. -/
lemma small_of_optimalSwaps {old new : Layout Nat} {swaps : List Swap}
    (found : (grid.optimalSwaps old new cost steps stream).1 = .ok swaps) :
    grid.rows * grid.columns < 2 ^ 32 := by
  by_contra large
  rw [optimalSwaps_of_large large] at found
  cases found

/-- Once the cells are recorded and matched, the search takes the cheapest of the orders. -/
lemma optimalSwaps_of_prepared {old new : Layout Nat} {records : List Record}
    {matchings : List (List Nat)} (recorded : grid.records old new = .ok records)
    (matched : grid.rowMatchings (records.map fun record => record.destination.finalColumn)
      = .ok matchings) :
    grid.optimalSwaps old new cost steps stream =
      (do return cheapest cost (← (orders grid.rows steps stream).1.mapM
        (grid.swapsFor records matchings)), (orders grid.rows steps stream).2) := by
  simp only [optimalSwaps, recorded, matched, Failure.ofChecked, bind, Except.bind, pure, Except.pure]

/-- Swaps that are found come from one of the orders. -/
lemma exists_order_of_optimalSwaps {old new : Layout Nat} {swaps : List Swap}
    (found : (grid.optimalSwaps old new cost steps stream).1 = .ok swaps) :
    ∃ records matchings order, grid.swapsFor records matchings order = .ok swaps := by
  cases recorded : grid.records old new with
  | error fault =>
    simp only [optimalSwaps, recorded, Failure.ofChecked, bind, Except.bind] at found
    cases found
  | ok records =>
    cases matched : grid.rowMatchings (records.map fun record => record.destination.finalColumn) with
    | error failure =>
      simp only [optimalSwaps, recorded, matched, Failure.ofChecked, bind, Except.bind] at found
      cases found
    | ok matchings =>
      rw [optimalSwaps_of_prepared recorded matched] at found
      obtain ⟨lists, run, found⟩ := Checked.bind_eq_ok.mp found
      cases found
      have tried := Checked.forall₂_of_mapM run
      have notEmpty : lists ≠ [] := by
        rintro rfl
        exact orders_ne_nil (List.forall₂_nil_right_iff.mp tried)
      obtain ⟨order, _, run⟩ := Checked.exists_of_forall₂ tried (cheapest_mem notEmpty)
      exact ⟨records, matchings, order, run⟩

/-- A move as a permutation of the cells: where each content has to go, the records of the cells, and the
matchings that the moves between columns split into. -/
structure Posed (grid : Grid) (old new : Layout Nat) (targets : Nat → Nat) (records : List Record)
    (matchings : List (List Nat)) : Prop where
  listed : Move.targets (grid.rows * grid.columns) old new
    = (List.range (grid.rows * grid.columns)).map targets
  perm : (List.range (grid.rows * grid.columns)).map targets ~ List.range (grid.rows * grid.columns)
  recorded : grid.records old new = .ok records
  matched : grid.rowMatchings (records.map fun record => record.destination.finalColumn) = .ok matchings
  splits : Splits grid targets matchings
  holds : Holds records.toArray (grid.rows * grid.columns) fun p =>
    { finalRow := targets p / grid.columns, finalColumn := targets p % grid.columns }

variable {old new : Layout Nat} {targets : Nat → Nat} {records : List Record} {matchings : List (List Nat)}

/-- A move between layouts on a valid grid is a permutation of its cells that splits into matchings. -/
lemma Valid.exists_posed (valid : grid.Valid) (oldFits : old.Fits (grid.rows * grid.columns))
    (newFits : new.Fits (grid.rows * grid.columns)) :
    ∃ targets records matchings, Posed grid old new targets records matchings := by
  have perm := targets_perm oldFits.consistent newFits
  let targets (p : Nat) : Nat := (Move.targets (grid.rows * grid.columns) old new).getD p 0
  have listed : Move.targets (grid.rows * grid.columns) old new
      = (List.range (grid.rows * grid.columns)).map targets := by
    apply List.ext_getElem
    · rw [perm.length_eq, List.length_map]
    · intro i lt _
      simp [targets, lt]
  rw [listed] at perm
  obtain ⟨matchings, matched, splits⟩ := valid.rowMatchings_eq perm
  refine ⟨targets, _, matchings, listed, perm, valid.records_eq listed, ?_, splits, ?_⟩
  · rw [List.map_map]
    exact matched
  · refine ⟨by simp, ?_⟩
    intro p lt
    simp [destinationOf, lt]

section Solved

variable {swaps : List Nat → List Swap}

/-- If every order leads to swaps, those of the orders to try are compared. -/
lemma Posed.optimalSwaps_eq_cheapest (posed : Posed grid old new targets records matchings) (cost : Cost)
    (steps : Nat) (stream : Random.Stream)
    (solved : ∀ order, order ~ List.range grid.rows →
      grid.swapsFor records matchings order = .ok (swaps order)) :
    grid.optimalSwaps old new cost steps stream =
      (.ok (cheapest cost ((orders grid.rows steps stream).1.map swaps)),
        (orders grid.rows steps stream).2) := by
  have run : (orders grid.rows steps stream).1.mapM (grid.swapsFor records matchings)
      = .ok ((orders grid.rows steps stream).1.map swaps) :=
    Checked.mapM_eq_ok fun order mem => solved order (orders_perm mem)
  rw [optimalSwaps_of_prepared posed.recorded posed.matched, run]
  rfl

/-- If every order leads to swaps, the cheapest ones are found. -/
lemma Posed.optimalSwaps_eq (posed : Posed grid old new targets records matchings) (cost : Cost)
    (steps : Nat) (stream : Random.Stream)
    (solved : ∀ order, order ~ List.range grid.rows →
      grid.swapsFor records matchings order = .ok (swaps order)) :
    ∃ order, order ~ List.range grid.rows ∧
      (grid.optimalSwaps old new cost steps stream).1 = .ok (swaps order) := by
  have best : cheapest cost ((orders grid.rows steps stream).1.map swaps) ∈
      (orders grid.rows steps stream).1.map swaps :=
    cheapest_mem (by simpa using orders_ne_nil)
  obtain ⟨order, mem, same⟩ := List.mem_map.mp best
  refine ⟨order, orders_perm mem, ?_⟩
  rw [posed.optimalSwaps_eq_cheapest cost steps stream solved, same]

end Solved

/-- Every order leads to swaps that carry every shared qubit to its new position. -/
lemma Posed.swapsFor_eq (posed : Posed grid old new targets records matchings) (valid : grid.Valid)
    (oldFits : old.Fits (grid.rows * grid.columns)) (newFits : new.Fits (grid.rows * grid.columns))
    {order : List Nat} (perm : order ~ List.range grid.rows) :
    ∃ swaps, grid.swapsFor records matchings order = .ok swaps ∧ Carries swaps old new := by
  obtain ⟨swaps, run, moved⟩ := valid.swapsFor_eq posed.splits perm posed.perm posed.holds
    (fun _ => rfl) (fun _ _ => rfl) fun _ _ => rfl
  refine ⟨swaps, run, carries_of_targets oldFits newFits ?_⟩
  intro p t target
  rw [posed.listed, List.getElem?_map, Option.map_eq_some_iff] at target
  obtain ⟨q, here, rfl⟩ := target
  obtain ⟨lt, rfl⟩ := List.getElem?_eq_some_iff.mp here
  rw [List.length_range] at lt
  rw [List.getElem_range]
  exact moved p lt

/-- The search finds the swaps of one of the orders, and they carry every shared qubit to its new
position. -/
lemma Posed.exists_order (posed : Posed grid old new targets records matchings) (valid : grid.Valid)
    (oldFits : old.Fits (grid.rows * grid.columns)) (newFits : new.Fits (grid.rows * grid.columns))
    (cost : Cost) (steps : Nat) (stream : Random.Stream) :
    ∃ order swaps, order ~ List.range grid.rows ∧ grid.swapsFor records matchings order = .ok swaps ∧
      (grid.optimalSwaps old new cost steps stream).1 = .ok swaps ∧ Carries swaps old new := by
  have solved : ∀ order, order ~ List.range grid.rows → ∃ swaps,
      grid.swapsFor records matchings order = .ok swaps ∧ Carries swaps old new :=
    fun order perm => posed.swapsFor_eq valid oldFits newFits perm
  choose! swaps run carries using solved
  obtain ⟨order, perm, found⟩ := posed.optimalSwaps_eq cost steps stream run
  exact ⟨order, swaps order, perm, run order perm, found, carries order perm⟩

/-- The search finds swaps that carry every shared qubit to its new position. -/
theorem Valid.optimalSwaps_eq (valid : grid.Valid) (oldFits : old.Fits (grid.rows * grid.columns))
    (newFits : new.Fits (grid.rows * grid.columns)) :
    ∃ swaps, (grid.optimalSwaps old new cost steps stream).1 = .ok swaps ∧ Carries swaps old new := by
  obtain ⟨targets, records, matchings, posed⟩ := valid.exists_posed oldFits newFits
  obtain ⟨order, swaps, _, _, found, carries⟩ :=
    posed.exists_order valid oldFits newFits cost steps stream
  exact ⟨swaps, found, carries⟩

/-- The swaps for an order are between neighbours. -/
lemma Valid.swapsFor_neighbouring (valid : grid.Valid) {order : List Nat} {swaps : List Swap}
    (run : grid.swapsFor records matchings order = .ok swaps) : Neighbouring grid swaps := by
  obtain ⟨assigned, _, run⟩ := Checked.bind_eq_ok.mp run
  exact valid.sortPhases_neighbouring (Failure.ofChecked_eq_ok.mp run)

/-- The swaps found are between neighbours. -/
theorem Valid.optimalSwaps_neighbouring (valid : grid.Valid) {swaps : List Swap}
    (found : (grid.optimalSwaps old new cost steps stream).1 = .ok swaps) :
    Neighbouring grid swaps := by
  obtain ⟨records, matchings, order, run⟩ := exists_order_of_optimalSwaps found
  exact valid.swapsFor_neighbouring run

/-! ### Grids without cells -/

/-- Without columns every round succeeds. -/
lemma matchingRounds_of_noColumns (count round : Nat) :
    ∃ matchings, matchingRounds 0 count round [] = .ok matchings := by
  induction count generalizing round with
  | zero => exact ⟨[], rfl⟩
  | succ count ih =>
    obtain ⟨rest, run⟩ := ih (round + 1)
    refine ⟨[] :: rest, Checked.bind_eq_ok.mpr ⟨([], []), rfl, ?_⟩⟩
    exact Checked.bind_eq_ok.mpr ⟨rest, run, rfl⟩

section NoCells

variable (noCells : grid.rows * grid.columns = 0)
include noCells

/-- Without cells there are matchings. -/
lemma rowMatchings_of_noCells : ∃ matchings, grid.rowMatchings [] = .ok matchings := by
  change ∃ matchings, matchingRounds grid.columns grid.rows 0 [] = .ok matchings
  rcases Nat.mul_eq_zero.mp noCells with rows | columns
  · rw [rows]
    exact ⟨[], rfl⟩
  · rw [columns]
    exact matchingRounds_of_noColumns grid.rows 0

/-- Without cells there are no swaps. -/
lemma swapsFor_of_noCells {matchings : List (List Nat)} {order : List Nat}
    (perm : order ~ List.range grid.rows) : grid.swapsFor [] matchings order = .ok [] := by
  -- if there is a column there is no row, and the other way round
  have noRows {c : Nat} (lt : c < grid.columns) : grid.rows = 0 :=
    (Nat.mul_eq_zero.mp noCells).resolve_right (by omega)
  have noColumns {r : Nat} (lt : r < grid.rows) : grid.columns = 0 :=
    (Nat.mul_eq_zero.mp noCells).resolve_left (by omega)
  have assigned : (List.range grid.columns).foldlM (grid.assignColumn matchings order) #[] = .ok #[] := by
    apply Checked.foldlM_stays
    intro c mem
    rw [noRows (List.mem_range.mp mem), List.range_zero, List.perm_nil] at perm
    rw [perm]
    rfl
  have columns : ∀ c < grid.columns, ∃ cells, grid.columnCells c = .ok cells ∧ cells.length < 2 :=
    fun c lt => ⟨[], by rw [columnCells, noRows lt]; rfl, Nat.zero_lt_two⟩
  have rows : ∀ r < grid.rows, ∃ cells, grid.rowCells r = .ok cells ∧ cells.length < 2 :=
    fun r lt => ⟨[], by rw [rowCells, noColumns lt]; rfl, Nat.zero_lt_two⟩
  refine Checked.bind_eq_ok.mpr ⟨#[], assigned, Failure.ofChecked_eq_ok.mpr ?_⟩
  refine Checked.bind_eq_ok.mpr ⟨_, sortLines_short _ columns _, ?_⟩
  refine Checked.bind_eq_ok.mpr ⟨_, sortLines_short _ rows _, ?_⟩
  exact Checked.bind_eq_ok.mpr ⟨_, sortLines_short _ columns _, rfl⟩

/-- Where there are no cells, nothing is swapped. -/
lemma optimalSwaps_of_noCells (old new : Layout Nat) :
    (grid.optimalSwaps old new cost steps stream).1 = .ok [] := by
  have recorded : grid.records old new = .ok [] := by
    rw [records, numQubits, noCells]
    rfl
  obtain ⟨matchings, matched⟩ := rowMatchings_of_noCells noCells
  have solved : ∀ order ∈ (orders grid.rows steps stream).1, grid.swapsFor [] matchings order = .ok [] :=
    fun order mem => swapsFor_of_noCells noCells (orders_perm mem)
  rw [optimalSwaps_of_prepared recorded matched, Checked.mapM_eq_ok solved]
  have best : cheapest cost ((orders grid.rows steps stream).1.map fun _ => []) ∈
      (orders grid.rows steps stream).1.map fun _ => [] :=
    cheapest_mem (by simpa using orders_ne_nil)
  obtain ⟨_, _, same⟩ := List.mem_map.mp best
  exact congrArg Except.ok same.symm

end NoCells

end Grid

end QubitRouting
