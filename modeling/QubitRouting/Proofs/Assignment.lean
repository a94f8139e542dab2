import QubitRouting.Proofs.Synthesis

/-!
# Every content gets an intermediate row

Column by column, the rows are handed out in the order of a permutation of the matchings. A content that
goes where the matching asks for is always left, because the contents without a row go to as many
columns as matchings are still to come.
-/

namespace QubitRouting.Grid

open scoped List

variable {grid : Grid} {d d' : Nat → Destination} {cells wanted : List Nat} {i : Nat}

/-! ### The first item with the least key -/

section FirstLeast

variable {α : Type} {key : α → Nat} {items : List α}

/-- The first least item is found by keeping the better one, item after item. -/
lemma firstLeast?_eq (key : α → Nat) (items : List α) :
    firstLeast? key items = items.foldl (keepBetter fun a b => key a < key b) none := by
  rw [firstLeast?]
  congr 1
  funext best item
  cases best <;> rfl

/-- The first least item is one of the items. -/
lemma firstLeast?_mem {best : α} (found : firstLeast? key items = some best) : best ∈ items := by
  rw [firstLeast?_eq] at found
  rcases mem_of_foldl_keepBetter _ found with mem | absurdity
  · exact mem
  · cases absurdity

/-- Some item is the first least one unless there are none. -/
lemma exists_firstLeast? (key : α → Nat) (given : items ≠ []) :
    ∃ best, firstLeast? key items = some best := by
  rw [firstLeast?_eq]
  exact Option.isSome_iff_exists.mp (foldl_keepBetter_isSome _ (.inl given))

/-- No item has a smaller key than the first least one. -/
lemma le_of_firstLeast? {best item : α} (found : firstLeast? key items = some best) (mem : item ∈ items) :
    key best ≤ key item := by
  rw [firstLeast?_eq] at found
  have least := (not_better_of_foldl_keepBetter (fun a b => key a < key b) (by omega) (by omega) found).2
  exact Nat.le_of_not_lt (least item mem)

end FirstLeast

/-! ### One column -/

/-- The state of a column whose first `i` rows were handed out: the contents that wait go to the columns
still wanted, the others have these rows and go where they were wanted. Contents that go to one column
get their rows in the order of their final rows. -/
structure Assigned (cells wanted : List Nat) (i : Nat) (d : Nat → Destination) : Prop where
  waiting : ((cells.filter fun p => (d p).intermediateRow.isNone).map fun p => (d p).finalColumn) ~
    wanted.drop i
  rows : (cells.filterMap fun p => (d p).intermediateRow) ~ List.range i
  goes : ∀ p ∈ cells, ∀ {r}, (d p).intermediateRow = some r → wanted[r]? = some (d p).finalColumn
  ordered : ∀ p ∈ cells, ∀ q ∈ cells, (d p).finalColumn = (d q).finalColumn →
    (d p).finalRow < (d q).finalRow → ∀ {s}, (d q).intermediateRow = some s →
      ∃ r < s, (d p).intermediateRow = some r

/-- Let a content visit a row. -/
def visit (d : Nat → Destination) (p row : Nat) : Nat → Destination :=
  Function.update d p { d p with intermediateRow := some row }

/-- The state of a column only depends on the destinations of its cells. -/
lemma Assigned.congr (assigned : Assigned cells wanted i d) (same : ∀ p ∈ cells, d' p = d p) :
    Assigned cells wanted i d' := by
  refine ⟨?_, ?_, ?_, ?_⟩
  · rw [List.filter_congr fun p mem => by rw [same p mem],
      List.map_congr_left fun p mem => by rw [same p (List.mem_of_mem_filter mem)]]
    exact assigned.waiting
  · rw [List.filterMap_congr fun p mem => by rw [same p mem]]
    exact assigned.rows
  · intro p mem r visits
    rw [same p mem] at visits ⊢
    exact assigned.goes p mem visits
  · intro p memP q memQ
    rw [same p memP, same q memQ]
    exact assigned.ordered p memP q memQ

/-- A content that goes where the next matching asks for still waits. -/
lemma Assigned.exists_waiting (assigned : Assigned cells wanted i d) {target : Nat}
    (next : wanted[i]? = some target) :
    ∃ p ∈ cells, (d p).intermediateRow = none ∧ (d p).finalColumn = target := by
  obtain ⟨lt, rfl⟩ := List.getElem?_eq_some_iff.mp next
  have mem : wanted[i] ∈ wanted.drop i := by
    rw [List.drop_eq_getElem_cons lt]
    exact List.mem_cons_self
  obtain ⟨p, mem, same⟩ := List.mem_map.mp (assigned.waiting.mem_iff.mpr mem)
  obtain ⟨mem, free⟩ := List.mem_filter.mp mem
  exact ⟨p, mem, Option.isNone_iff_eq_none.mp free, same⟩

/-- A row that was handed out is one of the first rows. -/
lemma Assigned.lt_of_visits (assigned : Assigned cells wanted i d) {p r : Nat} (mem : p ∈ cells)
    (visits : (d p).intermediateRow = some r) : r < i :=
  List.mem_range.mp (assigned.rows.mem_iff.mp (List.mem_filterMap.mpr ⟨p, mem, visits⟩))

/-- Handing the next row to the waiting content with the least final row keeps rows in order. -/
lemma Assigned.ordered_visit (assigned : Assigned cells wanted i d) {p : Nat} (mem : p ∈ cells)
    (free : (d p).intermediateRow = none)
    (least : ∀ q ∈ cells, (d q).intermediateRow = none → (d q).finalColumn = (d p).finalColumn →
      (d p).finalRow ≤ (d q).finalRow) {a b s : Nat} (memA : a ∈ cells) (memB : b ∈ cells)
    (column_eq : (visit d p i a).finalColumn = (visit d p i b).finalColumn)
    (less : (visit d p i a).finalRow < (visit d p i b).finalRow)
    (visits : (visit d p i b).intermediateRow = some s) :
    ∃ r < s, (visit d p i a).intermediateRow = some r := by
  have here : visit d p i p = { d p with intermediateRow := some i } := Function.update_self _ _ _
  have there {q : Nat} (ne : q ≠ p) : visit d p i q = d q := Function.update_of_ne ne _ _
  by_cases sameB : b = p
  · -- whoever goes before `p` has a row already
    subst sameB
    have ne : a ≠ b := by
      rintro rfl
      exact Nat.lt_irrefl _ less
    rw [here] at column_eq less visits
    rw [there ne] at column_eq less ⊢
    obtain rfl := Option.some.inj visits
    cases before : (d a).intermediateRow with
    | none => exact absurd less (Nat.not_lt_of_le (least a memA before column_eq))
    | some r => exact ⟨r, assigned.lt_of_visits memA before, rfl⟩
  · rw [there sameB] at column_eq less visits
    by_cases sameA : a = p
    · -- `p` would have had a row before
      subst sameA
      rw [here] at column_eq less
      obtain ⟨r, _, already⟩ := assigned.ordered a memA b memB column_eq less visits
      rw [free] at already
      cases already
    · rw [there sameA] at column_eq less ⊢
      exact assigned.ordered a memA b memB column_eq less visits

/-- The one with the least final row may take the next row. -/
lemma Assigned.visit (assigned : Assigned cells wanted i d) (nodup : cells.Nodup) {p : Nat}
    (mem : p ∈ cells) (free : (d p).intermediateRow = none)
    (next : wanted[i]? = some (d p).finalColumn)
    (least : ∀ q ∈ cells, (d q).intermediateRow = none → (d q).finalColumn = (d p).finalColumn →
      (d p).finalRow ≤ (d q).finalRow) :
    Assigned cells wanted (i + 1) (visit d p i) := by
  obtain ⟨lt, target⟩ := List.getElem?_eq_some_iff.mp next
  -- the cell apart from the others, which do not change
  have apart := List.perm_cons_erase mem
  have others : ∀ q ∈ cells.erase p, Grid.visit d p i q = d q := fun q memQ =>
    Function.update_of_ne (nodup.mem_erase_iff.mp memQ).1 _ _
  have here : Grid.visit d p i p = { d p with intermediateRow := some i } := Function.update_self _ _ _
  refine ⟨?_, ?_, ?_, ?_⟩
  · have before := (((apart.filter fun q => (d q).intermediateRow.isNone).map fun q =>
      (d q).finalColumn).symm.trans assigned.waiting)
    rw [List.filter_cons_of_pos (by simp [free]), List.map_cons, List.drop_eq_getElem_cons lt,
      target] at before
    refine ((apart.filter _).map _).trans ?_
    rw [List.filter_cons_of_neg (by simp [here]), List.filter_congr fun q memQ => by rw [others q memQ],
      List.map_congr_left fun q memQ => by rw [others q (List.mem_of_mem_filter memQ)]]
    exact before.cons_inv
  · have before := (apart.filterMap fun q => (d q).intermediateRow).symm.trans assigned.rows
    simp only [List.filterMap_cons, free] at before
    refine (apart.filterMap _).trans ?_
    simp only [List.filterMap_cons, here]
    rw [List.range_succ, List.filterMap_congr fun q memQ => by rw [others q memQ]]
    exact (before.cons i).trans (List.perm_append_singleton i _).symm
  · intro q memQ r visits
    by_cases same : q = p
    · subst same
      rw [here] at visits ⊢
      obtain rfl := Option.some.inj visits
      exact next
    · rw [Grid.visit, Function.update_of_ne same] at visits ⊢
      exact assigned.goes q memQ visits
  · intro a memA b memB column_eq less s visits
    exact assigned.ordered_visit mem free least memA memB column_eq less visits

/-- Once all rows are handed out, no content waits. -/
lemma Assigned.intermediateRow_eq (assigned : Assigned cells wanted wanted.length d) {p : Nat}
    (mem : p ∈ cells) : (d p).intermediateRow = some (d p).intermediateKey := by
  have empty := assigned.waiting
  rw [List.drop_length, List.perm_nil, List.map_eq_nil_iff, List.filter_eq_nil_iff] at empty
  rw [Destination.intermediateKey]
  cases visits : (d p).intermediateRow with
  | none => exact absurd (Option.isNone_iff_eq_none.mpr visits) (empty p mem)
  | some row => rfl

/-- The rows handed out number the contents. -/
lemma Assigned.keys_perm (assigned : Assigned cells wanted wanted.length d) :
    cells.map (fun p => (d p).intermediateKey) ~ List.range wanted.length := by
  have mapped : cells.filterMap (fun p => (d p).intermediateRow)
      = cells.map fun p => (d p).intermediateKey := by
    rw [List.filterMap_congr fun p mem => assigned.intermediateRow_eq mem, ← List.filterMap_eq_map]
    rfl
  rw [← mapped]
  exact assigned.rows

variable {records : Array Record} {matchings : List (List Nat)} {permutation : List Nat} {c k : Nat}

/-- One more row of a column is handed out, to a content that goes to the column wanted. -/
lemma Valid.assignRow_eq (valid : grid.Valid) (lt : c < grid.columns)
    (holds : Holds records (grid.rows * grid.columns) d)
    (assigned : Assigned (grid.column c) wanted i d) {target : Nat}
    (given : matchings[k]?.bind (·[c]?) = some target) (next : wanted[i]? = some target) :
    ∃ p ∈ grid.column c, ∃ records', grid.assignRow matchings c records i k = .ok records' ∧
      Holds records' (grid.rows * grid.columns) (visit d p i) ∧
      Assigned (grid.column c) wanted (i + 1) (visit d p i) := by
  have contents : (grid.column c).mapM (fun cell => do return (cell, ← destinationOf records cell))
      = .ok ((grid.column c).map fun p => (p, d p)) := by
    apply Checked.mapM_eq_ok
    intro p mem
    rw [holds.destination p ((valid.columns.mem_iff c lt).mp mem).1]
    rfl
  -- the contents that wait and go to the column wanted; there is one as long as it is wanted
  let free := ((grid.column c).map fun p => (p, d p)).filter fun entry =>
    entry.2.intermediateRow.isNone && entry.2.finalColumn == target
  have free_ne : free ≠ [] := by
    obtain ⟨p, mem, none, same⟩ := assigned.exists_waiting next
    apply List.ne_nil_of_mem (a := (p, d p))
    exact List.mem_filter.mpr ⟨List.mem_map_of_mem mem, by simp [none, same]⟩
  obtain ⟨⟨p, destination⟩, chosen⟩ := exists_firstLeast? (fun entry => entry.2.finalRow) free_ne
  obtain ⟨inContents, waits⟩ := List.mem_filter.mp (firstLeast?_mem chosen)
  obtain ⟨q, mem, same⟩ := List.mem_map.mp inContents
  obtain ⟨rfl, rfl⟩ := Prod.mk.inj same
  dsimp only at waits
  rw [Bool.and_eq_true, Option.isNone_iff_eq_none, beq_iff_eq] at waits
  refine ⟨q, mem, setDestination records q { d q with intermediateRow := some i }, ?_, ?_, ?_⟩
  · rw [assignRow, given]
    refine Checked.bind_eq_ok.mpr ⟨_, Failure.ofChecked_eq_ok.mpr (valid.columnCells_eq lt), ?_⟩
    refine Checked.bind_eq_ok.mpr ⟨_, Failure.ofChecked_eq_ok.mpr contents, ?_⟩
    dsimp only
    split
    case h_1 nothing => cases chosen.symm.trans nothing
    case h_2 found =>
      cases chosen.symm.trans found
      rfl
  · exact holds.set q _
  · refine assigned.visit (valid.columns.nodup c) mem waits.1 (next.trans (by rw [waits.2])) ?_
    intro r memR none_yet sameColumn
    have inFree : (r, d r) ∈ free := by
      refine List.mem_filter.mpr ⟨List.mem_map_of_mem memR, ?_⟩
      simp [none_yet, sameColumn, waits.2]
    have first := le_of_firstLeast? chosen inFree
    exact first

/-- The destinations only change in their intermediate rows, and on given cells. -/
structure Visits (cells : List Nat) (d d' : Nat → Destination) : Prop where
  finalRow : ∀ p, (d' p).finalRow = (d p).finalRow
  finalColumn : ∀ p, (d' p).finalColumn = (d p).finalColumn
  outside : ∀ p ∉ cells, d' p = d p

/-- Destinations that stay the same change in nothing but intermediate rows. -/
lemma Visits.refl (cells : List Nat) (d : Nat → Destination) : Visits cells d d :=
  ⟨fun _ => rfl, fun _ => rfl, fun _ _ => rfl⟩

/-- Letting a content of the given cells visit a row changes intermediate rows only. -/
lemma Visits.visit {cells : List Nat} {p : Nat} (visits : Visits cells d d') (mem : p ∈ cells)
    (row : Nat) : Visits cells d (visit d' p row) := by
  refine ⟨?_, ?_, ?_⟩
  · intro q
    by_cases same : q = p
    · subst same
      rw [Grid.visit, Function.update_self]
      exact visits.finalRow q
    · rw [Grid.visit, Function.update_of_ne same]
      exact visits.finalRow q
  · intro q
    by_cases same : q = p
    · subst same
      rw [Grid.visit, Function.update_self]
      exact visits.finalColumn q
    · rw [Grid.visit, Function.update_of_ne same]
      exact visits.finalColumn q
  · intro q outside
    have ne : q ≠ p := by
      rintro rfl
      exact outside mem
    rw [Grid.visit, Function.update_of_ne ne]
    exact visits.outside q outside

/-- The column a matching sends the content of a column to. -/
def sendsTo (matchings : List (List Nat)) (k c : Nat) : Nat := (matchings.getD k []).getD c 0

/-- The records hold destinations of which the first `i` rows of a column are handed out. -/
def RowsAssigned (grid : Grid) (matchings : List (List Nat)) (permutation : List Nat) (c : Nat)
    (d : Nat → Destination) (i : Nat) (records : Array Record) : Prop :=
  ∃ d', Holds records (grid.rows * grid.columns) d' ∧ Visits (grid.column c) d d' ∧
    Assigned (grid.column c) (permutation.map (sendsTo matchings · c)) i d'

/-- Handing out one more row succeeds. -/
lemma Valid.rowsAssigned_step (valid : grid.Valid) (lt : c < grid.columns)
    (given : ∀ k ∈ permutation, matchings[k]?.bind (·[c]?) = some (sendsTo matchings k c))
    (here : permutation[i]? = some k) (rows : RowsAssigned grid matchings permutation c d i records) :
    ∃ records', grid.assignRow matchings c records i k = .ok records' ∧
      RowsAssigned grid matchings permutation c d (i + 1) records' := by
  obtain ⟨d', holds, visits, assigned⟩ := rows
  have next : (permutation.map (sendsTo matchings · c))[i]? = some (sendsTo matchings k c) := by
    rw [List.getElem?_map, here]
    rfl
  obtain ⟨p, mem, records', run, holds', assigned'⟩ := valid.assignRow_eq lt holds assigned
    (given k (List.mem_of_getElem? here)) next
  exact ⟨records', run, visit d' p i, holds', visits.visit mem i, assigned'⟩

/-- All rows of a column are handed out. -/
lemma Valid.assignColumn_eq (valid : grid.Valid) (lt : c < grid.columns)
    (holds : Holds records (grid.rows * grid.columns) d)
    (start : Assigned (grid.column c) (permutation.map (sendsTo matchings · c)) 0 d)
    (given : ∀ k ∈ permutation, matchings[k]?.bind (·[c]?) = some (sendsTo matchings k c)) :
    ∃ records', grid.assignColumn matchings permutation records c = .ok records' ∧
      RowsAssigned grid matchings permutation c d permutation.length records' := by
  have step : ∀ i (h : i < permutation.zipIdx.length) records,
      RowsAssigned grid matchings permutation c d i records →
      ∃ records', grid.assignRow matchings c records permutation.zipIdx[i].2 permutation.zipIdx[i].1
          = .ok records' ∧ RowsAssigned grid matchings permutation c d (i + 1) records' := by
    intro i h records rows
    rw [List.getElem_zipIdx, Nat.zero_add]
    exact valid.rowsAssigned_step lt given (List.getElem?_eq_getElem _) rows
  rw [← List.length_zipIdx]
  exact Checked.exists_foldlM
    (f := fun records (entry : Nat × Nat) => grid.assignRow matchings c records entry.2 entry.1) _ step
    ⟨d, holds, .refl _ d, start⟩

/-! ### The whole grid -/

variable {targets : Nat → Nat}

/-- Each matching sends each column somewhere. -/
lemma Splits.getElem?_eq (splits : Splits grid targets matchings) (ltK : k < grid.rows)
    (ltC : c < grid.columns) : matchings[k]?.bind (·[c]?) = some (sendsTo matchings k c) := by
  have inList : k < matchings.length := splits.length_eq ▸ ltK
  have inRow : c < matchings[k].length := by
    rw [(splits.perm _ (List.getElem_mem inList)).length_eq, List.length_range]
    exact ltC
  simp [sendsTo, inList, inRow]

/-- One content per final column is sent to each intermediate row. -/
lemma Splits.sendsTo_perm (splits : Splits grid targets matchings) (lt : k < grid.rows) :
    (List.range grid.columns).map (sendsTo matchings k) ~ List.range grid.columns := by
  have inList : k < matchings.length := splits.length_eq ▸ lt
  have perm := splits.perm _ (List.getElem_mem inList)
  have length : matchings[k].length = grid.columns := by rw [perm.length_eq, List.length_range]
  have whole : (List.range grid.columns).map (sendsTo matchings k) = matchings[k] := by
    apply List.ext_getElem
    · simp [length]
    · intro c _ inRow
      simp [sendsTo, inList, inRow]
  rwa [whole]

/-- Before any row is handed out, the contents of a column go where the matchings send them. -/
lemma Splits.assigned_zero (splits : Splits grid targets matchings)
    (order : permutation ~ List.range grid.rows) (lt : c < grid.columns)
    (fresh : ∀ p, (d p).intermediateRow = none)
    (finalColumn : ∀ p ∈ grid.column c, (d p).finalColumn = targets p % grid.columns) :
    Assigned (grid.column c) (permutation.map (sendsTo matchings · c)) 0 d := by
  have all : (List.range grid.rows).map (sendsTo matchings · c) = matchings.map (·.getD c 0) := by
    apply List.ext_getElem
    · simp [splits.length_eq]
    · intro k _ inList
      rw [List.length_map] at inList
      simp [sendsTo, inList]
  refine ⟨?_, ?_, ?_, ?_⟩
  · rw [List.filter_eq_self.mpr fun p _ => by rw [fresh p]; rfl, List.map_congr_left finalColumn, column,
      List.map_map, List.drop_zero]
    refine (splits.columns c lt).trans ?_
    rw [← all]
    exact (order.map _).symm
  · rw [List.filterMap_eq_nil_iff.mpr fun p _ => fresh p]
    exact .refl _
  · intro p _ r visits
    rw [fresh p] at visits
    cases visits
  · intro p _ q _ _ _ s visits
    rw [fresh q] at visits
    cases visits

/-- The rows of the first `j` columns are handed out, and nothing else has changed. -/
structure ColumnsAssigned (grid : Grid) (matchings : List (List Nat)) (permutation : List Nat)
    (d : Nat → Destination) (j : Nat) (d' : Nat → Destination) : Prop where
  finalRow : ∀ p, (d' p).finalRow = (d p).finalRow
  finalColumn : ∀ p, (d' p).finalColumn = (d p).finalColumn
  done : ∀ c < j, c < grid.columns → Assigned (grid.column c)
    (permutation.map (sendsTo matchings · c)) permutation.length d'
  rest : ∀ c, j ≤ c → c < grid.columns → ∀ p ∈ grid.column c, d' p = d p

/-- Once the rows of the next column are handed out, they are so in one more column. -/
lemma ColumnsAssigned.step (valid : grid.Valid) {j : Nat} (lt : j < grid.columns)
    {d'' : Nat → Destination} (columns : ColumnsAssigned grid matchings permutation d j d')
    (visits : Visits (grid.column j) d' d'')
    (assigned : Assigned (grid.column j) (permutation.map (sendsTo matchings · j)) permutation.length d'') :
    ColumnsAssigned grid matchings permutation d (j + 1) d'' := by
  -- the cells of other columns do not change
  have apart {c : Nat} (ltC : c < grid.columns) (ne : c ≠ j) {p : Nat} (mem : p ∈ grid.column c) :
      d'' p = d' p := by
    apply visits.outside
    intro memJ
    exact ne (((valid.columns.mem_iff c ltC).mp mem).2.symm.trans ((valid.columns.mem_iff j lt).mp memJ).2)
  refine ⟨?_, ?_, ?_, ?_⟩
  · exact fun p => (visits.finalRow p).trans (columns.finalRow p)
  · exact fun p => (visits.finalColumn p).trans (columns.finalColumn p)
  · intro c le ltC
    by_cases same : c = j
    · subst same
      exact assigned
    · exact (columns.done c (by omega) ltC).congr fun p mem => apart ltC same mem
  · intro c le ltC p mem
    rw [apart ltC (by omega) mem, columns.rest c (by omega) ltC p mem]

/-- All contents get intermediate rows, as the three phases need them. -/
lemma Valid.assignColumns_eq (valid : grid.Valid) (splits : Splits grid targets matchings)
    (order : permutation ~ List.range grid.rows)
    (holds : Holds records (grid.rows * grid.columns) d) (fresh : ∀ p, (d p).intermediateRow = none)
    (finalColumn : ∀ p < grid.rows * grid.columns, (d p).finalColumn = targets p % grid.columns) :
    ∃ records', (List.range grid.columns).foldlM (grid.assignColumn matchings permutation) records
        = .ok records' ∧
      ∃ d', Holds records' (grid.rows * grid.columns) d' ∧
        ColumnsAssigned grid matchings permutation d grid.columns d' := by
  have step : ∀ j (h : j < (List.range grid.columns).length) records,
      (∃ d', Holds records (grid.rows * grid.columns) d' ∧
        ColumnsAssigned grid matchings permutation d j d') →
      ∃ records', grid.assignColumn matchings permutation records (List.range grid.columns)[j]
        = .ok records' ∧ ∃ d', Holds records' (grid.rows * grid.columns) d' ∧
          ColumnsAssigned grid matchings permutation d (j + 1) d' := by
    rintro j h records ⟨d', holds, columns⟩
    rw [List.getElem_range]
    rw [List.length_range] at h
    have start : Assigned (grid.column j) (permutation.map (sendsTo matchings · j)) 0 d' := by
      refine (splits.assigned_zero order h fresh ?_).congr (columns.rest j (Nat.le_refl j) h)
      exact fun p mem => finalColumn p ((valid.columns.mem_iff j h).mp mem).1
    obtain ⟨records', run, d'', holds', visits, assigned⟩ := valid.assignColumn_eq h holds start
      fun k mem => splits.getElem?_eq (List.mem_range.mp (order.mem_iff.mp mem)) h
    exact ⟨records', run, d'', holds', columns.step valid h visits assigned⟩
  have ends := Checked.exists_foldlM (f := grid.assignColumn matchings permutation) _ step
    ⟨d, holds, fun _ => rfl, fun _ => rfl, nofun, fun _ _ _ _ _ => rfl⟩
  rwa [List.length_range] at ends

/-- Whatever the order of the matchings, the swaps carry every content to its target. -/
theorem Valid.swapsFor_eq (valid : grid.Valid) (splits : Splits grid targets matchings)
    (order : permutation ~ List.range grid.rows)
    (perm : (List.range (grid.rows * grid.columns)).map targets ~
      List.range (grid.rows * grid.columns))
    {records : List Record} (holds : Holds records.toArray (grid.rows * grid.columns) d)
    (fresh : ∀ p, (d p).intermediateRow = none)
    (finalRow : ∀ p < grid.rows * grid.columns, (d p).finalRow = targets p / grid.columns)
    (finalColumn : ∀ p < grid.rows * grid.columns, (d p).finalColumn = targets p % grid.columns) :
    ∃ swaps, grid.swapsFor records matchings permutation = .ok swaps ∧
      ∀ p < grid.rows * grid.columns, Swap.perm swaps p = targets p := by
  obtain ⟨records', assign, d', holds', assigned⟩ :=
    valid.assignColumns_eq splits order holds fresh finalColumn
  have length : permutation.length = grid.rows := by rw [order.length_eq, List.length_range]
  have all {c : Nat} (lt : c < grid.columns) : Assigned (grid.column c)
      (permutation.map (sendsTo matchings · c)) (permutation.map (sendsTo matchings · c)).length d' := by
    rw [List.length_map]
    exact assigned.done c lt lt
  -- in every column each row is handed out once, and each row holds one content per final column
  have prepared : Prepared grid targets (fun r => sendsTo matchings (permutation.getD r 0)) d' := by
    refine ⟨perm, ?_, ?_, ?_, ?_, ?_⟩
    · exact fun p lt => (assigned.finalRow p).trans (finalRow p lt)
    · exact fun p lt => (assigned.finalColumn p).trans (finalColumn p lt)
    · intro c lt
      have := (all lt).keys_perm
      rwa [List.length_map, length] at this
    · intro p lt
      have ltC := Nat.mod_lt p valid.columns_pos
      have mem : p ∈ grid.column (p % grid.columns) := (valid.columns.mem_iff _ ltC).mpr ⟨lt, rfl⟩
      have goes := (all ltC).goes p mem ((all ltC).intermediateRow_eq mem)
      rw [List.getElem?_map, Option.map_eq_some_iff] at goes
      obtain ⟨k, here, sends⟩ := goes
      rw [List.getD_eq_getElem?_getD, here, ← sends]
      rfl
    · intro r lt
      apply splits.sendsTo_perm
      have inList : r < permutation.length := length ▸ lt
      rw [List.getD_eq_getElem?_getD, List.getElem?_eq_getElem inList, Option.getD_some]
      exact List.mem_range.mp (order.mem_iff.mp (List.getElem_mem inList))
  obtain ⟨swaps, run, moved⟩ := valid.sortPhases_eq holds' prepared
  refine ⟨swaps, ?_, moved⟩
  exact Checked.bind_eq_ok.mpr ⟨records', assign, Failure.ofChecked_eq_ok.mpr run⟩

end QubitRouting.Grid
