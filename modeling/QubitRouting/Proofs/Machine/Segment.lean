import QubitRouting.Proofs.Machine.Sort
import QubitRouting.Proofs.Placement

/-!
# Segments and their placement on a machine

The runs of qubits stand in a table and are joined by their indices: one run is moved to the end of
another one and taken out, which shifts the runs behind it. No index is ever outside the table,
whatever the commands are. Runs are placed by adding up paddings and lengths. The sums stay below the
number of positions, the qubits allocated before and two for each command, even where a qubit that is
allocated twice makes the runs longer than the chain.
-/

namespace QubitRouting.Machine

open Segments (RunEnd Builder endOf? join?)

variable {runs joined : List (List QubitId)} {run : List QubitId} {a b q : QubitId}

/-! ### Joining runs -/

/-- Append one run to another one and take it out of the table. Gives the new index of the longer
run. -/
def merge (runs : List (List QubitId)) (kept dropped : Nat) (reversed : Bool) :
    Except Fault (Nat × List (List QubitId)) := do
  let tail ← item runs dropped
  let runs ← put runs dropped []
  let head ← item runs kept
  let runs ← put runs kept (head ++ if reversed then tail.reverse else tail)
  let runs ← remove runs dropped
  if dropped < kept then return (← less kept 1, runs)
  return (kept, runs)

/-- Add a qubit at the end of a run. -/
def extend (runs : List (List QubitId)) (runEnd : RunEnd) (q : QubitId) :
    Except Fault (Nat × List (List QubitId)) := do
  let run ← item runs runEnd.index
  return (runEnd.index, ← put runs runEnd.index ({ runEnd with run }.extend q))

/-- Join the runs of two qubits. Gives the index of the new run, or nothing if the qubits are the two
ends of one run. -/
def join (runs : List (List QubitId)) (a b : QubitId) :
    Except Fault (Option (Nat × List (List QubitId))) :=
  match endOf? runs a, endOf? runs b with
  | none, none => do
    let runs := runs ++ [[a, b]]
    return some (← less runs.length 1, runs)
  | none, some endB => do return some (← extend runs endB a)
  | some endA, none => do return some (← extend runs endA b)
  | some endA, some endB =>
    if endA.index = endB.index then .ok none
    else
      match endA.side, endB.side with
      | .right, .left => do return some (← merge runs endA.index endB.index false)
      | .right, .right => do return some (← merge runs endA.index endB.index true)
      | .left, .left => do
        let run ← item runs endA.index
        let runs ← put runs endA.index run.reverse
        return some (← merge runs endA.index endB.index false)
      | .left, .right => do return some (← merge runs endB.index endA.index false)

/-- Appending one run to another one puts the longer run at the index given back. -/
lemma merge_eq {kept dropped : Nat} {head tail : List QubitId} (here : runs[kept]? = some head)
    (there : runs[dropped]? = some tail) (ne : kept ≠ dropped) (reversed : Bool)
    (longer : run = head ++ if reversed then tail.reverse else tail) :
    ∃ place, merge runs kept dropped reversed = .ok (place, (runs.set kept run).eraseIdx dropped) ∧
      ((runs.set kept run).eraseIdx dropped)[place]? = some run := by
  have ltKept : kept < runs.length := (List.getElem?_eq_some_iff.mp here).1
  have ltDropped : dropped < runs.length := (List.getElem?_eq_some_iff.mp there).1
  have after : ((runs.set dropped []).set kept run).eraseIdx dropped
      = (runs.set kept run).eraseIdx dropped := by
    rw [List.set_comm _ _ ne.symm, List.eraseIdx_set_eq]
  have head_eq : item (runs.set dropped []) kept = .ok head :=
    item_of_getElem? (by rw [List.getElem?_set_ne ne.symm, here])
  have steps : merge runs kept dropped reversed
      = if dropped < kept then (do return (← less kept 1, (runs.set kept run).eraseIdx dropped))
        else .ok (kept, (runs.set kept run).eraseIdx dropped) := by
    simp only [merge, item_of_getElem? there, put_of_lt ltDropped, head_eq, ← longer, Checked.ok_bind]
    rw [put_of_lt (by simpa using ltKept), Checked.ok_bind, remove_of_lt (by simpa using ltDropped),
      Checked.ok_bind, after]
    rfl
  rw [steps]
  split
  · next before =>
    -- The run that is taken out stands before the longer one, which moves down by one.
    refine ⟨kept - 1, by rw [less_of_le (by omega)]; rfl, ?_⟩
    rw [List.getElem?_eraseIdx, if_neg (by omega), Nat.sub_add_cancel (by omega)]
    exact List.getElem?_set_self ltKept
  · next behind =>
    refine ⟨kept, rfl, ?_⟩
    rw [List.getElem?_eraseIdx, if_pos (by omega)]
    exact List.getElem?_set_self ltKept

/-- Adding a qubit at the end of a run puts the longer run in its place. -/
lemma extend_eq {runEnd : RunEnd} (here : runs[runEnd.index]? = some runEnd.run) :
    extend runs runEnd q = .ok (runEnd.index, runs.set runEnd.index (runEnd.extend q)) ∧
      (runs.set runEnd.index (runEnd.extend q))[runEnd.index]? = some (runEnd.extend q) := by
  have lt : runEnd.index < runs.length := (List.getElem?_eq_some_iff.mp here).1
  refine ⟨?_, List.getElem?_set_self lt⟩
  rw [extend, item_of_getElem? here, Checked.ok_bind, put_of_lt lt]
  rfl

/-- Joining the runs of two qubits in the table is joining them by value, and the new run is at
the index given back. -/
lemma join_eq (runs : List (List QubitId)) (a b : QubitId) :
    (join? runs a b = none ∧ join runs a b = .ok none) ∨
    ∃ run joined place, join? runs a b = some (run, joined) ∧
      join runs a b = .ok (some (place, joined)) ∧ joined[place]? = some run := by
  unfold join? join
  rcases foundA : endOf? runs a with _ | endA <;> rcases foundB : endOf? runs b with _ | endB
  · -- neither of the two is at the end of a run
    refine .inr ⟨_, _, runs.length, rfl, ?_, by simp⟩
    simp [less_of_le, pure, Except.pure, Checked.ok_bind]
  · obtain ⟨extended, here⟩ := extend_eq (Segments.endOf?_eq_some foundB).1
    exact .inr ⟨_, _, _, rfl, by simp only [extended, Checked.ok_bind]; rfl, here⟩
  · obtain ⟨extended, here⟩ := extend_eq (Segments.endOf?_eq_some foundA).1
    exact .inr ⟨_, _, _, rfl, by simp only [extended, Checked.ok_bind]; rfl, here⟩
  · have hereA := (Segments.endOf?_eq_some foundA).1
    have hereB := (Segments.endOf?_eq_some foundB).1
    obtain ⟨indexA, runA, sideA⟩ := endA
    obtain ⟨indexB, runB, sideB⟩ := endB
    by_cases same : indexA = indexB
    · exact .inl ⟨if_pos same, if_pos same⟩
    · simp only [if_neg same]
      cases sideA <;> cases sideB
      · -- two first qubits: one run is turned around before the other is appended
        have ltA : indexA < runs.length := (List.getElem?_eq_some_iff.mp hereA).1
        have turned : (runs.set indexA runA.reverse)[indexA]? = some runA.reverse :=
          List.getElem?_set_self ltA
        have other : (runs.set indexA runA.reverse)[indexB]? = some runB := by
          rw [List.getElem?_set_ne same]
          exact hereB
        obtain ⟨place, merged, here⟩ := merge_eq turned other same false rfl
        rw [List.set_set] at merged here
        refine .inr ⟨_, _, place, rfl, ?_, here⟩
        simp only [item_of_getElem? hereA, put_of_lt ltA, Checked.ok_bind, merged]
        rfl
      · obtain ⟨place, merged, here⟩ := merge_eq hereB hereA (Ne.symm same) false rfl
        exact .inr ⟨_, _, place, rfl, by simp only [merged, Checked.ok_bind]; rfl, here⟩
      · obtain ⟨place, merged, here⟩ := merge_eq hereA hereB same false rfl
        exact .inr ⟨_, _, place, rfl, by simp only [merged, Checked.ok_bind]; rfl, here⟩
      · obtain ⟨place, merged, here⟩ := merge_eq hereA hereB same true rfl
        exact .inr ⟨_, _, place, rfl, by simp only [merged, Checked.ok_bind]; rfl, here⟩

/-! ### Building segments -/

/-- On a ring, the ends of a run through all positions are neighbours too. The run is looked up by its
index. -/
def closeRing (builder : Builder) (place : Nat) : Builder :=
  (builder.runs[place]?).elim builder builder.closeRing

/-- Make two qubits neighbours if both are active and have a free side. -/
def addPair (builder : Builder) (a b : QubitId) : Except Fault Builder :=
  if (builder.neighboursOf b).contains a then .ok builder
  else if !(builder.active.contains a && builder.active.contains b) then
    .ok (builder.deactivate a b)
  else if (builder.neighboursOf a).size > 1 || (builder.neighboursOf b).size > 1 then
    .ok (builder.deactivate a b)
  else do
    match ← join builder.runs a b with
    | none => return builder.deactivate a b
    | some (place, runs) => return closeRing ({ builder with runs := runs }.link a b) place

/-- Take one command into account. Only a command on two qubits touches the table of runs. -/
def grow (builder : Builder) : Shape → Except Fault Builder
  | .pair a b => addPair builder a b
  | shape => .ok (builder.step shape)

/-- The segments for the next layout of a chain. -/
def build (numQubits : Nat) (cyclic : Bool) (allocated : OrderedSet QubitId)
    (commands : List Buffered) : Except Fault Segments := do
  let builder ← commands.foldlM
    (fun builder buffered => if builder.settled then .ok builder else grow builder buffered.shape)
    (Builder.start numQubits cyclic allocated)
  return ⟨builder.runs, builder.allocated⟩

/-- Making two qubits neighbours in the table of runs does not fail. -/
lemma addPair_eq (builder : Builder) (a b : QubitId) :
    addPair builder a b = .ok (builder.addPair a b) := by
  unfold addPair Builder.addPair
  split
  · rfl
  · split
    · rfl
    · split
      · rfl
      · obtain ⟨nothing, none_joined⟩ | ⟨run, joined, place, found, some_joined, here⟩ :=
          join_eq builder.runs a b
        · rw [nothing, none_joined]
          rfl
        · rw [found, some_joined]
          have looked_up : ({ builder with runs := joined }.link a b).runs[place]? = some run := here
          simp only [Checked.ok_bind, closeRing, looked_up, Option.elim_some]
          rfl

/-- Taking a command into account in the table of runs does not fail. -/
lemma grow_eq (builder : Builder) (shape : Shape) : grow builder shape = .ok (builder.step shape) := by
  cases shape with
  | pair a b => exact addPair_eq builder a b
  | allocate | deallocate | single => rfl

/-- The machine builds the same segments. -/
lemma build_eq (numQubits : Nat) (cyclic : Bool) (allocated : OrderedSet QubitId)
    (commands : List Buffered) :
    build numQubits cyclic allocated commands
      = .ok (Segments.build numQubits cyclic allocated commands) := by
  have run : ∀ builder : Builder, commands.foldlM
      (fun builder buffered => if builder.settled then .ok builder else grow builder buffered.shape)
      builder = .ok (builder.run commands) := by
    induction commands with
    | nil => exact fun _ => rfl
    | cons c rest ih =>
      intro builder
      rw [List.foldlM_cons, grow_eq, Builder.run_cons]
      split <;> exact ih _
  rw [build, run]
  rfl

/-! ### The length of the segments -/

/-- Joining two qubits adds two qubits to the runs at most. -/
lemma length_join? {run : List QubitId} {joined : List (List QubitId)}
    (found : join? runs a b = some (run, joined)) :
    joined.flatten.length ≤ runs.flatten.length + 2 := by
  obtain ⟨how⟩ := Segments.joined_of_join? found
  have piece {q : QubitId} {old : List (List QubitId)} {part : List QubitId}
      (piece : Segments.Piece q old part) : part.length ≤ old.flatten.length + 1 := by
    obtain ⟨rfl, rfl⟩ | ⟨_, perm⟩ := piece.perm
    · simp
    · rw [perm.length_eq]
      omega
  have before := how.before.flatten.length_eq
  have after := how.flatten_perm.length_eq
  have left := piece how.pieceA
  have right := piece how.pieceB
  simp only [List.flatten_append, List.length_append] at before after
  omega

/-- A command adds two to the lengths of the runs and the number of allocated qubits, at most. -/
lemma length_step (builder : Builder) (shape : Shape) :
    (builder.step shape).runs.flatten.length + (builder.step shape).allocated.size
      ≤ builder.runs.flatten.length + builder.allocated.size + 2 := by
  cases shape with
  | allocate q =>
    simp only [Builder.step, Builder.allocate]
    split
    · have grown := builder.allocated.size_insert_le q
      simp only
      omega
    · omega
  | deallocate | single =>
    simp only [Builder.step]
    omega
  | pair a b =>
    rcases builder.addPair_cases a b with same | same | ⟨run, joined, found, _, _, _, _, same⟩
    · simp only [Builder.step, same]
      omega
    · simp only [Builder.step, same, Builder.deactivate]
      omega
    · have grown := length_join? found
      simp only [Builder.step, same, Builder.closeRing_runs, Builder.closeRing_allocated, Builder.link]
      omega

/-- Each command adds two qubits at most to the runs and the allocated ones. -/
lemma length_run (builder : Builder) (commands : List Buffered) :
    (builder.run commands).runs.flatten.length + (builder.run commands).allocated.size
      ≤ builder.runs.flatten.length + builder.allocated.size + 2 * commands.length := by
  induction commands generalizing builder with
  | nil => exact le_rfl
  | cons c rest ih =>
    rw [Builder.run_cons, List.length_cons]
    split
    · have later := ih builder
      omega
    · have now := length_step builder c.shape
      have later := ih (builder.step c.shape)
      omega

/-- The segments to place have no more qubits than are allocated and two for each command. -/
lemma length_toPlace (numQubits : Nat) (cyclic : Bool) (allocated : OrderedSet QubitId)
    (commands : List Buffered) :
    (Segments.build numQubits cyclic allocated commands).toPlace.flatten.length
      ≤ allocated.size + 2 * commands.length := by
  have bound := length_run (Builder.start numQubits cyclic allocated) commands
  have singles : ∀ qubits : List QubitId, (qubits.map fun q => [q]).flatten = qubits := by
    intro qubits
    induction qubits with
    | nil => rfl
    | cons q rest ih => simp [ih]
  have start : (Builder.start numQubits cyclic allocated).runs.flatten.length
      + (Builder.start numQubits cyclic allocated).allocated.size = allocated.size := Nat.zero_add _
  rw [start] at bound
  rw [Segments.toPlace, List.flatten_append, singles, List.length_append]
  exact (Nat.add_le_add_left (List.length_filter_le _ _) _).trans bound

/-! ### Placing segments -/

section Placement

open Placement (Candidate)

variable (limit : Nat) (chain : List (Option QubitId))

/-- How many positions from `start` on, as many as the run is long, were free or held one of its
qubits. A window that begins behind the chain is empty. -/
def overlap (start : Nat) (run : List QubitId) : Except Fault Nat := do
  let stop := min (← size limit (start + run.length)) chain.length
  let window := if start ≤ stop then (chain.drop start).take (stop - start) else []
  let shared := (window.filterMap id).filter (· ∈ run)
  size limit (shared.eraseDups.length + window.countP Option.isNone)

/-- All choices for the next step. -/
def candidates (remaining : List (List QubitId)) (unused cursor : Nat) :
    Except Fault (List Candidate) := do
  let choices ← remaining.zipIdx.mapM fun (run, index) =>
    (List.range (unused + 1)).mapM fun padding => do
      let start ← size limit (cursor + padding)
      return { index, run, padding, overlap := ← overlap limit chain start run }
  return choices.flatten

/-- The segments with the position of their first qubit, in the order they are placed. The first
argument is the number of segments to place. -/
def arrange : Nat → List (List QubitId) → Nat → Nat → Except Fault (List (List QubitId × Nat))
  | 0, _, _, _ => .ok []
  | count + 1, remaining, unused, cursor => do
    match Placement.choose? (← candidates limit chain remaining unused cursor) with
    | none => return []
    | some best =>
      let run ← item remaining best.index
      let remaining ← remove remaining best.index
      let start ← size limit (cursor + best.padding)
      let cursor ← size limit (start + run.length)
      let unused ← less unused (min best.padding unused)
      return (run, start) :: (← arrange count remaining unused cursor)

/-- The layout of the segments on a chain, close to the present layout. -/
def place (segments : Segments) (numQubits : Nat) (current : Layout Nat) :
    Except Fault (Layout Nat) := do
  let runs := segments.toPlace
  let placed ← arrange limit (current.toChain numQubits) runs.length runs
    (numQubits - segments.allocated.size) 0
  return Layout.ofPairs
    ((placed.flatMap fun (run, start) => run.zipIdx start).filter (·.2 < numQubits))

variable {limit} {chain} {remaining : List (List QubitId)} {unused cursor : Nat}

/-- No more positions agree than the chain has. -/
lemma overlap_le (chain : List (Option QubitId)) (start : Nat) (run : List QubitId) :
    Placement.overlap chain start run ≤ chain.length := by
  refine (Placement.agreeing_le_length _ run).trans ?_
  rw [List.length_take, List.length_drop]
  omega

/-- The machine counts the positions that agree if the window can be numbered. -/
lemma overlap_eq (fits : chain.length < limit) {start : Nat} (room : start + run.length < limit) :
    overlap limit chain start run = .ok (Placement.overlap chain start run) := by
  have window : (if start ≤ min (start + run.length) chain.length then
      (chain.drop start).take (min (start + run.length) chain.length - start) else [])
      = (chain.drop start).take run.length := by
    split
    · rw [List.take_eq_take_iff, List.length_drop]
      omega
    · next beyond =>
      rw [List.drop_eq_nil_of_le (by omega), List.take_nil]
  have counted : Placement.overlap chain start run < limit :=
    (overlap_le chain start run).trans_lt fits
  rw [overlap, size_of_lt room, Checked.ok_bind]
  simp only [window]
  rw [Nat.add_comm]
  exact size_of_lt counted

/-- The machine lists the same candidates if all their windows can be numbered. -/
lemma candidates_eq (fits : chain.length < limit)
    (room : cursor + unused + remaining.flatten.length < limit) :
    candidates limit chain remaining unused cursor
      = .ok (Placement.candidates chain remaining unused cursor) := by
  have rows : remaining.zipIdx.mapM (fun (run, index) =>
      (List.range (unused + 1)).mapM fun padding => do
        let start ← size limit (cursor + padding)
        return ({ index, run, padding, overlap := ← overlap limit chain start run } : Candidate))
      = .ok (remaining.zipIdx.map fun (run, index) => (List.range (unused + 1)).map fun padding =>
          { index, run, padding, overlap := Placement.overlap chain (cursor + padding) run }) := by
    refine Checked.mapM_eq_ok fun entry mem => ?_
    have length : entry.1.length ≤ remaining.flatten.length := by
      have inside : entry.1 ∈ remaining := List.fst_mem_of_mem_zipIdx mem
      exact (List.sublist_flatten_of_mem inside).length_le
    refine Checked.mapM_eq_ok fun padding memPadding => ?_
    have few : padding < unused + 1 := List.mem_range.mp memPadding
    rw [size_of_lt (by omega), Checked.ok_bind, overlap_eq fits (by omega)]
    rfl
  rw [candidates, rows, Checked.ok_bind, Placement.candidates, List.flatMap_def]
  rfl

/-- The machine arranges the segments alike if all windows can be numbered. -/
lemma arrange_eq (fits : chain.length < limit) {count : Nat} :
    ∀ {remaining : List (List QubitId)} {unused cursor : Nat},
      cursor + unused + remaining.flatten.length < limit →
      arrange limit chain count remaining unused cursor
        = .ok (Placement.arrange chain count remaining unused cursor) := by
  induction count with
  | zero => exact fun _ => rfl
  | succ count ih =>
    intro remaining unused cursor room
    rw [arrange, candidates_eq fits room, Checked.ok_bind, Placement.arrange]
    rcases chosen : Placement.choose? (Placement.candidates chain remaining unused cursor) with _ | best
    · rfl
    · obtain ⟨here, padding, _⟩ :=
        (Placement.mem_candidates_iff chain).mp (Placement.choose?_mem chosen)
      obtain ⟨lt, _⟩ := List.getElem?_eq_some_iff.mp here
      have total := (cons_eraseIdx_perm here).flatten.length_eq
      rw [List.flatten_cons, List.length_append] at total
      simp only
      rw [item_of_getElem? here, Checked.ok_bind, remove_of_lt lt, Checked.ok_bind,
        size_of_lt (by omega), Checked.ok_bind, size_of_lt (by omega), Checked.ok_bind,
        Nat.min_eq_left padding, less_of_le padding, Checked.ok_bind, ih (by omega)]
      rfl

/-- The machine places the segments alike if the positions and qubits can be counted. -/
lemma place_eq {segments : Segments} {numQubits : Nat} (current : Layout Nat)
    (room : numQubits + segments.toPlace.flatten.length < limit) :
    place limit segments numQubits current = .ok (segments.place numQubits current) := by
  have length : (current.toChain numQubits).length = numQubits := by
    simp [Layout.toChain]
  rw [place, arrange_eq (by omega) (by omega)]
  rfl

end Placement

end QubitRouting.Machine
