import QubitRouting.Proofs.Segment

/-!
# The neighbours that are recorded

The builder records which qubits it made neighbours. At every moment these are exactly the qubits that
stand side by side in a run, and on a ring the two ends of a run through all positions. Such a run holds
every qubit that has a position, so nothing can be joined to it any more.
-/

namespace QubitRouting.Segments

open scoped List

variable {run : List QubitId} {runs : List (List QubitId)} {a b q x y : QubitId}

/-- Two qubits are the two ends of a run. -/
def Ends (run : List QubitId) (x y : QubitId) : Prop :=
  run.head? = some x ∧ run.getLast? = some y ∨ run.head? = some y ∧ run.getLast? = some x

/-- The ends of a run are so in either order. -/
lemma Ends.symm (ends : Ends run x y) : Ends run y x := Or.symm ends

/-- The ends of a run are in it. -/
lemma Ends.mem (ends : Ends run x y) : x ∈ run := by
  rcases ends with ⟨first, _⟩ | ⟨_, last⟩
  · exact List.mem_of_head? first
  · exact List.mem_of_getLast? last

/-- Qubits side by side are in the run. -/
lemma Beside.mem (beside : Beside run x y) : x ∈ run := by
  rcases beside with infixed | infixed
  · exact infixed.subset (by simp)
  · exact infixed.subset (by simp)

/-- Standing side by side is mutual. -/
lemma Consecutive.symm (consecutive : Consecutive runs x y) : Consecutive runs y x := by
  obtain ⟨run, mem, beside⟩ := consecutive
  exact ⟨run, mem, beside.symm⟩

/-- Qubits side by side are in some run. -/
lemma Consecutive.mem (consecutive : Consecutive runs x y) : x ∈ runs.flatten := by
  obtain ⟨run, mem, beside⟩ := consecutive
  exact List.mem_flatten.mpr ⟨run, mem, beside.mem⟩

/-- A former run is as long as the piece it becomes. -/
lemma Piece.length_eq {old : List (List QubitId)} {other : List QubitId} (piece : Piece q old run)
    (mem : other ∈ old) : run.length = other.length := by
  cases piece with
  | fresh => cases mem
  | forward => rw [List.mem_singleton.mp mem]
  | backward => rw [List.mem_singleton.mp mem, List.length_reverse]

namespace Builder

variable {builder : Builder}

/-- Two qubits are the ends of a run through all positions of a ring. -/
def Wraps (builder : Builder) (x y : QubitId) : Prop :=
  builder.cyclic = true ∧ ∃ run ∈ builder.runs, run.length = builder.numQubits ∧ Ends run x y

/-- The ends of a run around the ring are in a run. -/
lemma Wraps.mem (wraps : builder.Wraps x y) : x ∈ builder.runs.flatten := by
  obtain ⟨_, run, mem, _, ends⟩ := wraps
  exact List.mem_flatten.mpr ⟨run, mem, ends.mem⟩

/-- The ends of a run around the ring are so in either order. -/
lemma Wraps.symm (wraps : builder.Wraps x y) : builder.Wraps y x := by
  obtain ⟨cyclic, run, mem, full, ends⟩ := wraps
  exact ⟨cyclic, run, mem, full, ends.symm⟩

/-- The neighbours recorded are those the runs call for. -/
def Exact (builder : Builder) : Prop :=
  ∀ x y, y ∈ builder.neighboursOf x ↔ Consecutive builder.runs x y ∨ builder.Wraps x y

/-- Neighbours that are recorded are mutual. -/
lemma Exact.symm (recorded : builder.Exact) (mem : y ∈ builder.neighboursOf x) :
    x ∈ builder.neighboursOf y := by
  rcases (recorded x y).mp mem with consecutive | wraps
  · exact (recorded y x).mpr (.inl consecutive.symm)
  · exact (recorded y x).mpr (.inr wraps.symm)

/-- At the start there are no neighbours, as there are no runs. -/
lemma exact_start (numQubits : Nat) (cyclic : Bool) (allocated : OrderedSet QubitId) :
    (start numQubits cyclic allocated).Exact := by
  intro x y
  rw [neighboursOf_start]
  constructor
  · intro mem
    exact absurd mem (OrderedSet.not_mem_empty y)
  · rintro (⟨_, mem, _⟩ | ⟨_, _, mem, _⟩)
    · cases mem
    · cases mem

/-- The qubits of a run can be counted off against those that have a position. -/
lemma Sound.subperm_run (sound : builder.Sound) (mem : run ∈ builder.runs) :
    run <+~ builder.allocated.toList :=
  (sound.nodup_run mem).subperm
    fun q inRun => sound.placed q (List.mem_flatten.mpr ⟨run, mem, inRun⟩)

/-- No run is longer than the chain. -/
lemma Sound.length_le (sound : builder.Sound) (mem : run ∈ builder.runs) :
    run.length ≤ builder.numQubits :=
  (sound.subperm_run mem).length_le.trans sound.room

/-- A run through all positions holds every qubit that has a position. -/
lemma Sound.mem_of_full (sound : builder.Sound) (mem : run ∈ builder.runs)
    (full : run.length = builder.numQubits) (placed : q ∈ builder.allocated) : q ∈ run := by
  have perm : run ~ builder.allocated.toList :=
    (sound.subperm_run mem).perm_of_length_le (sound.room.trans full.ge)
  exact perm.mem_iff.mpr placed

/-- Closing the ring makes the ends of a run through all positions neighbours, and no others. -/
lemma closeRing_neighboursOf (builder : Builder) (run : List QubitId) :
    y ∈ (builder.closeRing run).neighboursOf x ↔ y ∈ builder.neighboursOf x ∨
      builder.cyclic = true ∧ run.length = builder.numQubits ∧ Ends run x y := by
  rw [closeRing]
  split
  case h_1 first last closes head getLast =>
    rw [Bool.and_eq_true, beq_iff_eq] at closes
    rw [mem_neighboursOf_link, Ends, head, getLast]
    simp only [closes, Option.some.injEq, true_and, eq_comm (a := first), eq_comm (a := last)]
    tauto
  case h_2 stays =>
    refine (or_iff_left ?_).symm
    rintro ⟨cyclic, full, ends⟩
    obtain ⟨first, last, head, getLast⟩ :
        ∃ first last, run.head? = some first ∧ run.getLast? = some last := by
      rcases ends with ⟨head, getLast⟩ | ⟨head, getLast⟩
      · exact ⟨_, _, head, getLast⟩
      · exact ⟨_, _, head, getLast⟩
    exact stays first last (by simp [cyclic, full]) head getLast

/-- Closing the ring does not change whether there is one. -/
@[simp]
lemma closeRing_cyclic (builder : Builder) (run : List QubitId) :
    (builder.closeRing run).cyclic = builder.cyclic := by
  rw [closeRing]
  split <;> rfl

/-- Joining two runs leaves the runs through all positions alone: there is nothing to join them to. -/
lemma wraps_join {joined : List (List QubitId)} {grown : Builder} (how : Joined builder.runs a b run joined)
    (sound : grown.Sound) (runs_eq : grown.runs = joined) (numQubits_eq : grown.numQubits = builder.numQubits)
    (cyclic_eq : grown.cyclic = builder.cyclic) :
    grown.Wraps x y ↔ builder.Wraps x y ∨
      builder.cyclic = true ∧ run.length = builder.numQubits ∧ Ends run x y := by
  have inGrown : run ∈ grown.runs := runs_eq ▸ how.after.mem_iff.mpr List.mem_cons_self
  have length : how.left.length + how.right.length ≤ builder.numQubits := by
    rw [← List.length_append, ← how.run_perm.length_eq, ← numQubits_eq]
    exact sound.length_le inGrown
  have posLeft : 0 < how.left.length := List.length_pos_of_mem (List.mem_of_getLast? how.last)
  have posRight : 0 < how.right.length := List.length_pos_of_mem (List.mem_of_head? how.head)
  rw [Wraps, Wraps, runs_eq, numQubits_eq, cyclic_eq]
  constructor
  · rintro ⟨cyclic, other, mem, full, ends⟩
    rcases List.mem_cons.mp (how.after.mem_iff.mp mem) with rfl | mem
    · exact .inr ⟨cyclic, full, ends⟩
    · exact .inl ⟨cyclic, other, how.before.mem_iff.mpr (List.mem_append_right _ mem), full, ends⟩
  · rintro (⟨cyclic, other, mem, full, ends⟩ | ⟨cyclic, full, ends⟩)
    · refine ⟨cyclic, other, how.after.mem_iff.mpr (List.mem_cons_of_mem _ ?_), full, ends⟩
      rcases List.mem_append.mp (how.before.mem_iff.mp mem) with mem | mem
      · -- a run that was joined was not through all positions, as its new neighbour had one
        rcases List.mem_append.mp mem with mem | mem
        · have := how.pieceA.length_eq mem
          omega
        · have := how.pieceB.length_eq mem
          omega
      · exact mem
    · exact ⟨cyclic, run, how.after.mem_iff.mpr List.mem_cons_self, full, ends⟩

/-- Allocating a new qubit keeps the neighbours as the runs call for. -/
lemma Exact.allocate (recorded : builder.Exact) (sound : builder.Sound) (fresh : q ∉ builder.allocated) :
    (builder.allocate q).Exact := by
  rw [Builder.allocate]
  split
  · intro x y
    change _ ↔ Consecutive builder.runs x y ∨ builder.Wraps x y
    cases decEq q x with
    | isTrue same =>
      -- a qubit without a position is in no run
      subst same
      have inNone : q ∉ builder.runs.flatten := fun mem => fresh (sound.placed q mem)
      rw [neighboursOf, OrderedMap.find?_insert_self, Option.getD_some]
      constructor
      · intro mem
        exact absurd mem (OrderedSet.not_mem_empty y)
      · rintro (consecutive | wraps)
        · exact absurd consecutive.mem inNone
        · exact absurd wraps.mem inNone
    | isFalse other =>
      rw [neighboursOf, OrderedMap.find?_insert_of_ne other]
      exact recorded x y
  · exact recorded

/-- Making two qubits neighbours keeps the neighbours as the runs call for. -/
lemma Exact.addPair (recorded : builder.Exact) (sound : builder.Sound) (ne : a ≠ b) :
    (builder.addPair a b).Exact := by
  have soundNext := sound.addPair ne
  rcases builder.addPair_cases a b with same | gone | ⟨run, joined, join, _, _, _, _, eq⟩
  · rw [same]
    exact recorded
  · rw [gone]
    exact recorded
  · obtain ⟨how⟩ := joined_of_join? join
    rw [eq] at soundNext ⊢
    intro x y
    rw [closeRing_neighboursOf, mem_neighboursOf_link,
      wraps_join how soundNext (closeRing_runs _ _) (closeRing_numQubits _ _) (closeRing_cyclic _ _),
      closeRing_runs]
    change (y ∈ builder.neighboursOf x ∨ _) ∨ _ ↔ Consecutive joined x y ∨ _
    rw [recorded, how.consecutive_iff]
    change _ ∨ builder.cyclic = true ∧ run.length = builder.numQubits ∧ Ends run x y ↔ _
    tauto

/-- A command keeps the neighbours as the runs call for. -/
lemma Exact.step (recorded : builder.Exact) (sound : builder.Sound) {shape : Shape}
    (fresh : ∀ q ∈ shape.allocates?, q ∉ builder.allocated)
    (distinct : ∀ a b, shape = .pair a b → a ≠ b) : (builder.step shape).Exact := by
  cases shape with
  | allocate q => exact recorded.allocate sound (fresh q rfl)
  | deallocate q => exact recorded
  | single q => exact recorded
  | pair a b => exact recorded.addPair sound (distinct a b rfl)

/-- After a command, those that follow still allocate no qubit that holds a position. -/
lemma allocatesFresh_step {c : Buffered} {rest : List Buffered}
    (fresh : AllocatesFresh builder.allocated (c :: rest)) :
    AllocatesFresh (builder.step c.shape).allocated rest := by
  rw [step_allocated]
  split
  case h_1 q shape =>
    split
    · exact fresh.tail_insert shape
    · exact fresh.tail
  case h_2 => exact fresh.tail

/-- A command does not change whether the positions close into a ring. -/
@[simp]
lemma step_cyclic (builder : Builder) (shape : Shape) :
    (builder.step shape).cyclic = builder.cyclic := by
  cases shape with
  | allocate q =>
    rw [Builder.step, Builder.allocate]
    split <;> rfl
  | deallocate q => rfl
  | single q => rfl
  | pair a b =>
    rcases builder.addPair_cases a b with same | gone | ⟨run, joined, _, _, _, _, _, eq⟩
    · rw [Builder.step, same]
    · rw [Builder.step, gone]
      rfl
    · rw [Builder.step, eq, closeRing_cyclic]
      rfl

/-- Commands do not change whether the positions close into a ring. -/
@[simp]
lemma run_cyclic (builder : Builder) (commands : List Buffered) :
    (builder.run commands).cyclic = builder.cyclic := by
  induction commands generalizing builder with
  | nil => rfl
  | cons c rest ih =>
    rw [run_cons, ih]
    split
    · rfl
    · exact step_cyclic _ _

/-- The record stays exact over a pass. -/
lemma Exact.run_commands {commands : List Buffered} (recorded : builder.Exact) (sound : builder.Sound)
    (fresh : AllocatesFresh builder.allocated commands)
    (distinct : ∀ c ∈ commands, ∀ a b, c.shape = .pair a b → a ≠ b) : (builder.run commands).Exact := by
  induction commands generalizing builder with
  | nil => exact recorded
  | cons c rest ih =>
    have distinctHead := distinct c List.mem_cons_self
    have distinctRest := fun c mem => distinct c (List.mem_cons_of_mem _ mem)
    rw [run_cons]
    split
    · exact ih recorded sound fresh.tail distinctRest
    · apply ih (recorded.step sound fresh.head distinctHead) (sound.step (sound.loose fresh.head) distinctHead) _
        distinctRest
      exact allocatesFresh_step fresh

end Builder

end QubitRouting.Segments
