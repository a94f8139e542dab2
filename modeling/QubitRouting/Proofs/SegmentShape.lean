import QubitRouting.Proofs.Command
import QubitRouting.Proofs.Interaction

/-!
# The shape of the segments

A pass over any classified commands that allocate fresh qubits gives disjoint runs of two qubits or more. Two
qubits are neighbours in a run only if a command acts on both, the neighbours recorded are those in the runs
and the two ends of a run around the ring, and nobody has more than two of them: around the ring, the
neighbours of a qubit are one step ahead and one step back.
-/

namespace QubitRouting.Segments

open QubitRouting.Stream (Meets)

variable {run other : List QubitId} {runs : List (List QubitId)} {q x y : QubitId}

/-- A qubit is in one run only. -/
lemma eq_of_mem_of_mem (nodup : runs.flatten.Nodup) (memRun : run ∈ runs) (memOther : other ∈ runs)
    (inRun : q ∈ run) (inOther : q ∈ other) : run = other := by
  by_contra ne
  have symm : Std.Symm (List.Disjoint (α := QubitId)) := ⟨fun _ _ => List.Disjoint.symm⟩
  exact (List.nodup_flatten.mp nodup).2.forall memRun memOther ne inRun inOther

namespace Builder

variable {builder : Builder}

/-- Nobody has more than two neighbours, as all of them are one step away along its run or around the ring. -/
lemma Sound.size_neighboursOf_le (sound : builder.Sound) (recorded : builder.Exact) (q : QubitId) :
    (builder.neighboursOf q).size ≤ 2 := by
  by_cases inRuns : q ∈ builder.runs.flatten
  · obtain ⟨run, memRun, inRun⟩ := List.mem_flatten.mp inRuns
    have coords : Coordinates builder.numQubits
        (fun x y => Beside run x y ∨ run.length = builder.numQubits ∧ Ends run x y)
        fun q => (run.idxOf q : ZMod builder.numQubits) := by
      refine coordinates_idxOf (sound.nodup_run memRun) (.inr (sound.length_le memRun)) ?_ id
      exact fun meets => meets.imp Beside.symm (And.imp_right Ends.symm)
    apply coords.size_le_two
    intro y linked
    rcases (recorded q y).mp linked with ⟨other, memOther, beside⟩ | ⟨_, other, memOther, full, ends⟩
    · obtain rfl := eq_of_mem_of_mem sound.nodup memRun memOther inRun beside.mem
      exact .inl beside
    · obtain rfl := eq_of_mem_of_mem sound.nodup memRun memOther inRun ends.mem
      exact .inr ⟨full, ends⟩
  · have alone : builder.neighboursOf q = ∅ := by
      apply OrderedSet.eq_empty_of_forall_not_mem
      intro y linked
      rcases (recorded q y).mp linked with consecutive | wraps
      · exact inRuns consecutive.mem
      · exact inRuns wraps.mem
    rw [alone]
    exact Nat.zero_le 2

/-- Only a command on two qubits brings them side by side. -/
lemma consecutive_of_step {shape : Shape} (consecutive : Consecutive (builder.step shape).runs x y) :
    Consecutive builder.runs x y ∨ shape = .pair x y ∨ shape = .pair y x := by
  cases shape with
  | allocate q =>
    left
    rw [Builder.step, Builder.allocate] at consecutive
    split at consecutive
    · exact consecutive
    · exact consecutive
  | deallocate q => exact .inl consecutive
  | single q => exact .inl consecutive
  | pair a b =>
    rw [Builder.step] at consecutive
    rcases builder.addPair_cases a b with same | gone | ⟨run, joined, join, _, _, _, _, eq⟩
    · rw [same] at consecutive
      exact .inl consecutive
    · rw [gone] at consecutive
      exact .inl consecutive
    · obtain ⟨how⟩ := joined_of_join? join
      rw [eq, closeRing_runs] at consecutive
      rcases how.consecutive_iff.mp consecutive with former | ⟨rfl, rfl⟩ | ⟨rfl, rfl⟩
      · exact .inl former
      · exact .inr (.inl rfl)
      · exact .inr (.inr rfl)

/-- Qubits that end up side by side were so before the pass, or some command acts on both. -/
lemma meets_of_run {commands : List Buffered} (consecutive : Consecutive (builder.run commands).runs x y) :
    Consecutive builder.runs x y ∨ Meets commands x y := by
  induction commands using List.reverseRecOn with
  | nil => exact .inl consecutive
  | append_singleton before c ih =>
    rw [Stream.meets_concat]
    rw [run_concat] at consecutive
    split at consecutive
    case isTrue => exact (ih consecutive).imp_right .inl
    case isFalse =>
      rcases consecutive_of_step consecutive with former | shape
      · exact (ih former).imp_right .inl
      · exact .inr (.inr shape)

end Builder

/-- The segments are shaped by the commands: disjoint runs without repetitions that agree with the neighbours
given to each qubit, on a chain or ring of so many positions. -/
structure ShapedBy (segments : Segments) (neighboursOf : QubitId → OrderedSet QubitId) (numQubits : Nat)
    (cyclic : Bool) (commands : List Buffered) : Prop where
  disjoint : segments.runs.Pairwise List.Disjoint
  nodup : ∀ run ∈ segments.runs, run.Nodup
  long : ∀ run ∈ segments.runs, 2 ≤ run.length
  placed : ∀ run ∈ segments.runs, ∀ q ∈ run, q ∈ segments.allocated
  /-- Neighbours stand side by side in a run, or are the two ends of a run around the ring. -/
  neighbours_iff : ∀ x y, y ∈ neighboursOf x ↔ Consecutive segments.runs x y ∨
    cyclic = true ∧ ∃ run ∈ segments.runs, run.length = numQubits ∧ Ends run x y
  meets : ∀ x y, Consecutive segments.runs x y → Meets commands x y
  degree : ∀ q, (neighboursOf q).size ≤ 2

/-- A pass over classified commands that allocate fresh qubits gives positions to those allocated first, as
long as there are positions, and its segments are shaped by the commands. -/
theorem build_shaped {numQubits : Nat} (cyclic : Bool) {allocated : OrderedSet QubitId}
    {commands : List Buffered} (room : allocated.size ≤ numQubits)
    (classified : ∀ c ∈ commands, c.Classified) (fresh : AllocatesFresh allocated commands) :
    (build numQubits cyclic allocated commands).allocated =
        allocated.insertAll ((Stream.allocations commands).take (numQubits - allocated.size)) ∧
      ShapedBy (build numQubits cyclic allocated commands)
        ((Builder.start numQubits cyclic allocated).run commands).neighboursOf numQubits cyclic commands := by
  have distinct : ∀ c ∈ commands, ∀ a b, c.shape = .pair a b → a ≠ b :=
    fun c mem _ _ shape => (classified c mem).distinct shape
  have start := Builder.sound_start cyclic room
  have sound := (start.run_commands fresh distinct).1
  have recorded := (Builder.exact_start numQubits cyclic allocated).run_commands start fresh distinct
  obtain ⟨nodup, disjoint⟩ := List.nodup_flatten.mp sound.nodup
  constructor
  · apply OrderedSet.ext_mem
    intro q
    rw [mem_build_allocated room fresh distinct, OrderedSet.mem_insertAll]
  · refine ⟨disjoint, nodup, sound.long, ?_, ?_, ?_, sound.size_neighboursOf_le recorded⟩
    · intro run mem q inRun
      exact sound.placed q (List.mem_flatten.mpr ⟨run, mem, inRun⟩)
    · intro x y
      have iff := recorded x y
      rwa [Builder.Wraps, run_numQubits, Builder.run_cyclic] at iff
    · intro x y consecutive
      rcases Builder.meets_of_run consecutive with ⟨_, mem, _⟩ | met
      · cases mem
      · exact met

/-- Four qubits on a ring of four, and a fifth for which there is no room. Two runs become one around the ring,
whose ends are thereby neighbours too; after that no qubit has a free side. -/
theorem build_shaped_around_ring :
    let allocated : OrderedSet QubitId := OrderedSet.ofList [⟨7⟩]
    let commands : List Buffered := [⟨.allocate ⟨1⟩, .allocate ⟨1⟩⟩, ⟨.allocate ⟨2⟩, .allocate ⟨2⟩⟩,
      ⟨.gate .cx [⟨1⟩, ⟨2⟩], .pair ⟨1⟩ ⟨2⟩⟩, ⟨.allocate ⟨3⟩, .allocate ⟨3⟩⟩, ⟨.allocate ⟨5⟩, .allocate ⟨5⟩⟩,
      ⟨.gate .cx [⟨7⟩, ⟨3⟩], .pair ⟨7⟩ ⟨3⟩⟩, ⟨.gate .cx [⟨2⟩, ⟨7⟩], .pair ⟨2⟩ ⟨7⟩⟩,
      ⟨.gate .cx [⟨1⟩, ⟨7⟩], .pair ⟨1⟩ ⟨7⟩⟩]
    let builder := (Builder.start 4 true allocated).run commands
    (builder.neighboursOf ⟨1⟩).contains ⟨3⟩ = true ∧ (builder.neighboursOf ⟨1⟩).contains ⟨7⟩ = false ∧
      (build 4 true allocated commands).allocated = allocated.insertAll [⟨1⟩, ⟨2⟩, ⟨3⟩] ∧
      ShapedBy (build 4 true allocated commands) builder.neighboursOf 4 true commands := by
  intro allocated commands builder
  have classified : ∀ c ∈ commands, c.Classified := by
    simp only [commands, List.forall_mem_cons]
    exact ⟨rfl, rfl, rfl, rfl, rfl, rfl, rfl, rfl, List.forall_mem_nil _⟩
  have fresh : AllocatesFresh allocated commands := by
    refine ⟨by decide, ?_⟩
    intro q mem
    rw [← OrderedSet.contains_eq_false_iff]
    revert q
    decide
  have room : allocated.size ≤ 4 := by decide
  have shaped := build_shaped true room classified fresh
  exact ⟨by decide, by decide, shaped.1, shaped.2⟩

end QubitRouting.Segments
