import QubitRouting.Proofs.Command
import QubitRouting.Proofs.Interaction
import QubitRouting.Proofs.Placement

/-!
# Allocating a qubit again

A released qubit stays in its run until the pass ends. If it is allocated again while there is a position
left, its neighbours are forgotten but its run is not: it counts as free on both sides, and may be taken into
a second run when it stands inside the first. Without such an allocation every qubit is in at most one run,
and then every qubit that needs a position gets one.
-/

namespace QubitRouting.Segments

variable {runs joined : List (List QubitId)} {run : List QubitId} {a b q : QubitId}

/-- Joining never leaves the runs as they are. -/
lemma Joined.ne (how : Joined runs a b run joined) : joined ≠ runs := by
  rintro rfl
  have after := how.after.length_eq
  have before := how.before.length_eq
  have afterFlat := how.flatten_perm.length_eq
  have beforeFlat := how.before.flatten.length_eq
  obtain ⟨_, _, _, _, _, pieceA, pieceB, _⟩ := how
  -- two runs become one, or one run gets longer, or there is one more
  cases pieceA <;> cases pieceB <;> simp at after before afterFlat beforeFlat <;> omega

namespace Builder

variable {builder : Builder} {commands : List Buffered} {c : Buffered}

/-- Whenever a command changes the runs, neither of its qubits is inside one. -/
def GrowsAtEnds (builder : Builder) (commands : List Buffered) : Prop :=
  ∀ before c after, commands = before ++ c :: after →
    (builder.run (before ++ [c])).runs ≠ (builder.run before).runs →
    ∀ q ∈ c.shape.qubits, ¬Inside (builder.run before).runs q

/-- Whenever a qubit in a run is allocated, no position is left for it. -/
def StaysLoose (builder : Builder) (commands : List Buffered) : Prop :=
  ∀ before c after, commands = before ++ c :: after → (builder.run before).Loose c.shape

/-- One more command lets runs grow at their ends only if those before it do, and it does so too. -/
lemma growsAtEnds_concat :
    builder.GrowsAtEnds (commands ++ [c]) ↔ builder.GrowsAtEnds commands ∧
      ((builder.run (commands ++ [c])).runs ≠ (builder.run commands).runs →
        ∀ q ∈ c.shape.qubits, ¬Inside (builder.run commands).runs q) :=
  forall_split_concat (P := fun before c => (builder.run (before ++ [c])).runs ≠ (builder.run before).runs →
    ∀ q ∈ c.shape.qubits, ¬Inside (builder.run before).runs q)

/-- One more command leaves qubits loose if those before it do, and it does so too. -/
lemma staysLoose_concat :
    builder.StaysLoose (commands ++ [c]) ↔
      builder.StaysLoose commands ∧ (builder.run commands).Loose c.shape :=
  forall_split_concat (P := fun before c => (builder.run before).Loose c.shape)

/-- A command keeps every qubit in at most one run exactly if it takes none from inside a run. -/
lemma nodup_step_iff {shape : Shape} (distinct : ∀ a b, shape = .pair a b → a ≠ b) :
    (builder.step shape).runs.flatten.Nodup ↔ builder.runs.flatten.Nodup ∧
      ((builder.step shape).runs ≠ builder.runs → ∀ q ∈ shape.qubits, ¬Inside builder.runs q) := by
  have still (same : (builder.step shape).runs = builder.runs) :
      (builder.step shape).runs.flatten.Nodup ↔ builder.runs.flatten.Nodup ∧
        ((builder.step shape).runs ≠ builder.runs → ∀ q ∈ shape.qubits, ¬Inside builder.runs q) := by
    rw [same]
    exact (and_iff_left fun changed => absurd rfl changed).symm
  cases shape with
  | allocate q =>
    apply still
    rw [Builder.step, Builder.allocate]
    split <;> rfl
  | deallocate q => exact still rfl
  | single q => exact still rfl
  | pair a b =>
    rcases builder.addPair_cases a b with same | gone | ⟨run, joined, join, _, _, _, _, eq⟩
    · exact still (by rw [Builder.step, same])
    · exact still (by rw [Builder.step, gone]; rfl)
    · obtain ⟨how⟩ := joined_of_join? join
      have grown : (builder.step (.pair a b)).runs = joined := by
        rw [Builder.step, eq, closeRing_runs]
        rfl
      rw [grown, how.nodup_iff (distinct a b rfl)]
      simp [how.ne, Shape.qubits]

/-- Every qubit is in at most one run exactly if no run ever took one from inside another. -/
lemma nodup_run_iff (distinct : ∀ c ∈ commands, ∀ a b, c.shape = .pair a b → a ≠ b) :
    (builder.run commands).runs.flatten.Nodup ↔
      builder.runs.flatten.Nodup ∧ builder.GrowsAtEnds commands := by
  induction commands using List.reverseRecOn with
  | nil =>
    refine (and_iff_left ?_).symm
    rintro before c after nothing
    simp at nothing
  | append_singleton commands c ih =>
    obtain ⟨former, last⟩ := List.forall_mem_append.mp distinct
    rw [growsAtEnds_concat, ← and_assoc, ← ih former, run_concat]
    split
    · exact (and_iff_left fun changed => absurd rfl changed).symm
    · exact nodup_step_iff (last c (List.mem_singleton_self c))

/-- A pass keeps what holds between any two commands. -/
lemma Positioned.run_commands (positioned : builder.Positioned) (commands : List Buffered) :
    (builder.run commands).Positioned := by
  induction commands using List.reverseRecOn with
  | nil => exact positioned
  | append_singleton commands c ih =>
    rw [run_concat]
    split
    · exact ih
    · exact ih.step c.shape

/-- The builder stays sound as long as no qubit in a run gets a position anew. -/
lemma Sound.run_loose (sound : builder.Sound) (loose : builder.StaysLoose commands)
    (distinct : ∀ c ∈ commands, ∀ a b, c.shape = .pair a b → a ≠ b) : (builder.run commands).Sound := by
  induction commands using List.reverseRecOn with
  | nil => exact sound
  | append_singleton commands c ih =>
    obtain ⟨looseFormer, looseLast⟩ := staysLoose_concat.mp loose
    obtain ⟨former, last⟩ := List.forall_mem_append.mp distinct
    rw [run_concat]
    split
    · exact ih looseFormer former
    · exact (ih looseFormer former).step looseLast (last c (List.mem_singleton_self c))

/-- Where all positions are taken, no allocation counts. -/
lemma run_allocated_of_full (full : builder.numQubits ≤ builder.allocated.size) (commands : List Buffered) :
    (builder.run commands).allocated = builder.allocated := by
  induction commands using List.reverseRecOn with
  | nil => rfl
  | append_singleton commands c ih =>
    rw [run_concat]
    split
    · exact ih
    · rw [step_allocated, ih, run_numQubits]
      split
      · exact if_neg (Nat.not_lt.mpr full)
      · rfl

/-- Once no position is left, no allocation can disturb a run. -/
lemma staysLoose_of_full (full : builder.numQubits ≤ builder.allocated.size) (commands : List Buffered) :
    builder.StaysLoose commands := by
  intro before c after _ q _ free
  rw [run_allocated_of_full full, run_numQubits] at free
  exact absurd full (Nat.not_le.mpr free)

end Builder

/-- A pass over any classified commands puts every qubit into at most one run exactly if a run only ever
grows by qubits that are not inside another. It does so if no qubit in a run is allocated again while there
is a position left. The qubits that get a position are then those that need one, whatever the present
layout. -/
theorem build_nodup_iff {numQubits : Nat} (cyclic : Bool) {allocated : OrderedSet QubitId}
    {commands : List Buffered} (room : allocated.size ≤ numQubits)
    (classified : ∀ c ∈ commands, c.Classified) :
    let start := Builder.start numQubits cyclic allocated
    let segments := build numQubits cyclic allocated commands
    (segments.runs.flatten.Nodup ↔ start.GrowsAtEnds commands) ∧
      (start.StaysLoose commands → segments.runs.flatten.Nodup) ∧
      (segments.runs.flatten.Nodup → ∀ current q,
        (∃ p, (segments.place numQubits current).position? q = some p) ↔ q ∈ segments.allocated) := by
  intro start segments
  have distinct : ∀ c ∈ commands, ∀ a b, c.shape = .pair a b → a ≠ b :=
    fun c mem _ _ shape => (classified c mem).distinct shape
  refine ⟨?_, ?_, ?_⟩
  · exact (Builder.nodup_run_iff distinct).trans (and_iff_right List.nodup_nil)
  · intro loose
    exact ((Builder.sound_start cyclic room).run_loose loose distinct).nodup
  · intro nodup current q
    have positioned := (Builder.positioned_start cyclic room).run_commands commands
    have packable : segments.Packable numQubits := by
      refine ⟨?_, nodup, positioned.placed⟩
      have := positioned.room
      rwa [run_numQubits] at this
    exact packable.place_iff current

/-- On a chain whose positions are all taken, a qubit inside a run is released and allocated again. The
allocation does not count, and the qubit is not taken into a second run. -/
theorem build_nodup_iff_full_chain :
    let allocated : OrderedSet QubitId := .ofList [⟨0⟩, ⟨1⟩, ⟨2⟩, ⟨3⟩]
    let commands : List Buffered := [⟨.gate .cx [⟨0⟩, ⟨1⟩], .pair ⟨0⟩ ⟨1⟩⟩,
      ⟨.gate .cx [⟨1⟩, ⟨2⟩], .pair ⟨1⟩ ⟨2⟩⟩, ⟨.deallocate ⟨1⟩, .deallocate ⟨1⟩⟩,
      ⟨.allocate ⟨1⟩, .allocate ⟨1⟩⟩, ⟨.gate .cx [⟨1⟩, ⟨3⟩], .pair ⟨1⟩ ⟨3⟩⟩]
    let start := Builder.start 4 false allocated
    let segments := build 4 false allocated commands
    (∀ c ∈ commands, c.Classified) ∧ segments.runs = [[⟨0⟩, ⟨1⟩, ⟨2⟩]] ∧
      start.StaysLoose commands ∧ start.GrowsAtEnds commands ∧
      ∀ current, ∃ p, (segments.place 4 current).position? ⟨3⟩ = some p := by
  intro allocated commands start segments
  have classified : ∀ c ∈ commands, c.Classified := by
    simp only [commands, List.forall_mem_cons]
    exact ⟨rfl, rfl, rfl, rfl, rfl, List.forall_mem_nil _⟩
  have loose : start.StaysLoose commands := Builder.staysLoose_of_full (by decide) commands
  obtain ⟨iff, nodup, placed⟩ := build_nodup_iff false (by decide : allocated.size ≤ 4) classified
  exact ⟨classified, by decide, loose, iff.mp (nodup loose),
    fun current => (placed (nodup loose) current ⟨3⟩).mpr (OrderedSet.contains_iff.mp (by decide))⟩

/-- With a position left, the same commands take the qubit into a second run while it is inside the first.
There are then too many seats to fill, and another qubit gets no position. -/
theorem build_reallocated :
    let allocated : OrderedSet QubitId := .ofList [⟨0⟩, ⟨1⟩, ⟨2⟩, ⟨3⟩]
    let commands : List Command := [.gate .cx [⟨0⟩, ⟨1⟩], .gate .cx [⟨1⟩, ⟨2⟩], .deallocate ⟨1⟩,
      .allocate ⟨1⟩, .gate .cx [⟨1⟩, ⟨3⟩]]
    let current : Layout Nat := .ofPairs [(⟨3⟩, 0), (⟨0⟩, 1), (⟨1⟩, 2), (⟨2⟩, 3)]
    ∃ buffer, commands.mapM Buffered.classify = .ok buffer ∧
      (build 5 false allocated buffer).runs = [[⟨0⟩, ⟨1⟩, ⟨2⟩], [⟨1⟩, ⟨3⟩]] ∧
      ¬(build 5 false allocated buffer).runs.flatten.Nodup ∧
      (build 5 false allocated buffer).allocated.contains ⟨3⟩ = true ∧
      ((build 5 false allocated buffer).place 5 current).position? ⟨3⟩ = none := by
  refine ⟨_, rfl, by decide, by decide, by decide, by decide⟩

end QubitRouting.Segments
