import QubitRouting.Proofs.Dispatch

/-!
# What a pass gets done

A pass over the buffer forwards the allocation of every qubit that has a position, for nothing makes
such a qubit inactive before it is allocated. So after the pass all qubits with positions are allocated.
A pass whose first command can run gets at least that command done.
-/

namespace QubitRouting

namespace Stream

variable {stream rest : List Buffered} {b : Buffered} {q : QubitId}

/-- A command that allocates a qubit puts it first. -/
lemma allocations_cons_of_allocate (shape : b.shape = .allocate q) :
    allocations (b :: rest) = q :: allocations rest :=
  List.filterMap_cons_some (Shape.allocates?_eq_some.mpr shape)

/-- A command that does not allocate adds no allocation. -/
lemma allocations_cons_of_not_allocate (other : ∀ q, b.shape ≠ .allocate q) :
    allocations (b :: rest) = allocations rest := by
  apply List.filterMap_cons_none
  cases allocates : b.shape.allocates? with
  | none => rfl
  | some q => exact absurd (Shape.allocates?_eq_some.mp allocates) (other q)

/-- A qubit that is allocated first is in use until it is released. -/
lemma AllocatesFirst.mem_live_iff (first : AllocatesFirst stream) :
    q ∈ live stream ↔ q ∈ allocations stream ∧ ∀ b ∈ stream, b.shape ≠ .deallocate q := by
  induction stream using List.reverseRecOn with
  | nil => exact ⟨fun mem => absurd mem (OrderedSet.not_mem_empty q), fun known => absurd known.1 List.not_mem_nil⟩
  | append_singleton stream b ih =>
    obtain ⟨before, _, apart⟩ := List.pairwise_append.mp first
    have ih := ih before
    rw [live_append_singleton, allocations_append, List.mem_append]
    simp only [List.forall_mem_append, List.forall_mem_singleton]
    obtain ⟨command, shape⟩ := b
    cases shape with
    | allocate r =>
      rw [use, OrderedSet.mem_insert, ih]
      constructor
      · rintro (rfl | ⟨mem, kept⟩)
        · -- nothing releases the qubit before this command allocates it
          refine ⟨.inr List.mem_cons_self, ?_, by simp⟩
          intro c mem shape
          refine apart c mem _ List.mem_cons_self q rfl ?_
          rw [shape]
          exact List.mem_singleton_self q
        · exact ⟨.inl mem, kept, by simp⟩
      · rintro ⟨mem | mem, kept, _⟩
        · exact .inr ⟨mem, kept⟩
        · exact .inl (List.mem_singleton.mp mem)
    | deallocate r =>
      rw [use, OrderedSet.mem_erase, ih]
      constructor
      · rintro ⟨⟨mem, kept⟩, ne⟩
        refine ⟨.inl mem, kept, ?_⟩
        rintro ⟨⟩
        exact ne rfl
      · rintro ⟨mem | mem, kept, ne⟩
        · exact ⟨⟨mem, kept⟩, fun same => ne (same ▸ rfl)⟩
        · cases mem
    | single r | pair r s =>
      -- neither allocates nor releases
      rw [use, ih]
      constructor
      · rintro ⟨mem, kept⟩
        exact ⟨.inl mem, kept, by simp⟩
      · rintro ⟨mem | mem, kept, _⟩
        · exact ⟨mem, kept⟩
        · cases mem

/-- A qubit that a well-formed stream touches is allocated by it and was not released before. -/
lemma WellFormed.unreleased (wf : WellFormed (before ++ b :: rest)) (mem : q ∈ b.shape.qubits) :
    q ∈ allocations (before ++ b :: rest) ∧ ∀ c ∈ before, c.shape ≠ .deallocate q := by
  have first := wf.allocatesFirst
  have firstBefore : AllocatesFirst before := first.sublist (List.sublist_append_left _ _)
  have admissible := wf.admissible
  rw [Admissible] at admissible
  split at admissible
  case h_1 r shape =>
    rw [shape] at mem
    obtain rfl := List.mem_singleton.mp mem
    refine ⟨mem_allocations.mpr ⟨b, by simp, shape⟩, ?_⟩
    -- nothing touches a qubit before it is allocated
    intro c memC released
    have apart := (List.pairwise_append.mp first).2.2 c memC b List.mem_cons_self q
      (Shape.allocates?_eq_some.mpr shape)
    exact apart (released ▸ List.mem_singleton_self q)
  case h_2 =>
    obtain ⟨allocated, unreleased⟩ := firstBefore.mem_live_iff.mp (admissible q mem)
    rw [allocations_append]
    exact ⟨List.mem_append_left _ allocated, unreleased⟩

/-- In a well-formed stream the qubits that are allocated are those that commands act on. -/
lemma WellFormed.mem_allocations_iff (wf : WellFormed stream) :
    q ∈ allocations stream ↔ q ∈ stream.flatMap (·.shape.qubits) := by
  constructor
  · intro mem
    obtain ⟨b, mem, shape⟩ := mem_allocations.mp mem
    exact List.mem_flatMap.mpr ⟨b, mem, shape ▸ List.mem_singleton_self q⟩
  · intro mem
    obtain ⟨b, mem, touches⟩ := List.mem_flatMap.mp mem
    obtain ⟨before, rest, rfl⟩ := List.append_of_mem mem
    exact (wf.unreleased touches).1

end Stream

namespace Dispatch

variable {router : Router} {state next final : State} {b : Buffered} {forwarded : Option Command}
  {buffer rest : List Buffered} {handled : List Handled} {q : QubitId}

/-- Qubits with a position that are still to be allocated are active. -/
def Awaits (state : State) (buffer : List Buffered) : Prop :=
  ∀ q ∈ Stream.allocations buffer, ∀ p, state.layout.position? q = some p → q ∈ state.active

/-- A command does not act on a qubit that is allocated only later. -/
lemma not_mem_of_allocates (first : Stream.AllocatesFirst (b :: rest))
    (mem : q ∈ Stream.allocations rest) : q ∉ b.shape.qubits := by
  obtain ⟨c, inRest, shape⟩ := Stream.mem_allocations.mp mem
  exact (List.pairwise_cons.mp first).1 c inRest q (Shape.allocates?_eq_some.mpr shape)

/-- A command does not move qubits that are allocated after it. -/
lemma Step.position?_eq (step : Step router state b forwarded next)
    (first : Stream.AllocatesFirst (b :: rest)) (mem : q ∈ Stream.allocations rest) :
    next.layout.position? q = state.layout.position? q := by
  have absent := not_mem_of_allocates first mem
  rcases step.layout_eq with same | ⟨r, shape, _, erased⟩
  · rw [same]
  · rw [erased, Layout.position?_erase_of_ne]
    rintro rfl
    rw [shape] at absent
    exact absent (List.mem_singleton_self r)

/-- After a step, qubits with a position that are still to be allocated are active. -/
lemma Step.awaits (step : Step router state b forwarded next) (first : Stream.AllocatesFirst (b :: rest))
    (awaits : Awaits state (b :: rest)) : Awaits next rest := by
  intro q mem p placed
  rw [step.position?_eq first mem] at placed
  have absent := not_mem_of_allocates first mem
  have later : q ∈ Stream.allocations (b :: rest) := by
    obtain ⟨c, inRest, shape⟩ := Stream.mem_allocations.mp mem
    exact Stream.mem_allocations.mpr ⟨c, List.mem_cons_of_mem b inRest, shape⟩
  have active := awaits q later p placed
  cases step with
  | allocate => exact active
  | @deallocate r _ shape =>
    refine OrderedSet.mem_erase.mpr ⟨active, ?_⟩
    rintro rfl
    rw [shape] at absent
    exact absent (List.mem_singleton_self q)
  | single => exact active
  | pair => exact active
  | stays _ _ _ keeps => exact keeps q active absent

/-- An allocation is forwarded exactly if its qubit has a position. -/
lemma Step.isSome_iff (step : Step router state b forwarded next) (shape : b.shape = .allocate q) :
    forwarded.isSome = (state.layout.position? q).isSome := by
  have runnable := step.isSome_of_runnable
  rw [shape] at runnable
  cases step with
  | allocate other placed =>
    cases other.symm.trans shape
    rw [placed]
    rfl
  | deallocate other => cases other.symm.trans shape
  | single other => cases other.symm.trans shape
  | pair other => cases other.symm.trans shape
  | stays =>
    cases placed : state.layout.position? q with
    | none => rfl
    | some p => exact absurd (runnable ⟨p, placed⟩) Bool.false_ne_true

/-- A pass forwards the allocations of the qubits with positions, and keeps the others. -/
lemma Pass.allocations (pass : Pass router state buffer handled final)
    (first : Stream.AllocatesFirst buffer) (awaits : Awaits state buffer) :
    Stream.allocations (sent handled)
        = (Stream.allocations buffer).filter (fun q => (state.layout.position? q).isSome) ∧
      Stream.allocations (kept handled)
        = (Stream.allocations buffer).filter (fun q => !(state.layout.position? q).isSome) := by
  induction pass with
  | nil => exact ⟨rfl, rfl⟩
  | @cons state next final b forwarded rest handled step pass ih =>
    obtain ⟨sent_rest, kept_rest⟩ := ih (List.pairwise_cons.mp first).2 (step.awaits first awaits)
    -- the step moves no qubit that is still to be allocated, so the rest is filtered alike
    have same {q : QubitId} (mem : q ∈ Stream.allocations rest) := step.position?_eq first mem
    rw [List.filter_congr fun q mem => by rw [same mem]] at sent_rest kept_rest
    by_cases allocates : ∃ q, b.shape = .allocate q
    · obtain ⟨q, shape⟩ := allocates
      have forwards := step.isSome_iff shape
      rw [Stream.allocations_cons_of_allocate shape]
      cases forwarded with
      | some command =>
        have placed : (state.layout.position? q).isSome = true := forwards.symm
        simp only [sent_cons_some, kept_cons_some, Stream.allocations_cons_of_allocate shape,
          List.filter_cons, placed, sent_rest, kept_rest, if_true, Bool.not_true, Bool.false_eq_true,
          if_false, and_self]
      | none =>
        have unplaced : (state.layout.position? q).isSome = false := forwards.symm
        simp only [sent_cons_none, kept_cons_none, Stream.allocations_cons_of_allocate shape,
          List.filter_cons, unplaced, sent_rest, kept_rest, if_true, Bool.not_false, Bool.false_eq_true,
          if_false, and_self]
    · have other := not_exists.mp allocates
      rw [Stream.allocations_cons_of_not_allocate other]
      cases forwarded with
      | some command =>
        rw [sent_cons_some, kept_cons_some, Stream.allocations_cons_of_not_allocate other]
        exact ⟨sent_rest, kept_rest⟩
      | none =>
        rw [sent_cons_none, kept_cons_none, Stream.allocations_cons_of_not_allocate other]
        exact ⟨sent_rest, kept_rest⟩
  | @idle state rest inactive =>
    have unplaced : ∀ q ∈ Stream.allocations rest, (state.layout.position? q).isSome = false := by
      intro q mem
      cases placed : state.layout.position? q with
      | none => rfl
      | some p => exact absurd (awaits q mem p placed) (inactive q)
    rw [sent_idle, kept_idle]
    constructor
    · symm
      exact List.filter_eq_nil_iff.mpr fun q mem => by simp [unplaced q mem]
    · symm
      exact List.filter_eq_self.mpr fun q mem => by simp [unplaced q mem]

/-- After a pass all qubits with positions are allocated. -/
lemma Pass.settled (pass : Pass router state buffer handled final)
    (first : Stream.AllocatesFirst buffer) (awaits : Awaits state buffer)
    (expected : ∀ q p, state.layout.position? q = some p →
      q ∈ state.allocated ∨ q ∈ Stream.allocations buffer) :
    ∀ q p, final.layout.position? q = some p → q ∈ final.allocated := by
  induction pass with
  | nil =>
    intro q p placed
    rcases expected q p placed with mem | mem
    · exact mem
    · cases mem
  | @cons state next final b forwarded rest handled step pass ih =>
    refine ih (List.pairwise_cons.mp first).2 (step.awaits first awaits) ?_
    intro q p placed
    cases step with
    | allocate shape =>
      rcases expected q p placed with mem | mem
      · exact .inl (OrderedSet.mem_insert.mpr (.inr mem))
      · rw [Stream.allocations_cons_of_allocate shape] at mem
        rcases List.mem_cons.mp mem with rfl | mem
        · exact .inl (OrderedSet.mem_insert.mpr (.inl rfl))
        · exact .inr mem
    | @deallocate r _ shape =>
      have ne : r ≠ q := by
        rintro rfl
        rw [Layout.position?_erase_self] at placed
        cases placed
      rw [Layout.position?_erase_of_ne ne] at placed
      rcases expected q p placed with mem | mem
      · exact .inl (OrderedSet.mem_erase.mpr ⟨mem, ne.symm⟩)
      · rw [Stream.allocations_cons_of_not_allocate (by rw [shape]; nofun)] at mem
        exact .inr mem
    | single shape | pair shape =>
      rw [Stream.allocations_cons_of_not_allocate (by rw [shape]; nofun)] at expected
      exact expected q p placed
    | stays notRunnable =>
      rcases expected q p placed with mem | mem
      · exact .inl mem
      · -- an allocation only stays if its qubit has no position
        obtain ⟨c, mem, shape⟩ := Stream.mem_allocations.mp mem
        rcases List.mem_cons.mp mem with rfl | mem
        · rw [shape] at notRunnable
          exact absurd ⟨p, placed⟩ notRunnable
        · exact .inr (Stream.mem_allocations.mpr ⟨c, mem, shape⟩)
  | @idle state rest inactive =>
    intro q p placed
    rcases expected q p placed with mem | mem
    · exact mem
    · exact absurd (awaits q mem p placed) (inactive q)

/-- A pass whose first command can run gets it done. -/
lemma Pass.length_kept (pass : Pass router state (b :: rest) handled final)
    (runnable : Runnable router state b.shape) (active : q ∈ state.active) :
    (kept handled).length ≤ rest.length := by
  cases pass with
  | @cons _ _ _ _ forwarded _ _ step pass =>
    have forwards := step.isSome_of_runnable runnable
    cases forwarded with
    | none => cases forwards
    | some command =>
      rw [kept_cons_some]
      exact pass.kept_sublist.length_le
  | idle inactive => exact absurd active (inactive q)

end Dispatch

end QubitRouting
