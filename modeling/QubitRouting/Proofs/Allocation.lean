import QubitRouting.Proofs.Order

/-!
# The mapper knows which qubits are in use

If the commands taken in form a well-formed stream, then every command is forwarded when its qubits are
in use, or not in use yet if it allocates one. The mapper's set of allocated qubits is the set of qubits
in use after the commands forwarded so far, and all of them have positions.
-/

namespace QubitRouting

open scoped List

namespace Stream

/-- Whether a command finds its qubits as it needs them. -/
def Usable (live : OrderedSet QubitId) (b : Buffered) : Prop :=
  match b.shape with
  | .allocate q => q ∉ live
  | shape => ∀ q ∈ shape.qubits, q ∈ live

/-- A command that comes next for each of its qubits is usable. -/
lemma WellFormed.usable {stream before : List Buffered} {b : Buffered} (wf : WellFormed stream)
    (next : ∀ q ∈ b.shape.qubits, ∃ after, touching q stream = touching q before ++ b :: after) :
    Usable (live before) b := by
  have found {q : QubitId} (mem : q ∈ b.shape.qubits) :
      b.shape = .allocate q ∧ touching q before = [] ∨
        b.shape ≠ .allocate q ∧ q ∈ live (touching q before) := by
    obtain ⟨after, split⟩ := next q mem
    exact wf.next split
  rw [Usable]
  split
  case h_1 q shape =>
    have touches : q ∈ b.shape.qubits := shape ▸ List.mem_singleton_self q
    rcases found touches with ⟨_, unseen⟩ | ⟨other, _⟩
    · rw [← mem_live_touching, unseen]
      exact OrderedSet.not_mem_empty q
    · exact absurd shape other
  case h_2 notAllocate =>
    intro q mem
    rcases found mem with ⟨shape, _⟩ | ⟨_, inUse⟩
    · exact absurd shape (notAllocate q)
    · exact mem_live_touching.mp inUse

end Stream

namespace Log

variable {log : List Event}

/-- What is forwarded finds its qubits as it needs them. -/
def Live (past : List Event) : Event → Prop
  | .forwarded b _ => Stream.Usable (Stream.live (forwarded past)) b
  | _ => True

/-- If a well-formed stream was taken in, commands that are forwarded in order are usable. -/
lemma live_of_inOrder (wf : Stream.WellFormed (accepted log)) (inOrder : Throughout InOrder log) :
    Throughout Live log := by
  rintro before event rest rfl
  have last := inOrder before event rest rfl
  cases event with
  | accepted => trivial
  | inserted => trivial
  | flushed => trivial
  | forwarded b command =>
    have wf : Stream.WellFormed (accepted before) := by
      rw [accepted_append] at wf
      exact wf.of_prefix (List.prefix_append _ _)
    refine wf.usable fun q mem => ?_
    obtain ⟨after, split⟩ := last q
    rw [Stream.touching_append, Stream.touching_cons_of_mem mem, Stream.touching_nil,
      List.append_assoc, List.singleton_append] at split
    exact ⟨after, split.symm⟩

/-- Every command forwarded finds its qubits as those before it left them. -/
lemma usable_of_live (live : Throughout Live log) {before after : List Buffered} {b : Buffered}
    (split : forwarded log = before ++ b :: after) : Stream.Usable (Stream.live before) b := by
  obtain ⟨first, rest, rfl, rfl, eq⟩ := List.filterMap_eq_append_iff.mp split
  obtain ⟨skipped, event, last, rfl, none_sent, sent, rfl⟩ := List.filterMap_eq_cons_iff.mp eq
  have usable := live (first ++ skipped) event last (List.append_assoc _ _ _).symm
  have none_forwarded : forwarded skipped = [] := List.filterMap_eq_nil_iff.mpr none_sent
  have sent_before : forwarded (first ++ skipped) = forwarded first := by
    rw [forwarded_append, none_forwarded, List.append_nil]
  cases event with
  | accepted => cases sent
  | inserted => cases sent
  | flushed => cases sent
  | forwarded c command =>
    cases sent
    rw [Live, sent_before] at usable
    exact usable

end Log

namespace Mapper

open Dispatch (Housed)
open Log (accepted forwarded)

variable {mapper after : Mapper} {past log : List Event}

/-- What steps keep while a well-formed stream is taken in. -/
lemma Steps.keeps_of_wellFormed {final : Mapper} (Inv : List Event → Mapper → Prop)
    (step : ∀ {past log mapper after}, mapper.Sound → Stream.WellFormed (accepted (past ++ log)) →
      Inv past mapper → mapper.Step log after → Inv (past ++ log) after)
    (run : Steps mapper log final) (sound : mapper.Sound) (start : Inv past mapper)
    (wf : Stream.WellFormed (accepted (past ++ log))) : Inv (past ++ log) final := by
  refine run.keeps (fun past mapper => Stream.WellFormed (accepted past) → Inv past mapper) ?_ sound
    (fun _ => start) wf
  intro past log mapper after sound inv taken wf
  refine step sound wf (inv ?_) taken
  rw [Log.accepted_append] at wf
  exact wf.of_prefix (List.prefix_append _ _)

/-- A step changes the allocated qubits like the commands that it forwards. -/
lemma Step.allocated_eq (step : mapper.Step log after) :
    after.allocated = (forwarded log).foldl Stream.use mapper.allocated := by
  cases step with
  | accept => rfl
  | flush => rfl
  | dispatch step =>
    cases step with
    | intro _ pass =>
      rw [Log.forwarded_handled]
      exact pass.allocated_eq
  | remap step =>
    cases step with
    | @intro swaps =>
      obtain ⟨commands, events⟩ := mapper.swapEvents_eq swaps
      rw [events, Log.forwarded_inserted, List.foldl_nil]

/-- The mapper keeps account of the qubits in use, and all of them have positions. -/
structure Tracked (past : List Event) (mapper : Mapper) : Prop where
  ordered : Ordered past mapper
  classified : ∀ b ∈ mapper.buffer, b.Classified
  allocated_eq : mapper.allocated = Stream.live (forwarded past)
  housed : Housed mapper.current mapper.allocated

namespace Tracked

/-- No more qubits are in use than there are positions. -/
lemma room (tracked : Tracked past mapper) (sound : mapper.Sound) :
    mapper.allocated.size ≤ mapper.router.numQubits :=
  sound.fits_current.size_le tracked.housed

/-- What waits allocates each qubit once, and none that is in use. -/
lemma fresh (tracked : Tracked past mapper) (wf : Stream.WellFormed (accepted past)) :
    Segments.AllocatesFresh mapper.allocated mapper.buffer := by
  have first := wf.allocatesFirst
  have waiting : Stream.AllocatesFirst mapper.buffer := first.sublist tracked.ordered.sublist
  refine ⟨waiting.nodup, ?_⟩
  intro q mem inUse
  rw [tracked.allocated_eq] at inUse
  obtain ⟨b, waits, shapeB⟩ := Stream.mem_allocations.mp mem
  obtain ⟨c, sent, shapeC⟩ := Stream.mem_allocations.mp (Stream.mem_allocations_of_mem_live inUse)
  -- both commands touch the qubit, the one forwarded before the one that waits
  have touching : Stream.AllocatesFirst
      (Stream.touching q (forwarded past) ++ Stream.touching q mapper.buffer) := by
    rw [tracked.ordered.order]
    exact first.sublist List.filter_sublist
  have touchesC : q ∈ c.shape.qubits := shapeC ▸ List.mem_singleton_self q
  have touchesB : q ∈ b.shape.qubits := shapeB ▸ List.mem_singleton_self q
  refine (List.pairwise_append.mp touching).2.2 c ?_ b ?_ q (Shape.allocates?_eq_some.mpr shapeB) touchesC
  · exact List.mem_filter.mpr ⟨sent, decide_eq_true touchesC⟩
  · exact List.mem_filter.mpr ⟨waits, decide_eq_true touchesB⟩

/-- The two qubits of a buffered command differ. -/
lemma distinct (tracked : Tracked past mapper) :
    ∀ c ∈ mapper.buffer, ∀ x y, c.shape = .pair x y → x ≠ y :=
  fun c mem _ _ shape => (tracked.classified c mem).distinct shape

/-- The oldest command that waits finds its qubits as it needs them. -/
lemma usable (tracked : Tracked past mapper) (wf : Stream.WellFormed (accepted past)) {b : Buffered}
    {rest : List Buffered} (oldest : mapper.buffer = b :: rest) : Stream.Usable mapper.allocated b := by
  rw [tracked.allocated_eq]
  refine wf.usable fun q mem => ⟨Stream.touching q rest, ?_⟩
  rw [← tracked.ordered.order q, oldest, Stream.touching_cons_of_mem mem]

/-- The next layout has all qubits in use. -/
lemma housed_next (tracked : Tracked past mapper) (sound : mapper.Sound)
    (wf : Stream.WellFormed (accepted past)) : Housed mapper.next mapper.allocated := by
  intro q mem
  refine (sound.valid.regular.next_iff ?_ ?_ ?_).mpr (.inl mem)
  · exact tracked.room sound
  · exact tracked.fresh wf
  · exact tracked.distinct

/-- A step of a well-formed stream keeps account of the qubits in use. -/
lemma step (sound : mapper.Sound) (wf : Stream.WellFormed (accepted (past ++ log)))
    (tracked : Tracked past mapper) (step : mapper.Step log after) : Tracked (past ++ log) after := by
  refine ⟨step.ordered wf.allocatesFirst tracked.ordered, step.classified tracked.classified, ?_, ?_⟩
  · rw [step.allocated_eq, tracked.allocated_eq, Log.forwarded_append, Stream.live, Stream.live,
      List.foldl_append]
  · cases step with
    | accept => exact tracked.housed
    | flush => exact tracked.housed
    | dispatch step =>
      cases step with
      | intro here pass =>
        have housed := tracked.housed
        rw [current, here] at housed
        exact pass.housed housed
    | remap step =>
      cases step
      refine tracked.housed_next sound ?_
      rw [Log.accepted_append] at wf
      exact wf.of_prefix (List.prefix_append _ _)

end Tracked

/-- A fresh mapper keeps account of the qubits in use, whatever layout it is given. -/
lemma Fresh.tracked (fresh : mapper.Fresh) (layout : Option (Layout Nat)) :
    Tracked [] { mapper with layout } := by
  refine ⟨fresh.ordered.installed layout, ?_, fresh.allocated_eq, ?_⟩
  · intro b mem
    rw [fresh.buffer_eq] at mem
    cases mem
  · intro q mem
    rw [fresh.allocated_eq] at mem
    exact absurd mem (OrderedSet.not_mem_empty q)

end Mapper

end QubitRouting
