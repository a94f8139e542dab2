import QubitRouting.Proofs.Allocation
import QubitRouting.Proofs.Progress

/-!
# A program that fits never gets stuck

A fresh mapper forwards allocations in the order in which they were taken in, and its layout holds the
allocated qubits only. If there is never any need for more qubits than the device has, the oldest
command that waits can run under the next layout: a round always makes progress, no call fails, and
every flush empties the buffer.
-/

namespace QubitRouting

open scoped List

namespace Stream

variable {n : Nat} {stream before : List Buffered}

/-- The commands that go to the buffer. -/
def ofCommands (commands : List Command) : List Buffered :=
  commands.filterMap fun command => (Buffered.classify command).toOption

/-- The buffered commands of two batches are those of the first and then those of the second. -/
lemma ofCommands_append (first second : List Command) :
    ofCommands (first ++ second) = ofCommands first ++ ofCommands second :=
  List.filterMap_append

/-- A flush does not go to the buffer. -/
lemma ofCommands_flush {command : Command} (flush : command.isFlush = true) : ofCommands [command] = [] := by
  rw [ofCommands, List.filterMap_cons_none]
  · rfl
  · rw [Buffered.classify, if_pos flush]
    rfl

/-- A command with a shape goes to the buffer with it. -/
lemma ofCommands_classified {command : Command} {b : Buffered}
    (classified : Buffered.classify command = .ok b) : ofCommands [command] = [b] := by
  rw [ofCommands, List.filterMap_cons_some]
  · rfl
  · rw [classified]
    rfl

/-- What goes to the buffer has the shape it was given there. -/
lemma classified_of_mem_ofCommands {commands : List Command} {b : Buffered}
    (mem : b ∈ ofCommands commands) : b.Classified := by
  obtain ⟨command, _, found⟩ := List.mem_filterMap.mp mem
  cases classified : Buffered.classify command with
  | error cause =>
    rw [classified] at found
    cases found
  | ok =>
    rw [classified] at found
    cases found
    exact Buffered.classified_of_classify classified

/-- A well-formed stream that never has more than so many qubits in use. -/
structure Fitting (n : Nat) (stream : List Buffered) : Prop where
  wellFormed : WellFormed stream
  room : ∀ before ∈ stream.inits, (live before).size ≤ n

/-- The beginning of a fitting stream fits. -/
lemma Fitting.of_prefix (fitting : Fitting n stream) (pre : before <+: stream) : Fitting n before :=
  ⟨fitting.wellFormed.of_prefix pre, fun first mem =>
    fitting.room first ((List.mem_inits _ _).mpr (((List.mem_inits _ _).mp mem).trans pre))⟩

end Stream

namespace Mapper

open Log (accepted forwarded)

variable {n k : Nat} {mapper after : Mapper} {past log : List Event} {b : Buffered}
  {rest : List Buffered} {q : QubitId}

/-- Allocations are forwarded in order, and the qubits with positions are those in use and some of those
that are to be allocated next. -/
structure Ready (n k : Nat) (past : List Event) (mapper : Mapper) : Prop where
  sound : mapper.Sound
  size_eq : mapper.router.numQubits = n
  tracked : Tracked past mapper
  inTurn : Stream.allocations (forwarded past) ++ Stream.allocations mapper.buffer
    = Stream.allocations (accepted past)
  placed_iff : ∀ {q}, (∃ p, mapper.current.position? q = some p) ↔
    q ∈ mapper.allocated ∨ q ∈ (Stream.allocations mapper.buffer).take k

namespace Ready

section Oldest

variable {before later : List Buffered}

/-- All that waits behind an allocation was taken in after it. -/
lemma sublist_later (ready : Ready n k past mapper) (wf : Stream.WellFormed (accepted past))
    (oldest : mapper.buffer = b :: rest) (shape : b.shape = .allocate q)
    (split : accepted past = before ++ b :: later) : rest <+ later := by
  have sublist := ready.tracked.ordered.sublist
  rw [oldest, split, List.sublist_append_iff] at sublist
  obtain ⟨first, second, eq, early, late⟩ := sublist
  cases first with
  | nil =>
    rw [List.nil_append] at eq
    rw [← eq] at late
    exact List.cons_sublist_cons.mp late
  | cons c first =>
    -- the command would allocate the qubit twice
    cases eq
    have allocatesFirst := wf.allocatesFirst
    rw [split] at allocatesFirst
    refine absurd ?_ ((List.pairwise_append.mp allocatesFirst).2.2 b (early.subset List.mem_cons_self) b
      List.mem_cons_self q (Shape.allocates?_eq_some.mpr shape))
    rw [shape]
    exact List.mem_singleton_self q

/-- No allocation was forwarded that was taken in after one that waits. -/
lemma allocations_forwarded (ready : Ready n k past mapper) (wf : Stream.WellFormed (accepted past))
    (oldest : mapper.buffer = b :: rest) (shape : b.shape = .allocate q)
    (split : accepted past = before ++ b :: later) :
    Stream.allocations (forwarded past) = Stream.allocations before := by
  have inTurn := ready.inTurn
  have nodup := wf.allocatesFirst.nodup
  rw [oldest, split, Stream.allocations_append, Stream.allocations_cons_of_allocate shape,
    Stream.allocations_cons_of_allocate shape] at inTurn
  rw [split, Stream.allocations_append, Stream.allocations_cons_of_allocate shape,
    List.nodup_append] at nodup
  obtain ⟨_, nodup, apart⟩ := nodup
  have notBefore : q ∉ Stream.allocations before := fun mem => apart q mem q List.mem_cons_self rfl
  have notLater : q ∉ Stream.allocations later := (List.nodup_cons.mp nodup).1
  exact ((List.append_cons_inj_of_notMem notBefore notLater).mp inTurn.symm).1.symm

/-- Every qubit in use was in use already when the oldest allocation that waits was taken in. -/
lemma mem_live_before (ready : Ready n k past mapper) (wf : Stream.WellFormed (accepted past))
    (oldest : mapper.buffer = b :: rest) (shape : b.shape = .allocate q)
    (split : accepted past = before ++ b :: later) {r : QubitId} (mem : r ∈ mapper.allocated) :
    r ∈ Stream.live before := by
  have first := wf.allocatesFirst
  have order := ready.tracked.ordered.order r
  -- what the qubit has seen so far allocates it, and does not release it
  have seen : Stream.AllocatesFirst (Stream.touching r (forwarded past)) := by
    have all : Stream.AllocatesFirst (Stream.touching r (accepted past)) :=
      first.sublist List.filter_sublist
    rw [← order] at all
    exact all.sublist (List.sublist_append_left _ _)
  rw [ready.tracked.allocated_eq, ← Stream.mem_live_touching, seen.mem_live_iff] at mem
  obtain ⟨allocated, unreleased⟩ := mem
  have first_before : Stream.AllocatesFirst before := by
    rw [split] at first
    exact first.sublist (List.sublist_append_left _ _)
  rw [first_before.mem_live_iff]
  constructor
  · rw [← ready.allocations_forwarded wf oldest shape split]
    obtain ⟨c, mem, shapeC⟩ := Stream.mem_allocations.mp allocated
    exact Stream.mem_allocations.mpr ⟨c, List.mem_of_mem_filter mem, shapeC⟩
  · intro c mem shapeC
    have touches : r ∈ c.shape.qubits := shapeC ▸ List.mem_singleton_self r
    have waits : c ∈ mapper.buffer := by
      have inStream : c ∈ Stream.touching r (accepted past) := by
        rw [split]
        exact List.mem_filter.mpr ⟨List.mem_append_left _ mem, decide_eq_true touches⟩
      rw [← order] at inStream
      rcases List.mem_append.mp inStream with sent | waits
      · exact absurd shapeC (unreleased c sent)
      · exact List.mem_of_mem_filter waits
    have inRest : c ∈ rest := by
      rw [oldest] at waits
      rcases List.mem_cons.mp waits with rfl | inRest
      · cases shapeC.symm.trans shape
      · exact inRest
    -- so the qubit would be released twice
    obtain ⟨first, last, rfl⟩ :=
      List.append_of_mem ((ready.sublist_later wf oldest shape split).subset inRest)
    rw [split, ← List.cons_append, ← List.append_assoc] at wf
    have admissible := wf.admissible
    rw [Stream.Admissible, shapeC] at admissible
    have live := admissible r List.mem_cons_self
    have first_again := (wf.of_prefix (List.prefix_append _ _)).allocatesFirst
    exact (first_again.mem_live_iff.mp live).2 c (List.mem_append_left _ mem) shapeC

/-- If the oldest command that waits is an allocation, a position is left for it. -/
lemma size_lt (ready : Ready n k past mapper) (fitting : Stream.Fitting n (accepted past))
    (oldest : mapper.buffer = b :: rest) (shape : b.shape = .allocate q) : mapper.allocated.size < n := by
  have inStream : b ∈ accepted past :=
    ready.tracked.ordered.sublist.subset (oldest ▸ List.mem_cons_self)
  obtain ⟨before, later, split⟩ := List.append_of_mem inStream
  have wf := fitting.wellFormed
  have size_le : mapper.allocated.size ≤ (Stream.live before).size :=
    OrderedSet.size_le_of_subset fun r mem => ready.mem_live_before wf oldest shape split mem
  have unused : q ∉ Stream.live before := by
    intro mem
    rw [split] at wf
    have admissible := wf.admissible
    rw [Stream.Admissible, shape] at admissible
    exact admissible (Stream.mem_allocations_of_mem_live mem)
  have room : (Stream.live (before ++ [b])).size ≤ n := by
    apply fitting.room
    rw [List.mem_inits, split]
    exact ⟨later, List.append_assoc _ _ _⟩
  rw [Stream.live_append_singleton, Stream.use, shape, OrderedSet.size_insert_of_not_mem unused] at room
  omega

end Oldest

/-- What waits allocates no qubit twice and none that is in use. -/
lemma fresh (ready : Ready n k past mapper) (wf : Stream.WellFormed (accepted past)) :
    Segments.AllocatesFresh mapper.allocated mapper.buffer :=
  ready.tracked.fresh wf

/-- Whether a qubit that is to be allocated has a position. -/
lemma isSome_iff (ready : Ready n k past mapper) (wf : Stream.WellFormed (accepted past))
    (mem : q ∈ Stream.allocations mapper.buffer) :
    (mapper.current.position? q).isSome ↔ q ∈ (Stream.allocations mapper.buffer).take k := by
  rw [Option.isSome_iff_exists, ready.placed_iff]
  exact or_iff_right ((ready.fresh wf).absent q mem)

/-- A pass forwards the allocations that are next and keeps the others. -/
lemma filter_allocations (ready : Ready n k past mapper) (wf : Stream.WellFormed (accepted past)) :
    (Stream.allocations mapper.buffer).filter (fun q => (mapper.current.position? q).isSome)
        = (Stream.allocations mapper.buffer).take k ∧
      (Stream.allocations mapper.buffer).filter (fun q => !(mapper.current.position? q).isSome)
        = (Stream.allocations mapper.buffer).drop k := by
  have placed : ∀ q ∈ (Stream.allocations mapper.buffer).take k,
      (mapper.current.position? q).isSome = true := by
    intro q mem
    exact (ready.isSome_iff wf (List.mem_of_mem_take mem)).mpr mem
  have unplaced : ∀ q ∈ (Stream.allocations mapper.buffer).drop k,
      (mapper.current.position? q).isSome = false := by
    intro q mem
    rw [← Bool.not_eq_true, ready.isSome_iff wf (List.mem_of_mem_drop mem)]
    intro early
    have nodup := (ready.fresh wf).nodup
    rw [← List.take_append_drop k (Stream.allocations mapper.buffer), List.nodup_append] at nodup
    exact nodup.2.2 q early q mem rfl
  constructor
  · conv_lhs => rw [← List.take_append_drop k (Stream.allocations mapper.buffer)]
    rw [List.filter_append, List.filter_eq_self.mpr placed, List.filter_eq_nil_iff.mpr, List.append_nil]
    intro q mem
    rw [unplaced q mem]
    exact Bool.false_ne_true
  · conv_lhs => rw [← List.take_append_drop k (Stream.allocations mapper.buffer)]
    rw [List.filter_append, List.filter_eq_nil_iff.mpr, List.filter_eq_self.mpr, List.nil_append]
    · intro q mem
      rw [unplaced q mem]
      rfl
    · intro q mem
      rw [placed q mem]
      exact Bool.false_ne_true

/-! What the steps of a mapper make of it. -/

/-- At the start of a pass the qubits with a position that are still to be allocated are active. -/
lemma awaits_start (layout : Layout Nat) (allocated : OrderedSet QubitId) (buffer : List Buffered) :
    Dispatch.Awaits (Dispatch.start layout allocated) buffer := by
  intro q _ p placed
  exact OrderedSet.mem_insertAll.mpr (.inr (Layout.mem_qubits_iff.mpr ⟨p, placed⟩))

/-- A pass allocates all qubits with positions. -/
lemma dispatch (ready : Ready n k past mapper) (wf : Stream.WellFormed (accepted past))
    (dispatched : Dispatched mapper log after) : Ready n 0 (past ++ log) after := by
  have step : mapper.Step log after := .dispatch dispatched
  have sizes := step.sameDevice.numQubits_eq
  have sound := step.sound ready.sound
  obtain ⟨placed, unplaced⟩ := ready.filter_allocations wf
  have expected : ∀ q p, mapper.current.position? q = some p →
      q ∈ mapper.allocated ∨ q ∈ Stream.allocations mapper.buffer := by
    intro q p here
    exact (ready.placed_iff.mp ⟨p, here⟩).imp_right List.mem_of_mem_take
  cases dispatched with
  | @intro layout handled state here pass =>
    have accepted_eq : accepted (past ++ handled.filterMap Event.ofHandled?) = accepted past := by
      rw [Log.accepted_append, Log.accepted_handled, List.append_nil]
    have tracked := ready.tracked.step ready.sound (accepted_eq ▸ wf) step
    have first : Stream.AllocatesFirst mapper.buffer :=
      wf.allocatesFirst.sublist ready.tracked.ordered.sublist
    have awaits := awaits_start layout mapper.allocated mapper.buffer
    have current_eq : mapper.current = layout := by rw [current, here]; rfl
    rw [current_eq] at placed unplaced expected
    -- the first `k` allocations are sent, the others stay
    obtain ⟨sent, kept⟩ := pass.allocations first awaits
    have sent := sent.trans placed
    have kept := kept.trans unplaced
    refine ⟨sound, sizes.trans ready.size_eq, tracked, ?_, ?_⟩
    · rw [accepted_eq, Log.forwarded_append, Log.forwarded_handled, Stream.allocations_append,
        List.append_assoc, ← ready.inTurn]
      congr 1
      change Stream.allocations (Dispatch.sent handled) ++ Stream.allocations (Dispatch.kept handled) = _
      rw [sent, kept, List.take_append_drop]
    · intro q
      rw [List.take_zero]
      constructor
      · rintro ⟨p, there⟩
        exact .inl (pass.settled first awaits expected q p there)
      · rintro (mem | mem)
        · exact tracked.housed q mem
        · cases mem

/-- Moving to another layout makes room for allocations. -/
lemma remap (ready : Ready n 0 past mapper) (wf : Stream.WellFormed (accepted past))
    (remapped : Remap mapper log after) : Ready n (n - mapper.allocated.size) (past ++ log) after := by
  have step : mapper.Step log after := .remap remapped
  have sizes := step.sameDevice.numQubits_eq
  have sound := step.sound ready.sound
  cases remapped with
  | @intro swaps router =>
    obtain ⟨commands, events⟩ := mapper.swapEvents_eq swaps
    have accepted_eq : accepted (past ++ mapper.swapEvents swaps) = accepted past := by
      rw [Log.accepted_append, events, Log.accepted_inserted, List.append_nil]
    have forwarded_eq : forwarded (past ++ mapper.swapEvents swaps) = forwarded past := by
      rw [Log.forwarded_append, events, Log.forwarded_inserted, List.append_nil]
    refine ⟨sound, sizes.trans ready.size_eq, ready.tracked.step ready.sound (accepted_eq ▸ wf) step, ?_, ?_⟩
    · rw [accepted_eq, forwarded_eq]
      exact ready.inTurn
    · intro q
      rw [← ready.size_eq]
      exact ready.sound.valid.regular.next_iff (ready.tracked.room ready.sound) (ready.fresh wf)
        ready.tracked.distinct

/-- A mapper that takes one more command of a well-formed stream to its buffer stays ready. -/
lemma accept (ready : Ready n 0 past mapper) {command : Command}
    (classified : Buffered.classify command = .ok b)
    (wf : Stream.WellFormed (accepted past ++ [b])) :
    Ready n 0 (past ++ [.accepted b]) { mapper with buffer := mapper.buffer ++ [b] } := by
  have step : mapper.Step _ _ := .accept classified
  have wf' : Stream.WellFormed (accepted (past ++ [.accepted b])) := by
    rw [Log.accepted_append]
    exact wf
  refine ⟨step.sound ready.sound, ready.size_eq, ready.tracked.step ready.sound wf' step, ?_, ?_⟩
  · rw [Log.accepted_append, Log.forwarded_append, Stream.allocations_append, Stream.allocations_append,
      Stream.allocations_append, ← ready.inTurn]
    change (Stream.allocations (forwarded past) ++ []) ++ (_ ++ Stream.allocations [b])
      = _ ++ Stream.allocations [b]
    rw [List.append_nil, List.append_assoc]
  · intro q
    rw [List.take_zero]
    exact ready.placed_iff

/-- A mapper that passes a flush on stays ready. -/
lemma flush (ready : Ready n 0 past mapper) {command : Command} (flush : command.isFlush = true)
    (empty : mapper.buffer = []) (wf : Stream.WellFormed (accepted past)) :
    Ready n 0 (past ++ [.flushed command]) mapper := by
  have step : mapper.Step _ _ := .flush flush empty
  have accepted_eq : accepted (past ++ [.flushed command]) = accepted past := by
    rw [Log.accepted_append]
    exact List.append_nil _
  have forwarded_eq : forwarded (past ++ [.flushed command]) = forwarded past := by
    rw [Log.forwarded_append]
    exact List.append_nil _
  refine ⟨ready.sound, ready.size_eq, ready.tracked.step ready.sound (accepted_eq ▸ wf) step, ?_,
    ready.placed_iff⟩
  rw [accepted_eq, forwarded_eq]
  exact ready.inTurn

/-! The oldest command that waits can run under the next layout. -/

/-- Whether a command can run only depends on the device. -/
lemma runnable_congr {router other : Router} {state : Dispatch.State} {shape : Shape}
    (same : router.SameDevice other) (runnable : Dispatch.Runnable router state shape) :
    Dispatch.Runnable other state shape := by
  cases shape with
  | allocate q => exact runnable
  | deallocate q => exact runnable
  | single q => exact runnable
  | pair x y =>
    rw [Dispatch.Runnable, same.adjacent_eq]
    exact runnable

/-- If a command can run at the start of a pass, some qubit is active. -/
lemma active_of_runnable {router : Router} {layout : Layout Nat} {allocated : OrderedSet QubitId}
    {shape : Shape} (runnable : Dispatch.Runnable router (Dispatch.start layout allocated) shape) :
    ∃ q, q ∈ (Dispatch.start layout allocated).active := by
  cases shape with
  | allocate q =>
    obtain ⟨p, placed⟩ := runnable
    exact ⟨q, OrderedSet.mem_insertAll.mpr (.inr (Layout.mem_qubits_iff.mpr ⟨p, placed⟩))⟩
  | deallocate q => exact ⟨q, runnable.1⟩
  | single q => exact ⟨q, runnable.1⟩
  | pair x y => exact ⟨x, runnable.1.1⟩

/-- The oldest command in the buffer can run under the next layout. -/
lemma runnable_next (ready : Ready n 0 past mapper) (fitting : Stream.Fitting n (accepted past))
    (oldest : mapper.buffer = b :: rest) :
    Dispatch.Runnable mapper.router (Dispatch.start mapper.next mapper.allocated) b.shape := by
  have wf := fitting.wellFormed
  have usable := ready.tracked.usable wf oldest
  have placed := ready.tracked.housed_next ready.sound wf
  have active {q : QubitId} (mem : q ∈ mapper.allocated) :
      q ∈ (Dispatch.start mapper.next mapper.allocated).active :=
    OrderedSet.mem_insertAll.mpr (.inl mem)
  rw [Stream.Usable] at usable
  cases shape : b.shape with
  | allocate q =>
    have left := ready.size_lt fitting oldest shape
    rw [← ready.size_eq] at left
    refine (ready.sound.valid.regular.next_iff (ready.tracked.room ready.sound) (ready.fresh wf)
      ready.tracked.distinct).mpr (.inr ?_)
    obtain ⟨room, eq⟩ : ∃ room, mapper.router.numQubits - mapper.allocated.size = room + 1 :=
      ⟨mapper.router.numQubits - mapper.allocated.size - 1, by omega⟩
    dsimp only
    rw [eq, oldest, Stream.allocations_cons_of_allocate shape, List.take_succ_cons]
    exact List.mem_cons_self
  | deallocate q | single q =>
    rw [shape] at usable
    have mem := usable q List.mem_cons_self
    exact ⟨active mem, placed q mem⟩
  | pair x y =>
    rw [shape] at usable
    have memX := usable x List.mem_cons_self
    have memY := usable y (List.mem_cons_of_mem x List.mem_cons_self)
    refine ⟨⟨active memX, active memY⟩, ?_⟩
    exact ready.sound.valid.regular.next_adjacent (ready.tracked.room ready.sound) (ready.fresh wf)
      ready.tracked.distinct oldest shape memX memY

/-- A round makes progress. -/
lemma length_lt (ready : Ready n 0 past mapper) (fitting : Stream.Fitting n (accepted past))
    (nonempty : mapper.buffer ≠ []) {middle : Mapper} {more : List Event}
    (remapped : Remap mapper log middle) (dispatched : Dispatched middle more after) :
    after.buffer.length < mapper.buffer.length := by
  obtain ⟨b, rest, oldest⟩ := List.exists_cons_of_ne_nil nonempty
  have runnable := ready.runnable_next fitting oldest
  obtain ⟨q, active⟩ := active_of_runnable runnable
  cases remapped with
  | intro same =>
    cases dispatched with
    | intro here pass =>
      cases here
      dsimp only at pass ⊢
      rw [oldest] at pass ⊢
      exact Nat.lt_succ_of_le (pass.length_kept (runnable_congr same runnable) active)

end Ready

/-! ### Calls complete -/

/-- A pass over the buffer takes nothing in. -/
lemma Dispatched.accepted_eq (dispatched : Dispatched mapper log after) : accepted log = [] := by
  cases dispatched
  exact Log.accepted_handled _

/-- A change of layout takes nothing in. -/
lemma Remap.accepted_eq (remapped : Remap mapper log after) : accepted log = [] := by
  cases remapped with
  | @intro swaps =>
    obtain ⟨commands, events⟩ := mapper.swapEvents_eq swaps
    rw [events]
    exact Log.accepted_inserted commands

/-- The mapper did not stop, took these commands in and is ready for more. -/
structure Completes (n : Nat) (past : List Event) (taken : List Buffered) (outcome : Outcome) : Prop where
  ok : outcome.failure = none
  ready : Ready n 0 (past ++ outcome.log) outcome.mapper
  accepted_eq : accepted outcome.log = taken

/-- Doing nothing completes an empty batch. -/
lemma Completes.nothing (ready : Ready n 0 past mapper) : Completes n past [] { mapper } := by
  refine ⟨rfl, ?_, rfl⟩
  rw [List.append_nil]
  exact ready

/-- Completing some commands and then some more completes them all. -/
lemma Completes.andThen {taken more : List Buffered} {outcome : Outcome} {next : Mapper → Outcome}
    (first : Completes n past taken outcome)
    (second : Completes n (past ++ outcome.log) more (next outcome.mapper)) :
    Completes n past (taken ++ more) (outcome.andThen next) := by
  rw [Outcome.andThen_of_ok first.ok]
  refine ⟨second.ok, ?_, ?_⟩
  · rw [← List.append_assoc]
    exact second.ready
  · rw [Log.accepted_append, first.accepted_eq, second.accepted_eq]

/-- A round of a ready mapper completes. -/
lemma Ready.round (ready : Ready n 0 past mapper) (fitting : Stream.Fitting n (accepted past))
    (nonempty : mapper.buffer ≠ []) : Completes n past [] mapper.round := by
  rcases round_eq ready.sound with ⟨log, after, dispatched, _, run⟩ |
    ⟨log, first, begins, moves, middle, more, after, remapped, dispatched, run⟩
  · rw [run]
    exact ⟨rfl, ready.dispatch fitting.wellFormed dispatched, dispatched.accepted_eq⟩
  · have begun : Ready n 0 (past ++ log) first ∧ accepted log = [] ∧ first.buffer ≠ [] ∧
        first.buffer.length ≤ mapper.buffer.length := by
      rcases begins with ⟨rfl, rfl⟩ | ⟨begins, left⟩
      · rw [List.append_nil]
        exact ⟨ready, rfl, nonempty, Nat.le_refl _⟩
      · exact ⟨ready.dispatch fitting.wellFormed begins, begins.accepted_eq, left, begins.length_le⟩
    obtain ⟨ready, none_accepted, left, le⟩ := begun
    have accepted_eq : accepted (past ++ log) = accepted past := by
      rw [Log.accepted_append, none_accepted, List.append_nil]
    rw [← accepted_eq] at fitting
    have moved := ready.remap fitting.wellFormed remapped
    have moved_eq : accepted (past ++ log ++ moves) = accepted (past ++ log) := by
      rw [Log.accepted_append, remapped.accepted_eq, List.append_nil]
    have last := moved.dispatch (moved_eq ▸ fitting.wellFormed) dispatched
    have shrinks := ready.length_lt fitting left remapped dispatched
    rw [run]
    refine ⟨?_, ?_, ?_⟩
    · exact if_neg (by omega)
    · rw [← List.append_assoc, ← List.append_assoc]
      exact last
    · rw [Log.accepted_append, Log.accepted_append, none_accepted, remapped.accepted_eq,
        dispatched.accepted_eq]
      rfl

/-- A ready mapper completes any number of rounds. -/
lemma Ready.drain (ready : Ready n 0 past mapper) (fitting : Stream.Fitting n (accepted past))
    (rounds : Nat) : Completes n past [] (mapper.drain rounds) := by
  induction rounds generalizing past mapper with
  | zero => exact .nothing ready
  | succ rounds ih =>
    rw [Mapper.drain]
    split
    case isTrue => exact .nothing ready
    case isFalse nonempty =>
      have round := ready.round fitting fun empty => nonempty (List.isEmpty_iff.mpr empty)
      refine round.andThen (ih round.ready ?_)
      rw [Log.accepted_append, round.accepted_eq, List.append_nil]
      exact fitting

/-- A command that the buffer takes, or a flush. -/
def Takes (command : Command) : Prop :=
  command.isFlush = true ∨ (Buffered.classify command).isOk = true

instance (command : Command) : Decidable (Takes command) :=
  inferInstanceAs (Decidable (_ ∨ _))

/-- A command that is taken in and is no flush has a shape. -/
lemma Takes.exists_classify {command : Command} (takes : Takes command) (notFlush : command.isFlush = false) :
    ∃ b, Buffered.classify command = .ok b := by
  have isOk := takes.resolve_left (Bool.eq_false_iff.mp notFlush)
  cases result : Buffered.classify command with
  | ok b => exact ⟨b, rfl⟩
  | error cause =>
    rw [result] at isOk
    cases isOk

/-- A ready mapper completes one more command. -/
lemma Ready.take (ready : Ready n 0 past mapper) {command : Command} (takes : Takes command)
    (fitting : Stream.Fitting n (accepted past ++ Stream.ofCommands [command])) :
    Completes n past (Stream.ofCommands [command]) (mapper.accept command) := by
  rw [Mapper.accept]
  split
  case isTrue flush =>
    rw [Stream.ofCommands_flush flush, List.append_nil] at fitting
    rw [Stream.ofCommands_flush flush]
    have drained := ready.drain fitting mapper.buffer.length
    have empty := buffer_drain ready.sound (Nat.le_refl _) drained.ok
    refine drained.andThen ⟨rfl, ?_, rfl⟩
    apply drained.ready.flush flush empty
    rw [Log.accepted_append, drained.accepted_eq, List.append_nil]
    exact fitting.wellFormed
  case isFalse notFlush =>
    obtain ⟨b, classified⟩ := takes.exists_classify (Bool.eq_false_iff.mpr notFlush)
    rw [Stream.ofCommands_classified classified] at fitting ⊢
    rw [classified]
    exact ⟨rfl, ready.accept classified fitting.wellFormed, rfl⟩

/-- A ready mapper completes a batch, command by command. -/
lemma Ready.takeIn (ready : Ready n 0 past mapper) {commands : List Command}
    (takes : ∀ command ∈ commands, Takes command)
    (fitting : Stream.Fitting n (accepted past ++ Stream.ofCommands commands)) :
    Completes n past (Stream.ofCommands commands) (mapper.takeIn commands) := by
  induction commands generalizing past mapper with
  | nil => exact .nothing ready
  | cons command rest ih =>
    rw [← List.singleton_append, Stream.ofCommands_append] at fitting ⊢
    rw [← List.append_assoc] at fitting
    have taken := ready.take (takes command List.mem_cons_self)
      (fitting.of_prefix (List.prefix_append _ _))
    refine taken.andThen (ih taken.ready (fun c mem => takes c (List.mem_cons_of_mem command mem)) ?_)
    rw [Log.accepted_append, taken.accepted_eq]
    exact fitting

/-- A ready mapper completes a call. -/
lemma Ready.receive (ready : Ready n 0 past mapper) {commands : List Command}
    (takes : ∀ command ∈ commands, Takes command)
    (fitting : Stream.Fitting n (accepted past ++ Stream.ofCommands commands)) :
    Completes n past (Stream.ofCommands commands) (mapper.receive commands) := by
  have taken := ready.takeIn takes fitting
  rw [receive_eq, ← List.append_nil (Stream.ofCommands commands)]
  refine taken.andThen ?_
  rw [roundIfFull]
  split
  case isTrue full =>
    apply taken.ready.round
    · rw [Log.accepted_append, taken.accepted_eq]
      exact fitting
    · intro empty
      simp [empty] at full
  case isFalse => exact .nothing taken.ready

/-- A fresh mapper is ready. -/
lemma Fresh.ready (fresh : mapper.Fresh) : Ready mapper.router.numQubits 0 [] mapper := by
  have unplaced : mapper.current = ∅ := by
    rw [current, fresh.layout_eq]
    rfl
  refine ⟨fresh.sound, rfl, fresh.tracked mapper.layout, ?_, ?_⟩
  · rw [fresh.buffer_eq]
    rfl
  · intro q
    rw [unplaced, fresh.allocated_eq, List.take_zero]
    constructor
    · rintro ⟨p, placed⟩
      cases placed
    · rintro (mem | mem)
      · exact absurd mem (OrderedSet.not_mem_empty q)
      · cases mem

/-- A fresh mapper completes a session of batches whose stream fits. -/
lemma Fresh.session (fresh : mapper.Fresh) {batches : List (List Command)}
    (takes : ∀ batch ∈ batches, ∀ command ∈ batch, Takes command)
    (fitting : Stream.Fitting mapper.router.numQubits (Stream.ofCommands batches.flatten)) :
    (mapper.session (batches.map .receive)).failures = [] ∧
      Ready mapper.router.numQubits 0 (mapper.session (batches.map .receive)).log
        (mapper.session (batches.map .receive)).mapper ∧
      accepted (mapper.session (batches.map .receive)).log = Stream.ofCommands batches.flatten := by
  induction batches using List.reverseRecOn with
  | nil => exact ⟨rfl, fresh.ready, rfl⟩
  | append_singleton batches last ih =>
    rw [List.flatten_append, List.flatten_singleton, Stream.ofCommands_append] at fitting
    obtain ⟨none_failed, ready, accepted_eq⟩ := ih
      (fun batch mem => takes batch (List.mem_append_left _ mem))
      (fitting.of_prefix (List.prefix_append _ _))
    rw [← accepted_eq] at fitting
    have received := ready.receive (takes last (List.mem_append_right _ List.mem_cons_self)) fitting
    rw [List.map_append, List.map_singleton, session_concat, Session.call, Mapper.call,
      List.flatten_append, List.flatten_singleton, Stream.ofCommands_append]
    refine ⟨?_, received.ready, ?_⟩
    · rw [none_failed, received.ok]
      rfl
    · rw [Log.accepted_append, accepted_eq, received.accepted_eq]

/-- Nothing waits after a flush. -/
lemma Ready.buffer_takeIn (ready : Ready n 0 past mapper) {commands : List Command} {flush : Command}
    (takes : ∀ command ∈ commands, Takes command) (isFlush : flush.isFlush = true)
    (fitting : Stream.Fitting n (accepted past ++ Stream.ofCommands (commands ++ [flush]))) :
    (mapper.takeIn (commands ++ [flush])).mapper.buffer = [] := by
  induction commands generalizing past mapper with
  | nil =>
    have taken := ready.take (.inl isFlush) fitting
    rw [List.nil_append, Mapper.takeIn, Outcome.andThen_of_ok taken.ok]
    have ok := taken.ok
    change (mapper.accept flush).mapper.buffer = []
    rw [Mapper.accept, if_pos isFlush] at ok ⊢
    cases ends : (mapper.drain mapper.buffer.length).failure with
    | none =>
      rw [Outcome.andThen_of_ok ends]
      exact buffer_drain ready.sound (Nat.le_refl _) ends
    | some failure =>
      rw [Outcome.andThen_of_failed ends, ends] at ok
      cases ok
  | cons command rest ih =>
    rw [List.cons_append, ← List.singleton_append, Stream.ofCommands_append, ← List.append_assoc] at fitting
    have taken := ready.take (takes command List.mem_cons_self)
      (fitting.of_prefix (List.prefix_append _ _))
    rw [List.cons_append, Mapper.takeIn, Outcome.andThen_of_ok taken.ok]
    apply ih taken.ready fun c mem => takes c (List.mem_cons_of_mem command mem)
    rw [Log.accepted_append, taken.accepted_eq]
    exact fitting

/-- In the middle of a call, before its rounds, the batch was taken in. -/
lemma mapper_midway_zero (session : Session) (commands : List Command) :
    (session.midway commands 0).mapper = (session.mapper.takeIn commands).mapper := by
  rw [Session.midway]
  cases ends : (session.mapper.takeIn commands).failure with
  | none =>
    rw [Outcome.andThen_of_ok ends]
    rfl
  | some failure => rw [Outcome.andThen_of_failed ends]

end Mapper

/-- A program that fits never gets stuck: if the commands taken in form a well-formed stream that never
has more qubits in use than there are positions, then no call fails, and every flush empties the
buffer. -/
theorem session_completes {config : Config} {mapper : Mapper} (built : config.mapper = .ok mapper)
    {batches : List (List Command)} (takes : ∀ batch ∈ batches, ∀ command ∈ batch, Mapper.Takes command)
    (fitting : Stream.Fitting mapper.router.numQubits (Stream.ofCommands batches.flatten)) :
    (mapper.session (batches.map .receive)).failures = [] ∧
    ∀ before commands flush more rest, batches = before ++ (commands ++ flush :: more) :: rest →
      flush.isFlush = true →
      ((mapper.session (before.map .receive)).midway (commands ++ [flush]) 0).mapper.buffer = [] := by
  have fresh := Config.fresh_mapper built
  refine ⟨(fresh.session takes fitting).1, ?_⟩
  rintro before commands flush more rest rfl isFlush
  have flattened : (before ++ (commands ++ flush :: more) :: rest).flatten
      = before.flatten ++ (commands ++ [flush]) ++ (more ++ rest.flatten) := by
    simp
  rw [flattened, Stream.ofCommands_append] at fitting
  have fitting := fitting.of_prefix (List.prefix_append _ _)
  rw [Stream.ofCommands_append] at fitting
  obtain ⟨_, ready, accepted_eq⟩ := fresh.session
    (fun batch mem => takes batch (List.mem_append_left _ mem))
    (fitting.of_prefix (List.prefix_append _ _))
  rw [Mapper.mapper_midway_zero]
  refine ready.buffer_takeIn ?_ isFlush (accepted_eq ▸ fitting)
  intro command mem
  exact takes _ (List.mem_append_right _ List.mem_cons_self) command (List.mem_append_left _ mem)

/-- Five qubits on a grid of four positions, one of which is used twice. -/
theorem session_completes_on_grid :
    ∃ mapper, (Config.grid { rows := 2, columns := 2, storage := 1 }).mapper = .ok mapper ∧
      (mapper.session ([[.allocate ⟨0⟩, .allocate ⟨1⟩, .allocate ⟨2⟩, .allocate ⟨3⟩],
        [.gate .cx [⟨0⟩, ⟨3⟩], .gate .cx [⟨1⟩, ⟨2⟩], .deallocate ⟨1⟩, .flush, .allocate ⟨4294967295⟩],
        [.gate .cx [⟨4294967295⟩, ⟨0⟩], .measure ⟨0⟩, .flush]].map .receive)).failures = [] := by
  obtain ⟨mapper, built, four⟩ : ∃ mapper,
      (Config.grid { rows := 2, columns := 2, storage := 1 }).mapper = .ok mapper ∧
        mapper.router.numQubits = 4 :=
    ⟨_, rfl, rfl⟩
  refine ⟨mapper, built, (session_completes built (by decide) ?_).1⟩
  rw [four]
  exact ⟨by decide, by decide⟩

end QubitRouting
