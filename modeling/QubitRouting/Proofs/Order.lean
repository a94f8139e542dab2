import QubitRouting.Proofs.Session

/-!
# Every qubit sees its commands in order

At every moment of a session, the commands forwarded for a qubit and then those that still wait for it
are the commands taken in for it, in order of arrival. So a flush is passed on when every qubit has
seen exactly its own commands.
-/

namespace QubitRouting

open Dispatch (Pass)
open scoped List

namespace Log

variable {P : List Event → Event → Prop} {past log : List Event}

/-- Every event meets a condition on what happened before it. -/
def Throughout (P : List Event → Event → Prop) (log : List Event) : Prop :=
  ∀ before event rest, log = before ++ event :: rest → P before event

/-- A condition holds throughout two logs if it does in the first, and in the second after the first. -/
lemma throughout_append (old : Throughout P past)
    (new : Throughout (fun before => P (past ++ before)) log) : Throughout P (past ++ log) := by
  intro before event rest split
  rcases List.append_eq_append_iff.mp split with ⟨more, rfl, tail⟩ | ⟨more, rfl, tail⟩
  · exact new more event rest tail
  · cases more with
    | nil =>
      have := new [] event rest tail.symm
      rwa [List.append_nil, List.append_nil] at this
    | cons first more =>
      cases tail
      exact old before event more rfl

/-- A condition that an event meets at the beginning holds throughout its log. -/
lemma throughout_singleton {event : Event} (holds : P [] event) : Throughout P [event] := by
  intro before other rest split
  rcases List.singleton_eq_append_iff.mp split with ⟨rfl, eq⟩ | ⟨_, eq⟩
  · cases eq
    exact holds
  · cases eq

/-- What is forwarded is the oldest command of each of its qubits, and a flush is passed on when nothing
waits. -/
def InOrder (past : List Event) : Event → Prop
  | .forwarded b _ => ∀ q, Stream.touching q (forwarded past ++ [b]) <+: Stream.touching q (accepted past)
  | .flushed _ => ∀ q, Stream.touching q (forwarded past) = Stream.touching q (accepted past)
  | _ => True

/-- If all events are in order, then at every moment each qubit has seen the first of its commands. -/
lemma prefix_of_inOrder (inOrder : Throughout InOrder (past ++ log)) (q : QubitId) :
    Stream.touching q (forwarded past) <+: Stream.touching q (accepted past) := by
  induction past using List.reverseRecOn generalizing log with
  | nil => exact List.nil_prefix
  | append_singleton before event ih =>
    rw [List.append_assoc] at inOrder
    have last := inOrder before event log rfl
    rw [forwarded_append, accepted_append, Stream.touching_append q (accepted before)]
    cases event with
    | accepted b =>
      rw [forwarded_singleton, Event.forwarded?, Option.toList_none, List.append_nil]
      exact (ih inOrder).trans (List.prefix_append _ _)
    | forwarded b command => exact (last q).trans (List.prefix_append _ _)
    | inserted command =>
      rw [forwarded_singleton, Event.forwarded?, Option.toList_none, List.append_nil]
      exact (ih inOrder).trans (List.prefix_append _ _)
    | flushed command =>
      rw [forwarded_singleton, Event.forwarded?, Option.toList_none, List.append_nil]
      exact (ih inOrder).trans (List.prefix_append _ _)

end Log

namespace Mapper

open Log (accepted forwarded Throughout InOrder)

variable {mapper after : Mapper} {past log : List Event}

/-- What was forwarded and what waits make up what was taken in, qubit by qubit in the same order. -/
structure Ordered (past : List Event) (mapper : Mapper) : Prop where
  sublist : mapper.buffer <+ accepted past
  order : ∀ q, Stream.touching q (forwarded past) ++ Stream.touching q mapper.buffer
    = Stream.touching q (accepted past)
  throughout : Throughout InOrder past

/-- A pass over the buffer keeps the order of each qubit. -/
lemma Dispatched.ordered (first : Stream.AllocatesFirst (accepted past)) (ordered : Ordered past mapper)
    (dispatched : Dispatched mapper log after) : Ordered (past ++ log) after := by
  cases dispatched with
  | @intro layout handled state _ pass =>
    have pass_order := pass.order (first.sublist ordered.sublist)
    have order (q : QubitId) : Stream.touching q (forwarded past)
        ++ (Stream.touching q (Dispatch.sent handled) ++ Stream.touching q (Dispatch.kept handled))
        = Stream.touching q (accepted past) := by
      rw [pass_order, ordered.order]
    refine ⟨?_, ?_, Log.throughout_append ordered.throughout ?_⟩
    · rw [Log.accepted_append, Log.accepted_handled, List.append_nil]
      exact pass.kept_sublist.trans ordered.sublist
    · intro q
      rw [Log.accepted_append, Log.accepted_handled, List.append_nil, Log.forwarded_append,
        Log.forwarded_handled, Stream.touching_append, List.append_assoc, order]
    · intro before event rest split
      have mem : event ∈ handled.filterMap Event.ofHandled? := by
        rw [split]
        exact List.mem_append_right before List.mem_cons_self
      obtain ⟨⟨b, command⟩, _, made⟩ := List.mem_filterMap.mp mem
      obtain ⟨command, rfl, rfl⟩ := Option.map_eq_some_iff.mp made
      intro q
      -- the events before this one take nothing in, and forward the first commands of the pass
      have accepted_before : accepted before = [] := by
        have := Log.accepted_handled handled
        rw [split, Log.accepted_append] at this
        exact (List.append_eq_nil_iff.mp this).1
      have sent : Dispatch.sent handled = (forwarded before ++ [b]) ++ forwarded rest := by
        rw [← Log.forwarded_handled, split, Log.forwarded_append, List.append_assoc]
        rfl
      rw [Log.accepted_append, accepted_before, List.append_nil, Log.forwarded_append, ← order q, sent,
        List.append_assoc, Stream.touching_append q (forwarded past),
        Stream.touching_append q (forwarded before ++ [b])]
      rw [List.prefix_append_right_inj, List.append_assoc]
      exact List.prefix_append _ _

/-- Commands that the mapper sends on its own account do not count. -/
lemma Ordered.inserted (ordered : Ordered past mapper) (same : after.buffer = mapper.buffer)
    (commands : List Command) : Ordered (past ++ commands.map .inserted) after := by
  have accepted_eq : accepted (past ++ commands.map .inserted) = accepted past := by
    rw [Log.accepted_append, Log.accepted_inserted, List.append_nil]
  have forwarded_eq : forwarded (past ++ commands.map .inserted) = forwarded past := by
    rw [Log.forwarded_append, Log.forwarded_inserted, List.append_nil]
  refine ⟨?_, ?_, Log.throughout_append ordered.throughout ?_⟩
  · rw [same, accepted_eq]
    exact ordered.sublist
  · rw [same, accepted_eq, forwarded_eq]
    exact ordered.order
  · intro before event rest split
    have mem : event ∈ commands.map Event.inserted := by
      rw [split]
      exact List.mem_append_right before List.mem_cons_self
    obtain ⟨command, _, rfl⟩ := List.mem_map.mp mem
    trivial

/-- Another layout does not touch the order of commands. -/
lemma Ordered.installed (ordered : Ordered past mapper) (layout : Option (Layout Nat)) :
    Ordered past { mapper with layout } :=
  ⟨ordered.sublist, ordered.order, ordered.throughout⟩

/-- A step keeps the order of each qubit. -/
lemma Step.ordered (first : Stream.AllocatesFirst (accepted (past ++ log))) (ordered : Ordered past mapper)
    (step : mapper.Step log after) : Ordered (past ++ log) after := by
  cases step with
  | @accept _ b =>
    refine ⟨?_, ?_, Log.throughout_append ordered.throughout (Log.throughout_singleton trivial)⟩
    · rw [Log.accepted_append]
      exact ordered.sublist.append (.refl _)
    · intro q
      rw [Log.accepted_append, Stream.touching_append q (accepted past), ← ordered.order q,
        Stream.touching_append q mapper.buffer, List.append_assoc, Log.forwarded_append,
        Log.forwarded_singleton, Event.forwarded?, Option.toList_none, List.append_nil]
      rfl
  | flush _ empty =>
    refine ⟨?_, ?_, Log.throughout_append ordered.throughout (Log.throughout_singleton ?_)⟩
    · rw [empty]
      exact List.nil_sublist _
    · intro q
      rw [Log.accepted_append, Log.accepted_singleton, Event.accepted?, Option.toList_none,
        List.append_nil, Log.forwarded_append, Log.forwarded_singleton, Event.forwarded?,
        Option.toList_none, List.append_nil]
      exact ordered.order q
    · -- nothing waits, so all that was taken in was forwarded
      rw [List.append_nil]
      intro q
      have order := ordered.order q
      rwa [empty, Stream.touching_nil, List.append_nil] at order
  | dispatch dispatched =>
    rw [Log.accepted_append] at first
    exact dispatched.ordered (first.sublist (List.sublist_append_left _ _)) ordered
  | remap step =>
    cases step with
    | @intro swaps =>
      obtain ⟨commands, events⟩ := mapper.swapEvents_eq swaps
      rw [events]
      refine ordered.inserted ?_ commands
      rfl

/-- The order holds as long as the commands taken in allocate every qubit first. -/
lemma ordered_step {past log : List Event} {mapper after : Mapper} (_ : mapper.Sound)
    (inv : Stream.AllocatesFirst (accepted past) → Ordered past mapper) (step : mapper.Step log after)
    (first : Stream.AllocatesFirst (accepted (past ++ log))) : Ordered (past ++ log) after := by
  refine step.ordered first (inv ?_)
  rw [Log.accepted_append] at first
  exact first.sublist (List.sublist_append_left _ _)

/-- A fresh mapper has nothing out of order. -/
lemma Fresh.ordered (fresh : mapper.Fresh) : Ordered [] mapper := by
  refine ⟨?_, ?_, ?_⟩
  · rw [fresh.buffer_eq]
    exact .slnil
  · intro q
    rw [fresh.buffer_eq]
    rfl
  · intro before event rest split
    simp at split

end Mapper

open Log (accepted forwarded)

/-- At every moment, what was forwarded for a qubit and then what waits for it is what was taken in for
it, in order of arrival; when a flush is passed on, the qubit has seen all of it. -/
theorem session_order {config : Config} {mapper : Mapper} (built : config.mapper = .ok mapper)
    (calls : List Call) (commands : List Command) (rounds : Nat) {session : Session}
    (now : session = (mapper.session calls).midway commands rounds)
    (first : Stream.AllocatesFirst (accepted session.log)) (q : QubitId) :
    Stream.touching q (forwarded session.log) ++ Stream.touching q session.mapper.buffer
        = Stream.touching q (accepted session.log) ∧
      (∀ past, past <+: session.log →
        Stream.touching q (forwarded past) <+: Stream.touching q (accepted past)) ∧
      ∀ past command rest, session.log = past ++ .flushed command :: rest →
        Stream.touching q (forwarded past) = Stream.touching q (accepted past) := by
  subst now
  have fresh := Config.fresh_mapper built
  obtain ⟨sound, inv⟩ := Mapper.session_keeps
    (fun past mapper => Stream.AllocatesFirst (accepted past) → Mapper.Ordered past mapper)
    Mapper.ordered_step (fun inv first => (inv first).installed _) fresh.sound
    (fun _ => fresh.ordered) calls
  obtain ⟨log, eq, run⟩ := Mapper.steps_midway sound commands rounds
  have ordered := run.keeps
    (fun past mapper => Stream.AllocatesFirst (accepted past) → Mapper.Ordered past mapper)
    Mapper.ordered_step sound inv (eq ▸ first)
  rw [← eq] at ordered
  refine ⟨ordered.order q, ?_, ?_⟩
  · rintro past ⟨rest, split⟩
    have throughout := ordered.throughout
    rw [← split] at throughout
    exact Log.prefix_of_inOrder throughout q
  · intro past command rest split
    exact ordered.throughout past _ rest split q

/-- A ring, in the middle of a flush, after a layout was installed and a call failed. -/
theorem session_order_after_failure :
    ∃ session : Session,
      session = (Mapper.session { router := .chain ⟨4, true⟩, storage := 2 }
        [.install (.ofPairs [(⟨7⟩, ⟨2⟩), (⟨8⟩, ⟨0⟩)]),
          .receive [.allocate ⟨7⟩, .gate .x []],
          .receive [.allocate ⟨8⟩, .allocate ⟨9⟩, .gate .cx [⟨7⟩, ⟨8⟩]]]).midway
        [.measure ⟨7⟩, .gate .cx [⟨9⟩, ⟨7⟩], .deallocate ⟨8⟩] 1 ∧
      session.failures.length = 1 ∧ Stream.AllocatesFirst (accepted session.log) ∧
      ∀ q, Stream.touching q (forwarded session.log) ++ Stream.touching q session.mapper.buffer
        = Stream.touching q (accepted session.log) := by
  have built : (Config.linear { numQubits := 4, cyclic := true, storage := 2 }).mapper
      = .ok { router := .chain ⟨4, true⟩, storage := 2 } := rfl
  refine ⟨_, rfl, by decide, by decide, fun q => ?_⟩
  exact (session_order built _ _ _ rfl (by decide) q).1

end QubitRouting
