import Mathlib.Data.List.Infix
import Mathlib.Data.List.Nodup
import QubitRouting.Buffered
import QubitRouting.Proofs.Collections

/-!
# Streams of commands

A stream is the list of the commands that reached the buffer, in order of arrival. This module says
when a stream is well formed and what that means for the commands on a single qubit: the first one
allocates it, the last one may release it, and all others lie in between.
-/

namespace QubitRouting

namespace Shape

/-- The qubit that a command of this shape allocates. -/
def allocates? : Shape → Option QubitId
  | allocate q => some q
  | _ => none

/-- A command allocates a qubit exactly if this is what its shape says. -/
lemma allocates?_eq_some {shape : Shape} {q : QubitId} :
    shape.allocates? = some q ↔ shape = .allocate q := by
  cases shape <;> simp [allocates?]

end Shape

instance {K : Type} [Ranked K] [DecidableEq K] (set : OrderedSet K) (k : K) : Decidable (k ∈ set) :=
  inferInstanceAs (Decidable (k ∈ set.toList))

namespace Stream

variable {stream before after : List Buffered} {b : Buffered} {q : QubitId}

/-- The commands of a stream that touch a qubit. -/
def touching (q : QubitId) (stream : List Buffered) : List Buffered :=
  stream.filter (q ∈ ·.shape.qubits)

/-- The qubits that a stream allocates, in order. -/
def allocations (stream : List Buffered) : List QubitId := stream.filterMap (·.shape.allocates?)

/-- What a command does to the set of qubits in use. -/
def use (live : OrderedSet QubitId) (b : Buffered) : OrderedSet QubitId :=
  match b.shape with
  | .allocate q => live.insert q
  | .deallocate q => live.erase q
  | _ => live

/-- The qubits in use after a stream: they were allocated and not released since. -/
def live (stream : List Buffered) : OrderedSet QubitId := stream.foldl use ∅

/-- Whether a command may follow a stream: it allocates a qubit for the first time, or it only touches
qubits in use. -/
def Admissible (before : List Buffered) (b : Buffered) : Prop :=
  match b.shape with
  | .allocate q => q ∉ allocations before
  | shape => ∀ q ∈ shape.qubits, q ∈ live before

instance (before : List Buffered) (b : Buffered) : Decidable (Admissible before b) := by
  unfold Admissible
  split <;> infer_instance

/-- Every qubit is allocated at most once, and every other command only touches qubits in use. -/
def WellFormed (stream : List Buffered) : Prop :=
  ∀ i, (h : i < stream.length) → Admissible (stream.take i) stream[i]

instance (stream : List Buffered) : Decidable (WellFormed stream) :=
  inferInstanceAs (Decidable (∀ i, (h : i < stream.length) → Admissible (stream.take i) stream[i]))

/-- A command that allocates a qubit comes before all others that touch it. -/
def AllocatesFirst (stream : List Buffered) : Prop :=
  stream.Pairwise fun earlier later => ∀ q ∈ later.shape.allocates?, q ∉ earlier.shape.qubits

instance (stream : List Buffered) : Decidable (AllocatesFirst stream) :=
  inferInstanceAs (Decidable (stream.Pairwise _))

/-- Nothing touches a qubit in an empty stream. -/
@[simp]
lemma touching_nil (q : QubitId) : touching q [] = [] := rfl

/-- What touches a qubit in two streams does so in the first and then in the second. -/
@[simp]
lemma touching_append (q : QubitId) (before after : List Buffered) :
    touching q (before ++ after) = touching q before ++ touching q after :=
  List.filter_append _ _

/-- A command on the qubit is the first that touches it. -/
lemma touching_cons_of_mem (mem : q ∈ b.shape.qubits) :
    touching q (b :: after) = b :: touching q after :=
  List.filter_cons_of_pos (decide_eq_true mem)

/-- A command on other qubits does not touch it. -/
lemma touching_cons_of_not_mem (absent : q ∉ b.shape.qubits) :
    touching q (b :: after) = touching q after :=
  List.filter_cons_of_neg (by simpa using absent)

/-- The qubits allocated are those that some command allocates. -/
lemma mem_allocations : q ∈ allocations stream ↔ ∃ b ∈ stream, b.shape = .allocate q := by
  simp only [allocations, List.mem_filterMap, Shape.allocates?_eq_some]

/-- The allocations of two streams are those of the first and then those of the second. -/
lemma allocations_append (before after : List Buffered) :
    allocations (before ++ after) = allocations before ++ allocations after :=
  List.filterMap_append

/-- The qubits in use after one more command are those it leaves in use. -/
lemma live_append_singleton (stream : List Buffered) (b : Buffered) :
    live (stream ++ [b]) = use (live stream) b := by
  rw [live, List.foldl_append]
  rfl

/-- A command only changes whether the qubits it touches are in use. -/
lemma mem_use_of_not_mem {set : OrderedSet QubitId} (absent : q ∉ b.shape.qubits) :
    q ∈ use set b ↔ q ∈ set := by
  obtain ⟨command, shape⟩ := b
  cases shape with
  | allocate r =>
    rw [use, OrderedSet.mem_insert]
    exact or_iff_right fun same => absent (same ▸ List.mem_singleton_self _)
  | deallocate r =>
    rw [use, OrderedSet.mem_erase]
    exact and_iff_left fun same => absent (same ▸ List.mem_singleton_self _)
  | single r => rfl
  | pair r s => rfl

/-- Whether a qubit is in use only depends on the commands that touch it. -/
lemma mem_foldl_use_touching {set other : OrderedSet QubitId} (same : q ∈ set ↔ q ∈ other) :
    q ∈ stream.foldl use set ↔ q ∈ (touching q stream).foldl use other := by
  induction stream generalizing set other with
  | nil => exact same
  | cons b rest ih =>
    by_cases mem : q ∈ b.shape.qubits
    · rw [touching_cons_of_mem mem]
      refine ih ?_
      rw [use, use]
      split
      · rw [OrderedSet.mem_insert, OrderedSet.mem_insert, same]
      · rw [OrderedSet.mem_erase, OrderedSet.mem_erase, same]
      · exact same
    · rw [touching_cons_of_not_mem mem]
      exact ih ((mem_use_of_not_mem mem).trans same)

/-- Whether a qubit is in use is up to the commands that touch it. -/
lemma mem_live_touching : q ∈ live (touching q stream) ↔ q ∈ live stream :=
  (mem_foldl_use_touching Iff.rfl).symm

/-- A qubit in use was allocated. -/
lemma mem_allocations_of_mem_foldl {set : OrderedSet QubitId} (mem : q ∈ stream.foldl use set) :
    q ∈ set ∨ q ∈ allocations stream := by
  induction stream generalizing set with
  | nil => exact .inl mem
  | cons b rest ih =>
    rw [allocations, List.filterMap_cons]
    rcases ih mem with inUse | later
    · rw [use] at inUse
      split at inUse
      · next r shape =>
        rw [shape]
        rcases OrderedSet.mem_insert.mp inUse with rfl | before
        · exact .inr List.mem_cons_self
        · exact .inl before
      · exact .inl (OrderedSet.mem_erase.mp inUse).1
      · exact .inl inUse
    · cases b.shape.allocates? with
      | none => exact .inr later
      | some r => exact .inr (List.mem_cons_of_mem _ later)

/-- A qubit in use was allocated. -/
lemma mem_allocations_of_mem_live (mem : q ∈ live stream) : q ∈ allocations stream := by
  rcases mem_allocations_of_mem_foldl mem with absurdity | mem
  · exact absurd absurdity (OrderedSet.not_mem_empty q)
  · exact mem

/-- In a well-formed stream every command may follow those before it. -/
lemma WellFormed.admissible (wf : WellFormed (before ++ b :: after)) : Admissible before b := by
  have := wf before.length (by simp)
  simpa using this

/-- The beginning of a well-formed stream is well formed. -/
lemma WellFormed.of_prefix (wf : WellFormed stream) (pre : before <+: stream) : WellFormed before := by
  obtain ⟨after, rfl⟩ := pre
  intro i lt
  have := wf i (by rw [List.length_append]; omega)
  rwa [List.take_append_of_le_length (Nat.le_of_lt lt), List.getElem_append_left lt] at this

/-- In a well-formed stream every qubit is allocated first. -/
lemma WellFormed.allocatesFirst (wf : WellFormed stream) : AllocatesFirst stream := by
  rw [AllocatesFirst, List.pairwise_iff_getElem]
  intro i j lti ltj less q allocates touches
  have later := wf j ltj
  rw [Option.mem_def, Shape.allocates?_eq_some] at allocates
  rw [Admissible, allocates] at later
  refine later ?_
  have earlier := wf i lti
  rw [Admissible] at earlier
  split at earlier
  · next r shape =>
    rw [shape] at touches
    obtain rfl := List.mem_singleton.mp touches
    refine mem_allocations.mpr ⟨stream[i], ?_, shape⟩
    rw [List.mem_take_iff_getElem]
    exact ⟨i, by omega, rfl⟩
  · have inUse := mem_allocations_of_mem_live (earlier q touches)
    obtain ⟨c, mem, shape⟩ := mem_allocations.mp inUse
    exact mem_allocations.mpr ⟨c, List.take_subset_take_left _ (Nat.le_of_lt less) mem, shape⟩

/-- No qubit is allocated twice. -/
lemma AllocatesFirst.nodup (first : AllocatesFirst stream) : (allocations stream).Nodup := by
  rw [allocations, List.Nodup, List.pairwise_filterMap]
  refine first.imp fun {earlier later} apart r allocR s allocS same => ?_
  subst same
  rw [Shape.allocates?_eq_some] at allocR
  refine apart r allocS ?_
  rw [allocR]
  exact List.mem_singleton_self r

/-- The next command on a qubit in a well-formed stream allocates it if it is the first, and else finds
it in use. -/
lemma WellFormed.next (wf : WellFormed stream) (split : touching q stream = before ++ b :: after) :
    b.shape = .allocate q ∧ before = [] ∨ b.shape ≠ .allocate q ∧ q ∈ live before := by
  obtain ⟨first, rest, rfl, rfl, eq⟩ := List.filter_eq_append_iff.mp split
  obtain ⟨skipped, last, rfl, none_touch, touches, rfl⟩ := List.filter_eq_cons_iff.mp eq
  have mem : q ∈ b.shape.qubits := of_decide_eq_true touches
  -- commands in between do not touch the qubit
  have before_b : touching q (first ++ skipped) = touching q first := by
    rw [touching_append]
    have : touching q skipped = [] := List.filter_eq_nil_iff.mpr none_touch
    rw [this, List.append_nil]
  rw [← List.append_assoc] at wf
  by_cases shape : b.shape = .allocate q
  · refine .inl ⟨shape, ?_⟩
    refine (before_b.symm.trans (List.filter_eq_nil_iff.mpr ?_) : touching q first = [])
    intro c inFirst
    have apart := (List.pairwise_append.mp wf.allocatesFirst).2.2 c inFirst b List.mem_cons_self
    simpa using apart q (Shape.allocates?_eq_some.mpr shape)
  · refine .inr ⟨shape, ?_⟩
    have admissible := wf.admissible
    rw [Admissible] at admissible
    change q ∈ live (touching q first)
    rw [← before_b, mem_live_touching]
    split at admissible
    · next r other =>
      rw [other] at mem shape
      exact absurd (List.mem_singleton.mp mem ▸ rfl) shape
    · exact admissible q mem

end Stream

end QubitRouting
