import Mathlib.Data.ZMod.Basic
import QubitRouting.Proofs.Neighbours
import QubitRouting.Proofs.Progress

/-!
# Qubits that meet along paths or around a ring

The interaction graph of a stream joins the qubits that share a command. If it is a disjoint union of
paths, the qubits that meet are one step apart on a line; if it is a cycle, they are one step apart on a
circle. Either way there are coordinates, integers or residues, under which every run of qubits that meet
moves by a constant step. So no run ever closes before it goes all the way round, no qubit ever lacks a free
side, and the builder joins every pair of the stream: it never gives a qubit up.
-/

namespace QubitRouting

open Segments

namespace Stream

/-- Some command of the stream acts on both qubits. -/
def Meets (stream : List Buffered) (x y : QubitId) : Prop :=
  ∃ c ∈ stream, c.shape = .pair x y ∨ c.shape = .pair y x

/-- The interaction graph is a disjoint union of simple paths. -/
def MeetsOnPaths (stream : List Buffered) : Prop :=
  ∃ paths : List (List QubitId), paths.flatten.Nodup ∧ ∀ x y, Meets stream x y ↔ Consecutive paths x y

/-- The interaction graph is a cycle through so many qubits. -/
def MeetsOnCycle (n : Nat) (stream : List Buffered) : Prop :=
  ∃ cycle : List QubitId, cycle.Nodup ∧ cycle.length = n ∧
    ∀ x y, Meets stream x y ↔ Beside cycle x y ∨ Ends cycle x y

variable {stream before : List Buffered} {c : Buffered} {x y : QubitId}

/-- Two qubits meet exactly if some command has them as its pair, in one order or the other. -/
lemma meets_iff :
    Meets stream x y ↔ .pair x y ∈ stream.map Buffered.shape ∨ .pair y x ∈ stream.map Buffered.shape := by
  simp [Meets, and_or_left, exists_or]

/-- Meeting is mutual. -/
lemma Meets.symm (meets : Meets stream x y) : Meets stream y x := by
  obtain ⟨c, mem, shape⟩ := meets
  exact ⟨c, mem, shape.symm⟩

/-- A command that does not allocate adds no allocation. -/
lemma allocations_concat_of_not_allocate (other : ∀ q, c.shape ≠ .allocate q) :
    allocations (before ++ [c]) = allocations before := by
  rw [allocations_append, allocations_cons_of_not_allocate other]
  exact List.append_nil _

/-- After one more command two qubits meet if they met before or are its pair. -/
lemma meets_concat :
    Meets (before ++ [c]) x y ↔ Meets before x y ∨ c.shape = .pair x y ∨ c.shape = .pair y x := by
  simp [Meets, or_and_right, exists_or]

end Stream

namespace Segments

variable {m : Nat} {run : List QubitId} {x y z q : QubitId}

/-- Two qubits follow each other in a run exactly if they are at consecutive places. -/
lemma pair_infix_iff : [x, y] <:+: run ↔ ∃ i, run[i]? = some x ∧ run[i + 1]? = some y := by
  rw [List.infix_iff_getElem?]
  constructor
  · rintro ⟨k, _, here⟩
    refine ⟨k, ?_, ?_⟩
    · simpa using here 0 (by simp)
    · simpa [Nat.add_comm] using here 1 (by simp)
  · rintro ⟨i, hereX, hereY⟩
    obtain ⟨lt, _⟩ := List.getElem?_eq_some_iff.mp hereY
    refine ⟨i, ?_, ?_⟩
    · rw [List.length_cons, List.length_singleton]
      omega
    · intro k lt
      match k with
      | 0 => simpa using hereX
      | 1 => simpa [Nat.add_comm] using hereY

/-! ### Coordinates -/

/-- Places one step apart, modulo `m`, are side by side or the two ends of a list. -/
lemma beside_or_ends_of_next {i j : Nat} (length : m = 0 ∨ run.length ≤ m) (hereX : run[i]? = some x)
    (hereY : run[j]? = some y) (next : (j : ZMod m) = i + 1) :
    Beside run x y ∨ run.length = m ∧ Ends run x y := by
  obtain ⟨ltX, _⟩ := List.getElem?_eq_some_iff.mp hereX
  obtain ⟨ltY, _⟩ := List.getElem?_eq_some_iff.mp hereY
  rw [← Nat.cast_succ, ZMod.natCast_eq_natCast_iff'] at next
  have cases_on : j = i + 1 ∨ run.length = m ∧ j = 0 ∧ i + 1 = run.length := by
    rcases length with rfl | length
    · rw [Nat.mod_zero, Nat.mod_zero] at next
      exact .inl next
    · rw [Nat.mod_eq_of_lt (Nat.lt_of_lt_of_le ltY length)] at next
      rcases Nat.lt_or_ge (i + 1) m with lt | ge
      · rw [Nat.mod_eq_of_lt lt] at next
        exact .inl next
      · have full : i + 1 = m := by omega
        rw [Nat.succ_eq_add_one, full, Nat.mod_self] at next
        exact .inr ⟨by omega, next, by omega⟩
  rcases cases_on with rfl | ⟨full, rfl, last⟩
  · exact .inl (.inl (pair_infix_iff.mpr ⟨i, hereX, hereY⟩))
  · refine .inr ⟨full, .inr ⟨?_, ?_⟩⟩
    · rw [List.head?_eq_getElem?]
      exact hereY
    · rw [List.getLast?_eq_getElem?, ← last]
      exact hereX

/-- Coordinates that are all different and one step apart for qubits that meet: integers if `m` is zero,
residues modulo `m` if not. -/
structure Coordinates (m : Nat) (Meets : QubitId → QubitId → Prop) (seat : QubitId → ZMod m) : Prop where
  symm : ∀ {x y}, Meets x y → Meets y x
  inj : ∀ {x x' y y'}, Meets x x' → Meets y y' → seat x = seat y → x = y
  step : ∀ {x y}, Meets x y → seat y = seat x + 1 ∨ seat y = seat x + -1

namespace Coordinates

variable {Meets : QubitId → QubitId → Prop} {seat : QubitId → ZMod m} (coords : Coordinates m Meets seat)
include coords

/-- Nobody meets more than two others. -/
lemma size_le_two {others : OrderedSet QubitId} (meets : ∀ y ∈ others, Meets x y) : others.size ≤ 2 := by
  have nodup : (others.toList.map seat).Nodup := by
    refine others.toList_nodup.map_on ?_
    intro y memY z memZ same
    exact coords.inj (coords.symm (meets y memY)) (coords.symm (meets z memZ)) same
  have beside : others.toList.map seat ⊆ [seat x + 1, seat x + -1] := by
    intro p mem
    obtain ⟨y, memY, rfl⟩ := List.mem_map.mp mem
    rcases coords.step (meets y memY) with ahead | back
    · exact ahead ▸ List.mem_cons_self
    · exact back ▸ List.mem_cons_of_mem _ List.mem_cons_self
  have count := (nodup.subperm beside).length_le
  rwa [List.length_map] at count

/-- A run of qubits that meet never turns back. -/
lemma along {rest : List QubitId} {ε : ZMod m} (unit : ε = 1 ∨ ε = -1) (nodup : (x :: y :: rest).Nodup)
    (meets : ∀ {a b}, Beside (x :: y :: rest) a b → Meets a b) (first : seat y = seat x + ε) {i : Nat}
    (here : (x :: y :: rest)[i]? = some q) : seat q = seat x + i * ε := by
  induction rest generalizing x y i with
  | nil =>
    match i with
    | 0 =>
      cases here
      simp
    | 1 =>
      cases here
      simpa using first
  | cons z rest ih =>
    obtain ⟨absent, nodup⟩ := List.nodup_cons.mp nodup
    have ahead {a b : QubitId} (beside : Beside (y :: z :: rest) a b) : Meets a b :=
      meets (beside.imp (·.trans (List.suffix_cons x _).isInfix) (·.trans (List.suffix_cons x _).isInfix))
    have meetsX : Meets x y := meets (.inl ⟨[], z :: rest, rfl⟩)
    have meetsZ : Meets y z := ahead (.inl ⟨[], rest, rfl⟩)
    -- a step back would lead to `x`
    have next : seat z = seat y + ε := by
      have other : seat z ≠ seat y + -ε := by
        intro back
        rw [first, add_assoc, add_neg_cancel, add_zero] at back
        have same := coords.inj (coords.symm meetsZ) meetsX back
        exact absent (same ▸ by simp)
      rcases unit with rfl | rfl
      · exact (coords.step meetsZ).resolve_right other
      · exact (coords.step meetsZ).resolve_left fun back => other (by rw [back, neg_neg])
    cases i with
    | zero =>
      cases here
      simp
    | succ i =>
      rw [ih nodup ahead next here, first, Nat.cast_succ]
      ring

/-- Along a run whose neighbours meet, coordinates go up or down by one at every place. -/
lemma exists_step (nodup : run.Nodup) (meets : ∀ {a b}, Beside run a b → Meets a b) :
    ∃ start ε : ZMod m, (ε = 1 ∨ ε = -1) ∧
      ∀ {i : Nat} {q : QubitId}, run[i]? = some q → seat q = start + i * ε := by
  cases run with
  | nil => exact ⟨0, 1, .inl rfl, nofun⟩
  | cons x rest =>
    cases rest with
    | nil =>
      refine ⟨seat x, 1, .inl rfl, ?_⟩
      intro i q here
      match i with
      | 0 =>
        cases here
        simp
    | cons y rest =>
      have first : Meets x y := meets (.inl ⟨[], rest, rfl⟩)
      rcases coords.step first with up | down
      · exact ⟨seat x, 1, .inl rfl, coords.along (.inl rfl) nodup meets up⟩
      · exact ⟨seat x, -1, .inr rfl, coords.along (.inr rfl) nodup meets down⟩

/-- Qubits of one run that meet stand side by side, unless the run goes all the way round. -/
lemma beside_or_ends (nodup : run.Nodup) (meets : ∀ {a b}, Beside run a b → Meets a b)
    (length : m = 0 ∨ run.length ≤ m) (memX : x ∈ run) (memY : y ∈ run) (meeting : Meets x y) :
    Beside run x y ∨ run.length = m ∧ Ends run x y := by
  obtain ⟨start, ε, unit, seats⟩ := coords.exists_step nodup meets
  obtain ⟨i, hereX⟩ := List.mem_iff_getElem?.mp memX
  obtain ⟨j, hereY⟩ := List.mem_iff_getElem?.mp memY
  have next : (j : ZMod m) = i + 1 ∨ (i : ZMod m) = j + 1 := by
    have apart := coords.step meeting
    rw [seats hereX, seats hereY, add_assoc, add_assoc, add_right_inj, add_right_inj] at apart
    rcases unit with rfl | rfl
    · rw [mul_one, mul_one] at apart
      exact apart.imp id fun down => by rw [down, neg_add_cancel_right]
    · rw [mul_neg_one, mul_neg_one] at apart
      refine apart.symm.imp (fun down => ?_) fun up => ?_
      · linear_combination -down
      · linear_combination up
  rcases next with next | next
  · exact beside_or_ends_of_next length hereX hereY next
  · refine (beside_or_ends_of_next length hereY hereX next).imp Beside.symm ?_
    exact fun ⟨full, ends⟩ => ⟨full, ends.symm⟩

end Coordinates

section Index

variable {all : List QubitId}

/-- In a list without repetitions the place of an item is the one where it is found. -/
lemma idxOf_of_getElem? {i : Nat} (nodup : all.Nodup) (here : all[i]? = some x) : all.idxOf x = i := by
  obtain ⟨lt, rfl⟩ := List.getElem?_eq_some_iff.mp here
  exact nodup.idxOf_getElem i lt

/-- The places of two qubits side by side are one apart. -/
lemma idxOf_of_beside (nodup : all.Nodup) (beside : Beside all x y) :
    all.idxOf y = all.idxOf x + 1 ∨ all.idxOf x = all.idxOf y + 1 := by
  rcases beside with infixed | infixed
  · obtain ⟨i, hereX, hereY⟩ := pair_infix_iff.mp infixed
    exact .inl (by rw [idxOf_of_getElem? nodup hereX, idxOf_of_getElem? nodup hereY])
  · obtain ⟨i, hereY, hereX⟩ := pair_infix_iff.mp infixed
    exact .inr (by rw [idxOf_of_getElem? nodup hereX, idxOf_of_getElem? nodup hereY])

/-- The ends of a run are at its first and its last place. -/
lemma idxOf_of_ends (nodup : all.Nodup) (ends : Ends all x y) :
    all.idxOf x = 0 ∧ all.idxOf y + 1 = all.length ∨ all.idxOf y = 0 ∧ all.idxOf x + 1 = all.length := by
  have positive : 0 < all.length := List.length_pos_of_mem ends.mem
  have bounds {x y : QubitId} (first : all.head? = some x) (last : all.getLast? = some y) :
      all.idxOf x = 0 ∧ all.idxOf y + 1 = all.length := by
    rw [List.head?_eq_getElem?] at first
    rw [List.getLast?_eq_getElem?] at last
    rw [idxOf_of_getElem? nodup first, idxOf_of_getElem? nodup last]
    omega
  exact ends.imp (fun ⟨first, last⟩ => bounds first last) fun ⟨first, last⟩ => bounds first last

/-- Qubits that meet along a list, or around it, have their indices as coordinates. -/
lemma coordinates_idxOf {Meets : QubitId → QubitId → Prop} (nodup : all.Nodup)
    (length : m = 0 ∨ all.length ≤ m) (symm : ∀ {x y}, Meets x y → Meets y x)
    (along : ∀ {x y}, Meets x y → Beside all x y ∨ all.length = m ∧ Ends all x y) :
    Coordinates m Meets fun q => (all.idxOf q : ZMod m) := by
  have mem {x y : QubitId} (meets : Meets x y) : x ∈ all := by
    rcases along meets with beside | ⟨_, ends⟩
    · exact beside.mem
    · exact ends.mem
  refine ⟨symm, ?_, ?_⟩
  · intro x x' y y' meetsX meetsY same
    have ltX : all.idxOf x < all.length := List.idxOf_lt_length_iff.mpr (mem meetsX)
    have ltY : all.idxOf y < all.length := List.idxOf_lt_length_iff.mpr (mem meetsY)
    apply (List.idxOf_inj (mem meetsX)).mp
    rw [ZMod.natCast_eq_natCast_iff'] at same
    rcases length with rfl | length
    · rwa [Nat.mod_zero, Nat.mod_zero] at same
    · rwa [Nat.mod_eq_of_lt (by omega), Nat.mod_eq_of_lt (by omega)] at same
  · intro x y meets
    rcases along meets with beside | ⟨full, ends⟩
    · rcases idxOf_of_beside nodup beside with next | next
      · exact .inl (by rw [next, Nat.cast_succ])
      · exact .inr (by rw [next, Nat.cast_succ, add_neg_cancel_right])
    · have round : ((all.length : Nat) : ZMod m) = 0 := by rw [full, ZMod.natCast_self]
      rcases idxOf_of_ends nodup ends with ⟨first, last⟩ | ⟨first, last⟩
      · right
        rw [first, Nat.cast_zero, zero_add, eq_neg_iff_add_eq_zero, ← Nat.cast_succ, ← round]
        exact congrArg _ last
      · left
        rw [first, Nat.cast_zero, ← Nat.cast_succ, ← round]
        exact congrArg _ last.symm

end Index

end Segments

namespace Stream

/-- There are coordinates for the qubits of a stream, on a line or around a ring of `n` positions. -/
def Linear (n : Nat) (cyclic : Bool) (stream : List Buffered) : Prop :=
  ∃ (m : Nat) (seat : QubitId → ZMod m), (m = 0 ∨ m = n ∧ cyclic = true) ∧
    Coordinates m (Meets stream) seat

variable {n : Nat} {cyclic : Bool} {stream : List Buffered}

/-- Qubits that meet along paths have coordinates on a line. -/
lemma MeetsOnPaths.linear (meets : MeetsOnPaths stream) : Linear n cyclic stream := by
  obtain ⟨paths, nodup, along⟩ := meets
  refine ⟨0, _, .inl rfl, coordinates_idxOf nodup (.inl rfl) Meets.symm ?_⟩
  intro x y meeting
  obtain ⟨path, mem, beside⟩ := (along x y).mp meeting
  have part := List.infix_of_mem_flatten mem
  exact .inl (beside.imp (·.trans part) (·.trans part))

/-- Qubits that meet around a cycle have coordinates on the ring. -/
lemma MeetsOnCycle.linear (meets : MeetsOnCycle n stream) (ring : cyclic = true) :
    Linear n cyclic stream := by
  obtain ⟨cycle, nodup, length, around⟩ := meets
  refine ⟨n, _, .inr ⟨rfl, ring⟩, coordinates_idxOf nodup (.inr length.le) Meets.symm ?_⟩
  intro x y meeting
  exact ((around x y).mp meeting).imp_right fun ends => ⟨length, ends⟩

end Stream

/-! ### The builder gives nobody up -/

namespace Segments

variable {run : List QubitId} {runs : List (List QubitId)} {a b q x y : QubitId}

/-- Two qubits that cannot be joined are in one run already. -/
lemma exists_run_of_join?_eq_none (failed : join? runs a b = none) : ∃ run ∈ runs, a ∈ run ∧ b ∈ run := by
  have inRun {q : QubitId} {found : RunEnd} (here : endOf? runs q = some found) :
      found.run ∈ runs ∧ q ∈ found.run ∧ runs[found.index]? = some found.run := by
    obtain ⟨place, side⟩ := endOf?_eq_some here
    refine ⟨List.mem_of_getElem? place, ?_, place⟩
    cases which : found.side with
    | left =>
      rw [which] at side
      exact List.mem_of_head? side
    | right =>
      rw [which] at side
      exact List.mem_of_getLast? side
  -- only the two ends of one run are not joined
  rw [join?] at failed
  cases foundA : endOf? runs a with
  | none =>
    rw [foundA] at failed
    cases foundB : endOf? runs b with
    | none =>
      rw [foundB] at failed
      cases failed
    | some endB =>
      rw [foundB] at failed
      cases failed
  | some endA =>
    rw [foundA] at failed
    cases foundB : endOf? runs b with
    | none =>
      rw [foundB] at failed
      cases failed
    | some endB =>
      rw [foundB] at failed
      obtain ⟨memA, inA, hereA⟩ := inRun foundA
      obtain ⟨memB, inB, hereB⟩ := inRun foundB
      dsimp only at failed
      split at failed
      case isTrue same =>
        rw [same, hereB] at hereA
        rw [← Option.some.inj hereA] at inA
        exact ⟨endB.run, memB, inA, inB⟩
      case isFalse => split at failed <;> cases failed

namespace Builder

variable {builder : Builder} {stream before : List Buffered}

/-- Two qubits were made neighbours: side by side, or as the two ends of a run around the ring. -/
def Linked (builder : Builder) (x y : QubitId) : Prop :=
  Consecutive builder.runs x y ∨ builder.Wraps x y

/-- Being linked is mutual. -/
lemma Linked.symm (linked : builder.Linked x y) : builder.Linked y x :=
  linked.imp Consecutive.symm Wraps.symm

/-- What holds after a part of a stream: the qubits that hold a position and those in the game are as the
stream has them, qubits side by side meet, and those that met so far are linked. -/
structure Keeps (stream before : List Buffered) (builder : Builder) : Prop where
  sound : builder.Sound
  recorded : builder.Exact
  allocated_iff : ∀ {q}, q ∈ builder.allocated ↔ q ∈ Stream.allocations before
  active_iff : ∀ {q}, q ∈ builder.active ↔ q ∈ Stream.live before
  meets : ∀ {x y}, Consecutive builder.runs x y → Stream.Meets stream x y
  linked : ∀ {x y}, Stream.Meets before x y → builder.Linked x y

namespace Keeps

variable (keeps : Keeps stream before builder)
include keeps

section Linear

variable (linear : Stream.Linear builder.numQubits builder.cyclic stream)
include linear

/-- Qubits of one run that meet are linked. -/
lemma linked_of_run (mem : run ∈ builder.runs) (inA : a ∈ run) (inB : b ∈ run)
    (meeting : Stream.Meets stream a b) : builder.Linked a b := by
  obtain ⟨m, seat, which, coords⟩ := linear
  have length : m = 0 ∨ run.length ≤ m := by
    rcases which with line | ⟨ring, _⟩
    · exact .inl line
    · exact .inr (ring ▸ keeps.sound.length_le mem)
  rcases coords.beside_or_ends (keeps.sound.nodup_run mem) (fun beside => keeps.meets ⟨run, mem, beside⟩)
    length inA inB meeting with beside | ⟨full, ends⟩
  · exact .inl ⟨run, mem, beside⟩
  · have positive : 0 < run.length := List.length_pos_of_mem inA
    rcases which with line | ⟨ring, closed⟩
    · omega
    · exact .inr ⟨closed, run, mem, full.trans ring, ends⟩

/-- A qubit has a free side for every qubit that it meets and is not linked to. -/
lemma size_le (placedA : a ∈ builder.allocated) (placedB : b ∈ builder.allocated)
    (meeting : Stream.Meets stream a b) (new : ¬builder.Linked a b) : (builder.neighboursOf a).size ≤ 1 := by
  have absent : b ∉ builder.neighboursOf a := fun mem => new ((keeps.recorded a b).mp mem)
  have meets : ∀ c ∈ (builder.neighboursOf a).insert b, Stream.Meets stream a c := by
    intro c mem
    rcases OrderedSet.mem_insert.mp mem with rfl | mem
    · exact meeting
    · rcases (keeps.recorded a c).mp mem with consecutive | ⟨_, run, inRuns, full, _⟩
      · exact keeps.meets consecutive
      · -- a run all the way round holds both qubits
        have inA := keeps.sound.mem_of_full inRuns full placedA
        have inB := keeps.sound.mem_of_full inRuns full placedB
        exact absurd (keeps.linked_of_run linear inRuns inA inB meeting) new
  obtain ⟨m, seat, _, coords⟩ := linear
  have count := coords.size_le_two meets
  rw [OrderedSet.size_insert_of_not_mem absent] at count
  exact Nat.le_of_succ_le_succ count

/-- Two qubits in the game that meet are linked, unless they were already, and nothing else happens. -/
lemma addPair_eq (activeA : a ∈ builder.active) (activeB : b ∈ builder.active)
    (meeting : Stream.Meets stream a b) :
    builder.Linked a b ∧ builder.addPair a b = builder ∨
      ∃ run joined, join? builder.runs a b = some (run, joined) ∧
        builder.addPair a b = ({ builder with runs := joined }.link a b).closeRing run := by
  have known : (builder.neighboursOf b).contains a = true ↔ builder.Linked a b := by
    rw [OrderedSet.contains_iff, keeps.recorded]
    exact ⟨Linked.symm, Linked.symm⟩
  rw [Builder.addPair]
  by_cases linked : builder.Linked a b
  · exact .inl ⟨linked, if_pos (known.mpr linked)⟩
  · have placedA := keeps.sound.active a activeA
    have placedB := keeps.sound.active b activeB
    have freeA := keeps.size_le linear placedA placedB meeting linked
    have freeB := keeps.size_le linear placedB placedA meeting.symm fun other => linked other.symm
    have active : (builder.active.contains a && builder.active.contains b) = true := by
      rw [Bool.and_eq_true, OrderedSet.contains_iff, OrderedSet.contains_iff]
      exact ⟨activeA, activeB⟩
    have free : ((builder.neighboursOf a).size > 1 || (builder.neighboursOf b).size > 1) = false := by
      simpa using ⟨freeA, freeB⟩
    rw [if_neg (mt known.mp linked), active, free]
    cases join : join? builder.runs a b with
    | none =>
      obtain ⟨run, mem, inA, inB⟩ := exists_run_of_join?_eq_none join
      exact absurd (keeps.linked_of_run linear mem inA inB meeting) linked
    | some result => exact .inr ⟨result.1, result.2, rfl, rfl⟩

/-- Making the two qubits of a command neighbours keeps account of the stream. -/
lemma pair {c : Buffered} (shape : c.shape = .pair a b) (mem : c ∈ stream) (ne : a ≠ b)
    (activeA : a ∈ builder.active) (activeB : b ∈ builder.active) :
    Keeps stream (before ++ [c]) (builder.addPair a b) := by
  have meeting : Stream.Meets stream a b := ⟨c, mem, .inl shape⟩
  have allocated_iff {q : QubitId} : q ∈ builder.allocated ↔ q ∈ Stream.allocations (before ++ [c]) := by
    rw [Stream.allocations_concat_of_not_allocate (by rw [shape]; exact nofun)]
    exact keeps.allocated_iff
  have active_iff {q : QubitId} : q ∈ builder.active ↔ q ∈ Stream.live (before ++ [c]) := by
    rw [Stream.live_append_singleton, Stream.use, shape]
    exact keeps.active_iff
  have before_or {x y : QubitId} (met : Stream.Meets (before ++ [c]) x y) :
      Stream.Meets before x y ∨ x = a ∧ y = b ∨ x = b ∧ y = a := by
    have cases_on := Stream.meets_concat.mp met
    rw [shape] at cases_on
    rcases cases_on with earlier | ⟨⟨⟩⟩ | ⟨⟨⟩⟩
    · exact .inl earlier
    · exact .inr (.inl ⟨rfl, rfl⟩)
    · exact .inr (.inr ⟨rfl, rfl⟩)
  rcases keeps.addPair_eq linear activeA activeB meeting with ⟨linked, same⟩ | ⟨run, joined, join, grown⟩
  · -- the two are linked already, and nothing changes
    rw [same]
    refine ⟨keeps.sound, keeps.recorded, allocated_iff, active_iff, keeps.meets, ?_⟩
    intro x y met
    rcases before_or met with earlier | ⟨rfl, rfl⟩ | ⟨rfl, rfl⟩
    · exact keeps.linked earlier
    · exact linked
    · exact linked.symm
  · -- two runs become one, in which just these two are new neighbours
    obtain ⟨how⟩ := joined_of_join? join
    have sound := keeps.sound.addPair ne
    have recorded := keeps.recorded.addPair keeps.sound ne
    rw [grown] at sound recorded ⊢
    refine ⟨sound, recorded, ?_, ?_, ?_, ?_⟩
    · rw [closeRing_allocated]
      exact allocated_iff
    · rw [closeRing_active]
      exact active_iff
    · rw [closeRing_runs]
      intro x y consecutive
      rcases how.consecutive_iff.mp consecutive with former | ⟨rfl, rfl⟩ | ⟨rfl, rfl⟩
      · exact keeps.meets former
      · exact meeting
      · exact meeting.symm
    · intro x y met
      rw [Linked, closeRing_runs,
        wraps_join how sound (closeRing_runs _ _) (closeRing_numQubits _ _) (closeRing_cyclic _ _)]
      rcases before_or met with earlier | new
      · exact (keeps.linked earlier).imp (fun former => how.consecutive_iff.mpr (.inl former)) .inl
      · exact .inl (how.consecutive_iff.mpr (.inr new))

end Linear

variable {c : Buffered}

/-- As many qubits hold a position as were allocated. -/
lemma size_eq (nodup : (Stream.allocations before).Nodup) :
    builder.allocated.size = (Stream.allocations before).length := by
  refine List.Perm.length_eq ?_
  refine (List.perm_ext_iff_of_nodup builder.allocated.toList_nodup nodup).mpr fun q => ?_
  exact keeps.allocated_iff

/-- While commands come that may follow, there is something left to do. -/
lemma not_settled (admissible : Stream.Admissible before c) (nodup : (Stream.allocations before).Nodup)
    (room : (Stream.allocations (before ++ [c])).length ≤ builder.numQubits) : builder.settled = false := by
  apply Bool.eq_false_iff.mpr
  intro settled
  rw [Builder.settled, Bool.and_eq_true, beq_iff_eq, OrderedSet.isEmpty_iff, keeps.size_eq nodup] at settled
  obtain ⟨full, idle⟩ := settled
  have inUse : ∀ q, q ∉ Stream.live before := fun q mem => idle q (keeps.active_iff.mpr mem)
  obtain ⟨command, shape⟩ := c
  cases shape with
  | allocate q =>
    rw [Stream.allocations_append, List.length_append] at room
    simp [Stream.allocations, Shape.allocates?] at room full
    omega
  | deallocate q => exact inUse q (admissible q (by simp [Shape.qubits]))
  | single q => exact inUse q (admissible q (by simp [Shape.qubits]))
  | pair a b => exact inUse a (admissible a (by simp [Shape.qubits]))

/-- One command of a linear stream with room for its qubits keeps account of the stream. -/
lemma step (linear : Stream.Linear builder.numQubits builder.cyclic stream) (mem : c ∈ stream)
    (distinct : ∀ a b, c.shape = .pair a b → a ≠ b) (admissible : Stream.Admissible before c)
    (nodup : (Stream.allocations before).Nodup)
    (room : (Stream.allocations (before ++ [c])).length ≤ builder.numQubits) :
    Keeps stream (before ++ [c]) (builder.step c.shape) := by
  have fresh : ∀ q ∈ c.shape.allocates?, q ∉ builder.allocated := by
    intro q allocates placed
    have shape := Shape.allocates?_eq_some.mp allocates
    rw [Stream.Admissible, shape] at admissible
    exact admissible (keeps.allocated_iff.mp placed)
  have sound := keeps.sound.step (keeps.sound.loose fresh) distinct
  have recorded := keeps.recorded.step keeps.sound fresh distinct
  have size := keeps.size_eq nodup
  obtain ⟨command, shape⟩ := c
  cases shape with
  | allocate q =>
    -- no more qubits are allocated than there are positions
    have grows : builder.allocated.size < builder.numQubits := by
      rw [Stream.allocations_append, List.length_append, ← size] at room
      exact room
    rw [Builder.step, Builder.allocate, if_pos grows] at sound recorded ⊢
    refine ⟨sound, recorded, ?_, ?_, keeps.meets, ?_⟩
    · intro r
      rw [Stream.allocations_append, List.mem_append, ← keeps.allocated_iff, or_comm]
      exact OrderedSet.mem_insert.trans (or_congr_left List.mem_singleton.symm)
    · intro r
      rw [Stream.live_append_singleton]
      exact OrderedSet.mem_insert.trans ((or_congr_right keeps.active_iff).trans OrderedSet.mem_insert.symm)
    · exact fun met => keeps.linked ((Stream.meets_concat.mp met).resolve_right (by simp))
  | deallocate q =>
    refine ⟨sound, recorded, ?_, ?_, keeps.meets, ?_⟩
    · rw [Stream.allocations_concat_of_not_allocate (c := ⟨command, .deallocate q⟩) (by simp)]
      exact keeps.allocated_iff
    · intro r
      rw [Stream.live_append_singleton]
      exact OrderedSet.mem_erase.trans ((and_congr_left' keeps.active_iff).trans OrderedSet.mem_erase.symm)
    · exact fun met => keeps.linked ((Stream.meets_concat.mp met).resolve_right (by simp))
  | single q =>
    refine ⟨sound, recorded, ?_, ?_, keeps.meets, ?_⟩
    · rw [Stream.allocations_concat_of_not_allocate (c := ⟨command, .single q⟩) (by simp)]
      exact keeps.allocated_iff
    · intro r
      rw [Stream.live_append_singleton]
      exact keeps.active_iff
    · exact fun met => keeps.linked ((Stream.meets_concat.mp met).resolve_right (by simp))
  | pair a b =>
    refine keeps.pair linear rfl mem (distinct a b rfl) ?_ ?_
    · exact keeps.active_iff.mpr (admissible a (by simp [Shape.qubits]))
    · exact keeps.active_iff.mpr (admissible b (by simp [Shape.qubits]))

end Keeps

/-- The pass over one more command goes on with it unless it had settled before. -/
lemma run_concat (builder : Builder) (commands : List Buffered) (c : Buffered) :
    builder.run (commands ++ [c]) =
      if (builder.run commands).settled then builder.run commands else (builder.run commands).step c.shape := by
  rw [Builder.run, List.foldl_append]
  rfl

/-- Over a stream whose qubits meet along paths or around the ring, every pair that meets is linked. -/
lemma keeps_run {n : Nat} {cyclic : Bool} (linear : Stream.Linear n cyclic stream)
    (wellFormed : Stream.WellFormed stream) (room : (Stream.allocations stream).length ≤ n)
    (distinct : ∀ c ∈ stream, ∀ a b, c.shape = .pair a b → a ≠ b) (part : before <+: stream) :
    Keeps stream before ((start n cyclic ∅).run before) := by
  induction before using List.reverseRecOn with
  | nil =>
    refine ⟨sound_start cyclic (Nat.zero_le n), exact_start n cyclic ∅, ?_, ?_, ?_, ?_⟩
    · exact fun {q} => iff_of_false (OrderedSet.not_mem_empty q) List.not_mem_nil
    · exact Iff.rfl
    · rintro x y ⟨run, mem, _⟩
      cases mem
    · rintro x y ⟨c, mem, _⟩
      cases mem
  | append_singleton before c ih =>
    have keeps := ih ((List.prefix_append before [c]).trans part)
    have wellFormedPart := wellFormed.of_prefix part
    have nodup := wellFormedPart.allocatesFirst.nodup
    have admissible := wellFormedPart.admissible
    have mem : c ∈ stream := part.subset (by simp)
    rw [Stream.allocations_append] at nodup
    have nodup := nodup.sublist (List.sublist_append_left _ _)
    have size : ((start n cyclic ∅).run before).numQubits = n := run_numQubits _ _
    have ring : ((start n cyclic ∅).run before).cyclic = cyclic := run_cyclic _ _
    have roomPart : (Stream.allocations (before ++ [c])).length ≤ ((start n cyclic ∅).run before).numQubits := by
      rw [size]
      exact (part.sublist.filterMap _).length_le.trans room
    rw [run_concat, keeps.not_settled admissible nodup roomPart]
    exact keeps.step (size.symm ▸ ring.symm ▸ linear) mem (distinct c mem) admissible nodup roomPart

end Builder

end Segments

end QubitRouting
