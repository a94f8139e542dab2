import Mathlib.Data.List.Perm.Basic
import QubitRouting.Proofs.Stream
import QubitRouting.Segment

/-!
# Segments are disjoint runs

While no qubit in a run is allocated again, the builder keeps every qubit in at most one run. The invariant
that carries this is `Builder.Sound`; its part about neighbours says that a qubit with two qubits beside it
has no side left, so that runs only ever grow at their ends. Whatever the commands, no run ever comes apart:
qubits that stand side by side stay side by side.
-/

namespace QubitRouting.Segments

open scoped List

variable {run left right : List QubitId} {runs : List (List QubitId)} {a b q x y : QubitId}

/-! ### Side by side -/

/-- Two qubits stand side by side in a run. -/
def Beside (run : List QubitId) (x y : QubitId) : Prop := [x, y] <:+: run ∨ [y, x] <:+: run

/-- Two qubits stand side by side in one of the runs. -/
def Consecutive (runs : List (List QubitId)) (x y : QubitId) : Prop := ∃ run ∈ runs, Beside run x y

/-- Standing side by side is mutual. -/
lemma Beside.symm (beside : Beside run x y) : Beside run y x := Or.symm beside

/-- Reversing a run keeps who stands side by side. -/
lemma beside_reverse : Beside run.reverse x y ↔ Beside run x y := by
  have flip (x y : QubitId) : [x, y] <:+: run.reverse ↔ [y, x] <:+: run := by
    rw [← List.reverse_infix, List.reverse_reverse]
    rfl
  rw [Beside, Beside, flip, flip, or_comm]

/-- Nobody stands beside a qubit alone. -/
lemma not_beside_singleton (q : QubitId) : ¬Beside [q] x y := by
  rintro (infixed | infixed)
  all_goals
    have := infixed.length_le
    simp at this

/-- A pair in a concatenation is in one of the parts or where they meet. -/
lemma pair_infix_append :
    [x, y] <:+: left ++ right ↔
      [x, y] <:+: left ∨ [x, y] <:+: right ∨ left.getLast? = some x ∧ right.head? = some y := by
  induction left with
  | nil => simp
  | cons z rest ih =>
    rw [List.cons_append, List.infix_cons_iff, List.infix_cons_iff, ih]
    cases rest with
    | nil =>
      cases right with
      | nil => simp
      | cons w right => simp [List.cons_prefix_cons]; tauto
    | cons w rest => simp [List.cons_prefix_cons]; tauto

/-- In two runs put together qubits stand side by side as before, or where the runs meet. -/
lemma beside_append :
    Beside (left ++ right) x y ↔ Beside left x y ∨ Beside right x y ∨
      (left.getLast? = some x ∧ right.head? = some y ∨ left.getLast? = some y ∧ right.head? = some x) := by
  rw [Beside, Beside, Beside, pair_infix_append, pair_infix_append]
  tauto

/-! ### Joining runs -/

/-- The end found for a qubit is an end of one of the runs. -/
lemma endOf?_eq_some {runEnd : RunEnd} (found : endOf? runs q = some runEnd) :
    runs[runEnd.index]? = some runEnd.run ∧
      match runEnd.side with
      | .left => runEnd.run.head? = some q
      | .right => runEnd.run.getLast? = some q := by
  obtain ⟨⟨run, index⟩, mem, here⟩ := List.exists_of_findSome?_eq_some found
  have place := List.mem_zipIdx_iff_getElem?.mp mem
  simp only at here
  split at here
  · next first =>
    obtain rfl := Option.some.inj here
    exact ⟨place, first⟩
  · split at here
    · next last =>
      obtain rfl := Option.some.inj here
      exact ⟨place, last⟩
    · cases here

/-- If no end is found for a qubit, it begins and ends no run. -/
lemma endOf?_eq_none (none_found : endOf? runs q = none) (mem : run ∈ runs) :
    run.head? ≠ some q ∧ run.getLast? ≠ some q := by
  obtain ⟨index, here⟩ := List.mem_iff_getElem?.mp mem
  have absent := List.findSome?_eq_none_iff.mp none_found (run, index)
    (List.mem_zipIdx_iff_getElem?.mpr here)
  simp only at absent
  split at absent
  · cases absent
  · next notFirst =>
    split at absent
    · cases absent
    · next notLast => exact ⟨notFirst, notLast⟩

/-- A qubit is in a run, but begins and ends none. -/
def Inside (runs : List (List QubitId)) (q : QubitId) : Prop :=
  q ∈ runs.flatten ∧ ∀ run ∈ runs, run.head? ≠ some q ∧ run.getLast? ≠ some q

/-- What a qubit brings to a new run: itself if it was in no run, else its former run in one of the two
directions. -/
inductive Piece (q : QubitId) : List (List QubitId) → List QubitId → Prop where
  | fresh : Piece q [] [q]
  | forward (run : List QubitId) : Piece q [run] run
  | backward (run : List QubitId) : Piece q [run] run.reverse

/-- How two runs become one: a piece that ends with `a` meets a piece that begins with `b`, and the
other runs stay. -/
structure Joined (runs : List (List QubitId)) (a b : QubitId) (run : List QubitId)
    (joined : List (List QubitId)) where
  /-- The former run of `a`, if it had one. -/
  runOfA : List (List QubitId)
  /-- The former run of `b`, if it had one. -/
  runOfB : List (List QubitId)
  /-- The piece that ends with `a`. -/
  left : List QubitId
  /-- The piece that begins with `b`. -/
  right : List QubitId
  /-- The other runs. -/
  rest : List (List QubitId)
  pieceA : Piece a runOfA left
  pieceB : Piece b runOfB right
  last : left.getLast? = some a
  head : right.head? = some b
  either : run = left ++ right ∨ run = (left ++ right).reverse
  before : runs.Perm (runOfA ++ runOfB ++ rest)
  after : joined.Perm (run :: rest)
  freshA : runOfA = [] → endOf? runs a = none
  freshB : runOfB = [] → endOf? runs b = none

/-- Writing over an item exchanges it for another. -/
lemma set_perm {α : Type} {l : List α} {i : Nat} {old : α} (here : l[i]? = some old) (new : α) :
    ∃ rest, l.Perm (old :: rest) ∧ (l.set i new).Perm (new :: rest) := by
  obtain ⟨lt, _⟩ := List.getElem?_eq_some_iff.mp here
  exact ⟨l.eraseIdx i, (cons_eraseIdx_perm here).symm, List.set_perm_cons_eraseIdx lt new⟩

/-- Writing over an item and taking out another one leaves the new item and the rest. -/
lemma set_eraseIdx_perm {α : Type} {l : List α} {i j : Nat} {old dropped : α} (here : l[i]? = some old)
    (there : l[j]? = some dropped) (ne : i ≠ j) (new : α) :
    ∃ rest, l.Perm (old :: dropped :: rest) ∧ ((l.set i new).eraseIdx j).Perm (new :: rest) := by
  obtain ⟨lt, _⟩ := List.getElem?_eq_some_iff.mp here
  have still : (l.set i new)[j]? = some dropped := by rwa [List.getElem?_set_ne ne]
  have mem : dropped ∈ l.eraseIdx i :=
    List.mem_eraseIdx_iff_getElem?.mpr ⟨j, Ne.symm ne, there⟩
  obtain ⟨rest, split⟩ : ∃ rest, (l.eraseIdx i).Perm (dropped :: rest) := by
    obtain ⟨before, after, eq⟩ := List.append_of_mem mem
    exact ⟨before ++ after, eq ▸ List.perm_middle⟩
  refine ⟨rest, (cons_eraseIdx_perm here).symm.trans (split.cons _), ?_⟩
  have both : dropped :: (l.set i new).eraseIdx j ~ dropped :: new :: rest :=
    calc
      dropped :: (l.set i new).eraseIdx j ~ l.set i new := cons_eraseIdx_perm still
      _ ~ new :: l.eraseIdx i := List.set_perm_cons_eraseIdx lt new
      _ ~ new :: dropped :: rest := split.cons new
      _ ~ dropped :: new :: rest := .swap _ _ _
  exact both.cons_inv

/-- Joining the runs of two qubits does what it should. -/
lemma joined_of_join? {joined : List (List QubitId)} (some_joined : join? runs a b = some (run, joined)) :
    Nonempty (Joined runs a b run joined) := by
  rw [join?] at some_joined
  cases foundA : endOf? runs a with
  | none =>
    cases foundB : endOf? runs b with
    | none =>
      rw [foundA, foundB] at some_joined
      cases some_joined
      exact ⟨⟨[], [], [a], [b], runs, .fresh, .fresh, rfl, rfl, .inl rfl, .refl _,
        List.perm_append_singleton _ _, fun _ => foundA, fun _ => foundB⟩⟩
    | some endB =>
      rw [foundA, foundB] at some_joined
      obtain ⟨here, side⟩ := endOf?_eq_some foundB
      obtain ⟨rest, before, after⟩ := set_perm here (endB.extend a)
      cases some_joined
      rw [RunEnd.extend] at after ⊢
      cases which : endB.side with
      | left =>
        rw [which] at side after
        exact ⟨⟨[], [endB.run], [a], endB.run, rest, .fresh, .forward _, rfl, side, .inl rfl, before,
          after, fun _ => foundA, nofun⟩⟩
      | right =>
        rw [which] at side after
        exact ⟨⟨[], [endB.run], [a], endB.run.reverse, rest, .fresh, .backward _, rfl, by simpa using side,
          .inr (by simp), before, after, fun _ => foundA, nofun⟩⟩
  | some endA =>
    obtain ⟨hereA, sideA⟩ := endOf?_eq_some foundA
    cases foundB : endOf? runs b with
    | none =>
      rw [foundA, foundB] at some_joined
      obtain ⟨rest, before, after⟩ := set_perm hereA (endA.extend b)
      cases some_joined
      rw [RunEnd.extend] at after ⊢
      cases which : endA.side with
      | left =>
        rw [which] at sideA after
        exact ⟨⟨[endA.run], [], endA.run.reverse, [b], rest, .backward _, .fresh, by simpa using sideA, rfl,
          .inr (by simp), before, after, nofun, fun _ => foundB⟩⟩
      | right =>
        rw [which] at sideA after
        exact ⟨⟨[endA.run], [], endA.run, [b], rest, .forward _, .fresh, sideA, rfl, .inl rfl, before,
          after, nofun, fun _ => foundB⟩⟩
    | some endB =>
      obtain ⟨hereB, sideB⟩ := endOf?_eq_some foundB
      rw [foundA, foundB] at some_joined
      simp only at some_joined
      split at some_joined
      · cases some_joined
      · next ne =>
        -- the run of `a` is turned to end with `a`, that of `b` to start with `b`
        cases whichA : endA.side <;> cases whichB : endB.side <;>
          rw [whichA] at sideA some_joined <;> rw [whichB] at sideB some_joined <;> cases some_joined
        · obtain ⟨rest, before, after⟩ := set_eraseIdx_perm hereA hereB ne (endA.run.reverse ++ endB.run)
          exact ⟨⟨[endA.run], [endB.run], endA.run.reverse, endB.run, rest, .backward _, .forward _,
            by simpa using sideA, sideB, .inl rfl, before, after, nofun, nofun⟩⟩
        · obtain ⟨rest, before, after⟩ :=
            set_eraseIdx_perm hereB hereA (Ne.symm ne) (endB.run ++ endA.run)
          exact ⟨⟨[endA.run], [endB.run], endA.run.reverse, endB.run.reverse, rest, .backward _,
            .backward _, by simpa using sideA, by simpa using sideB, .inr (by simp),
            before.trans (.swap _ _ _), after, nofun, nofun⟩⟩
        · obtain ⟨rest, before, after⟩ := set_eraseIdx_perm hereA hereB ne (endA.run ++ endB.run)
          exact ⟨⟨[endA.run], [endB.run], endA.run, endB.run, rest, .forward _, .forward _, sideA, sideB,
            .inl rfl, before, after, nofun, nofun⟩⟩
        · obtain ⟨rest, before, after⟩ := set_eraseIdx_perm hereA hereB ne (endA.run ++ endB.run.reverse)
          exact ⟨⟨[endA.run], [endB.run], endA.run, endB.run.reverse, rest, .forward _, .backward _,
            sideA, by simpa using sideB, .inl rfl, before, after, nofun, nofun⟩⟩

/-- Who stands side by side does not depend on the order of the runs. -/
lemma consecutive_perm {runs' : List (List QubitId)} (perm : runs ~ runs') :
    Consecutive runs x y ↔ Consecutive runs' x y := by
  simp only [Consecutive, perm.mem_iff]

/-- Qubits stand side by side in two lists of runs if they do in one of them. -/
lemma consecutive_append {runs' : List (List QubitId)} :
    Consecutive (runs ++ runs') x y ↔ Consecutive runs x y ∨ Consecutive runs' x y := by
  simp only [Consecutive, List.mem_append, or_and_right, exists_or]

/-- Qubits stand side by side in the first run or in the others. -/
lemma consecutive_cons : Consecutive (run :: runs) x y ↔ Beside run x y ∨ Consecutive runs x y := by
  simp only [Consecutive, List.mem_cons, or_and_right, exists_or, exists_eq_left]

/-- In a piece of a new run those stand side by side who did so before. -/
lemma Piece.beside_iff {old : List (List QubitId)} (piece : Piece q old run) :
    Beside run x y ↔ Consecutive old x y := by
  cases piece with
  | fresh => exact ⟨fun beside => (not_beside_singleton q beside).elim, nofun⟩
  | forward => simp [Consecutive]
  | backward => simp [Consecutive, beside_reverse]

/-- A piece is a single qubit, or has the qubits of the former run. -/
lemma Piece.perm {old : List (List QubitId)} (piece : Piece q old run) :
    old = [] ∧ run = [q] ∨ old ≠ [] ∧ run ~ old.flatten := by
  cases piece with
  | fresh => exact .inl ⟨rfl, rfl⟩
  | forward => exact .inr ⟨nofun, by simp⟩
  | backward => exact .inr ⟨nofun, by simp⟩

section Joined

variable {joined : List (List QubitId)}

/-- The new run has the qubits of its two pieces. -/
lemma Joined.run_perm (how : Joined runs a b run joined) : run ~ how.left ++ how.right := by
  obtain ⟨_, _, _, _, _, _, _, _, _, rfl | rfl, _⟩ := how
  · rfl
  · exact List.reverse_perm _

/-- In a new run the qubits of its two pieces stand side by side as before, in one direction or the
other. -/
lemma Joined.beside_iff (how : Joined runs a b run joined) :
    Beside run x y ↔ Beside (how.left ++ how.right) x y := by
  obtain ⟨_, _, _, _, _, _, _, _, _, rfl | rfl, _⟩ := how
  · rfl
  · exact beside_reverse

/-- Joining makes the two qubits neighbours and changes nothing else about neighbours. -/
lemma Joined.consecutive_iff (how : Joined runs a b run joined) :
    Consecutive joined x y ↔ Consecutive runs x y ∨ x = a ∧ y = b ∨ x = b ∧ y = a := by
  rw [consecutive_perm how.after, consecutive_perm how.before, consecutive_cons, consecutive_append,
    consecutive_append, how.beside_iff, beside_append, how.pieceA.beside_iff, how.pieceB.beside_iff, how.last,
    how.head]
  simp only [Option.some.injEq, eq_comm (a := a), eq_comm (a := b)]
  tauto

/-- All runs have the qubits of the two pieces and of the other runs. -/
lemma Joined.flatten_perm (how : Joined runs a b run joined) :
    joined.flatten ~ how.left ++ how.right ++ how.rest.flatten := by
  refine how.after.flatten.trans ?_
  rw [List.flatten_cons]
  exact how.run_perm.append_right _

/-- Joining brings the two qubits in and no others. -/
lemma Joined.mem_flatten_iff (how : Joined runs a b run joined) :
    q ∈ joined.flatten ↔ q ∈ runs.flatten ∨ q = a ∨ q = b := by
  have inLeft : a ∈ how.left := List.mem_of_getLast? how.last
  have inRight : b ∈ how.right := List.mem_of_head? how.head
  rw [how.flatten_perm.mem_iff, how.before.flatten.mem_iff]
  simp only [List.mem_append, List.flatten_append]
  have first : q ∈ how.left ↔ q ∈ how.runOfA.flatten ∨ q = a := by
    rcases how.pieceA.perm with ⟨none_left, single⟩ | ⟨_, perm⟩
    · simp [none_left, single]
    · rw [perm.mem_iff] at inLeft ⊢
      exact ⟨.inl, fun mem => mem.elim id fun same => same ▸ inLeft⟩
  have second : q ∈ how.right ↔ q ∈ how.runOfB.flatten ∨ q = b := by
    rcases how.pieceB.perm with ⟨none_left, single⟩ | ⟨_, perm⟩
    · simp [none_left, single]
    · rw [perm.mem_iff] at inRight ⊢
      exact ⟨.inl, fun mem => mem.elim id fun same => same ▸ inRight⟩
  rw [first, second, or_or_or_comm, or_right_comm]

/-- A qubit that brings no run is in none, unless it is inside one. -/
lemma not_inside_iff (noEnd : endOf? runs q = none) : ¬Inside runs q ↔ q ∉ runs.flatten :=
  not_congr (and_iff_left fun _ mem => endOf?_eq_none noEnd mem)

/-- A qubit that brings a run begins or ends it. -/
lemma Piece.not_inside {old : List (List QubitId)} (piece : Piece q old run) (brings : old ≠ [])
    (atEnd : run.head? = some q ∨ run.getLast? = some q) (among : old ⊆ runs) : ¬Inside runs q := by
  rintro ⟨_, noEnd⟩
  cases piece with
  | fresh => exact brings rfl
  | forward run =>
    obtain ⟨notFirst, notLast⟩ := noEnd run (among List.mem_cons_self)
    exact atEnd.elim notFirst notLast
  | backward run =>
    obtain ⟨notFirst, notLast⟩ := noEnd run (among List.mem_cons_self)
    rw [List.head?_reverse, List.getLast?_reverse] at atEnd
    exact atEnd.elim notLast notFirst

/-- Joining keeps every qubit in at most one run exactly if neither of the two is inside a run. -/
lemma Joined.nodup_iff (how : Joined runs a b run joined) (ne : a ≠ b) :
    joined.flatten.Nodup ↔ runs.flatten.Nodup ∧ ¬Inside runs a ∧ ¬Inside runs b := by
  have split : runs.flatten ~ how.runOfA.flatten ++ how.runOfB.flatten ++ how.rest.flatten := by
    simpa using how.before.flatten
  have endA (brings : how.runOfA ≠ []) : ¬Inside runs a := by
    apply how.pieceA.not_inside brings (.inr how.last)
    exact fun _ mem => how.before.mem_iff.mpr (by simp [mem])
  have endB (brings : how.runOfB ≠ []) : ¬Inside runs b := by
    apply how.pieceB.not_inside brings (.inl how.head)
    exact fun _ mem => how.before.mem_iff.mpr (by simp [mem])
  have newA (none : how.runOfA = []) := not_inside_iff (how.freshA none)
  have newB (none : how.runOfB = []) := not_inside_iff (how.freshB none)
  rw [split.mem_iff] at newA newB
  rw [how.flatten_perm.nodup_iff, split.nodup_iff]
  -- a piece is a new qubit, which must be in no run, or a former run, of which it is an end
  rcases how.pieceA.perm with ⟨noneA, singleA⟩ | ⟨bringsA, permA⟩ <;>
    rcases how.pieceB.perm with ⟨noneB, singleB⟩ | ⟨bringsB, permB⟩
  · rw [newA noneA, newB noneB, noneA, noneB, singleA, singleB]
    simp only [List.flatten_nil, List.nil_append, List.cons_append, List.nodup_cons, List.mem_cons, ne,
      false_or]
    exact and_rotate.symm
  · rw [newA noneA, noneA, singleA, ((permB.append_left [a]).append_right how.rest.flatten).nodup_iff]
    simp [endB bringsB, and_comm]
  · rw [newB noneB, noneB, singleB, ((permA.append_right [b]).append_right how.rest.flatten).nodup_iff,
      List.append_assoc, List.singleton_append, List.perm_middle.nodup_iff]
    simp [endA bringsA, and_comm]
  · rw [((permA.append permB).append_right how.rest.flatten).nodup_iff]
    simp [endA bringsA, endB bringsB]

/-- Every run still has two qubits or more. -/
lemma Joined.two_le_length (how : Joined runs a b run joined) (long : ∀ run ∈ runs, 2 ≤ run.length)
    {other : List QubitId} (mem : other ∈ joined) : 2 ≤ other.length := by
  rcases List.mem_cons.mp (how.after.mem_iff.mp mem) with rfl | mem
  · have notEmptyA : how.left ≠ [] := by
      intro empty
      have := how.last
      simp [empty] at this
    have notEmptyB : how.right ≠ [] := by
      intro empty
      have := how.head
      simp [empty] at this
    have := List.length_pos_iff.mpr notEmptyA
    have := List.length_pos_iff.mpr notEmptyB
    rw [how.run_perm.length_eq, List.length_append]
    omega
  · exact long other (how.before.mem_iff.mpr (List.mem_append_right _ mem))

end Joined

/-! ### The builder -/

namespace Builder

variable {builder : Builder}

/-- What holds of the builder between any two commands. -/
structure Positioned (builder : Builder) : Prop where
  /-- No more qubits hold a position than there are positions. -/
  room : builder.allocated.size ≤ builder.numQubits
  /-- Only qubits that hold a position shape the segments. -/
  active : ∀ q ∈ builder.active, q ∈ builder.allocated
  /-- Qubits in runs hold a position. -/
  placed : ∀ q ∈ builder.runs.flatten, q ∈ builder.allocated

/-- What holds of the builder as long as no qubit in a run is allocated once more. -/
structure Sound (builder : Builder) : Prop extends Positioned builder where
  /-- Every qubit is in at most one run. -/
  nodup : builder.runs.flatten.Nodup
  /-- Every run has two qubits at least. -/
  long : ∀ run ∈ builder.runs, 2 ≤ run.length
  /-- Qubits side by side were given to each other as neighbours. -/
  linked : ∀ {x y}, Consecutive builder.runs x y → y ∈ builder.neighboursOf x

/-- At the start nobody has a neighbour. -/
lemma neighboursOf_start (numQubits : Nat) (cyclic : Bool) (allocated : OrderedSet QubitId)
    (q : QubitId) : (start numQubits cyclic allocated).neighboursOf q = ∅ := by
  rw [neighboursOf]
  cases found : (start numQubits cyclic allocated).neighbours.find? q with
  | none => rfl
  | some neighbours =>
    obtain ⟨r, _, same⟩ := List.mem_map.mp (OrderedMap.mem_of_find?_ofList found)
    cases same
    rfl

/-- What holds between any two commands holds at the start. -/
lemma positioned_start {numQubits : Nat} (cyclic : Bool) {allocated : OrderedSet QubitId}
    (room : allocated.size ≤ numQubits) : (start numQubits cyclic allocated).Positioned where
  room := room
  active _ mem := mem
  placed := nofun

/-- The builder is sound at the start. -/
lemma sound_start {numQubits : Nat} (cyclic : Bool) {allocated : OrderedSet QubitId}
    (room : allocated.size ≤ numQubits) : (start numQubits cyclic allocated).Sound where
  toPositioned := positioned_start cyclic room
  nodup := .nil
  long := nofun
  linked := by
    rintro x y ⟨run, mem, _⟩
    cases mem

/-- Linking two qubits makes them neighbours of each other, and nobody else. -/
lemma mem_neighboursOf_link :
    y ∈ (builder.link a b).neighboursOf x ↔
      y ∈ builder.neighboursOf x ∨ x = a ∧ y = b ∨ x = b ∧ y = a := by
  simp only [neighboursOf, link, OrderedMap.find?_insert, Ranked.rank_eq_iff]
  by_cases sameA : a = x <;> by_cases sameB : b = x <;> by_cases both : a = b <;>
    simp_all [OrderedSet.mem_insert] <;> tauto

/-- Closing the ring keeps the neighbours there are. -/
lemma mem_neighboursOf_closeRing (run : List QubitId) (mem : y ∈ builder.neighboursOf x) :
    y ∈ (builder.closeRing run).neighboursOf x := by
  rw [closeRing]
  split
  · exact mem_neighboursOf_link.mpr (.inl mem)
  · exact mem

/-- Closing the ring leaves the runs. -/
@[simp]
lemma closeRing_runs (builder : Builder) (run : List QubitId) :
    (builder.closeRing run).runs = builder.runs := by
  rw [closeRing]
  split <;> rfl

/-- Closing the ring leaves the qubits that hold a position. -/
@[simp]
lemma closeRing_allocated (builder : Builder) (run : List QubitId) :
    (builder.closeRing run).allocated = builder.allocated := by
  rw [closeRing]
  split <;> rfl

/-- Closing the ring leaves the active qubits. -/
@[simp]
lemma closeRing_active (builder : Builder) (run : List QubitId) :
    (builder.closeRing run).active = builder.active := by
  rw [closeRing]
  split <;> rfl

/-- Closing the ring leaves the number of positions. -/
@[simp]
lemma closeRing_numQubits (builder : Builder) (run : List QubitId) :
    (builder.closeRing run).numQubits = builder.numQubits := by
  rw [closeRing]
  split <;> rfl

/-- No qubit is in a run twice. -/
lemma Sound.nodup_run (sound : builder.Sound) (mem : run ∈ builder.runs) : run.Nodup :=
  (List.nodup_flatten.mp sound.nodup).1 run mem

/-- A qubit with a free side stands at an end of its run, if it has one. -/
lemma Sound.end_of_free (sound : builder.Sound) (free : (builder.neighboursOf q).size ≤ 1)
    (mem : run ∈ builder.runs) (inRun : q ∈ run) : run.head? = some q ∨ run.getLast? = some q := by
  obtain ⟨before, after, rfl⟩ := List.append_of_mem inRun
  rcases List.eq_nil_or_concat before with rfl | ⟨before, x, rfl⟩
  · exact .inl rfl
  · cases after with
    | nil => exact .inr (by simp)
    | cons y after =>
      -- `q` has `x` and `y` beside it, so it was given two neighbours
      exfalso
      have besideX : Consecutive builder.runs q x :=
        ⟨_, mem, .inr ⟨before, y :: after, by simp⟩⟩
      have besideY : Consecutive builder.runs q y :=
        ⟨_, mem, .inl ⟨before ++ [x], after, by simp⟩⟩
      have distinct : x ≠ y := by
        have := sound.nodup_run mem
        rintro rfl
        simp [List.nodup_append] at this
      have two : ((OrderedSet.empty.insert x).insert y).size = 2 := by
        rw [OrderedSet.size_insert_of_not_mem, OrderedSet.size_insert_of_not_mem]
        · rfl
        · exact OrderedSet.not_mem_empty x
        · intro mem
          rcases OrderedSet.mem_insert.mp mem with same | mem
          · exact distinct same.symm
          · exact OrderedSet.not_mem_empty y mem
      have sub : ((OrderedSet.empty.insert x).insert y).size ≤ (builder.neighboursOf q).size := by
        apply OrderedSet.size_le_of_subset
        intro r mem
        rcases OrderedSet.mem_insert.mp mem with rfl | mem
        · exact sound.linked besideY
        · rcases OrderedSet.mem_insert.mp mem with rfl | mem
          · exact sound.linked besideX
          · exact absurd mem (OrderedSet.not_mem_empty r)
      omega

/-- A qubit with a free side is not inside a run. -/
lemma Sound.not_inside_of_free (sound : builder.Sound) (free : (builder.neighboursOf q).size ≤ 1) :
    ¬Inside builder.runs q := by
  rintro ⟨mem, noEnd⟩
  obtain ⟨run, memRun, inRun⟩ := List.mem_flatten.mp mem
  obtain ⟨notFirst, notLast⟩ := noEnd run memRun
  exact (sound.end_of_free free memRun inRun).elim notFirst notLast

/-- Allocating a qubit keeps what holds between any two commands. -/
lemma Positioned.allocate (positioned : builder.Positioned) (q : QubitId) :
    (builder.allocate q).Positioned := by
  rw [Builder.allocate]
  split
  · next free =>
    refine ⟨(OrderedSet.size_insert_le _ _).trans free, ?_, ?_⟩
    · intro r mem
      rcases OrderedSet.mem_insert.mp mem with rfl | mem
      · exact OrderedSet.mem_insert.mpr (.inl rfl)
      · exact OrderedSet.mem_insert.mpr (.inr (positioned.active r mem))
    · intro r mem
      exact OrderedSet.mem_insert.mpr (.inr (positioned.placed r mem))
  · exact positioned

/-- Allocating a qubit that is in no run, or finds no position left, keeps the builder sound. -/
lemma Sound.allocate (sound : builder.Sound)
    (loose : builder.allocated.size < builder.numQubits → q ∉ builder.runs.flatten) :
    (builder.allocate q).Sound := by
  have positioned := sound.toPositioned.allocate q
  rw [Builder.allocate] at positioned ⊢
  split_ifs at positioned ⊢ with free
  · refine ⟨positioned, sound.nodup, sound.long, ?_⟩
    intro x y beside
    have other : q ≠ x := by
      rintro rfl
      obtain ⟨run, mem, beside⟩ := beside
      have inRun : q ∈ run := by
        rcases beside with infixed | infixed
        all_goals exact infixed.subset (by simp)
      exact loose free (List.mem_flatten.mpr ⟨run, mem, inRun⟩)
    rw [neighboursOf, OrderedMap.find?_insert_of_ne other]
    exact sound.linked beside
  · exact sound

/-- Taking qubits out of the game keeps what holds between any two commands. -/
lemma Positioned.deactivate (positioned : builder.Positioned) (a b : QubitId) :
    (builder.deactivate a b).Positioned :=
  { positioned with
    active := fun r mem =>
      positioned.active r (OrderedSet.mem_erase.mp (OrderedSet.mem_erase.mp mem).1).1 }

/-- Taking qubits out of the game keeps the builder sound. -/
lemma Sound.deactivate (sound : builder.Sound) (a b : QubitId) : (builder.deactivate a b).Sound :=
  { sound with toPositioned := sound.toPositioned.deactivate a b }

/-- What a command on two qubits can do: nothing, take the qubits out of the game, or join their
runs. -/
lemma addPair_cases (builder : Builder) (a b : QubitId) :
    builder.addPair a b = builder ∨ builder.addPair a b = builder.deactivate a b ∨
      ∃ run joined, join? builder.runs a b = some (run, joined) ∧
        a ∈ builder.active ∧ b ∈ builder.active ∧
        (builder.neighboursOf a).size ≤ 1 ∧ (builder.neighboursOf b).size ≤ 1 ∧
        builder.addPair a b = ({ builder with runs := joined }.link a b).closeRing run := by
  rw [addPair]
  split
  · exact .inl rfl
  · split
    · exact .inr (.inl rfl)
    · next both =>
      rw [Bool.not_eq_true', Bool.not_eq_false, Bool.and_eq_true, OrderedSet.contains_iff,
        OrderedSet.contains_iff] at both
      split
      · exact .inr (.inl rfl)
      · next free =>
        simp only [gt_iff_lt, Bool.or_eq_true, decide_eq_true_eq, not_or, not_lt] at free
        cases join? builder.runs a b with
        | none => exact .inr (.inl rfl)
        | some result =>
          obtain ⟨run, joined⟩ := result
          exact .inr (.inr ⟨run, joined, rfl, both.1, both.2, free.1, free.2, rfl⟩)

/-- Making two qubits neighbours keeps what holds between any two commands. -/
lemma Positioned.addPair (positioned : builder.Positioned) (a b : QubitId) :
    (builder.addPair a b).Positioned := by
  rcases builder.addPair_cases a b with same | gone | ⟨run, joined, join, inA, inB, _, _, eq⟩
  · rw [same]
    exact positioned
  · rw [gone]
    exact positioned.deactivate a b
  · obtain ⟨how⟩ := joined_of_join? join
    rw [eq]
    refine ⟨?_, ?_, ?_⟩
    · simpa [link] using positioned.room
    · simpa [link] using positioned.active
    · rw [closeRing_runs, closeRing_allocated]
      intro q mem
      rcases how.mem_flatten_iff.mp mem with mem | rfl | rfl
      · exact positioned.placed q mem
      · exact positioned.active q inA
      · exact positioned.active q inB

/-- Making two different qubits neighbours keeps the builder sound. -/
lemma Sound.addPair (sound : builder.Sound) (ne : a ≠ b) : (builder.addPair a b).Sound := by
  have positioned := sound.toPositioned.addPair a b
  rcases builder.addPair_cases a b with same | gone | ⟨run, joined, join, _, _, freeA, freeB, eq⟩
  · rw [same]
    exact sound
  · rw [gone]
    exact sound.deactivate a b
  · obtain ⟨how⟩ := joined_of_join? join
    rw [eq] at positioned ⊢
    refine ⟨positioned, ?_, ?_, ?_⟩
    · rw [closeRing_runs]
      exact (how.nodup_iff ne).mpr
        ⟨sound.nodup, sound.not_inside_of_free freeA, sound.not_inside_of_free freeB⟩
    · rw [closeRing_runs]
      exact fun run mem => how.two_le_length sound.long mem
    · intro x y consecutive
      rw [closeRing_runs] at consecutive
      apply mem_neighboursOf_closeRing
      rw [mem_neighboursOf_link]
      exact (how.consecutive_iff.mp consecutive).imp_left sound.linked

/-- A command keeps what holds between any two commands. -/
lemma Positioned.step (positioned : builder.Positioned) (shape : Shape) :
    (builder.step shape).Positioned := by
  cases shape with
  | allocate q => exact positioned.allocate q
  | deallocate q =>
    exact { positioned with active := fun r mem => positioned.active r (OrderedSet.mem_erase.mp mem).1 }
  | single q => exact positioned
  | pair a b => exact positioned.addPair a b

/-- If the command allocates a qubit while there is a position left, the qubit is in no run. -/
def Loose (builder : Builder) (shape : Shape) : Prop :=
  ∀ q ∈ shape.allocates?, builder.allocated.size < builder.numQubits → q ∉ builder.runs.flatten

/-- A command that allocates a qubit without a position allocates one that is in no run. -/
lemma Positioned.loose (positioned : builder.Positioned) {shape : Shape}
    (fresh : ∀ q ∈ shape.allocates?, q ∉ builder.allocated) : builder.Loose shape :=
  fun q allocates _ => mt (positioned.placed q) (fresh q allocates)

/-- A command on different qubits that allocates none of a run keeps the builder sound. -/
lemma Sound.step (sound : builder.Sound) {shape : Shape} (loose : builder.Loose shape)
    (distinct : ∀ a b, shape = .pair a b → a ≠ b) : (builder.step shape).Sound := by
  cases shape with
  | allocate q => exact sound.allocate (loose q rfl)
  | deallocate q => exact { sound with toPositioned := sound.toPositioned.step (.deallocate q) }
  | single q => exact sound
  | pair a b => exact sound.addPair (distinct a b rfl)

/-- Qubits side by side stay side by side. -/
lemma consecutive_step (shape : Shape) (consecutive : Consecutive builder.runs x y) :
    Consecutive (builder.step shape).runs x y := by
  cases shape with
  | allocate q =>
    rw [Builder.step, allocate]
    split <;> exact consecutive
  | deallocate q => exact consecutive
  | single q => exact consecutive
  | pair a b =>
    rcases builder.addPair_cases a b with same | gone | ⟨run, joined, join, _, _, _, _, eq⟩
    · rw [Builder.step, same]
      exact consecutive
    · rw [Builder.step, gone]
      exact consecutive
    · obtain ⟨how⟩ := joined_of_join? join
      rw [Builder.step, eq, closeRing_runs]
      exact how.consecutive_iff.mpr (.inl consecutive)

/-- Only an allocation gives a position to a qubit, and only while there is one left. -/
lemma step_allocated (builder : Builder) (shape : Shape) :
    (builder.step shape).allocated =
      match shape with
      | .allocate q =>
        if builder.allocated.size < builder.numQubits then builder.allocated.insert q
        else builder.allocated
      | _ => builder.allocated := by
  cases shape with
  | allocate q =>
    simp only [Builder.step, allocate]
    split <;> rfl
  | deallocate q => rfl
  | single q => rfl
  | pair a b =>
    rcases builder.addPair_cases a b with same | gone | ⟨run, joined, _, _, _, _, _, eq⟩
    · rw [Builder.step, same]
    · rw [Builder.step, gone]
      rfl
    · rw [Builder.step, eq, closeRing_allocated]
      rfl

/-- A command leaves the number of positions. -/
@[simp]
lemma step_numQubits (builder : Builder) (shape : Shape) :
    (builder.step shape).numQubits = builder.numQubits := by
  cases shape with
  | allocate q =>
    rw [Builder.step, allocate]
    split <;> rfl
  | deallocate q => rfl
  | single q => rfl
  | pair a b =>
    rcases builder.addPair_cases a b with same | gone | ⟨run, joined, _, _, _, _, _, eq⟩
    · rw [Builder.step, same]
    · rw [Builder.step, gone]
      rfl
    · rw [Builder.step, eq, closeRing_numQubits]
      rfl

/-- A pass takes the first command into account unless it has settled, and goes on. -/
lemma run_cons (builder : Builder) (c : Buffered) (rest : List Buffered) :
    builder.run (c :: rest) =
      (if builder.settled then builder else builder.step c.shape).run rest :=
  rfl

/-- Qubits that stand side by side do so until the end of a pass. -/
lemma consecutive_run (commands : List Buffered) (consecutive : Consecutive builder.runs x y) :
    Consecutive (builder.run commands).runs x y := by
  induction commands generalizing builder with
  | nil => exact consecutive
  | cons c rest ih =>
    rw [run_cons]
    apply ih
    split
    · exact consecutive
    · exact consecutive_step c.shape consecutive

end Builder

/-- The commands allocate no qubit twice and none that holds a position already. -/
structure AllocatesFresh (allocated : OrderedSet QubitId) (commands : List Buffered) : Prop where
  nodup : (Stream.allocations commands).Nodup
  absent : ∀ q ∈ Stream.allocations commands, q ∉ allocated

namespace AllocatesFresh

variable {allocated : OrderedSet QubitId} {c : Buffered} {rest : List Buffered}

/-- The first command allocates no qubit that holds a position. -/
lemma head (fresh : AllocatesFresh allocated (c :: rest)) : ∀ q ∈ c.shape.allocates?, q ∉ allocated := by
  intro q allocates
  apply fresh.absent
  rw [Stream.allocations, List.filterMap_cons, Option.mem_def.mp allocates]
  exact List.mem_cons_self

/-- The commands after the first one allocate no qubit twice either. -/
lemma tail (fresh : AllocatesFresh allocated (c :: rest)) : AllocatesFresh allocated rest := by
  have sub : Stream.allocations rest <+ Stream.allocations (c :: rest) :=
    (List.sublist_cons_self c rest).filterMap _
  exact ⟨fresh.nodup.sublist sub, fun q mem => fresh.absent q (sub.subset mem)⟩

/-- After an allocation the other commands do not allocate its qubit. -/
lemma tail_insert (fresh : AllocatesFresh allocated (c :: rest)) (shape : c.shape = .allocate q) :
    AllocatesFresh (allocated.insert q) rest := by
  refine ⟨fresh.tail.nodup, ?_⟩
  intro r mem inserted
  have nodup := fresh.nodup
  rw [Stream.allocations, List.filterMap_cons, shape] at nodup
  rcases OrderedSet.mem_insert.mp inserted with rfl | before
  · exact (List.nodup_cons.mp nodup).1 mem
  · exact fresh.tail.absent r mem before

end AllocatesFresh

namespace Builder

variable {builder : Builder} {commands : List Buffered}

/-- The builder stays sound, and the qubits that get a position are those allocated first. -/
lemma Sound.run_commands (sound : builder.Sound) (fresh : AllocatesFresh builder.allocated commands)
    (distinct : ∀ c ∈ commands, ∀ a b, c.shape = .pair a b → a ≠ b) :
    (builder.run commands).Sound ∧ ∀ q, q ∈ (builder.run commands).allocated ↔
      q ∈ builder.allocated ∨
        q ∈ (Stream.allocations commands).take (builder.numQubits - builder.allocated.size) := by
  induction commands generalizing builder with
  | nil => exact ⟨sound, fun q => by simp [Builder.run, Stream.allocations]⟩
  | cons c rest ih =>
    rw [run_cons]
    have distinctRest := fun c mem => distinct c (List.mem_cons_of_mem _ mem)
    split
    · next settled =>
      -- all positions are taken, so that no allocation counts any more
      obtain ⟨soundRest, same⟩ := ih sound fresh.tail distinctRest
      refine ⟨soundRest, fun q => ?_⟩
      have full : builder.numQubits - builder.allocated.size = 0 := by
        rw [Builder.settled, Bool.and_eq_true, beq_iff_eq] at settled
        omega
      rw [same q, full]
      simp
    · have soundStep := sound.step (sound.loose fresh.head) fun a b => distinct c List.mem_cons_self a b
      by_cases allocates : ∃ q, c.shape = .allocate q ∧ builder.allocated.size < builder.numQubits
      · -- the qubit takes one of the positions left
        obtain ⟨q, shape, free⟩ := allocates
        have grown : (builder.step c.shape).allocated = builder.allocated.insert q := by
          rw [step_allocated, shape]
          exact if_pos free
        have absent := fresh.head q (by rw [shape]; rfl)
        obtain ⟨soundRest, same⟩ := ih soundStep (by rw [grown]; exact fresh.tail_insert shape)
          distinctRest
        refine ⟨soundRest, fun r => ?_⟩
        have left : builder.numQubits - builder.allocated.size
            = builder.numQubits - (builder.allocated.size + 1) + 1 := by omega
        rw [same r, grown, OrderedSet.mem_insert, step_numQubits,
          OrderedSet.size_insert_of_not_mem absent, left]
        simp only [Stream.allocations, List.filterMap_cons, shape, Shape.allocates?, List.take_succ_cons,
          List.mem_cons]
        tauto
      · have unchanged : (builder.step c.shape).allocated = builder.allocated := by
          rw [step_allocated]
          split
          · next q shape => exact if_neg fun free => allocates ⟨q, shape, free⟩
          · rfl
        obtain ⟨soundRest, same⟩ := ih soundStep (by rw [unchanged]; exact fresh.tail) distinctRest
        refine ⟨soundRest, fun r => ?_⟩
        rw [same r, unchanged, step_numQubits]
        refine or_congr_right ?_
        rw [Stream.allocations, Stream.allocations, List.filterMap_cons]
        cases shape : c.shape.allocates? with
        | none => rfl
        | some q =>
          have full : builder.numQubits - builder.allocated.size = 0 := by
            by_contra notFull
            exact allocates ⟨q, Shape.allocates?_eq_some.mp shape, by omega⟩
          rw [full]
          simp

end Builder

/-- The outcome of a pass: disjoint runs of qubits that get a position. -/
structure Sound (segments : Segments) (numQubits : Nat) : Prop where
  /-- There is a position for every qubit that needs one. -/
  room : segments.allocated.size ≤ numQubits
  /-- Every qubit is in at most one run. -/
  nodup : segments.runs.flatten.Nodup
  /-- No run is empty. -/
  long : ∀ run ∈ segments.runs, 2 ≤ run.length
  /-- Qubits in runs need a position. -/
  placed : ∀ q ∈ segments.runs.flatten, q ∈ segments.allocated

section Build

variable {numQubits : Nat} {cyclic : Bool} {allocated : OrderedSet QubitId} {commands : List Buffered}

/-- Commands leave the number of positions. -/
@[simp]
lemma run_numQubits (builder : Builder) (commands : List Buffered) :
    (builder.run commands).numQubits = builder.numQubits := by
  induction commands generalizing builder with
  | nil => rfl
  | cons c rest ih =>
    rw [Builder.run_cons, ih]
    split
    · rfl
    · exact Builder.step_numQubits _ _

/-- A pass over commands that allocate fresh qubits gives sound segments. -/
lemma sound_build (room : allocated.size ≤ numQubits) (fresh : AllocatesFresh allocated commands)
    (distinct : ∀ c ∈ commands, ∀ a b, c.shape = .pair a b → a ≠ b) :
    (build numQubits cyclic allocated commands).Sound numQubits := by
  have sound := ((Builder.sound_start cyclic room).run_commands fresh distinct).1
  have size := sound.room
  rw [run_numQubits] at size
  exact ⟨size, sound.nodup, sound.long, sound.placed⟩

/-- The qubits that need a position are those allocated before and as many of those to be allocated as
there are positions left. -/
lemma mem_build_allocated (room : allocated.size ≤ numQubits)
    (fresh : AllocatesFresh allocated commands)
    (distinct : ∀ c ∈ commands, ∀ a b, c.shape = .pair a b → a ≠ b) :
    q ∈ (build numQubits cyclic allocated commands).allocated ↔
      q ∈ allocated ∨ q ∈ (Stream.allocations commands).take (numQubits - allocated.size) :=
  ((Builder.sound_start cyclic room).run_commands fresh distinct).2 q

/-- If the first command is on two qubits that hold a position, they end up side by side. -/
lemma consecutive_build_head {c : Buffered} (shape : c.shape = .pair a b) (memA : a ∈ allocated)
    (memB : b ∈ allocated) :
    Consecutive (build numQubits cyclic allocated (c :: commands)).runs a b := by
  have notSettled : (Builder.start numQubits cyclic allocated).settled = false := by
    rw [Builder.settled, Bool.and_eq_false_iff]
    right
    rw [← Bool.not_eq_true, OrderedSet.isEmpty_iff]
    exact fun none_active => none_active a memA
  have joined : Consecutive ((Builder.start numQubits cyclic allocated).step c.shape).runs a b := by
    rw [shape, Builder.step, Builder.addPair, Builder.neighboursOf_start, Builder.neighboursOf_start]
    have activeA : (Builder.start numQubits cyclic allocated).active.contains a = true :=
      OrderedSet.contains_iff.mpr memA
    have activeB : (Builder.start numQubits cyclic allocated).active.contains b = true :=
      OrderedSet.contains_iff.mpr memB
    rw [activeA, activeB, if_neg (by exact Bool.false_ne_true), if_neg (by simp),
      if_neg (by decide)]
    change Consecutive (Builder.closeRing _ _).runs a b
    rw [Builder.closeRing_runs]
    exact ⟨[a, b], List.mem_singleton_self _, .inl (List.infix_refl _)⟩
  rw [build, Builder.run_cons, notSettled]
  exact Builder.consecutive_run commands joined

end Build

end QubitRouting.Segments
