import QubitRouting.Proofs.Checked
import QubitRouting.Proofs.HalfPass
import QubitRouting.Proofs.Move

/-!
# Sorting on a machine

The mapper computes with numbers that have no bound and lists that are never read beyond their end. A
machine does not: a number has to fit its word, a difference must not go below zero, and an index must
lie in its table. The modules of `Machine` repeat the computations of the mapper with every such
operation checked, loops over indices included, and prove that no check ever fails.

A position is a number of 32 bits. A size word, which counts what is held in memory, holds the numbers
below `limit`.

This module has the checks and the odd-even sort as a loop over the places of a line.
-/

namespace QubitRouting.Machine

variable {α : Type} {items : List α} {i : Nat}

/-- A number that has to fit a size word. -/
def size (limit n : Nat) : Except Fault Nat :=
  if n < limit then .ok n else .error .overflow

/-- A difference that must not go below zero. -/
def less (a b : Nat) : Except Fault Nat :=
  if b ≤ a then .ok (a - b) else .error .overflow

/-- The item at an index. -/
def item (items : List α) (i : Nat) : Except Fault α :=
  match items[i]? with
  | some x => .ok x
  | none => .error .outOfRange

/-- Write over the item at an index. -/
def put (items : List α) (i : Nat) (x : α) : Except Fault (List α) :=
  if i < items.length then .ok (items.set i x) else .error .outOfRange

/-- Take out the item at an index. -/
def remove (items : List α) (i : Nat) : Except Fault (List α) :=
  if i < items.length then .ok (items.eraseIdx i) else .error .outOfRange

/-- A number below the limit fits a size word. -/
lemma size_of_lt {limit n : Nat} (lt : n < limit) : size limit n = .ok n := if_pos lt

/-- The difference of a number and a smaller one is taken. -/
lemma less_of_le {a b : Nat} (le : b ≤ a) : less a b = .ok (a - b) := if_pos le

/-- An item that is there is read. -/
lemma item_of_getElem? {x : α} (here : items[i]? = some x) : item items i = .ok x := by
  rw [item, here]

/-- An item within the list is written over. -/
lemma put_of_lt (lt : i < items.length) (x : α) : put items i x = .ok (items.set i x) := if_pos lt

/-- An item within the list is taken out. -/
lemma remove_of_lt (lt : i < items.length) : remove items i = .ok (items.eraseIdx i) := if_pos lt

/-! ### The loop -/

/-- Every second place from the first one on, as long as it has a right neighbour. -/
def places (first length : Nat) : List Nat := List.range' first ((length - first) / 2) 2

/-- A line that is sorted in place. -/
structure Line (σ : Type) where
  length : Nat
  /-- The key of what is at a place. -/
  key : σ → Nat → Except Fault Nat
  /-- Exchange what is at two places. -/
  exchange : σ → Nat → Nat → Except Fault σ

namespace Line

variable {σ : Type} (limit : Nat) (line : Line σ)

/-- Compare a place with the next one, and exchange the two if they are out of order. The flag says
whether anything was exchanged. -/
def visit (progress : σ × Bool) (place : Nat) : Except Fault (σ × Bool) := do
  let next ← size limit (place + 1)
  let left ← line.key progress.1 place
  let right ← line.key progress.1 next
  if left > right then return (← line.exchange progress.1 place next, true)
  return progress

/-- The odd or the even places, one after the other. -/
def halfPass (odd : Bool) (progress : σ × Bool) : Except Fault (σ × Bool) :=
  (places odd.toNat line.length).foldlM (line.visit limit) progress

/-- One pass over the odd and one over the even places. -/
def pass (state : σ) : Except Fault (σ × Bool) := do
  let progress ← (places 1 line.length).foldlM (line.visit limit) (state, false)
  (places 0 line.length).foldlM (line.visit limit) progress

/-- Passes until nothing is exchanged. The first argument bounds their number. -/
def sort : Nat → σ → Except Fault σ
  | 0, state => .ok state
  | passes + 1, state => do
    let (state, moved) ← line.pass limit state
    if moved then sort passes state else return state

/-- The states of a line stand for lists of items and for the exchanges made so far. -/
structure Shows (line : Line σ) (key : α → Nat) (R : σ → List α → List Nat → Prop) : Prop where
  length_eq : ∀ {state items log}, R state items log → items.length = line.length
  key_eq : ∀ {state before x after log}, R state (before ++ x :: after) log →
    line.key state before.length = .ok (key x)
  exchange_eq : ∀ {state before x y after log}, R state (before ++ x :: y :: after) log →
    ∃ state', line.exchange state before.length (before.length + 1) = .ok state' ∧
      R state' (before ++ y :: x :: after) (log ++ [before.length])

variable {limit} {line} {key : α → Nat} {R : σ → List α → List Nat → Prop} {state : σ}
  {log : List Nat}

/-- Visiting a place exchanges its item with the next one if their keys are out of order. -/
lemma Shows.visit_eq (shows : line.Shows key R) (small : line.length < limit) {before after : List α}
    {x y : α} (moved : Bool) (here : R state (before ++ x :: y :: after) log) :
    if key y < key x then
      ∃ state', line.visit limit (state, moved) before.length = .ok (state', true) ∧
        R state' (before ++ y :: x :: after) (log ++ [before.length])
    else line.visit limit (state, moved) before.length = .ok (state, moved) := by
  have inRange : before.length + 1 < limit := by
    have length := shows.length_eq here
    simp only [List.length_append, List.length_cons] at length
    omega
  have right : line.key state (before.length + 1) = .ok (key y) := by
    have next : R state ((before ++ [x]) ++ y :: after) log := by simpa using here
    simpa using shows.key_eq next
  have step : line.visit limit (state, moved) before.length
      = if key y < key x then
          (do return (← line.exchange state before.length (before.length + 1), true))
        else .ok (state, moved) := by
    simp only [visit, size_of_lt inRange, shows.key_eq here, right, Checked.ok_bind]
    rfl
  rw [step]
  split
  · obtain ⟨state', exchanged, now⟩ := shows.exchange_eq here
    exact ⟨state', by rw [exchanged]; rfl, now⟩
  · rfl

/-- Visiting every second place exchanges the pairs that are out of order. -/
lemma Shows.sweep (shows : line.Shows key R) (small : line.length < limit) :
    ∀ (before items : List α) {state : σ} {log : List Nat} (moved : Bool),
      R state (before ++ items) log →
      ∃ state',
        (List.range' before.length (items.length / 2) 2).foldlM (line.visit limit) (state, moved)
          = .ok (state', moved || !(OddEven.exchangePairs key before.length items).2.isEmpty) ∧
        R state' (before ++ (OddEven.exchangePairs key before.length items).1)
          (log ++ (OddEven.exchangePairs key before.length items).2)
  | before, [], state, log, moved, here => ⟨state, by simp [OddEven.exchangePairs, pure, Except.pure],
      by simpa [OddEven.exchangePairs] using here⟩
  | before, [x], state, log, moved, here => ⟨state, by simp [OddEven.exchangePairs, pure, Except.pure],
      by simpa [OddEven.exchangePairs] using here⟩
  | before, x :: y :: rest, state, log, moved, here => by
    have count : (x :: y :: rest).length / 2 = rest.length / 2 + 1 := by
      simp only [List.length_cons]
      omega
    rw [OddEven.exchangePairs_cons_cons, count, List.range'_succ, List.foldlM_cons]
    -- the pair in front is visited, and the sweep goes on behind it
    have visited := shows.visit_eq small moved here
    split at visited
    · next disorder =>
      obtain ⟨state', step, now⟩ := visited
      obtain ⟨final, run, shown⟩ := shows.sweep small (before ++ [y, x]) rest true (by simpa using now)
      simp only [List.length_append, List.length_cons, List.length_nil] at run shown
      refine ⟨final, ?_, ?_⟩
      · rw [step, if_pos disorder, Checked.ok_bind]
        simpa using run
      · rw [if_pos disorder]
        simpa using shown
    · next inOrder =>
      obtain ⟨final, run, shown⟩ := shows.sweep small (before ++ [x, y]) rest moved (by simpa using here)
      simp only [List.length_append, List.length_cons, List.length_nil] at run shown
      refine ⟨final, ?_, ?_⟩
      · rw [visited, if_neg inOrder, Checked.ok_bind]
        simpa using run
      · rw [if_neg inOrder]
        simpa using shown

/-- A half-pass in place does what one on the list does. -/
lemma Shows.halfPass_eq (shows : line.Shows key R) (small : line.length < limit) (odd moved : Bool)
    (here : R state items log) :
    ∃ state', line.halfPass limit odd (state, moved)
        = .ok (state', moved || !(OddEven.halfPass key odd items).2.isEmpty) ∧
      R state' (OddEven.halfPass key odd items).1 (log ++ (OddEven.halfPass key odd items).2) := by
  have length := shows.length_eq here
  cases odd with
  | false =>
    rw [halfPass, ← length]
    exact shows.sweep small [] items moved here
  | true =>
    cases items with
    | nil =>
      refine ⟨state, ?_, by simpa [OddEven.halfPass, OddEven.oddPass] using here⟩
      rw [halfPass, ← length]
      simp [places, OddEven.halfPass, OddEven.oddPass, pure, Except.pure]
    | cons x rest =>
      rw [halfPass, ← length]
      exact shows.sweep small [x] rest moved here

/-- A pass in place does what one on the list does. -/
lemma Shows.pass_eq (shows : line.Shows key R) (small : line.length < limit)
    (here : R state items log) :
    ∃ state', line.pass limit state = .ok (state', !(OddEven.pass key items).2.isEmpty) ∧
      R state' (OddEven.pass key items).1 (log ++ (OddEven.pass key items).2) := by
  obtain ⟨middle, odd, shown⟩ := shows.halfPass_eq small true false here
  obtain ⟨final, even, shown⟩ :=
    shows.halfPass_eq small false (!(OddEven.oddPass key items).2.isEmpty) shown
  have both : (OddEven.pass key items).2
      = (OddEven.oddPass key items).2 ++ (OddEven.evenPass key (OddEven.oddPass key items).1).2 := rfl
  refine ⟨final, ?_, by rwa [List.append_assoc] at shown⟩
  have flag : (!(OddEven.pass key items).2.isEmpty) = (!(OddEven.oddPass key items).2.isEmpty
      || !(OddEven.evenPass key (OddEven.oddPass key items).1).2.isEmpty) := by
    rw [both]
    cases (OddEven.oddPass key items).2 <;> rfl
  rw [flag]
  exact Checked.bind_eq_ok.mpr ⟨_, odd, even⟩

/-- A pass that exchanges nothing is the last one. -/
lemma Shows.sort_done (shows : line.Shows key R) (small : line.length < limit)
    (here : R state items log) (done : (OddEven.pass key items).2 = []) (passes : Nat) :
    ∃ state', line.sort limit (passes + 1) state = .ok state' ∧ R state' items log := by
  obtain ⟨next, run, shown⟩ := shows.pass_eq small here
  have same : (OddEven.pass key items).1 = items := (OddEven.pass_exchanges key items).eq_of_nil done
  refine ⟨next, ?_, by simpa [done, same] using shown⟩
  rw [sort, run, done]
  rfl

/-- Sorting in place does what sorting the list does, if there are passes enough for its inversions. -/
lemma Shows.sort_eq (shows : line.Shows key R) (small : line.length < limit) {passes : Nat} :
    ∀ {count : Nat} {items : List α} {state : σ} {log : List Nat}, R state items log →
      OddEven.inversions key items ≤ count → OddEven.inversions key items ≤ passes →
      ∃ state', line.sort limit (passes + 1) state = .ok state' ∧
        R state' (OddEven.passes key count items).1 (log ++ (OddEven.passes key count items).2) := by
  induction passes with
  | zero =>
    intro count items state log here enough few
    have removed := (OddEven.pass_exchanges key items).inversions_eq
    have done : (OddEven.pass key items).2 = [] := List.length_eq_zero_iff.mp (by omega)
    rw [OddEven.passes_of_pass_eq_nil done]
    simpa using shows.sort_done small here done 0
  | succ passes ih =>
    intro count items state log here enough few
    by_cases done : (OddEven.pass key items).2 = []
    · rw [OddEven.passes_of_pass_eq_nil done]
      simpa using shows.sort_done small here done (passes + 1)
    · -- The pass removed an inversion, so that both loops have a pass left for each that remains.
      have removed := (OddEven.pass_exchanges key items).inversions_eq
      have some_removed := List.length_pos_iff.mpr done
      obtain ⟨count, rfl⟩ : ∃ k, count = k + 1 := ⟨count - 1, by omega⟩
      obtain ⟨next, run, shown⟩ := shows.pass_eq small here
      have count_le : OddEven.inversions key (OddEven.pass key items).1 ≤ count := by omega
      obtain ⟨final, rest, shownAfter⟩ := ih shown count_le (by omega)
      refine ⟨final, ?_, ?_⟩
      · rw [sort, run, Checked.ok_bind]
        simpa [done] using rest
      · rw [OddEven.passes_succ, if_neg (by simpa using done)]
        simpa using shownAfter

end Line

/-! ### Swaps on a chain -/

/-- The keys of the positions of a chain and the swaps made so far. -/
def chainLine (length : Nat) : Line (List Nat × List Swap) where
  length := length
  key state place := item state.1 place
  exchange state place next := do
    let left ← item state.1 place
    let right ← item state.1 next
    let keys ← put (← put state.1 place right) next left
    return (keys, state.2 ++ [(place, ← word32 (place + 1))])

/-- The swaps that carry out a move on a chain. -/
def chainSwaps (limit numQubits : Nat) (old new : Layout Nat) : Except Fault (List Swap) := do
  let keys := Move.targets numQubits old new
  let (_, swaps) ← (chainLine keys.length).sort limit (keys.length * keys.length + 1) (keys, [])
  return swaps

/-- The line shows its keys, and each exchange is a swap of two neighbouring positions. -/
lemma chainLine_shows {length : Nat} (small : length < 2 ^ 32) :
    (chainLine length).Shows id fun state items log =>
      items.length = length ∧ state = (items, log.map fun place => (place, place + 1)) where
  length_eq here := here.1
  key_eq := by
    rintro _ before x after log ⟨_, rfl⟩
    exact item_of_getElem? (by simp)
  exchange_eq := by
    rintro _ before x y after log ⟨length, rfl⟩
    simp only [List.length_append, List.length_cons] at length
    refine ⟨_, ?_, by simpa using length, rfl⟩
    have left : item (before ++ x :: y :: after) before.length = .ok x := item_of_getElem? (by simp)
    have right : item (before ++ x :: y :: after) (before.length + 1) = .ok y :=
      item_of_getElem? (by simp)
    have first : put (before ++ x :: y :: after) before.length y = .ok (before ++ y :: y :: after) := by
      rw [put_of_lt (by simp)]
      simp
    have second : put (before ++ y :: y :: after) (before.length + 1) x
        = .ok (before ++ y :: x :: after) := by
      rw [put_of_lt (by simp)]
      simp
    have position : word32 (before.length + 1) = .ok (before.length + 1) :=
      word32_of_lt (by rw [UInt32.size]; omega)
    simp only [chainLine, left, right, first, second, position, Checked.ok_bind]
    simp [pure, Except.pure]

/-- The machine finds the swaps on a chain if its positions can be numbered. -/
lemma chainSwaps_eq {limit numQubits : Nat} (small : numQubits < limit) (word : numQubits < 2 ^ 32)
    {old new : Layout Nat} (length : (Move.targets numQubits old new).length = numQubits) :
    chainSwaps limit numQubits old new = .ok (Move.chainSwaps numQubits old new) := by
  have few := OddEven.inversions_le id (Move.targets numQubits old new)
  rw [length] at few
  have start : (Move.targets numQubits old new).length = numQubits ∧
      (Move.targets numQubits old new, ([] : List Swap))
        = (Move.targets numQubits old new, ([] : List Nat).map fun place => (place, place + 1)) :=
    ⟨length, rfl⟩
  obtain ⟨state, run, _, rfl⟩ := (chainLine_shows word).sort_eq small start le_rfl
    (show _ ≤ numQubits * numQubits by omega)
  rw [chainSwaps]
  simp only [length, run, Checked.ok_bind]
  simp [Move.chainSwaps, OddEven.sort, pure, Except.pure]

end QubitRouting.Machine
