import Mathlib.Algebra.BigOperators.Fin
import Mathlib.Tactic
import QubitRouting.Proofs.HalfPass
import QubitRouting.Proofs.Move
import QubitRouting.Proofs.Topology

/-!
# Swaps on a chain

The swaps of a chain take every shared qubit to its new position, and there are none if no shared qubit
changes its position. Each of them removes one inversion of the permutation of all positions that the
move is completed to, while no swap of neighbours removes more than one. So no list of such swaps that
realises the permutation is shorter.
-/

namespace QubitRouting

open scoped List

/-! ### Inversions -/

namespace OddEven

/-- Exchanging two neighbours removes at most one inversion. -/
lemma inversions_le_exchange {α : Type} (key : α → Nat) (before after : List α) (x y : α) :
    inversions key (before ++ x :: y :: after) ≤ inversions key (before ++ y :: x :: after) + 1 := by
  induction before with
  | nil =>
    simp only [List.nil_append, inversions, List.countP_cons]
    split <;> split <;> omega
  | cons head rest ih =>
    have same : (rest ++ x :: y :: after).countP (key · < key head)
        = (rest ++ y :: x :: after).countP (key · < key head) :=
      ((List.Perm.swap y x after).append_left rest).countP_eq _
    simp only [List.cons_append, inversions, same]
    omega

/-- Swaps of neighbours that take every number of a line to the place it names are at least as many as
the line has inversions. -/
lemma inversions_le_length {items : List Nat} {swaps : List Swap}
    (beside : ∀ swap ∈ swaps, ∃ i, i + 1 < items.length ∧ Equiv.swap swap.1 swap.2 = Equiv.swap i (i + 1))
    (moved : ∀ {p t}, items[p]? = some t → Swap.perm swaps p = t) :
    inversions id items ≤ swaps.length := by
  induction swaps generalizing items with
  | nil =>
    -- every number is at its place already
    have inOrder : items.Pairwise (id · ≤ id ·) := by
      rw [List.pairwise_iff_getElem]
      intro i j ltI ltJ less
      have first : i = items[i] := moved (List.getElem?_eq_getElem ltI)
      have second : j = items[j] := moved (List.getElem?_eq_getElem ltJ)
      rw [id_eq, id_eq, ← first, ← second]
      exact Nat.le_of_lt less
    exact Nat.le_of_eq (inversions_eq_zero inOrder)
  | cons swap rest ih =>
    obtain ⟨i, lt, exchange⟩ := beside swap List.mem_cons_self
    obtain ⟨before, x, y, after, rfl, rfl⟩ : ∃ before x y after,
        items = before ++ x :: y :: after ∧ before.length = i := by
      refine ⟨items.take i, items[i], items[i + 1], items.drop (i + 2), ?_, List.length_take_of_le (by omega)⟩
      rw [← List.drop_eq_getElem_cons lt, ← List.drop_eq_getElem_cons, List.take_append_drop]
    have fewer : inversions id (before ++ y :: x :: after) ≤ rest.length := by
      apply ih
      · intro other mem
        obtain ⟨j, ltJ, same⟩ := beside other (List.mem_cons_of_mem swap mem)
        exact ⟨j, by simpa using ltJ, same⟩
      · intro p t here
        rw [← Equiv.swap_apply_self before.length (before.length + 1) p, getElem?_exchange] at here
        have there := moved here
        rwa [Swap.perm_cons_apply, exchange, Equiv.swap_apply_self] at there
    have := inversions_le_exchange id before after x y
    rw [List.length_cons]
    omega

/-- Counting in a list given by a function is summing up over its arguments. -/
lemma countP_ofFn {α : Type} {n : Nat} (f : Fin n → α) (test : α → Bool) :
    (List.ofFn f).countP test = ∑ i, if test (f i) then 1 else 0 := by
  induction n with
  | zero => rfl
  | succ n ih => rw [List.ofFn_succ, List.countP_cons, ih, Fin.sum_univ_succ, Nat.add_comm]

/-- The inversions of a line, counted pair by pair. -/
lemma inversions_ofFn {n : Nat} (f : Fin n → Nat) :
    inversions id (List.ofFn f)
      = (Finset.univ.filter fun pair : Fin n × Fin n => pair.1 < pair.2 ∧ f pair.2 < f pair.1).card := by
  rw [Finset.card_filter, Fintype.sum_prod_type]
  induction n with
  | zero => rfl
  | succ n ih =>
    rw [List.ofFn_succ, inversions, ih, countP_ofFn]
    simp only [Fin.sum_univ_succ, Fin.succ_lt_succ_iff, Fin.succ_pos, Fin.not_lt_zero, true_and,
      false_and, if_false, Nat.zero_add, id_eq, decide_eq_true_eq]

end OddEven

/-! ### The permutation of a move -/

namespace Move

variable {n : Nat} {old new : Layout Nat} {swaps : List Swap} {π : Equiv.Perm (Fin n)}

/-- The pairs of positions that a permutation puts in the wrong order. -/
def inversions (π : Equiv.Perm (Fin n)) : Finset (Fin n × Fin n) :=
  Finset.univ.filter fun pair => pair.1 < pair.2 ∧ π pair.2 < π pair.1

/-- The inversions of a permutation are as many as those of the list of its values. -/
lemma card_inversions (π : Equiv.Perm (Fin n)) :
    (inversions π).card = OddEven.inversions id (List.ofFn fun p => (π p).val) := by
  rw [OddEven.inversions_ofFn]
  rfl

/-- Swaps realise a permutation of the positions if they take every qubit, wherever it is, to the image of
its position. -/
def Realises (swaps : List Swap) (π : Equiv.Perm (Fin n)) : Prop :=
  ∀ (layout : Layout Nat), layout.Consistent → ∀ (q : QubitId) (p : Fin n),
    layout.position? q = some p.val → (layout.applySwaps swaps).position? q = some (π p).val

/-- Swaps of neighbours on an open chain. -/
def AlongChain (n : Nat) (swaps : List Swap) : Prop :=
  ∀ swap ∈ swaps, (Chain.mk n false).adjacent swap.1 swap.2 = true ∧ swap.1 < n ∧ swap.2 < n

/-- A permutation completes a move if it sends shared qubits to their new positions and the positions of
no shared qubit to the remaining ones in ascending order. -/
structure Completes (old new : Layout Nat) (π : Equiv.Perm (Fin n)) : Prop where
  shared : ∀ (q : QubitId) (p t : Fin n), old.position? q = some p.val → new.position? q = some t.val →
    π p = t
  ascending : ∀ p p' : Fin n, p < p' →
    (∀ q, old.position? q = some p.val → new.position? q = none) →
    (∀ q, old.position? q = some p'.val → new.position? q = none) → π p < π p'

/-- Swaps realise a permutation exactly if it is the one they carry out. -/
lemma realises_iff : Realises swaps π ↔ ∀ p : Fin n, Swap.perm swaps p = π p := by
  constructor
  · intro realises p
    -- a single qubit shows where a position goes
    have consistent := Layout.consistent_empty.insert (⟨0⟩ : QubitId) p.val
    have here := Layout.position?_insert_self (∅ : Layout Nat) ⟨0⟩ p.val
    have there := realises _ consistent ⟨0⟩ p here
    rw [Layout.position?_applySwaps consistent, here] at there
    exact Option.some.inj there
  · intro perm layout consistent q p here
    rw [Layout.position?_applySwaps consistent, here, Option.map_some, perm]

/-- A rearrangement of all positions is the list of values of a permutation. -/
lemma exists_perm {items : List Nat} (all : items ~ List.range n) :
    ∃ π : Equiv.Perm (Fin n), items = List.ofFn fun p => (π p).val := by
  have length : items.length = n := by rw [all.length_eq, List.length_range]
  have lt (p : Fin n) : items.get (p.cast length.symm) < n :=
    List.mem_range.mp (all.mem_iff.mp (List.get_mem _ _))
  have inj : Function.Injective fun p : Fin n => (⟨items.get (p.cast length.symm), lt p⟩ : Fin n) := by
    intro p p' same
    have nodup : items.Nodup := all.nodup_iff.mpr List.nodup_range
    have := List.nodup_iff_injective_get.mp nodup (Fin.mk.inj same)
    exact Fin.cast_injective _ this
  refine ⟨Equiv.ofBijective _ (Finite.injective_iff_bijective.mp inj), ?_⟩
  apply List.ext_getElem
  · exact length.trans List.length_ofFn.symm
  · intro i _ _
    simp

/-- A position without a shared qubit is a gap. -/
lemma getElem?_asked_none {p : Nat} (oldOk : old.Consistent) (lt : p < n)
    (unshared : ∀ q, old.position? q = some p → new.position? q = none) :
    (asked n old new)[p]? = some none := by
  have gap : (old.occupant? p).bind new.position? = none := by
    cases here : old.occupant? p with
    | none => rfl
    | some q => exact unshared q ((oldOk q p).mpr here)
  rw [asked, List.getElem?_map, List.getElem?_range lt, Option.map_some, gap]

/-- The targets complete the move. -/
lemma completes_of_targets (oldFits : old.Fits n) (newFits : new.Fits n)
    (listed : targets n old new = List.ofFn fun p => (π p).val) : Completes old new π := by
  have target (p : Fin n) : (targets n old new)[p.val]? = some (π p).val := by
    rw [listed, List.getElem?_ofFn, dif_pos p.isLt]
  constructor
  · intro q p t here there
    have := getElem?_targets oldFits newFits here there
    rw [target p] at this
    exact Fin.ext (Option.some.inj this)
  · intro p p' less unshared unshared'
    have free : ((List.range n).filter (· ∉ (asked n old new).filterMap id)).Pairwise (· < ·) :=
      List.pairwise_lt_range.filter _
    exact fill_ascending free (Nat.le_of_eq (countP_asked oldFits.consistent newFits)) less
      (getElem?_asked_none oldFits.consistent p.isLt unshared)
      (getElem?_asked_none oldFits.consistent p'.isLt unshared') (target p) (target p')

/-! ### What the swaps do -/

/-- The swaps are the exchanges of a loop that ends. -/
lemma loops_chainSwaps (oldFits : old.Fits n) (newFits : new.Fits n) :
    ∃ logs, OddEven.Loops id (targets n old new) logs (List.range n) ∧
      chainSwaps n old new = OddEven.swapsOf logs.flatten := by
  obtain ⟨logs, loops, flat⟩ := OddEven.loops_sort id (targets n old new)
  rw [sort_targets oldFits newFits] at loops
  exact ⟨logs, loops, by rw [flat]; rfl⟩

/-- The swaps of a chain take every shared qubit to its new position. -/
lemma position?_chainSwaps (oldFits : old.Fits n) (newFits : new.Fits n) {q : QubitId} {p t : Nat}
    (here : old.position? q = some p) (there : new.position? q = some t) :
    (old.applySwaps (chainSwaps n old new)).position? q = some t :=
  Carries.position?_applySwaps (carries_chainSwaps oldFits newFits) oldFits.consistent here there

/-- The loop that looks for swaps on a chain ends. Its swaps are between neighbours and take every shared
qubit to its new position, so that layouts of the same qubits are turned into each other. There are none
exactly if no shared qubit changes its position. -/
theorem chainSwaps_realise {n : Nat} {old new : Layout Nat} (oldFits : old.Fits n) (newFits : new.Fits n) :
    (∃ logs, OddEven.Loops id (targets n old new) logs (List.range n) ∧
      chainSwaps n old new = OddEven.swapsOf logs.flatten) ∧
    (∀ swap ∈ chainSwaps n old new, swap.2 = swap.1 + 1 ∧ swap.1 + 1 < n) ∧
    (∀ q p t, old.position? q = some p → new.position? q = some t →
      (old.applySwaps (chainSwaps n old new)).position? q = some t) ∧
    ((∀ q, old.contains q = new.contains q) → old.applySwaps (chainSwaps n old new) = new) ∧
    (chainSwaps n old new = [] ↔
      ∀ q p t, old.position? q = some p → new.position? q = some t → p = t) := by
  refine ⟨loops_chainSwaps oldFits newFits, ?_, ?_, ?_, ?_, ?_⟩
  · exact fun swap mem => chainSwaps_adjacent oldFits.consistent newFits mem
  · exact fun q p t here there => position?_chainSwaps oldFits newFits here there
  · intro sameQubits
    refine (oldFits.consistent.applySwaps _).ext newFits.consistent fun q => ?_
    have both := sameQubits q
    rw [Bool.eq_iff_iff, Layout.contains_iff, Layout.contains_iff] at both
    cases here : old.position? q with
    | none =>
      -- a qubit that had no position gets none
      rw [Layout.position?_applySwaps oldFits.consistent, here, Option.map_none]
      refine (Option.eq_none_iff_forall_not_mem.mpr fun t there => ?_).symm
      obtain ⟨p, placed⟩ := both.mpr ⟨t, there⟩
      rw [here] at placed
      cases placed
    | some p =>
      obtain ⟨t, there⟩ := both.mp ⟨p, here⟩
      rw [position?_chainSwaps oldFits newFits here there, there]
  · intro none_needed q p t here there
    have moved := carries_chainSwaps oldFits newFits here there
    rwa [none_needed] at moved
  · intro still
    apply chainSwaps_of_still
    intro p _ q t here there
    exact (still q p t ((oldFits.consistent q p).mpr here) there).symm

/-- Two layouts share one qubit; another one leaves, and a third one is new. -/
theorem chainSwaps_realise_partly_shared :
    let old : Layout Nat := .ofPairs [(⟨0⟩, 0), (⟨1⟩, 3)]
    let new : Layout Nat := .ofPairs [(⟨0⟩, 2), (⟨2⟩, 0)]
    chainSwaps 4 old new = [(0, 1), (1, 2)] ∧ old.position? ⟨0⟩ = some 0 ∧ new.position? ⟨0⟩ = some 2 ∧
      (∃ logs, OddEven.Loops id (targets 4 old new) logs (List.range 4) ∧
        chainSwaps 4 old new = OddEven.swapsOf logs.flatten) ∧
      (old.applySwaps (chainSwaps 4 old new)).position? ⟨0⟩ = some 2 := by
  intro old new
  have oldFits : old.Fits 4 := Layout.fits_ofPairs (by decide)
  have newFits : new.Fits 4 := Layout.fits_ofPairs (by decide)
  obtain ⟨ends, _, moved, _⟩ := chainSwaps_realise oldFits newFits
  exact ⟨by decide, by decide, by decide, ends, moved ⟨0⟩ 0 2 (by decide) (by decide)⟩

/-! ### No swaps do it sooner -/

/-- Each swap along a chain exchanges a place with the next one. -/
lemma AlongChain.beside (along : AlongChain n swaps) {swap : Swap} (mem : swap ∈ swaps) :
    ∃ i, i + 1 < n ∧ Equiv.swap swap.1 swap.2 = Equiv.swap i (i + 1) := by
  obtain ⟨adjacent, first, second⟩ := along swap mem
  have distance : max swap.1 swap.2 - min swap.1 swap.2 = 1 := by simpa [Chain.adjacent] using adjacent
  rcases Nat.lt_or_ge swap.1 swap.2 with less | less
  · refine ⟨swap.1, by omega, ?_⟩
    rw [show swap.2 = swap.1 + 1 by omega]
  · refine ⟨swap.2, by omega, ?_⟩
    rw [Equiv.swap_comm, show swap.1 = swap.2 + 1 by omega]

/-- Realising a permutation along a chain takes a swap for each of its inversions. -/
lemma Realises.card_inversions_le (realises : Realises swaps π) (along : AlongChain n swaps) :
    (inversions π).card ≤ swaps.length := by
  rw [card_inversions]
  apply OddEven.inversions_le_length
  · intro swap mem
    rw [List.length_ofFn]
    exact along.beside mem
  · intro p t here
    rw [List.getElem?_ofFn, Option.dite_none_right_eq_some] at here
    obtain ⟨lt, same⟩ := here
    rw [← Option.some.inj same]
    exact realises_iff.mp realises ⟨p, lt⟩

/-- The swaps on a chain realise the permutation that completes the move, one for each of its inversions.
No swaps of neighbours that realise it are fewer. At most as many half-passes of the loop as there are
positions swap anything, so the swaps take at most that many layers. -/
theorem chainSwaps_shortest {n : Nat} {old new : Layout Nat} (oldFits : old.Fits n) (newFits : new.Fits n) :
    ∃ π : Equiv.Perm (Fin n),
      targets n old new = List.ofFn (fun p => (π p).val) ∧ Completes old new π ∧
      Realises (chainSwaps n old new) π ∧ AlongChain n (chainSwaps n old new) ∧
      (chainSwaps n old new).length = (inversions π).card ∧
      (∀ swaps, AlongChain n swaps → Realises swaps π →
        (chainSwaps n old new).length ≤ swaps.length) ∧
      (∃ logs, OddEven.Loops id (targets n old new) logs (List.range n) ∧
        chainSwaps n old new = OddEven.swapsOf logs.flatten ∧ logs.countP (· ≠ []) ≤ n) ∧
      Swap.depth (chainSwaps n old new) ≤ n := by
  have perm := targets_perm oldFits.consistent newFits
  obtain ⟨π, listed⟩ := exists_perm perm
  obtain ⟨logs, loops, log_eq⟩ := loops_chainSwaps oldFits newFits
  have few : logs.countP (· ≠ []) ≤ n := by
    have busy := loops.busy_le
    rwa [perm.length_eq, List.length_range] at busy
  -- every exchange takes one inversion away, and in the end there is none
  have count : (chainSwaps n old new).length = (inversions π).card := by
    have exchanges := OddEven.sort_exchanges id (targets n old new)
    have sorted : OddEven.inversions id (OddEven.sort id (targets n old new)).1 = 0 :=
      OddEven.inversions_eq_zero (OddEven.sorted_sort id _)
    rw [card_inversions, ← listed, exchanges.inversions_eq, sorted, Nat.zero_add, chainSwaps, List.length_map]
  refine ⟨π, listed, completes_of_targets oldFits newFits listed, ?_, ?_, count, ?_, ?_, ?_⟩
  · refine realises_iff.mpr fun p => perm_chainSwaps oldFits newFits ?_
    rw [listed, List.getElem?_ofFn, dif_pos p.isLt]
  · intro swap mem
    obtain ⟨next, lt⟩ := chainSwaps_adjacent oldFits.consistent newFits mem
    rw [next]
    exact ⟨Chain.adjacent_succ, by omega, lt⟩
  · intro swaps along realises
    rw [count]
    exact realises.card_inversions_le along
  · exact ⟨logs, loops, log_eq, few⟩
  · rw [log_eq]
    exact loops.depth_le.trans few

/-- A chain of five positions is reversed: ten swaps in five layers. -/
theorem chainSwaps_shortest_reversal :
    let old : Layout Nat := .ofPairs [(⟨0⟩, 0), (⟨1⟩, 1), (⟨2⟩, 2), (⟨3⟩, 3), (⟨4⟩, 4)]
    let new : Layout Nat := .ofPairs [(⟨0⟩, 4), (⟨1⟩, 3), (⟨2⟩, 2), (⟨3⟩, 1), (⟨4⟩, 0)]
    ∃ π : Equiv.Perm (Fin 5), Completes old new π ∧ (inversions π).card = 10 ∧
      (∀ swaps, AlongChain 5 swaps → Realises swaps π → 10 ≤ swaps.length) ∧
      (chainSwaps 5 old new).length = 10 ∧ Swap.depth (chainSwaps 5 old new) = 5 := by
  intro old new
  have ten : (chainSwaps 5 old new).length = 10 := by decide
  have oldFits : old.Fits 5 := Layout.fits_ofPairs (by decide)
  have newFits : new.Fits 5 := Layout.fits_ofPairs (by decide)
  obtain ⟨π, _, completes, _, _, count, least, _⟩ := chainSwaps_shortest oldFits newFits
  rw [ten] at count least
  exact ⟨π, completes, count.symm, least, ten, by decide⟩

end Move

end QubitRouting
