import Mathlib.Data.Set.Function
import QubitRouting.Proofs.Layout

/-!
# Layouts made by operations

A layout that operations lead to, whichever they are and in whatever order they come, is one to one: its
two directions are inverse to each other. So swaps move its qubits like a permutation of the positions,
which the same swaps in reverse order undo, and no qubit is lost if the positions are renamed one to one.
-/

namespace QubitRouting.Layout

/-- A layout that operations lead to, from the empty one. The positions may be renamed on the way, to those
of another kind or by a function that does not keep them apart. -/
inductive Built : {P : Type} → [Ranked P] → Layout P → Prop
  | empty {P : Type} [Ranked P] : Built (∅ : Layout P)
  | ofPairs {P : Type} [Ranked P] (pairs : List (QubitId × P)) : Built (ofPairs pairs)
  | insert {P : Type} [Ranked P] {layout : Layout P} (q : QubitId) (p : P) :
      Built layout → Built (layout.insert q p)
  | erase {P : Type} [Ranked P] {layout : Layout P} (q : QubitId) : Built layout → Built (layout.erase q)
  | swap {P : Type} [Ranked P] {layout : Layout P} (a b : P) : Built layout → Built (layout.swap a b)
  | applySwaps {layout : Layout Nat} (swaps : List Swap) : Built layout → Built (layout.applySwaps swaps)
  | mapPositions {P R : Type} [Ranked P] [Ranked R] {layout : Layout P} (f : P → R) :
      Built layout → Built (layout.mapPositions f)

variable {P R : Type} [Ranked P] [Ranked R] {layout : Layout P} {f : P → R}

/-- What operations lead to is consistent. -/
lemma Built.consistent (built : layout.Built) : layout.Consistent := by
  induction built with
  | empty => exact consistent_empty
  | ofPairs pairs => exact consistent_ofPairs pairs
  | insert q p _ ih => exact ih.insert q p
  | erase q _ ih => exact ih.erase q
  | swap a b _ ih =>
    classical
    exact ih.swap a b
  | applySwaps swaps _ ih => exact ih.applySwaps swaps
  | mapPositions f _ _ => exact consistent_ofPairs _

/-- The positions that hold a qubit. -/
def taken (layout : Layout P) : Set P := { p | ∃ q, layout.position? q = some p }

section Renamed

variable (consistent : layout.Consistent) (inj : Set.InjOn f layout.taken)
include consistent inj

/-- Renaming that keeps the positions in use apart renames that of each qubit. -/
lemma position?_mapPositions_of_injOn (q : QubitId) :
    (layout.mapPositions f).position? q = (layout.position? q).map f := by
  apply position?_mapPositions consistent
  intro q r p s placedQ placedR same
  exact inj ⟨q, placedQ⟩ ⟨r, placedR⟩ same

/-- If no two qubits get to the same position, it does not matter in which order they are moved. -/
lemma ofPairs_eq_mapPositions {listed : List (QubitId × P)} (order : listed.Perm layout.pairs) :
    ofPairs (listed.map fun pair => (pair.1, f pair.2)) = layout.mapPositions f := by
  refine (consistent_ofPairs _).ext (consistent_ofPairs _) fun q => ?_
  refine Eq.trans ?_ (position?_mapPositions_of_injOn consistent inj q).symm
  apply position?_ofPairs_moved consistent ?_ order
  intro q r p s placedQ placedR same
  exact inj ⟨q, placedQ⟩ ⟨r, placedR⟩ same

end Renamed

/-- Swaps neither add nor remove a qubit. -/
lemma contains_applySwaps {layout : Layout Nat} (consistent : layout.Consistent) (swaps : List Swap)
    (q : QubitId) : (layout.applySwaps swaps).contains q = layout.contains q := by
  rw [Bool.eq_iff_iff, contains_iff, contains_iff, position?_applySwaps consistent]
  simp

/-- The two directions of every layout that operations lead to are inverse to each other. If its positions
are renamed one to one, every qubit follows its position, in whatever order the qubits are moved. Swaps,
be they of a position with itself or of positions that hold nothing, move every qubit by their permutation
of the positions, bring none in and take none out, and the same swaps in reverse order lead back. -/
theorem built_one_to_one :
    (∀ {P : Type} [Ranked P] {layout : Layout P}, layout.Built →
      (∀ q p, layout.position? q = some p ↔ layout.occupant? p = some q) ∧
      ∀ {R : Type} [Ranked R] (f : P → R), Set.InjOn f layout.taken →
        (∀ q, (layout.mapPositions f).position? q = (layout.position? q).map f) ∧
        ∀ listed : List (QubitId × P), listed.Perm layout.pairs →
          ofPairs (listed.map fun pair => (pair.1, f pair.2)) = layout.mapPositions f) ∧
    ∀ {layout : Layout Nat}, layout.Built → ∀ swaps : List Swap,
      (∀ q, (layout.applySwaps swaps).position? q = (layout.position? q).map (Swap.perm swaps)) ∧
      (∀ q, (layout.applySwaps swaps).contains q = layout.contains q) ∧
      (layout.applySwaps swaps).applySwaps swaps.reverse = layout := by
  refine ⟨?_, ?_⟩
  · intro P _ layout built
    have consistent := built.consistent
    refine ⟨consistent, fun f inj => ⟨?_, ?_⟩⟩
    · exact position?_mapPositions_of_injOn consistent inj
    · exact fun listed => ofPairs_eq_mapPositions consistent inj
  · intro layout built swaps
    have consistent := built.consistent
    refine ⟨?_, ?_, consistent.applySwaps_reverse swaps⟩
    · exact position?_applySwaps consistent swaps
    · exact contains_applySwaps consistent swaps

/-- Qubits are put where others sit, one is put back, and a position is swapped with itself. Counting from
the other end keeps the positions apart that are taken then, though not all positions. -/
theorem built_one_to_one_crowded :
    let layout : Layout Nat :=
      (((ofPairs [(⟨0⟩, 3), (⟨1⟩, 3), (⟨2⟩, 4)]).insert ⟨1⟩ 4).insert ⟨2⟩ 0).swap 4 4
    let swaps : List Swap := [(4, 1), (7, 7), (1, 0), (5, 8)]
    layout.Built ∧ layout.pairs = [(⟨1⟩, 4), (⟨2⟩, 0)] ∧
      (∀ q p, layout.position? q = some p ↔ layout.occupant? p = some q) ∧
      Set.InjOn (fun p => 5 - p) layout.taken ∧
      (layout.mapPositions fun p => 5 - p).position? ⟨2⟩ = some 5 ∧
      ofPairs [(⟨2⟩, 5), (⟨1⟩, 1)] = layout.mapPositions (fun p => 5 - p) ∧
      (layout.applySwaps swaps).position? ⟨1⟩ = some (Swap.perm swaps 4) ∧ Swap.perm swaps 4 = 0 ∧
      (layout.applySwaps swaps).contains ⟨2⟩ = true ∧
      (layout.applySwaps swaps).applySwaps swaps.reverse = layout := by
  intro layout swaps
  have built : layout.Built := (((Built.ofPairs _).insert _ _).insert _ _).swap _ _
  have inj : Set.InjOn (fun p => 5 - p) layout.taken := by
    have below : ∀ p ∈ layout.taken, p ≤ 4 := by
      rintro p ⟨q, placed⟩
      have listed : ∀ pair ∈ layout.pairs, pair.2 ≤ 4 := by decide
      exact listed _ (mem_pairs_iff.mpr placed)
    intro p here s there same
    have := below p here
    have := below s there
    dsimp only at same
    omega
  obtain ⟨inverse, renamed⟩ := built_one_to_one.1 built
  obtain ⟨moved, unordered⟩ := renamed _ inj
  obtain ⟨swapped, kept, undone⟩ := built_one_to_one.2 built swaps
  refine ⟨built, by decide, inverse, inj, moved ⟨2⟩, ?_, swapped ⟨1⟩, by decide, kept ⟨2⟩, undone⟩
  exact unordered [(⟨2⟩, 0), (⟨1⟩, 4)] (by decide)

end QubitRouting.Layout
