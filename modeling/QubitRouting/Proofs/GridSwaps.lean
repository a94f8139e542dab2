import QubitRouting.Proofs.Straight

/-!
# Swaps on a grid

Whatever the order in which the row matchings are taken, the swaps of a grid are between neighbouring cells
and take every shared qubit to its new cell. The search only chooses among the orders, so its swaps do so
as well, and there are none exactly if no shared qubit changes its cell.
-/

namespace QubitRouting.Grid

open QubitRouting.Move (Carries)
open scoped List

variable {grid : Grid} {old new : Layout Nat} {targets : Nat → Nat} {records : List Record}
  {matchings : List (List Nat)} {swaps : List Swap}

/-- No qubit of both layouts changes its cell. -/
def Still (old new : Layout Nat) : Prop :=
  ∀ q p t, old.position? q = some p → new.position? q = some t → p = t

/-- Swaps of neighbouring cells after which every qubit of both layouts is at its new cell. -/
structure Realises (grid : Grid) (old new : Layout Nat) (swaps : List Swap) : Prop where
  neighbouring : Neighbouring grid swaps
  arrives : ∀ q p t, old.position? q = some p → new.position? q = some t →
    (old.applySwaps swaps).position? q = some t

/-- The swaps for an order realise the move if they carry the shared qubits to their cells. -/
lemma Valid.realises (valid : grid.Valid) (consistent : old.Consistent) {order : List Nat}
    (run : grid.swapsFor records matchings order = .ok swaps) (carries : Carries swaps old new) :
    Realises grid old new swaps := by
  refine ⟨valid.swapsFor_neighbouring run, ?_⟩
  intro q p t here there
  exact Carries.position?_applySwaps carries consistent here there

/-- The empty list of swaps carries only layouts between which nothing moves. -/
lemma still_of_carries (carries : Carries [] old new) : Still old new :=
  fun _ _ _ here there => carries here there

/-- Where nothing moves, no order leads to a swap. -/
lemma Posed.swaps_eq_nil (posed : Posed grid old new targets records matchings) (valid : grid.Valid)
    (consistent : old.Consistent) (still : Still old new) {order : List Nat}
    (perm : order ~ List.range grid.rows) (run : grid.swapsFor records matchings order = .ok swaps) :
    swaps = [] := by
  have unmoved : Move.targets (grid.rows * grid.columns) old new
      = List.range (grid.rows * grid.columns) := by
    apply Move.targets_of_still
    intro p _ q t here there
    exact (still q p t ((consistent q p).mpr here) there).symm
  rw [posed.swapsFor_still valid unmoved perm] at run
  exact (Except.ok.inj run).symm

/-- A move between layouts on a grid has records and row matchings, and every order of the matchings leads
to swaps that realise it. So do the swaps that the search finds, which are those of one of the orders; there
are none exactly if no qubit of both layouts changes its cell. -/
theorem swapsFor_realise {grid : Grid} {old new : Layout Nat} (valid : grid.Valid)
    (oldFits : old.Fits (grid.rows * grid.columns)) (newFits : new.Fits (grid.rows * grid.columns)) :
    ∃ records matchings, grid.records old new = .ok records ∧
      grid.rowMatchings (records.map fun record => record.destination.finalColumn) = .ok matchings ∧
      (∀ order, order ~ List.range grid.rows → ∃ swaps,
        grid.swapsFor records matchings order = .ok swaps ∧ Realises grid old new swaps) ∧
      ∀ cost steps stream, ∃ order swaps, order ~ List.range grid.rows ∧
        grid.swapsFor records matchings order = .ok swaps ∧
        (grid.optimalSwaps old new cost steps stream).1 = .ok swaps ∧
        Realises grid old new swaps ∧ (swaps = [] ↔ Still old new) := by
  obtain ⟨targets, records, matchings, posed⟩ := valid.exists_posed oldFits newFits
  refine ⟨records, matchings, posed.recorded, posed.matched, ?_, ?_⟩
  · intro order perm
    obtain ⟨swaps, run, carries⟩ := posed.swapsFor_eq valid oldFits newFits perm
    exact ⟨swaps, run, valid.realises oldFits.consistent run carries⟩
  · intro cost steps stream
    obtain ⟨order, swaps, perm, run, found, carries⟩ :=
      posed.exists_order valid oldFits newFits cost steps stream
    refine ⟨order, swaps, perm, run, found, valid.realises oldFits.consistent run carries, ?_, ?_⟩
    · rintro rfl
      exact still_of_carries carries
    · exact fun still => posed.swaps_eq_nil valid oldFits.consistent still perm run

/-- On a grid of two rows and three columns one qubit crosses from corner to corner, one leaves and one is
new. -/
theorem swapsFor_realise_across :
    let old : Layout Nat := .ofPairs [(⟨0⟩, 0), (⟨1⟩, 4)]
    let new : Layout Nat := .ofPairs [(⟨0⟩, 5), (⟨2⟩, 1)]
    old.position? ⟨0⟩ = some 0 ∧ new.position? ⟨0⟩ = some 5 ∧
      ∃ records matchings, Grid.records ⟨2, 3⟩ old new = .ok records ∧
        (∃ swaps, Grid.swapsFor ⟨2, 3⟩ records matchings [1, 0] = .ok swaps ∧
          Realises ⟨2, 3⟩ old new swaps) ∧
        ∀ cost steps stream, ∃ swaps, (Grid.optimalSwaps ⟨2, 3⟩ old new cost steps stream).1 = .ok swaps ∧
          swaps ≠ [] ∧ (old.applySwaps swaps).position? ⟨0⟩ = some 5 := by
  intro old new
  have here : old.position? ⟨0⟩ = some 0 := by decide
  have there : new.position? ⟨0⟩ = some 5 := by decide
  have valid : (⟨2, 3⟩ : Grid).Valid := ⟨by decide, by decide, by decide⟩
  have oldFits : old.Fits ((⟨2, 3⟩ : Grid).rows * (⟨2, 3⟩ : Grid).columns) := Layout.fits_ofPairs (by decide)
  have newFits : new.Fits ((⟨2, 3⟩ : Grid).rows * (⟨2, 3⟩ : Grid).columns) := Layout.fits_ofPairs (by decide)
  obtain ⟨records, matchings, recorded, _, orders, search⟩ := swapsFor_realise valid oldFits newFits
  refine ⟨here, there, records, matchings, recorded, orders [1, 0] (by decide), ?_⟩
  intro cost steps stream
  obtain ⟨_, swaps, _, _, found, realises, empty⟩ := search cost steps stream
  refine ⟨swaps, found, ?_, realises.arrives _ _ _ here there⟩
  intro none
  exact absurd (empty.mp none _ _ _ here there) (by decide)

end QubitRouting.Grid
