import Mathlib.Data.Nat.Factorial.Basic
import QubitRouting.Proofs.Search

/-!
# The cheapest order

If there are no more orders of the rows than steps, the search tries each of them once, in lexicographic
order, and finds the first one that costs least; nothing random is involved. Otherwise it draws as many orders
as there are steps, and finds the first one of those. The number of orders is compared exactly, although it
may not fit a word.
-/

namespace QubitRouting

open scoped List

/-! ### All orders -/

section Arrangements

variable {items : List Nat}

/-- What is left after picking an item is in the former order. -/
lemma sublist_of_mem_picks {α : Type} {items others : List α} {y : α} (mem : (y, others) ∈ picks items) :
    others <+ items := by
  induction items generalizing y others with
  | nil => cases mem
  | cons x rest ih =>
    rcases List.mem_cons.mp mem with same | mem
    · cases same
      exact List.sublist_cons_self x rest
    · obtain ⟨⟨z, fewer⟩, inRest, same⟩ := List.mem_map.mp mem
      cases same
      exact (ih inRest).cons_cons x

/-- Entries in ascending order are picked in lexicographic order. -/
lemma picksInOrder_lex (count : Nat) (ascending : items.Pairwise (· < ·)) :
    (picksInOrder count items).Pairwise (List.Lex (· < ·)) := by
  induction count generalizing items with
  | zero => exact List.pairwise_singleton _ _
  | succ count ih =>
    rw [picksInOrder, List.pairwise_flatMap]
    constructor
    · rintro ⟨x, rest⟩ mem
      have tails := ih (ascending.sublist (sublist_of_mem_picks mem))
      exact List.pairwise_map.mpr (tails.imp List.Lex.cons)
    · -- the first entries ascend, and they decide
      rw [← map_fst_picks items, List.pairwise_map] at ascending
      refine ascending.imp ?_
      intro first second less order memFirst other memSecond
      obtain ⟨_, _, rfl⟩ := List.mem_map.mp memFirst
      obtain ⟨_, _, rfl⟩ := List.mem_map.mp memSecond
      exact .rel less

end Arrangements

namespace Grid

variable {grid : Grid} {rows count : Nat}

/-! ### The number of orders -/

/-- The first order of a list whose price is the least. -/
def FirstCheapest (price : List Nat → Nat) (orders : List (List Nat)) (best : List Nat) : Prop :=
  ∃ before after, orders = before ++ best :: after ∧
    (∀ order ∈ before, price best < price order) ∧ ∀ order ∈ after, price best ≤ price order

/-- The first of the cheapest orders is one of the orders. -/
lemma FirstCheapest.mem {price : List Nat → Nat} {orders : List (List Nat)} {best : List Nat}
    (first : FirstCheapest price orders best) : best ∈ orders := by
  obtain ⟨before, after, rfl, _⟩ := first
  exact List.mem_append_right _ List.mem_cons_self

/-- Among all orders, the first of the cheapest is the lexicographically least of them. -/
lemma FirstCheapest.least {price : List Nat → Nat} {best other : List Nat}
    (first : FirstCheapest price (arrangements (List.range rows)) best) (perm : other ~ List.range rows) :
    price best ≤ price other ∧ (price other = price best → other = best ∨ List.Lex (· < ·) best other) := by
  have lex : (arrangements (List.range rows)).Pairwise (List.Lex (· < ·)) :=
    picksInOrder_lex _ List.pairwise_lt_range
  have mem := mem_arrangements_iff.mpr perm
  obtain ⟨before, after, split, dearer, least⟩ := first
  rw [split] at lex mem
  rcases List.mem_append.mp mem with mem | mem
  · have less := dearer other mem
    exact ⟨less.le, fun same => absurd same less.ne'⟩
  · rcases List.mem_cons.mp mem with rfl | mem
    · exact ⟨le_rfl, fun _ => .inl rfl⟩
    · refine ⟨least other mem, fun _ => .inr ?_⟩
      exact (List.pairwise_cons.mp (List.pairwise_append.mp lex).2.1).1 other mem

/-- The search finds swaps exactly if the cells can be numbered. If they cannot, it overflows before it draws
an order, whatever it looks for. -/
theorem optimalSwaps_ok_iff_small (grid : Grid) (rows_pos : 0 < grid.rows) (columns_pos : 0 < grid.columns)
    {old new : Layout Nat} (oldFits : old.Fits (grid.rows * grid.columns))
    (newFits : new.Fits (grid.rows * grid.columns)) (cost : Cost) (steps : Nat) (stream : Random.Stream) :
    ((∃ swaps, (grid.optimalSwaps old new cost steps stream).1 = .ok swaps) ↔
      grid.rows * grid.columns < 2 ^ 32) ∧
    (¬grid.rows * grid.columns < 2 ^ 32 →
      grid.optimalSwaps old new cost steps stream = (.error (.fault .overflow), stream)) := by
  refine ⟨⟨?_, ?_⟩, fun large => optimalSwaps_of_large large old new⟩
  · rintro ⟨swaps, found⟩
    exact small_of_optimalSwaps found
  · intro small
    have valid : grid.Valid := ⟨rows_pos, columns_pos, small⟩
    obtain ⟨swaps, found, _⟩ := valid.optimalSwaps_eq oldFits newFits
    exact ⟨swaps, found⟩

end Grid

end QubitRouting
