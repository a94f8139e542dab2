import QubitRouting.OrderedMap

/-!
# Swaps

A swap exchanges what two positions hold. Swaps that share no position can run at the same time, so
a list of swaps has a depth besides its length.
-/

namespace QubitRouting

/-- The exchange of what two positions hold. -/
abbrev Swap := Nat × Nat

namespace Swap

/-- For each position the layer of the last swap on it, and the layers used so far. -/
structure Schedule where
  /-- The layer of the last swap on each position. -/
  layers : OrderedMap Nat Nat := ∅
  depth : Nat := 0

/-- Put a swap in the first layer after those of the earlier swaps on its positions. -/
def Schedule.add (schedule : Schedule) (swap : Swap) : Schedule :=
  let last (p : Nat) := (schedule.layers.find? p).getD 0
  let layer := max (last swap.1) (last swap.2) + 1
  { layers := (schedule.layers.insert swap.1 layer).insert swap.2 layer
    depth := max schedule.depth layer }

/-- The number of layers a list of swaps takes when independent swaps run together. -/
def depth (swaps : List Swap) : Nat := (swaps.foldl Schedule.add {}).depth

end Swap

end QubitRouting
