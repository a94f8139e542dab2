import QubitRouting.Swap

/-!
# Statistics of a run

How often the layout was changed by swaps, and histograms of how many swaps and layers that took.
-/

namespace QubitRouting

/-- Counters over the life of a mapper. -/
structure Statistics where
  /-- How often the layout was changed by swaps. -/
  numMappings : Nat := 0
  /-- For each depth, how many changes had it. -/
  depths : OrderedMap Nat Nat := ∅
  /-- For each number of swaps, how many changes took it. -/
  counts : OrderedMap Nat Nat := ∅
deriving DecidableEq

namespace Statistics

/-- Count one more occurrence of a key. -/
def increment (histogram : OrderedMap Nat Nat) (key : Nat) : OrderedMap Nat Nat :=
  histogram.insert key ((histogram.find? key).getD 0 + 1)

/-- Record one change of layout. -/
def record (statistics : Statistics) (swaps : List Swap) : Statistics :=
  { numMappings := statistics.numMappings + 1
    depths := increment statistics.depths (Swap.depth swaps)
    counts := increment statistics.counts swaps.length }

/-- The number of swaps over all changes. -/
def totalSwaps (statistics : Statistics) : Nat :=
  (statistics.counts.entries.map fun entry => entry.1 * entry.2).foldr (· + ·) 0

end Statistics

end QubitRouting
