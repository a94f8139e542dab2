/-!
# Arrangements

All orders of a list, the first entry varying slowest: for a list in ascending order, the
lexicographic order of its permutations.
-/

namespace QubitRouting

/-- Every entry of a list with the entries that are left without it. -/
def picks {α : Type} : List α → List (α × List α)
  | [] => []
  | x :: rest => (x, rest) :: (picks rest).map fun (y, others) => (y, x :: others)

/-- All ways to pick a given number of entries one after the other. -/
def picksInOrder {α : Type} : Nat → List α → List (List α)
  | 0, _ => [[]]
  | count + 1, items =>
    (picks items).flatMap fun (x, rest) => (picksInOrder count rest).map (x :: ·)

/-- All orders of a list. -/
def arrangements {α : Type} (items : List α) : List (List α) := picksInOrder items.length items

end QubitRouting
