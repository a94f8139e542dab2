/-!
# Odd-even transposition sort

A line is sorted by exchanging neighbours only: first those at odd, then those at even places, again
and again until nothing moves. Every exchange is logged by the place of its left neighbour. A pass
that moves anything removes an inversion, so the number of inversions bounds the number of passes.
-/

namespace QubitRouting.OddEven

variable {α : Type}

/-- Compare the items two by two, from the given place on, and exchange those out of order. -/
def exchangePairs (key : α → Nat) : Nat → List α → List α × List Nat
  | place, x :: y :: rest =>
    let (sorted, log) := exchangePairs key (place + 2) rest
    if key x > key y then (y :: x :: sorted, place :: log) else (x :: y :: sorted, log)
  | _, rest => (rest, [])

/-- Exchange the pairs that start at even places. -/
def evenPass (key : α → Nat) (line : List α) : List α × List Nat := exchangePairs key 0 line

/-- Exchange the pairs that start at odd places. -/
def oddPass (key : α → Nat) : List α → List α × List Nat
  | [] => ([], [])
  | x :: rest =>
    let (sorted, log) := exchangePairs key 1 rest
    (x :: sorted, log)

/-- One odd and one even pass. -/
def pass (key : α → Nat) (line : List α) : List α × List Nat :=
  let (afterOdd, oddLog) := oddPass key line
  let (afterEven, evenLog) := evenPass key afterOdd
  (afterEven, oddLog ++ evenLog)

/-- Up to the given number of passes, ending early when nothing moves. -/
def passes (key : α → Nat) : Nat → List α → List α × List Nat
  | 0, line => (line, [])
  | count + 1, line =>
    let (moved, log) := pass key line
    if log.isEmpty then (line, [])
    else
      let (sorted, more) := passes key count moved
      (sorted, log ++ more)

/-- The number of pairs that stand in the wrong order. -/
def inversions (key : α → Nat) : List α → Nat
  | [] => 0
  | x :: rest => rest.countP (key · < key x) + inversions key rest

/-- The sorted line and the places of the exchanges that sort it. -/
def sort (key : α → Nat) (line : List α) : List α × List Nat :=
  passes key (inversions key line) line

end QubitRouting.OddEven
