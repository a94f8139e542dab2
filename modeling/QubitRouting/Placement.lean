import QubitRouting.Layout
import QubitRouting.Segment

/-!
# Placement of segments

Segments are laid out on the chain from left to right. Each step takes the segment, and the number of
positions to leave free before it, whose place agrees most with where its qubits sat before. That is
not the best choice over all, but it keeps unrelated groups of qubits roughly in place.
-/

namespace QubitRouting

namespace Placement

/-- A segment and the number of positions to leave free before it. -/
structure Candidate where
  /-- Where the segment stands among those still to be placed. -/
  index : Nat
  run : List QubitId
  padding : Nat
  /-- How many positions of its place were free or held one of its qubits. -/
  overlap : Nat

/-- How many positions from `start` on, as many as the run is long, were free or held one of its
qubits. -/
def overlap (chain : List (Option QubitId)) (start : Nat) (run : List QubitId) : Nat :=
  let window := (chain.drop start).take run.length
  let shared := (window.filterMap id).filter (· ∈ run)
  window.countP Option.isNone + shared.eraseDups.length

/-- Whether the place of a candidate agrees with the former layout in full. -/
def Candidate.perfect (candidate : Candidate) : Bool := candidate.overlap == candidate.run.length

/-- Whether a candidate agrees more, as a fraction of its length, than another one. The fraction of a
segment without qubits is undefined and neither exceeds nor is exceeded. -/
def Candidate.exceeds (candidate other : Candidate) : Bool :=
  candidate.overlap * other.run.length > other.overlap * candidate.run.length

/-- Whether a candidate agrees in nothing. -/
def Candidate.disjoint (candidate : Candidate) : Bool :=
  candidate.overlap == 0 && !candidate.run.isEmpty

/-- Whether a candidate displaces the best one so far: a perfect one with less padding does, one with
a higher fraction does, and any does if the best one so far agrees in nothing. -/
def Candidate.displaces (candidate best : Candidate) : Bool :=
  candidate.perfect && candidate.padding < best.padding || candidate.exceeds best || best.disjoint

/-- All choices for the next step: segment by segment, by ascending padding. -/
def candidates (chain : List (Option QubitId)) (remaining : List (List QubitId))
    (unused cursor : Nat) : List Candidate :=
  remaining.zipIdx.flatMap fun (run, index) =>
    (List.range (unused + 1)).map fun padding =>
      { index := index, run := run, padding := padding
        overlap := overlap chain (cursor + padding) run }

/-- The best of a list of candidates. -/
def choose? (candidates : List Candidate) : Option Candidate :=
  candidates.foldl
    (fun best candidate =>
      match best with
      | none => some candidate
      | some best => if candidate.displaces best then some candidate else some best)
    none

/-- The segments with the position of their first qubit, in the order they are placed. The first
argument is the number of segments to place. -/
def arrange (chain : List (Option QubitId)) :
    Nat → List (List QubitId) → Nat → Nat → List (List QubitId × Nat)
  | 0, _, _, _ => []
  | count + 1, remaining, unused, cursor =>
    match choose? (candidates chain remaining unused cursor) with
    | none => []
    | some best =>
      let start := cursor + best.padding
      (best.run, start) ::
        arrange chain count (remaining.eraseIdx best.index) (unused - best.padding)
          (start + best.run.length)

end Placement

namespace Segments

/-- The segments to place: the runs, and every other qubit on its own. -/
def toPlace (segments : Segments) : List (List QubitId) :=
  let inRuns := segments.runs.flatten
  segments.runs ++ (segments.allocated.toList.filter (· ∉ inRuns)).map fun q => [q]

/-- The layout of the segments on a chain, close to the present layout. -/
def place (segments : Segments) (numQubits : Nat) (current : Layout Nat) : Layout Nat :=
  let runs := segments.toPlace
  let placed := Placement.arrange (current.toChain numQubits) runs.length runs
    (numQubits - segments.allocated.size) 0
  Layout.ofPairs ((placed.flatMap fun (run, start) => run.zipIdx start).filter (·.2 < numQubits))

end Segments

end QubitRouting
