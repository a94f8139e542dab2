import QubitRouting.OrderedMap
import QubitRouting.OrderedSet

/-!
# Maximum matchings

A maximum matching of a bipartite graph: a greedy matching along paths, grown by augmenting paths that
are found breadth first. Which of several maximum matchings comes out is fixed by the order in which
the graph lists its vertices and neighbours.
-/

namespace QubitRouting

/-- A graph on the vertices `0, …, order - 1`, by the neighbours of each vertex. -/
structure Graph where
  /-- The neighbours of each vertex, in the order they are tried. -/
  adjacency : Array (List Nat)

namespace Graph

/-- The number of vertices. -/
def order (graph : Graph) : Nat := graph.adjacency.size

/-- The neighbours of a vertex. -/
def neighbours (graph : Graph) (v : Nat) : List Nat := graph.adjacency[v]?.getD []

/-- A matching, by the partner of each matched vertex. -/
abbrev Mates := OrderedMap Nat Nat

/-- Make two vertices partners. -/
def Mates.pair (mates : Mates) (u v : Nat) : Mates :=
  OrderedMap.insert (OrderedMap.insert mates u v) v u

/-- The state of the greedy walks. -/
structure Greedy where
  mates : Mates := ∅
  visited : OrderedSet Nat := ∅

/-- Walk on to the first neighbour not yet visited, for as long as there is one, and match every
second edge of the walk. `last` is the vertex that waits for a partner; the first argument bounds
the number of steps. -/
def greedyWalk (graph : Graph) : Nat → Nat → Option Nat → Greedy → Greedy
  | 0, _, _, state => state
  | fuel + 1, v, last, state =>
    let state := { state with visited := state.visited.insert v }
    match (graph.neighbours v).find? fun t => !state.visited.contains t with
    | none => state
    | some t =>
      match last with
      | some u => graph.greedyWalk fuel t none { state with mates := state.mates.pair u t }
      | none => graph.greedyWalk fuel t (some t) state

/-- A matching from one greedy walk after the other. -/
def greedyMatching (graph : Graph) : Mates :=
  let walk (state : Greedy) (s : Nat) :=
    if state.visited.contains s then state else graph.greedyWalk (graph.order + 1) s (some s) state
  ((List.range graph.order).foldl walk {}).mates

/-- A breadth-first search for an augmenting path. -/
structure Search where
  /-- The vertices still to be scanned. -/
  queue : List Nat
  /-- The vertices that were queued. -/
  seen : OrderedSet Nat
  /-- For each queued vertex but the first, the vertex it was reached from. -/
  origins : OrderedMap Nat Nat := ∅

/-- Scan the neighbours of a vertex: stop at the first one without a partner, else queue the
partners. -/
def scan (mates : Mates) (root vertex : Nat) : List Nat → Search → Option Nat × Search
  | [], search => (none, search)
  | t :: rest, search =>
    match mates.find? t with
    | none => (some t, search)
    | some m =>
      let search :=
        if m = root || search.origins.contains m then search
        else { search with origins := search.origins.insert m vertex }
      let search :=
        if search.seen.contains m then search
        else { search with queue := search.queue ++ [m], seen := search.seen.insert m }
      scan mates root vertex rest search

/-- Match `u` with `v` and re-match the former partners back to the root of the search. -/
def augment (origins : OrderedMap Nat Nat) : Nat → Nat → Nat → Mates → Mates
  | 0, _, _, mates => mates
  | fuel + 1, u, v, mates =>
    let former := mates.find? u
    let mates := mates.insert u v
    match former, origins.find? u with
    | some w, some next =>
      if mates.find? w = some u then augment origins fuel next w (mates.insert w next) else mates
    | _, _ => mates

/-- Scan the queued vertices until an augmenting path is found, and augment along it. -/
def searchFrom (graph : Graph) (mates : Mates) (root : Nat) : Nat → Search → Option Mates
  | 0, _ => none
  | fuel + 1, search =>
    match search.queue with
    | [] => none
    | u :: queue =>
      match scan mates root u (graph.neighbours u) { search with queue := queue } with
      | (some t, found) => some (augment found.origins (graph.order + 1) u t (mates.insert t u))
      | (none, next) => graph.searchFrom mates root fuel next

/-- The matching after a search from one vertex, if that vertex has no partner. -/
def grow (graph : Graph) (mates : Mates) (root : Nat) : Mates :=
  if mates.contains root then mates
  else
    let start : Search := { queue := [root], seen := OrderedSet.empty.insert root }
    (graph.searchFrom mates root (graph.order + 1) start).getD mates

/-- A matching that no augmenting path makes larger. -/
def maximumMatching (graph : Graph) : Mates :=
  (List.range graph.order).foldl graph.grow graph.greedyMatching

end Graph

end QubitRouting
