import QubitRouting.Matching
import QubitRouting.Proofs.Collections

/-!
# Augmenting paths give maximum matchings

Every matching found on a bipartite graph is one: partners are neighbours, and each is the other's
partner. A search from a vertex without a partner either gives it one, and leaves all others matched, or
ends with a set of vertices whose neighbours all have their partners in the set.
-/

namespace QubitRouting.Graph

variable {graph : Graph} {mates : Mates} {color : Nat → Bool} {u v w root : Nat}

/-- Edges go both ways, and join vertices of different colours. -/
structure Bipartite (graph : Graph) (color : Nat → Bool) : Prop where
  symm : ∀ {u v}, v ∈ graph.neighbours u → u ∈ graph.neighbours v
  alternate : ∀ {u v}, v ∈ graph.neighbours u → color v = !color u

/-- A vertex with a neighbour is in the graph. -/
lemma lt_order (edge : v ∈ graph.neighbours u) : u < graph.order := by
  by_contra outside
  rw [neighbours, Array.getElem?_eq_none (Nat.le_of_not_lt outside)] at edge
  cases edge

/-- No vertex of a bipartite graph is its own neighbour. -/
lemma Bipartite.ne (bipartite : graph.Bipartite color) (edge : v ∈ graph.neighbours u) : v ≠ u := by
  rintro rfl
  have := bipartite.alternate edge
  cases h : color v <;> simp [h] at this

/-- Partners are neighbours and partners of each other. -/
structure IsMatching (graph : Graph) (mates : Mates) : Prop where
  edge : ∀ {u v}, mates.find? u = some v → v ∈ graph.neighbours u
  symm : ∀ {u v}, mates.find? u = some v → mates.find? v = some u

/-- Nothing matched is a matching. -/
lemma isMatching_empty : graph.IsMatching ∅ := by
  constructor
  · intro u v found
    cases found
  · intro u v found
    cases found

/-- Two vertices without partners may become partners if an edge joins them. -/
lemma IsMatching.pair (matching : graph.IsMatching mates) (bipartite : graph.Bipartite color)
    (edge : v ∈ graph.neighbours u) (freeU : mates.find? u = none) (freeV : mates.find? v = none) :
    graph.IsMatching (mates.pair u v) := by
  have ne : v ≠ u := bipartite.ne edge
  constructor
  · intro x y found
    rcases OrderedMap.find?_insert_eq_some.mp found with ⟨rfl, rfl⟩ | ⟨_, found⟩
    · exact bipartite.symm edge
    · rcases OrderedMap.find?_insert_eq_some.mp found with ⟨rfl, rfl⟩ | ⟨_, found⟩
      · exact edge
      · exact matching.edge found
  · intro x y found
    rcases OrderedMap.find?_insert_eq_some.mp found with ⟨rfl, rfl⟩ | ⟨neV, found⟩
    · rw [Mates.pair, OrderedMap.find?_insert_of_ne ne, OrderedMap.find?_insert_self]
    · rcases OrderedMap.find?_insert_eq_some.mp found with ⟨rfl, rfl⟩ | ⟨neU, found⟩
      · rw [Mates.pair, OrderedMap.find?_insert_self]
      · have back := matching.symm found
        have : v ≠ y := by
          rintro rfl
          rw [freeV] at back
          cases back
        have : u ≠ y := by
          rintro rfl
          rw [freeU] at back
          cases back
        rwa [Mates.pair, OrderedMap.find?_insert_of_ne ‹_›, OrderedMap.find?_insert_of_ne ‹_›]

/-! ### Greedy walks -/

/-- A matching whose vertices were all visited, but for the one the walk stands on. -/
structure Greedy.Sound (graph : Graph) (standing : Option Nat) (state : Greedy) : Prop where
  matching : graph.IsMatching state.mates
  visited : ∀ {u v}, state.mates.find? u = some v → u ∈ state.visited ∨ standing = some u
  lt : ∀ u ∈ state.visited, u < graph.order

/-- Visiting the vertex that the walk stands on, or any other, keeps the greedy matching sound. -/
lemma Greedy.Sound.visit {state : Greedy} {standing : Option Nat}
    (sound : state.Sound graph standing) (here : standing = none ∨ standing = some v)
    (lt : v < graph.order) :
    Greedy.Sound graph none { state with visited := state.visited.insert v } where
  matching := sound.matching
  visited := by
    intro u w found
    left
    apply OrderedSet.mem_insert.mpr
    rcases sound.visited found with mem | stands
    · exact .inr mem
    · rcases here with rfl | rfl
      · cases stands
      · obtain rfl := Option.some.inj stands
        exact .inl rfl
  lt := by
    intro u mem
    rcases OrderedSet.mem_insert.mp mem with rfl | mem
    · exact lt
    · exact sound.lt u mem

/-- A vertex that was not visited has no partner. -/
lemma Greedy.Sound.find?_eq_none {state : Greedy} (sound : state.Sound graph none)
    (fresh : v ∉ state.visited) : state.mates.find? v = none := by
  cases found : state.mates.find? v with
  | none => rfl
  | some w =>
    rcases sound.visited found with mem | absurdity
    · exact absurd mem fresh
    · cases absurdity

/-- A walk ends with a matching of visited vertices. -/
lemma greedyWalk_sound (bipartite : graph.Bipartite color) {fuel : Nat} {last : Option Nat}
    {state : Greedy} (lt : v < graph.order) (fresh : v ∉ state.visited)
    (enough : graph.order < fuel + state.visited.size)
    (waits : last = some v ∧ state.Sound graph none ∨ last = none ∧ state.Sound graph (some v)) :
    (graph.greedyWalk fuel v last state).Sound graph none := by
  induction fuel generalizing v last state with
  | zero =>
    -- every step visits another vertex, so there are as many steps as the walk can take
    have within : ∀ u ∈ state.visited.insert v, u < graph.order := by
      intro u mem
      rcases OrderedSet.mem_insert.mp mem with rfl | mem
      · exact lt
      · rcases waits with ⟨_, sound⟩ | ⟨_, sound⟩
        · exact sound.lt u mem
        · exact sound.lt u mem
    have := OrderedSet.size_le_of_lt within
    rw [OrderedSet.size_insert_of_not_mem fresh] at this
    omega
  | succ fuel ih =>
    have sound : Greedy.Sound graph none { state with visited := state.visited.insert v } := by
      rcases waits with ⟨_, sound⟩ | ⟨_, sound⟩
      · exact sound.visit (.inl rfl) lt
      · exact sound.visit (.inr rfl) lt
    have size := OrderedSet.size_insert_of_not_mem fresh
    rw [greedyWalk]
    simp only
    split
    · exact sound
    case h_2 t found =>
      have edge : t ∈ graph.neighbours v := List.mem_of_find?_eq_some found
      have unvisited : t ∉ state.visited.insert v := by
        have := List.find?_some found
        rwa [Bool.not_eq_true', OrderedSet.contains_eq_false_iff] at this
      have within : t < graph.order := lt_order (bipartite.symm edge)
      rcases waits with ⟨rfl, former⟩ | ⟨rfl, _⟩
      · refine ih within unvisited (by simp only; omega) (.inr ⟨rfl, ?_⟩)
        have freeV : state.mates.find? v = none := former.find?_eq_none fresh
        have freeT : state.mates.find? t = none := sound.find?_eq_none unvisited
        refine ⟨former.matching.pair bipartite edge freeV freeT, ?_, sound.lt⟩
        intro x y partner
        rcases OrderedMap.find?_insert_eq_some.mp partner with ⟨rfl, _⟩ | ⟨_, partner⟩
        · exact .inr rfl
        · rcases OrderedMap.find?_insert_eq_some.mp partner with ⟨rfl, _⟩ | ⟨_, partner⟩
          · exact .inl (OrderedSet.mem_insert.mpr (.inl rfl))
          · rcases sound.visited partner with mem | absurdity
            · exact .inl mem
            · cases absurdity
      · exact ih within unvisited (by simp only; omega) (.inl ⟨rfl, sound⟩)

/-- The greedy walk gives a matching. -/
lemma greedyMatching_isMatching (bipartite : graph.Bipartite color) :
    graph.IsMatching graph.greedyMatching := by
  have run (vertices : List Nat) (lt : ∀ v ∈ vertices, v < graph.order) (state : Greedy)
      (sound : state.Sound graph none) :
      (vertices.foldl (fun state s => if state.visited.contains s then state
        else graph.greedyWalk (graph.order + 1) s (some s) state) state).Sound graph none := by
    induction vertices generalizing state with
    | nil => exact sound
    | cons s rest ih =>
      apply ih fun v mem => lt v (List.mem_cons_of_mem s mem)
      dsimp only
      split
      · exact sound
      case isFalse fresh =>
        rw [Bool.not_eq_true, OrderedSet.contains_eq_false_iff] at fresh
        exact greedyWalk_sound bipartite (lt s List.mem_cons_self) fresh (by omega)
          (.inl ⟨rfl, sound⟩)
  have start : Greedy.Sound graph none {} := by
    refine ⟨isMatching_empty, ?_, ?_⟩
    · intro u v found
      cases found
    · intro u mem
      exact absurd mem (OrderedSet.not_mem_empty u)
  exact (run _ (fun v => List.mem_range.mp) _ start).matching

/-! ### Augmenting paths -/

/-- The way back from a vertex to the root of a search, by its number of steps: along the edge to the
partner, and from there to the vertex that the search came from. -/
inductive Trail (graph : Graph) (mates : Mates) (origins : OrderedMap Nat Nat) (root : Nat) :
    Nat → Nat → Prop
  | root : mates.find? root = none → Trail graph mates origins root 0 root
  | step {n u w next : Nat} : mates.find? u = some w → w ∈ graph.neighbours u →
      origins.find? u = some next → w ∈ graph.neighbours next →
      Trail graph mates origins root n next → Trail graph mates origins root (n + 1) u

variable {origins : OrderedMap Nat Nat} {n : Nat}

/-- The number of steps back from a vertex is determined. -/
lemma Trail.unique {k : Nat} (trail : Trail graph mates origins root n u)
    (other : Trail graph mates origins root k u) : n = k := by
  induction trail generalizing k with
  | root free =>
    cases other with
    | root => rfl
    | step partner =>
      rw [free] at partner
      cases partner
  | step partner _ came _ _ ih =>
    cases other with
    | root free =>
      rw [free] at partner
      cases partner
    | step _ _ came' _ other =>
      rw [came] at came'
      obtain rfl := Option.some.inj came'
      rw [ih other]

/-- All vertices on the way back have the colour of the root. -/
lemma Trail.color_eq (trail : Trail graph mates origins root n u)
    (bipartite : graph.Bipartite color) : color u = color root := by
  induction trail with
  | root => rfl
  | step _ edge _ edge' _ ih =>
    have := bipartite.alternate edge
    have := bipartite.alternate edge'
    simp_all

/-- The way back does not change with the partners of vertices it does not meet: those of the other
colour, and one that is further away from the root. -/
lemma Trail.congr {mates' : Mates} {far : Nat} {k : Nat}
    (trail : Trail graph mates origins root n u) (bipartite : graph.Bipartite color)
    (same : ∀ x, color x = color root → x ≠ far → mates'.find? x = mates.find? x)
    (further : Trail graph mates origins root k far) (lt : n < k) :
    Trail graph mates' origins root n u := by
  induction trail with
  | root free =>
    refine .root ((same _ rfl ?_).trans free)
    rintro rfl
    exact absurd ((Trail.root free).unique further) (Nat.ne_of_lt lt)
  | step partner edge came edge' trail ih =>
    have whole := Trail.step partner edge came edge' trail
    refine .step ((same _ (whole.color_eq bipartite) ?_).trans partner) edge came edge' (ih (by omega))
    rintro rfl
    exact absurd (whole.unique further) (Nat.ne_of_lt lt)

/-- A way back stays one when more vertices are reached. -/
lemma Trail.mono {origins' : OrderedMap Nat Nat} (trail : Trail graph mates origins root n u)
    (sub : ∀ {x y}, origins.find? x = some y → origins'.find? x = some y) :
    Trail graph mates origins' root n u := by
  induction trail with
  | root free => exact .root free
  | step partner edge came edge' _ ih => exact .step partner edge (sub came) edge' ih

/-- The way back does not meet a vertex without a partner but at its end. -/
lemma Trail.insert_free {t : Nat} (trail : Trail graph mates origins root n u)
    (free : mates.find? t = none) (notRoot : t ≠ root) (x : Nat) :
    Trail graph (mates.insert t x) origins root n u := by
  induction trail with
  | root free' => exact .root ((OrderedMap.find?_insert_of_ne notRoot).trans free')
  | step partner edge came edge' _ ih =>
    refine .step ((OrderedMap.find?_insert_of_ne ?_).trans partner) edge came edge' ih
    rintro rfl
    rw [free] at partner
    cases partner

/-- A matching in which `v` already has the partner `u`, but not the other way round. -/
structure Pending (graph : Graph) (mates : Mates) (u v : Nat) : Prop where
  head : mates.find? v = some u
  edge : v ∈ graph.neighbours u
  rest : ∀ {x y}, x ≠ v → mates.find? x = some y →
    y ≠ v ∧ y ∈ graph.neighbours x ∧ mates.find? y = some x

/-- If `u` has no partner yet, `v` becomes its partner. -/
lemma Pending.close (pending : graph.Pending mates u v) (bipartite : graph.Bipartite color)
    (free : mates.find? u = none) : graph.IsMatching (mates.insert u v) := by
  constructor
  · intro x y found
    rcases OrderedMap.find?_insert_eq_some.mp found with ⟨rfl, rfl⟩ | ⟨_, former⟩
    · exact pending.edge
    · by_cases here : x = v
      · subst here
        obtain rfl := Option.some.inj (pending.head.symm.trans former)
        exact bipartite.symm pending.edge
      · exact (pending.rest here former).2.1
  · intro x y found
    rcases OrderedMap.find?_insert_eq_some.mp found with ⟨rfl, rfl⟩ | ⟨_, former⟩
    · rw [OrderedMap.find?_insert_of_ne (bipartite.ne pending.edge).symm, pending.head]
    · by_cases here : x = v
      · subst here
        obtain rfl := Option.some.inj (pending.head.symm.trans former)
        rw [OrderedMap.find?_insert_self]
      · obtain ⟨_, _, back⟩ := pending.rest here former
        rw [OrderedMap.find?_insert_of_ne, back]
        rintro rfl
        rw [free] at back
        cases back

/-- If `u` has a partner, `v` takes its place and the former partner waits for another one. -/
lemma Pending.next (pending : graph.Pending mates u v) (bipartite : graph.Bipartite color)
    {next : Nat} (partner : mates.find? u = some w) (edge : w ∈ graph.neighbours next) :
    graph.Pending ((mates.insert u v).insert w next) next w := by
  have neV : u ≠ v := (bipartite.ne pending.edge).symm
  obtain ⟨neW, partnerEdge, back⟩ := pending.rest neV partner
  have neU : w ≠ u := bipartite.ne partnerEdge
  refine ⟨OrderedMap.find?_insert_self _ _ _, edge, ?_⟩
  intro x y notW found
  rw [OrderedMap.find?_insert_of_ne notW.symm] at found
  rcases OrderedMap.find?_insert_eq_some.mp found with ⟨rfl, rfl⟩ | ⟨notU, former⟩
  · refine ⟨neW.symm, pending.edge, ?_⟩
    rw [OrderedMap.find?_insert_of_ne neW, OrderedMap.find?_insert_of_ne neV, pending.head]
  · by_cases here : x = v
    · subst here
      obtain rfl := Option.some.inj (pending.head.symm.trans former)
      refine ⟨neU.symm, bipartite.symm pending.edge, ?_⟩
      rw [OrderedMap.find?_insert_of_ne neU, OrderedMap.find?_insert_self]
    · obtain ⟨_, edge', back'⟩ := pending.rest here former
      have yNeW : y ≠ w := by
        rintro rfl
        exact notU (Option.some.inj (back'.symm.trans back))
      have yNeU : y ≠ u := by
        rintro rfl
        exact notW (Option.some.inj (back'.symm.trans partner))
      refine ⟨yNeW, edge', ?_⟩
      rw [OrderedMap.find?_insert_of_ne yNeW.symm, OrderedMap.find?_insert_of_ne yNeU.symm, back']

/-- Re-matching along the way back to the root ends with a matching that has the root. -/
lemma augment_isMatching (bipartite : graph.Bipartite color) {fuel : Nat}
    (trail : Trail graph mates origins root n u) (enough : n < fuel)
    (pending : graph.Pending mates u v) :
    graph.IsMatching (augment origins fuel u v mates) ∧
      ∃ w, (augment origins fuel u v mates).find? root = some w := by
  induction fuel generalizing mates n u v with
  | zero => exact absurd enough (Nat.not_lt_zero n)
  | succ fuel ih =>
    cases trail with
    | root free =>
      rw [augment, free]
      exact ⟨pending.close bipartite free, v, OrderedMap.find?_insert_self _ _ _⟩
    | @step n _ w next partner edge came edge' trail =>
      have whole := Trail.step partner edge came edge' trail
      have neV : u ≠ v := (bipartite.ne pending.edge).symm
      have neU : u ≠ w := (bipartite.ne edge).symm
      have back : (mates.insert u v).find? w = some u := by
        rw [OrderedMap.find?_insert_of_ne neU, (pending.rest neV partner).2.2]
      rw [augment, partner, came]
      simp only [back, if_true]
      refine ih (trail.congr bipartite ?_ whole (Nat.lt_succ_self n)) (by omega)
        (pending.next bipartite partner edge')
      intro x same notU
      have notW : x ≠ w := by
        rintro rfl
        have := bipartite.alternate edge
        rw [same, whole.color_eq bipartite] at this
        cases h : color root <;> simp [h] at this
      rw [OrderedMap.find?_insert_of_ne notW.symm, OrderedMap.find?_insert_of_ne notU.symm]

/-- Re-matching leaves every vertex matched that was. -/
lemma contains_augment {fuel x : Nat} (matched : mates.contains x = true) :
    (augment origins fuel u v mates).contains x = true := by
  have keeps {mates : Mates} {a b : Nat} (matched : mates.contains x = true) :
      (mates.insert a b).contains x = true := by
    obtain ⟨y, found⟩ := OrderedMap.contains_iff_exists.mp matched
    apply OrderedMap.contains_iff_exists.mpr
    by_cases same : x = a
    · exact ⟨b, OrderedMap.find?_insert_eq_some.mpr (.inl ⟨same, rfl⟩)⟩
    · exact ⟨y, OrderedMap.find?_insert_eq_some.mpr (.inr ⟨same, found⟩)⟩
  induction fuel generalizing mates u v with
  | zero => exact matched
  | succ fuel ih =>
    rw [augment]
    split
    · split
      · exact ih (keeps (keeps matched))
      · exact keeps matched
    · exact keeps matched

/-! ### Breadth-first search -/

/-- Every vertex that was queued has a way back to the root. -/
structure Search.Sound (graph : Graph) (mates : Mates) (root : Nat) (search : Search) : Prop where
  root_mem : root ∈ search.seen
  origin : ∀ {u}, u ∈ search.seen ↔ u = root ∨ search.origins.contains u = true
  trail : ∀ {u}, u ∈ search.seen → ∃ n < search.seen.size, Trail graph mates search.origins root n u
  queued : ∀ {u}, u ∈ search.queue → u ∈ search.seen
  lt : ∀ u ∈ search.seen, u < graph.order

/-- Queue the partner of a neighbour of the given vertex, unless it was queued before. -/
def Search.reach (search : Search) (vertex m : Nat) : Search :=
  if search.seen.contains m then search
  else
    { queue := search.queue ++ [m], seen := search.seen.insert m
      origins := search.origins.insert m vertex }

variable {search : Search} {vertex t m : Nat}

/-- A neighbour with a partner gets the partner queued, and the scan goes on. -/
lemma scan_cons_of_matched {rest : List Nat} (sound : search.Sound graph mates root)
    (partner : mates.find? t = some m) :
    scan mates root vertex (t :: rest) search = scan mates root vertex rest (search.reach vertex m) := by
  rw [scan, partner]
  simp only
  by_cases seen : m ∈ search.seen
  · have known : (m = root || search.origins.contains m) = true := by
      simpa using sound.origin.mp seen
    rw [if_pos known, if_pos (OrderedSet.contains_iff.mpr seen), Search.reach,
      if_pos (OrderedSet.contains_iff.mpr seen)]
  · have unknown : ¬ (m = root || search.origins.contains m) = true := by
      intro known
      exact seen (sound.origin.mpr (by simpa using known))
    have fresh : ¬ search.seen.contains m = true := fun mem => seen (OrderedSet.contains_iff.mp mem)
    rw [if_neg unknown, if_neg fresh, Search.reach, if_neg fresh]

/-- Queueing the partner of a neighbour gives it a way back too. -/
lemma Search.Sound.reach (sound : search.Sound graph mates root)
    (matching : graph.IsMatching mates) (here : vertex ∈ search.seen)
    (edge : t ∈ graph.neighbours vertex) (partner : mates.find? t = some m) :
    (search.reach vertex m).Sound graph mates root := by
  rw [Search.reach]
  split
  · exact sound
  case isFalse fresh =>
    rw [Bool.not_eq_true, OrderedSet.contains_eq_false_iff] at fresh
    have back : mates.find? m = some t := matching.symm partner
    -- `m` was not seen before, so no way back goes through it
    have grown {x y : Nat} (came : search.origins.find? x = some y) :
        (search.origins.insert m vertex).find? x = some y := by
      rw [OrderedMap.find?_insert_of_ne, came]
      rintro rfl
      exact fresh (sound.origin.mpr (.inr (OrderedMap.contains_iff_exists.mpr ⟨y, came⟩)))
    have size := OrderedSet.size_insert_of_not_mem fresh
    refine ⟨OrderedSet.mem_insert.mpr (.inr sound.root_mem), ?_, ?_, ?_, ?_⟩
    · intro u
      rw [OrderedSet.mem_insert, sound.origin, OrderedMap.contains_iff_exists,
        OrderedMap.contains_iff_exists]
      simp only [OrderedMap.find?_insert_eq_some]
      by_cases same : u = m
      · simp [same]
      · simp [same]
    · intro u mem
      rcases OrderedSet.mem_insert.mp mem with rfl | mem
      · obtain ⟨n, lt, trail⟩ := sound.trail here
        refine ⟨n + 1, by simp only; omega, ?_⟩
        exact .step back (matching.edge back) (OrderedMap.find?_insert_self _ _ _) edge
          (trail.mono grown)
      · obtain ⟨n, lt, trail⟩ := sound.trail mem
        exact ⟨n, by simp only; omega, trail.mono grown⟩
    · intro u mem
      rcases List.mem_append.mp mem with mem | mem
      · exact OrderedSet.mem_insert.mpr (.inr (sound.queued mem))
      · exact OrderedSet.mem_insert.mpr (.inl (List.mem_singleton.mp mem))
    · intro u mem
      rcases OrderedSet.mem_insert.mp mem with rfl | mem
      · exact lt_order (matching.edge back)
      · exact sound.lt u mem

/-- A search goes on: what is newly seen is queued. -/
structure Search.Extends (search next : Search) : Prop where
  seen : ∀ {u}, u ∈ search.seen → u ∈ next.seen
  queue : ∀ {u}, u ∈ search.queue → u ∈ next.queue
  fresh : ∀ {u}, u ∈ next.seen → u ∈ search.seen ∨ u ∈ next.queue
  length : next.seen.size + search.queue.length = search.seen.size + next.queue.length

/-- A search extends itself. -/
lemma Search.Extends.refl (search : Search) : search.Extends search :=
  ⟨id, id, .inl, rfl⟩

/-- Going on twice is going on. -/
lemma Search.Extends.trans {next last : Search} (first : search.Extends next)
    (second : next.Extends last) : search.Extends last := by
  refine ⟨second.seen ∘ first.seen, second.queue ∘ first.queue, ?_, ?_⟩
  · intro u mem
    rcases second.fresh mem with mem | mem
    · rcases first.fresh mem with mem | mem
      · exact .inl mem
      · exact .inr (second.queue mem)
    · exact .inr mem
  · have := first.length
    have := second.length
    omega

/-- Queueing a partner goes on with the search, and the partner is seen. -/
lemma Search.extends_reach (search : Search) (vertex m : Nat) :
    search.Extends (search.reach vertex m) ∧ m ∈ (search.reach vertex m).seen := by
  rw [Search.reach]
  split
  case isTrue seen => exact ⟨.refl search, OrderedSet.contains_iff.mp seen⟩
  case isFalse fresh =>
    rw [Bool.not_eq_true, OrderedSet.contains_eq_false_iff] at fresh
    refine ⟨⟨?_, ?_, ?_, ?_⟩, OrderedSet.mem_insert.mpr (.inl rfl)⟩
    · intro u mem
      exact OrderedSet.mem_insert.mpr (.inr mem)
    · intro u mem
      exact List.mem_append_left _ mem
    · intro u mem
      rcases OrderedSet.mem_insert.mp mem with rfl | mem
      · exact .inr (List.mem_append_right _ List.mem_cons_self)
      · exact .inl mem
    · simp only [OrderedSet.size_insert_of_not_mem fresh, List.length_append, List.length_singleton]
      omega

/-- A scan finds a neighbour without a partner, or sees the partners of all neighbours. -/
lemma scan_sound (matching : graph.IsMatching mates) (sound : search.Sound graph mates root)
    (here : vertex ∈ search.seen) {rest : List Nat} (sub : rest ⊆ graph.neighbours vertex) :
    (scan mates root vertex rest search).2.Sound graph mates root ∧
      search.Extends (scan mates root vertex rest search).2 ∧
      match (scan mates root vertex rest search).1 with
      | some t => t ∈ graph.neighbours vertex ∧ mates.find? t = none
      | none => ∀ t ∈ rest, ∃ m ∈ (scan mates root vertex rest search).2.seen,
          mates.find? t = some m := by
  induction rest generalizing search with
  | nil => exact ⟨sound, .refl search, nofun⟩
  | cons t rest ih =>
    have edge : t ∈ graph.neighbours vertex := sub List.mem_cons_self
    cases partner : mates.find? t with
    | none =>
      rw [scan, partner]
      exact ⟨sound, .refl search, edge, partner⟩
    | some m =>
      rw [scan_cons_of_matched sound partner]
      obtain ⟨grows, mem⟩ := search.extends_reach vertex m
      obtain ⟨sound', extends', result⟩ := ih (sound.reach matching here edge partner)
        (grows.seen here) (List.subset_of_cons_subset sub)
      refine ⟨sound', grows.trans extends', ?_⟩
      split
      case h_1 found =>
        rw [found] at result
        exact result
      case h_2 found =>
        rw [found] at result
        intro t' mem'
        rcases List.mem_cons.mp mem' with rfl | mem'
        · exact ⟨m, extends'.seen mem, partner⟩
        · exact result t' mem'

/-- A set of vertices, coloured like the root, whose neighbours all have their partners in the set. -/
structure Blocked (graph : Graph) (mates : Mates) (color : Nat → Bool) (root : Nat)
    (seen : OrderedSet Nat) : Prop where
  root_mem : root ∈ seen
  color_eq : ∀ {u}, u ∈ seen → color u = color root
  closed : ∀ {u t}, u ∈ seen → t ∈ graph.neighbours u → ∃ m ∈ seen, mates.find? t = some m

/-- A larger matching that has the root. -/
structure Grows (graph : Graph) (mates : Mates) (root : Nat) (larger : Mates) : Prop where
  matching : graph.IsMatching larger
  root_matched : larger.contains root = true
  keeps : ∀ {x}, mates.contains x = true → larger.contains x = true

/-- An edge to a vertex without a partner ends a search. -/
lemma Search.Sound.grows (sound : search.Sound graph mates root) (bipartite : graph.Bipartite color)
    (matching : graph.IsMatching mates) (here : u ∈ search.seen) (edge : t ∈ graph.neighbours u)
    (free : mates.find? t = none) :
    graph.Grows mates root (augment search.origins (graph.order + 1) u t (mates.insert t u)) := by
  obtain ⟨n, lt, trail⟩ := sound.trail here
  have bound := OrderedSet.size_le_of_lt sound.lt
  -- the vertex is coloured like the root, and so its neighbour is not
  have notRoot : t ≠ root := by
    rintro rfl
    have := bipartite.alternate edge
    rw [trail.color_eq bipartite] at this
    exact Bool.not_ne_self _ this.symm
  have pending : graph.Pending (mates.insert t u) u t := by
    refine ⟨OrderedMap.find?_insert_self _ _ _, edge, ?_⟩
    intro x y ne found
    rw [OrderedMap.find?_insert_of_ne ne.symm] at found
    have back := matching.symm found
    have ne' : y ≠ t := by
      rintro rfl
      rw [free] at back
      cases back
    exact ⟨ne', matching.edge found, (OrderedMap.find?_insert_of_ne ne'.symm).trans back⟩
  have enough : n < graph.order + 1 := by omega
  obtain ⟨matching', matched⟩ :=
    augment_isMatching bipartite (trail.insert_free free notRoot u) enough pending
  refine ⟨matching', OrderedMap.contains_iff_exists.mpr matched, ?_⟩
  intro x matched
  apply contains_augment
  obtain ⟨y, found⟩ := OrderedMap.contains_iff_exists.mp matched
  rw [OrderedMap.contains_iff_exists]
  refine ⟨y, (OrderedMap.find?_insert_of_ne ?_).trans found⟩
  rintro rfl
  rw [free] at found
  cases found

/-- A search ends with a larger matching, or it is blocked. -/
lemma searchFrom_sound (bipartite : graph.Bipartite color) (matching : graph.IsMatching mates)
    {fuel : Nat} (sound : search.Sound graph mates root)
    (scanned : ∀ {u t}, u ∈ search.seen → u ∉ search.queue → t ∈ graph.neighbours u →
      ∃ m ∈ search.seen, mates.find? t = some m)
    (enough : graph.order + search.queue.length < fuel + search.seen.size) :
    (∃ larger, graph.searchFrom mates root fuel search = some larger ∧ graph.Grows mates root larger) ∨
      graph.searchFrom mates root fuel search = none ∧
        ∃ seen, graph.Blocked mates color root seen := by
  induction fuel generalizing search with
  | zero =>
    -- at most `order` vertices are seen, so the fuel lasts
    have := OrderedSet.size_le_of_lt sound.lt
    omega
  | succ fuel ih =>
    cases first : search.queue with
    | nil =>
      -- all that was seen has been scanned
      right
      refine ⟨by rw [searchFrom, first], search.seen, sound.root_mem, ?_, ?_⟩
      · intro u mem
        obtain ⟨n, _, trail⟩ := sound.trail mem
        exact trail.color_eq bipartite
      · intro u t mem
        exact scanned mem (first ▸ List.not_mem_nil)
    | cons u queue =>
      have here : u ∈ search.seen := sound.queued (first ▸ List.mem_cons_self)
      have popped : Search.Sound graph mates root { search with queue := queue } :=
        ⟨sound.root_mem, sound.origin, sound.trail,
          fun mem => sound.queued (first ▸ List.mem_cons_of_mem u mem), sound.lt⟩
      obtain ⟨sound', grows, result⟩ := scan_sound matching popped here
        (List.Subset.refl (graph.neighbours u))
      rw [searchFrom, first]
      dsimp only
      generalize scan mates root u (graph.neighbours u) { search with queue := queue } = scan
        at sound' grows result
      obtain ⟨found, next⟩ := scan
      cases found with
      | some t =>
        left
        exact ⟨_, rfl, sound'.grows bipartite matching (grows.seen here) result.1 result.2⟩
      | none =>
        have length := grows.length
        rw [first, List.length_cons] at enough
        refine ih sound' ?_ (by simp only at length ⊢; omega)
        intro v t mem notQueued edge
        rcases grows.fresh mem with mem | queued
        · by_cases same : v = u
          · subst same
            exact result t edge
          · have notFirst : v ∉ search.queue := by
              rw [first]
              intro queued
              rcases List.mem_cons.mp queued with same' | queued
              · exact same same'
              · exact notQueued (grows.queue queued)
            obtain ⟨m, memM, partner⟩ := scanned mem notFirst edge
            exact ⟨m, grows.seen memM, partner⟩
        · exact absurd queued notQueued

/-- A search starts with one vertex seen. -/
lemma size_start (root : Nat) : (OrderedSet.empty.insert root : OrderedSet Nat).size = 1 :=
  OrderedSet.size_insert_of_not_mem (OrderedSet.not_mem_empty root)

/-- A search that starts at a vertex without a partner. -/
lemma Search.sound_start (lt : root < graph.order) (free : mates.find? root = none) :
    Search.Sound graph mates root { queue := [root], seen := OrderedSet.empty.insert root } := by
  have single {u : Nat} : u ∈ (OrderedSet.empty.insert root : OrderedSet Nat) ↔ u = root := by
    rw [OrderedSet.mem_insert]
    exact or_iff_left (OrderedSet.not_mem_empty u)
  refine ⟨single.mpr rfl, ?_, ?_, ?_, ?_⟩
  · intro u
    rw [single]
    exact (or_iff_left nofun).symm
  · intro u mem
    obtain rfl := single.mp mem
    refine ⟨0, ?_, .root free⟩
    rw [size_start]
    exact Nat.one_pos
  · intro u mem
    exact single.mpr (List.mem_singleton.mp mem)
  · intro u mem
    rw [single.mp mem]
    exact lt

/-- Growing keeps a matching one, and the root is matched afterwards unless its search is blocked. -/
lemma grow_sound (bipartite : graph.Bipartite color) (matching : graph.IsMatching mates)
    (lt : root < graph.order) :
    graph.Grows mates root (graph.grow mates root) ∨
      graph.grow mates root = mates ∧ mates.find? root = none ∧
        ∃ seen, graph.Blocked mates color root seen := by
  by_cases matched : mates.contains root = true
  · left
    rw [grow, if_pos matched]
    exact ⟨matching, matched, id⟩
  · have free : mates.find? root = none := by
      rwa [OrderedMap.contains, Option.not_isSome_iff_eq_none] at matched
    -- nothing was scanned yet, as the root is all that was seen and it is queued
    have queued {u : Nat} (mem : u ∈ (OrderedSet.empty.insert root : OrderedSet Nat)) : u ∈ [root] := by
      rcases OrderedSet.mem_insert.mp mem with rfl | mem
      · exact List.mem_singleton_self u
      · exact absurd mem (OrderedSet.not_mem_empty u)
    have enough : graph.order + [root].length
        < graph.order + 1 + (OrderedSet.empty.insert root : OrderedSet Nat).size := by
      rw [size_start, List.length_singleton]
      exact Nat.lt_succ_self _
    rw [grow, if_neg matched]
    rcases searchFrom_sound bipartite matching (Search.sound_start lt free)
      (fun mem notQueued => absurd (queued mem) notQueued) enough
      with ⟨larger, found, grows⟩ | ⟨none, blocked⟩
    · left
      simp only [found, Option.getD_some]
      exact grows
    · right
      simp only [none, Option.getD_none]
      exact ⟨trivial, free, blocked⟩

/-- Growing from one vertex after the other matches all vertices that are wanted, if searches from those are
never blocked. -/
lemma foldl_grow_covers (bipartite : graph.Bipartite color) {wanted : Nat → Prop}
    (unblocked : ∀ {mates root seen}, graph.IsMatching mates → mates.find? root = none →
      wanted root → ¬ graph.Blocked mates color root seen)
    {vertices : List Nat} (lt : ∀ v ∈ vertices, v < graph.order) (matching : graph.IsMatching mates) :
    graph.IsMatching (vertices.foldl graph.grow mates) ∧
      ∀ v, mates.contains v = true ∨ v ∈ vertices ∧ wanted v →
        (vertices.foldl graph.grow mates).contains v = true := by
  induction vertices generalizing mates with
  | nil =>
    refine ⟨matching, ?_⟩
    rintro v (matched | ⟨absurdity, _⟩)
    · exact matched
    · cases absurdity
  | cons root rest ih =>
    have ltRest : ∀ v ∈ rest, v < graph.order := fun v mem => lt v (List.mem_cons_of_mem root mem)
    rcases grow_sound bipartite matching (lt root List.mem_cons_self) with
      grows | ⟨same, free, seen, blocked⟩
    · obtain ⟨matching', covers⟩ := ih ltRest grows.matching
      refine ⟨matching', ?_⟩
      rintro v (matched | ⟨mem, want⟩)
      · exact covers v (.inl (grows.keeps matched))
      · rcases List.mem_cons.mp mem with rfl | mem
        · exact covers v (.inl grows.root_matched)
        · exact covers v (.inr ⟨mem, want⟩)
    · obtain ⟨matching', covers⟩ := ih ltRest matching
      rw [List.foldl_cons, same]
      refine ⟨matching', ?_⟩
      rintro v (matched | ⟨mem, want⟩)
      · exact covers v (.inl matched)
      · rcases List.mem_cons.mp mem with rfl | mem
        · exact absurd blocked (unblocked matching free want)
        · exact covers v (.inr ⟨mem, want⟩)

/-- The maximum matching is a matching, and it has every vertex that is wanted, if searches from those are
never blocked. -/
theorem maximumMatching_covers (bipartite : graph.Bipartite color) {wanted : Nat → Prop}
    (unblocked : ∀ {mates root seen}, graph.IsMatching mates → mates.find? root = none →
      wanted root → ¬ graph.Blocked mates color root seen) :
    graph.IsMatching graph.maximumMatching ∧
      ∀ v < graph.order, wanted v → ∃ w, graph.maximumMatching.find? v = some w := by
  obtain ⟨matching, covers⟩ := foldl_grow_covers bipartite unblocked
    (fun v => List.mem_range.mp) (greedyMatching_isMatching bipartite)
  refine ⟨matching, ?_⟩
  intro v lt want
  exact OrderedMap.contains_iff_exists.mp (covers v (.inr ⟨List.mem_range.mpr lt, want⟩))

/-- The maximum matching is a matching. -/
lemma maximumMatching_isMatching (bipartite : graph.Bipartite color) :
    graph.IsMatching graph.maximumMatching := by
  have none_wanted {mates : Mates} {root : Nat} {seen : OrderedSet Nat} (_ : graph.IsMatching mates)
      (_ : mates.find? root = none) (absurdity : False) : ¬ graph.Blocked mates color root seen :=
    absurdity.elim
  exact (maximumMatching_covers bipartite none_wanted).1

end QubitRouting.Graph
