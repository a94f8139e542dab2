import QubitRouting.Proofs.Renaming.Collections
import QubitRouting.Router

/-!
# Plans only depend on the order of the qubits

For corresponding commands and layouts the segments correspond and are placed alike, so the next layouts
correspond. The moves between them are the same, and with them the swaps and the random numbers drawn to
find them.
-/

namespace QubitRouting

open List (Forall₂)

variable {R : QubitId → QubitId → Prop} {q q' : QubitId}

/-! ### Segments -/

/-- Corresponding commands in the buffer mean the same for corresponding qubits. -/
inductive Shape.Rel (R : QubitId → QubitId → Prop) : Shape → Shape → Prop
  | allocate {q q' : QubitId} : R q q' → Rel R (.allocate q) (.allocate q')
  | deallocate {q q' : QubitId} : R q q' → Rel R (.deallocate q) (.deallocate q')
  | single {q q' : QubitId} : R q q' → Rel R (.single q) (.single q')
  | pair {a b a' b' : QubitId} : R a a' → R b b' → Rel R (.pair a b) (.pair a' b')

/-- Corresponding shapes have corresponding qubits. -/
lemma Shape.Rel.qubits {shape shape' : Shape} (rel : Shape.Rel R shape shape') :
    Forall₂ R shape.qubits shape'.qubits := by
  cases rel with
  | allocate here | deallocate here | single here => exact .cons here .nil
  | pair first second => exact .cons first (.cons second .nil)

namespace Segments

variable {runs runs' : List (List QubitId)} {run run' : List QubitId} {a b a' b' : QubitId}

/-- The same end of corresponding runs at the same place. -/
structure RunEnd.Rel (R : QubitId → QubitId → Prop) (runEnd runEnd' : RunEnd) : Prop where
  index : runEnd.index = runEnd'.index
  run : Forall₂ R runEnd.run runEnd'.run
  side : runEnd.side = runEnd'.side

/-- A qubit is at an end of a run if its partner is. -/
lemma eq_some_iff (keeps : KeepsOrder R) {one other : Option QubitId} (rel : Option.Rel R one other)
    (here : R q q') : one = some q ↔ other = some q' := by
  cases rel with
  | none => exact ⟨nofun, nofun⟩
  | some found => rw [Option.some_inj, Option.some_inj, keeps.eq_iff found here]

/-- Corresponding qubits are at the same ends of corresponding runs. -/
lemma endOf?_rel (keeps : KeepsOrder R) (listed : Forall₂ (Forall₂ R) runs runs') (here : R q q') :
    Option.Rel (RunEnd.Rel R) (endOf? runs q) (endOf? runs' q') := by
  refine findSome?_rel (zipIdx_rel listed 0) ?_
  rintro ⟨run, i⟩ ⟨run', i'⟩ ⟨members, same⟩
  simp only [eq_some_iff keeps (head?_rel members) here, eq_some_iff keeps (getLast?_rel members) here]
  split
  · exact .some ⟨same, members, rfl⟩
  · split
    · exact .some ⟨same, members, rfl⟩
    · exact .none

/-- Adding corresponding qubits at the same end of corresponding runs keeps them corresponding. -/
lemma RunEnd.Rel.extend {runEnd runEnd' : RunEnd} (rel : RunEnd.Rel R runEnd runEnd') (new : R q q') :
    Forall₂ R (runEnd.extend q) (runEnd'.extend q') := by
  rw [RunEnd.extend, RunEnd.extend, rel.side]
  split
  · exact .cons new rel.run
  · exact List.rel_append rel.run (.cons new .nil)

/-- Corresponding runs, the new one apart. -/
def JoinRel (R : QubitId → QubitId → Prop) (joined joined' : List QubitId × List (List QubitId)) : Prop :=
  Forall₂ R joined.1 joined'.1 ∧ Forall₂ (Forall₂ R) joined.2 joined'.2

/-- Corresponding runs are joined alike. -/
lemma join?_rel (keeps : KeepsOrder R) (listed : Forall₂ (Forall₂ R) runs runs') (first : R a a')
    (second : R b b') : Option.Rel (JoinRel R) (join? runs a b) (join? runs' a' b') := by
  have merge {run run' : List QubitId} (members : Forall₂ R run run') (kept dropped : Nat) :
      JoinRel R (run, (runs.set kept run).eraseIdx dropped) (run', (runs'.set kept run').eraseIdx dropped) :=
    ⟨members, eraseIdx_rel (set_rel listed members kept) dropped⟩
  have endA := endOf?_rel keeps listed first
  have endB := endOf?_rel keeps listed second
  rw [join?, join?]
  generalize endOf? runs a = one, endOf? runs' a' = one', endOf? runs b = two, endOf? runs' b' = two'
    at endA endB
  cases endA with
  | none =>
    cases endB with
    | none =>
      have pair : Forall₂ R [a, b] [a', b'] := .cons first (.cons second .nil)
      exact .some ⟨pair, List.rel_append listed (.cons pair .nil)⟩
    | @some endB endB' found =>
      dsimp only
      rw [found.index]
      exact .some ⟨found.extend first, set_rel listed (found.extend first) _⟩
  | @some endA endA' found =>
    cases endB with
    | none =>
      dsimp only
      rw [found.index]
      exact .some ⟨found.extend second, set_rel listed (found.extend second) _⟩
    | @some endB endB' found' =>
      dsimp only
      rw [found.index, found.side, found'.index, found'.side]
      split
      · exact .none
      · split
        · exact .some (merge (List.rel_append found.run found'.run) _ _)
        · exact .some (merge (List.rel_append found.run (List.rel_reverse found'.run)) _ _)
        · exact .some (merge (List.rel_append (List.rel_reverse found.run) found'.run) _ _)
        · exact .some (merge (List.rel_append found'.run found.run) _ _)

namespace Builder

variable {builder builder' : Builder}

/-- Passes over corresponding commands. -/
structure Rel (R : QubitId → QubitId → Prop) (builder builder' : Builder) : Prop where
  numQubits : builder.numQubits = builder'.numQubits
  cyclic : builder.cyclic = builder'.cyclic
  allocated : OrderedSet.Rel R builder.allocated builder'.allocated
  active : OrderedSet.Rel R builder.active builder'.active
  runs : Forall₂ (Forall₂ R) builder.runs builder'.runs
  neighbours : OrderedMap.Rel R (OrderedSet.Rel R) builder.neighbours builder'.neighbours

namespace Rel

/-- Passes for corresponding qubits start alike. -/
lemma start (keeps : KeepsOrder R) {allocated allocated' : OrderedSet QubitId}
    (rel : OrderedSet.Rel R allocated allocated') (numQubits : Nat) (cyclic : Bool) :
    Rel R (Builder.start numQubits cyclic allocated) (Builder.start numQubits cyclic allocated') := by
  refine ⟨rfl, rfl, rel, rel, .nil, OrderedMap.Rel.ofList keeps (List.rel_map ?_ rel)⟩
  exact fun _ _ here => ⟨here, .empty⟩

/-- Sets that may be missing correspond, as empty ones if they are. -/
lemma getD_rel {one other : Option (OrderedSet QubitId)} (rel : Option.Rel (OrderedSet.Rel R) one other) :
    OrderedSet.Rel R (one.getD ∅) (other.getD ∅) := by
  cases rel with
  | none => exact .empty
  | some here => exact here

/-- Corresponding qubits have corresponding neighbours. -/
lemma neighboursOf (keeps : KeepsOrder R) (rel : Rel R builder builder') (here : R q q') :
    OrderedSet.Rel R (builder.neighboursOf q) (builder'.neighboursOf q') :=
  getD_rel (rel.neighbours.find? keeps here)

/-- Linking corresponding qubits keeps passes corresponding. -/
lemma link (keeps : KeepsOrder R) (rel : Rel R builder builder') (first : R a a') (second : R b b') :
    Rel R (builder.link a b) (builder'.link a' b') := by
  have once := rel.neighbours.insert keeps first ((rel.neighboursOf keeps first).insert keeps second)
  refine { rel with neighbours := once.insert keeps second ?_ }
  exact (getD_rel (once.find? keeps second)).insert keeps first

/-- Taking corresponding qubits out of the game keeps passes corresponding. -/
lemma deactivate (keeps : KeepsOrder R) (rel : Rel R builder builder') (first : R a a') (second : R b b') :
    Rel R (builder.deactivate a b) (builder'.deactivate a' b') :=
  { rel with active := (rel.active.erase keeps first).erase keeps second }

/-- Closing the ring with corresponding runs keeps passes corresponding. -/
lemma closeRing (keeps : KeepsOrder R) (rel : Rel R builder builder') (members : Forall₂ R run run') :
    Rel R (builder.closeRing run) (builder'.closeRing run') := by
  have first := head?_rel members
  have last := getLast?_rel members
  rw [Builder.closeRing, Builder.closeRing, rel.cyclic, rel.numQubits, members.length_eq]
  generalize run.head? = one, run'.head? = one', run.getLast? = two, run'.getLast? = two' at first last
  cases builder'.cyclic && run'.length == builder'.numQubits with
  | false => exact rel
  | true =>
    cases first with
    | none => exact rel
    | some first =>
      cases last with
      | none => exact rel
      | some last => exact rel.link keeps first last

/-- Allocating corresponding qubits keeps passes corresponding. -/
lemma allocate (keeps : KeepsOrder R) (rel : Rel R builder builder') (new : R q q') :
    Rel R (builder.allocate q) (builder'.allocate q') := by
  rw [Builder.allocate, Builder.allocate, rel.numQubits, rel.allocated.size_eq]
  split
  · exact {
      rel with
      numQubits := rfl
      allocated := rel.allocated.insert keeps new
      active := rel.active.insert keeps new
      neighbours := rel.neighbours.insert keeps new .empty }
  · exact rel

/-- Making corresponding qubits neighbours keeps passes corresponding. -/
lemma addPair (keeps : KeepsOrder R) (rel : Rel R builder builder') (first : R a a') (second : R b b') :
    Rel R (builder.addPair a b) (builder'.addPair a' b') := by
  have neighboursA := rel.neighboursOf keeps first
  have neighboursB := rel.neighboursOf keeps second
  have joined := join?_rel keeps rel.runs first second
  rw [Builder.addPair, Builder.addPair, neighboursB.contains_eq keeps first,
    rel.active.contains_eq keeps first, rel.active.contains_eq keeps second, neighboursA.size_eq,
    neighboursB.size_eq]
  split
  · exact rel
  · split
    · exact rel.deactivate keeps first second
    · split
      · exact rel.deactivate keeps first second
      · generalize join? builder.runs a b = one, join? builder'.runs a' b' = one' at joined
        cases joined with
        | none => exact rel.deactivate keeps first second
        | @some joined joined' same =>
          have grown : Rel R { builder with runs := joined.2 } { builder' with runs := joined'.2 } :=
            { rel with runs := same.2 }
          exact (grown.link keeps first second).closeRing keeps same.1

/-- Corresponding commands keep passes corresponding. -/
lemma step (keeps : KeepsOrder R) (rel : Rel R builder builder') {shape shape' : Shape}
    (same : Shape.Rel R shape shape') : Rel R (builder.step shape) (builder'.step shape') := by
  cases same with
  | allocate new => exact rel.allocate keeps new
  | deallocate old => exact { rel with active := rel.active.erase keeps old }
  | single => exact rel
  | pair first second => exact rel.addPair keeps first second

/-- Corresponding passes settle alike. -/
lemma settled_eq (rel : Rel R builder builder') : builder.settled = builder'.settled := by
  rw [settled, settled, rel.allocated.size_eq, rel.numQubits, rel.active.isEmpty_eq]

/-- Passes over corresponding commands correspond. -/
lemma run_commands (keeps : KeepsOrder R) (rel : Rel R builder builder') {commands commands' : List Buffered}
    (same : Forall₂ (fun b b' => Shape.Rel R b.shape b'.shape) commands commands') :
    Rel R (builder.run commands) (builder'.run commands') := by
  refine List.rel_foldl ?_ rel same
  intro builder builder' rel b b' same
  dsimp only
  rw [rel.settled_eq]
  split
  · exact rel
  · exact rel.step keeps same

end Rel

end Builder

/-- Corresponding runs of corresponding qubits. -/
structure Rel (R : QubitId → QubitId → Prop) (segments segments' : Segments) : Prop where
  runs : Forall₂ (Forall₂ R) segments.runs segments'.runs
  allocated : OrderedSet.Rel R segments.allocated segments'.allocated

/-- The segments built for corresponding commands correspond. -/
lemma build_rel (keeps : KeepsOrder R) {allocated allocated' : OrderedSet QubitId}
    (rel : OrderedSet.Rel R allocated allocated') {commands commands' : List Buffered}
    (same : Forall₂ (fun b b' => Shape.Rel R b.shape b'.shape) commands commands') (numQubits : Nat)
    (cyclic : Bool) :
    Rel R (build numQubits cyclic allocated commands) (build numQubits cyclic allocated' commands') := by
  have built := (Builder.Rel.start keeps rel numQubits cyclic).run_commands keeps same
  exact ⟨built.runs, built.allocated⟩

end Segments

/-! ### Placement -/

namespace Placement

variable {chain chain' : List (Option QubitId)} {run run' : List QubitId}

/-- Corresponding lists have as many different qubits. -/
lemma length_eraseDups_eq (keeps : KeepsOrder R) {items items' : List QubitId}
    (listed : Forall₂ R items items') : items.eraseDups.length = items'.eraseDups.length := by
  induction length : items.length using Nat.strong_induction_on generalizing items items' with
  | _ n ih =>
    cases listed with
    | nil => rfl
    | @cons q q' rest rest' head tail =>
      rw [List.eraseDups_cons, List.eraseDups_cons, List.length_cons, List.length_cons]
      congr 1
      refine ih _ ?_ (filter_rel tail ?_) rfl
      · rw [← length]
        exact Nat.lt_succ_of_le (List.length_filter_le _ _)
      · intro r r' here
        congr 1
        rw [Bool.eq_iff_iff, beq_iff_eq, beq_iff_eq, keeps.eq_iff here head]

/-- Corresponding runs agree with corresponding chains in as many positions. -/
lemma overlap_eq (keeps : KeepsOrder R) (rel : Forall₂ (Option.Rel R) chain chain')
    (members : Forall₂ R run run') (start : Nat) : overlap chain start run = overlap chain' start run' := by
  have window := List.forall₂_take run.length (List.forall₂_drop start rel)
  rw [overlap, overlap, ← members.length_eq]
  congr 1
  · rw [List.countP_eq_length_filter, List.countP_eq_length_filter]
    refine (filter_rel window ?_).length_eq
    intro one other here
    cases here <;> rfl
  · apply length_eraseDups_eq keeps
    refine filter_rel (List.rel_filterMap (fun _ _ => id) window) ?_
    intro q q' here
    rw [decide_eq_decide, keeps.mem_iff here members]

/-- Corresponding segments in the same place. -/
structure Candidate.Rel (R : QubitId → QubitId → Prop) (candidate candidate' : Candidate) : Prop where
  index : candidate.index = candidate'.index
  run : Forall₂ R candidate.run candidate'.run
  padding : candidate.padding = candidate'.padding
  overlap : candidate.overlap = candidate'.overlap

/-- Corresponding candidates displace each other alike. -/
lemma Candidate.Rel.displaces_eq {one two one' two' : Candidate} (rel : Candidate.Rel R one one')
    (other : Candidate.Rel R two two') : one.displaces two = one'.displaces two' := by
  have empty : two.run.isEmpty = two'.run.isEmpty := by
    cases two
    cases two'
    cases other.run <;> rfl
  simp only [Candidate.displaces, Candidate.perfect, Candidate.exceeds, Candidate.disjoint, rel.padding,
    rel.overlap, rel.run.length_eq, other.padding, other.overlap, other.run.length_eq, empty]

/-- The candidates for corresponding segments correspond. -/
lemma candidates_rel (keeps : KeepsOrder R) (rel : Forall₂ (Option.Rel R) chain chain')
    {remaining remaining' : List (List QubitId)} (listed : Forall₂ (Forall₂ R) remaining remaining')
    (unused cursor : Nat) :
    Forall₂ (Candidate.Rel R) (candidates chain remaining unused cursor)
      (candidates chain' remaining' unused cursor) := by
  refine List.rel_flatMap (zipIdx_rel listed 0) ?_
  rintro ⟨run, i⟩ ⟨run', i'⟩ ⟨members, same⟩
  exact map_rel (fun padding => ⟨same, members, rfl, overlap_eq keeps rel members _⟩) _

/-- The candidates chosen from corresponding ones correspond. -/
lemma choose?_rel {items items' : List Candidate} (listed : Forall₂ (Candidate.Rel R) items items') :
    Option.Rel (Candidate.Rel R) (choose? items) (choose? items') := by
  refine List.rel_foldl ?_ .none listed
  intro best best' rel candidate candidate' new
  cases rel with
  | none => exact .some new
  | some best =>
    dsimp only
    rw [new.displaces_eq best]
    split
    · exact .some new
    · exact .some best

/-- Corresponding segments with the same first position. -/
def SeatRel (R : QubitId → QubitId → Prop) (seat seat' : List QubitId × Nat) : Prop :=
  Forall₂ R seat.1 seat'.1 ∧ seat.2 = seat'.2

/-- Corresponding segments are arranged alike. -/
lemma arrange_rel (keeps : KeepsOrder R) (rel : Forall₂ (Option.Rel R) chain chain') (count : Nat)
    {remaining remaining' : List (List QubitId)} (listed : Forall₂ (Forall₂ R) remaining remaining')
    (unused cursor : Nat) :
    Forall₂ (SeatRel R) (arrange chain count remaining unused cursor)
      (arrange chain' count remaining' unused cursor) := by
  induction count generalizing remaining remaining' unused cursor with
  | zero => exact .nil
  | succ count ih =>
    rw [arrange, arrange]
    have chosen := choose?_rel (candidates_rel keeps rel listed unused cursor)
    generalize choose? (candidates chain remaining unused cursor) = one,
      choose? (candidates chain' remaining' unused cursor) = one' at chosen
    cases chosen with
    | none => exact .nil
    | @some best best' same =>
      dsimp only
      rw [same.padding, same.index, same.run.length_eq]
      exact .cons ⟨same.run, rfl⟩ (ih (eraseIdx_rel listed _) _ _)

end Placement

/-- Corresponding layouts, read along the chain, correspond. -/
lemma Layout.Rel.toChain {layout layout' : Layout Nat} (rel : Layout.Rel R layout layout')
    (numQubits : Nat) : Forall₂ (Option.Rel R) (layout.toChain numQubits) (layout'.toChain numQubits) :=
  map_rel rel.occupant? _

namespace Segments

/-- The segments to place correspond. -/
lemma Rel.toPlace (keeps : KeepsOrder R) {segments segments' : Segments} (rel : Rel R segments segments') :
    Forall₂ (Forall₂ R) segments.toPlace segments'.toPlace := by
  refine List.rel_append rel.runs (List.rel_map (fun _ _ here => .cons here .nil) ?_)
  refine filter_rel rel.allocated ?_
  intro q q' here
  rw [decide_eq_decide, keeps.mem_iff here (List.rel_flatten rel.runs)]

/-- Corresponding segments are placed alike. -/
lemma Rel.place (keeps : KeepsOrder R) {segments segments' : Segments} (rel : Rel R segments segments')
    {current current' : Layout Nat} (same : Layout.Rel R current current') (numQubits : Nat) :
    Layout.Rel R (segments.place numQubits current) (segments'.place numQubits current') := by
  have runs := rel.toPlace keeps
  have seats := Placement.arrange_rel keeps (same.toChain numQubits) segments.toPlace.length runs
    (numQubits - segments.allocated.size) 0
  rw [Segments.place, Segments.place, ← runs.length_eq, ← rel.allocated.size_eq]
  refine Layout.Rel.ofPairs keeps (filter_rel (List.rel_flatMap seats ?_) ?_)
  · rintro ⟨run, start⟩ ⟨run', start'⟩ ⟨members, rfl⟩
    exact zipIdx_rel members start
  · intro pair pair' here
    rw [here.2]

end Segments

/-! ### Plans -/

section Plans

variable {old old' new new' : Layout Nat}

/-- A move between corresponding layouts has the same targets. -/
lemma targets_eq (keeps : KeepsOrder R) (before : Layout.Rel R old old') (after : Layout.Rel R new new')
    (numQubits : Nat) : Move.targets numQubits old new = Move.targets numQubits old' new' := by
  have slot (p : Nat) : (old.occupant? p).bind new.position? = (old'.occupant? p).bind new'.position? := by
    obtain ⟨free, free'⟩ | ⟨q, q', taken, taken', here⟩ := cases_of_rel (before.occupant? p)
    · rw [free, free']
      rfl
    · rw [taken, taken']
      exact after.position?_eq keeps here
  simp only [Move.targets, slot]

/-- The search for a move between corresponding layouts is the same. -/
lemma optimalSwaps_eq (keeps : KeepsOrder R) (before : Layout.Rel R old old')
    (after : Layout.Rel R new new') (grid : Grid) (cost : Grid.Cost) (steps : Nat) (stream : Random.Stream) :
    grid.optimalSwaps old new cost steps stream = grid.optimalSwaps old' new' cost steps stream := by
  have records_eq : grid.records old new = grid.records old' new' := by
    simp only [Grid.records, targets_eq keeps before after]
  rw [Grid.optimalSwaps, Grid.optimalSwaps, records_eq]

/-- Corresponding states to plan for. -/
structure PlanInput.Rel (R : QubitId → QubitId → Prop) (input input' : PlanInput) : Prop where
  allocated : OrderedSet.Rel R input.allocated input'.allocated
  commands : Forall₂ (fun b b' => Shape.Rel R b.shape b'.shape) input.commands input'.commands
  current : Layout.Rel R input.current input'.current

/-- Plans for corresponding layouts by the same swaps. -/
structure Plan.Rel (R : QubitId → QubitId → Prop) (plan plan' : Plan) : Prop where
  layout : Layout.Rel R plan.layout plan'.layout
  swaps : plan.swaps = plan'.swaps

/-- Renaming positions of corresponding layouts fails alike or gives corresponding layouts. -/
lemma mapPositionsM_rel (keeps : KeepsOrder R) (rel : Layout.Rel R old old') (f : Nat → Except Fault Nat) :
    ResultRel Eq (Layout.Rel R) (old.mapPositionsM f) (old'.mapPositionsM f) := by
  have moved : ResultRel Eq (Forall₂ (Layout.PairRel R))
      (old.pairs.mapM fun pair => do return (pair.1, ← f pair.2))
      (old'.pairs.mapM fun pair => do return (pair.1, ← f pair.2)) := by
    refine ResultRel.mapM rel.pairs ?_
    rintro ⟨q, p⟩ ⟨q', p'⟩ ⟨here, rfl⟩
    cases f p with
    | error fault => exact .error rfl
    | ok p => exact .ok ⟨here, rfl⟩
  exact moved.bind fun _ _ listed => .ok (.ofPairs keeps listed)

/-- A chain plans alike for corresponding states. -/
lemma Chain.plan_rel (keeps : KeepsOrder R) {input input' : PlanInput} (rel : PlanInput.Rel R input input')
    (chain : Chain) : Plan.Rel R (chain.plan input) (chain.plan input') := by
  have placed := (Segments.build_rel keeps rel.allocated rel.commands chain.numQubits chain.cyclic).place
    keeps rel.current chain.numQubits
  refine ⟨placed, ?_⟩
  simp only [Chain.plan, Move.chainSwaps, targets_eq keeps rel.current placed]

/-- A grid plans alike for corresponding states, and draws alike. -/
lemma GridRouter.plan_rel (keeps : KeepsOrder R) {input input' : PlanInput}
    (rel : PlanInput.Rel R input input') (router : GridRouter) :
    ResultRel Eq (Plan.Rel R) (router.plan input).1 (router.plan input').1 ∧
      (router.plan input).2 = (router.plan input').2 := by
  have segments := Segments.build_rel keeps rel.allocated rel.commands router.numQubits false
  have placed : ResultRel Eq (Layout.Rel R)
      (do
        let unrolled ← input.current.mapPositionsM router.grid.toSnake
        ((Segments.build router.numQubits false input.allocated input.commands).place router.numQubits
          unrolled).mapPositionsM router.grid.ofSnake)
      (do
        let unrolled ← input'.current.mapPositionsM router.grid.toSnake
        ((Segments.build router.numQubits false input'.allocated input'.commands).place router.numQubits
          unrolled).mapPositionsM router.grid.ofSnake) := by
    refine (mapPositionsM_rel keeps rel.current _).bind fun _ _ unrolled => ?_
    exact mapPositionsM_rel keeps (segments.place keeps unrolled _) _
  rw [GridRouter.plan, GridRouter.plan]
  dsimp only
  generalize (input.current.mapPositionsM router.grid.toSnake >>= fun unrolled => _) = one,
    (input'.current.mapPositionsM router.grid.toSnake >>= fun unrolled => _) = other at placed
  cases placed with
  | error same =>
    cases same
    exact ⟨.error rfl, rfl⟩
  | ok layout =>
    dsimp only
    rw [optimalSwaps_eq keeps rel.current layout]
    obtain ⟨swaps, stream⟩ := router.grid.optimalSwaps input'.current _ router.cost router.steps
      router.stream
    cases swaps with
    | error failure => exact ⟨.error rfl, rfl⟩
    | ok swaps => exact ⟨.ok ⟨layout, rfl⟩, rfl⟩

/-- Plans for corresponding states correspond, and draw the same random numbers. -/
lemma Router.plan_rel (keeps : KeepsOrder R) {input input' : PlanInput}
    (rel : PlanInput.Rel R input input') (router : Router) :
    ResultRel Eq (Plan.Rel R) (router.plan input).1 (router.plan input').1 ∧
      (router.plan input).2 = (router.plan input').2 := by
  cases router with
  | chain c => exact ⟨.ok (c.plan_rel keeps rel), rfl⟩
  | grid r =>
    obtain ⟨results, routers⟩ := r.plan_rel keeps rel
    exact ⟨results, congrArg Router.grid routers⟩

end Plans

end QubitRouting
