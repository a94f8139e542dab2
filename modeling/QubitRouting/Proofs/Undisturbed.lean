import QubitRouting.Proofs.Greedy
import QubitRouting.Proofs.Move
import QubitRouting.Router

/-!
# A layout that satisfies the segments is left alone

If the runs already sit on the chain as they should, and no position is free before one that is taken, the
placement puts every qubit where it is. At each stage the position at the cursor is taken by a run that is
still to be placed, and that run agrees in full without padding. So does the candidate that is chosen, and
this can only be that run again or one without qubits, which takes no place.
-/

namespace QubitRouting

open scoped List

namespace Placement

/-! ### The scan -/

section Scan

variable {c best : Candidate} {listed : List Candidate}

/-- A candidate that agrees in full and leaves no position free. -/
structure Candidate.Stays (c : Candidate) : Prop where
  perfect : c.overlap = c.run.length
  padding : c.padding = 0

/-- Nobody displaces a candidate that stays, though it may have no qubits. -/
lemma Candidate.Stays.not_displaced (stays : best.Stays) (le : c.overlap ≤ c.run.length) :
    ¬c.displaces best = true := by
  have notExceeded : ¬best.overlap * c.run.length < c.overlap * best.run.length := by
    rw [stays.perfect, Nat.mul_comm]
    exact Nat.not_lt.mpr (Nat.mul_le_mul_right _ le)
  have notDisjoint : best.disjoint = false := by
    rw [disjoint, stays.perfect]
    cases best.run <;> rfl
  rw [displaces, exceeds, notDisjoint, stays.padding]
  simp only [Nat.not_lt_zero, decide_false, Bool.and_false, Bool.false_or, Bool.or_false, gt_iff_lt,
    decide_eq_true_iff]
  exact notExceeded

/-- A candidate with qubits that stays displaces all that do not. -/
lemma Candidate.Stays.displaces (stays : c.Stays) (given : c.run ≠ [])
    (le : best.overlap ≤ best.run.length) (moves : ¬best.Stays) : c.displaces best = true := by
  have perfect : c.perfect = true := beq_iff_eq.mpr stays.perfect
  rw [Candidate.displaces, perfect, stays.padding, exceeds]
  rcases Nat.eq_zero_or_pos best.padding with none | some
  · -- without padding it agrees in part only
    have less : best.overlap < best.run.length := le.lt_of_ne fun full => moves ⟨full, none⟩
    have exceeded : best.overlap * c.run.length < c.overlap * best.run.length := by
      rw [stays.perfect, Nat.mul_comm]
      exact Nat.mul_lt_mul_of_pos_left less (List.length_pos_iff.mpr given)
    simp [exceeded]
  · simp [some]

/-- If some candidate with qubits stays, the one that is chosen does. -/
lemma stays_of_choose? (fits : ∀ c ∈ listed, c.overlap ≤ c.run.length) (mem : c ∈ listed)
    (stays : c.Stays) (given : c.run ≠ []) (found : choose? listed = some best) : best.Stays := by
  induction listed using List.reverseRecOn generalizing best with
  | nil => cases mem
  | append_singleton seen d ih =>
    have fitsSeen (c) (mem : c ∈ seen) := fits c (List.mem_append_left _ mem)
    rw [choose?_concat] at found
    cases former : choose? seen with
    | none =>
      rw [former] at found
      cases found
      rcases List.mem_append.mp mem with mem | mem
      · obtain ⟨best, found⟩ := exists_choose? (List.ne_nil_of_mem mem)
        cases former.symm.trans found
      · exact List.mem_singleton.mp mem ▸ stays
    | some kept =>
      rw [former] at found
      simp only at found
      have fitsKept := fitsSeen kept (choose?_mem former)
      rcases List.mem_append.mp mem with mem | mem
      · have staysKept := ih fitsSeen mem former
        rw [if_neg (staysKept.not_displaced (fits d List.mem_concat_self))] at found
        cases found
        exact staysKept
      · obtain rfl := List.mem_singleton.mp mem
        split at found
        case isTrue => exact Option.some.inj found ▸ stays
        case isFalse notDisplaced =>
          cases found
          by_contra moves
          exact notDisplaced (stays.displaces given fitsKept moves)

end Scan

/-! ### Where a run sits -/

section Sits

variable {current : Layout Nat} {n start : Nat} {run : List QubitId} {q : QubitId}

/-- The qubits of a run sit on consecutive positions, in its order. -/
def Sits (current : Layout Nat) (start : Nat) (run : List QubitId) : Prop :=
  ∀ i q, run[i]? = some q → current.position? q = some (start + i)

/-- An empty run sits anywhere. -/
lemma sits_nil (current : Layout Nat) (start : Nat) : Sits current start [] :=
  fun _ _ here => by simp at here

/-- Every qubit of a run that sits has one of its positions. -/
lemma Sits.exists_position (sits : Sits current start run) (mem : q ∈ run) :
    ∃ i < run.length, current.position? q = some (start + i) := by
  obtain ⟨i, here⟩ := List.mem_iff_getElem?.mp mem
  obtain ⟨lt, _⟩ := List.getElem?_eq_some_iff.mp here
  exact ⟨i, lt, sits i q here⟩

/-- A run that sits has no qubit twice. -/
lemma Sits.nodup (sits : Sits current start run) : run.Nodup := by
  rw [List.nodup_iff_getElem?_ne_getElem?]
  intro i j less lt same
  have hereJ := List.getElem?_eq_getElem lt
  have first := sits i _ (same.trans hereJ)
  have second := sits j _ hereJ
  have := Option.some.inj (first.symm.trans second)
  omega

/-- Without repetitions there is nothing to leave out. -/
lemma eraseDups_of_nodup {qubits : List QubitId} (nodup : qubits.Nodup) : qubits.eraseDups = qubits := by
  induction qubits with
  | nil => rfl
  | cons q rest ih =>
    obtain ⟨absent, nodup⟩ := List.nodup_cons.mp nodup
    have others : rest.filter (fun r => !r == q) = rest := by
      refine List.filter_eq_self.mpr fun r mem => ?_
      have ne : r ≠ q := fun same => absent (same ▸ mem)
      simpa using ne
    rw [List.eraseDups_cons, others, ih nodup]

/-- A run agrees in full with the place where it sits. -/
lemma overlap_of_sits (fits : current.Fits n) (sits : Sits current start run) :
    overlap (current.toChain n) start run = run.length := by
  have window : ((current.toChain n).drop start).take run.length = run.map some := by
    apply List.ext_getElem?
    intro i
    rw [List.getElem?_map, List.getElem?_take, List.getElem?_drop]
    split
    case isTrue lt =>
      have here := List.getElem?_eq_getElem lt
      have sat := sits i _ here
      rw [here, Layout.toChain, List.getElem?_map, List.getElem?_range (fits.lt sat), Option.map_some,
        (fits.consistent _ _).mp sat, Option.map_some]
    case isFalse beyond => rw [List.getElem?_eq_none (Nat.le_of_not_lt beyond), Option.map_none]
  have noneFree : (run.map some).countP Option.isNone = 0 := by simp
  have all : ((run.map some).filterMap id).filter (· ∈ run) = run := by
    rw [List.filterMap_map, Function.id_comp, List.filterMap_some]
    exact List.filter_eq_self.mpr fun q mem => decide_eq_true mem
  rw [overlap, window, noneFree, all, eraseDups_of_nodup sits.nodup, Nat.zero_add]

/-- A run does not agree in full with a place that begins with another qubit. -/
lemma overlap_lt {chain : List (Option QubitId)} (here : chain[start]? = some (some q)) (absent : q ∉ run)
    (given : run ≠ []) : overlap chain start run < run.length := by
  obtain ⟨x, rest, rfl⟩ := List.exists_cons_of_ne_nil given
  obtain ⟨lt, same⟩ := List.getElem?_eq_some_iff.mp here
  have window : (chain.drop start).take (x :: rest).length
      = some q :: (chain.drop (start + 1)).take rest.length := by
    rw [List.drop_eq_getElem_cons lt, same, List.length_cons, List.take_succ_cons]
  have occupied : (some q :: (chain.drop (start + 1)).take rest.length).filterMap id
      = q :: ((chain.drop (start + 1)).take rest.length).filterMap id := List.filterMap_cons_some rfl
  rw [overlap, window, List.countP_cons_of_neg (by simp), occupied,
    List.filter_cons_of_neg (by simpa using absent), List.length_cons, Nat.lt_succ_iff]
  exact (agreeing_le_length _ _).trans (List.length_take_le _ _)

/-! ### From stage to stage -/

/-- The runs that are left sit from the cursor on, and so does nobody else. -/
structure Resting (current : Layout Nat) (stage : Stage) : Prop where
  nodup : stage.remaining.flatten.Nodup
  sits : ∀ run ∈ stage.remaining, run ≠ [] → ∃ start, stage.cursor ≤ start ∧ Sits current start run
  covers : ∀ q p, current.position? q = some p → stage.cursor ≤ p → q ∈ stage.remaining.flatten

variable {stage : Stage} {best : Candidate}

/-- A run with the qubit at the cursor sits there. -/
lemma Resting.sits_of_mem (resting : Resting current stage) (memRun : run ∈ stage.remaining)
    (inRun : q ∈ run) (here : current.position? q = some stage.cursor) :
    Sits current stage.cursor run := by
  obtain ⟨start, le, sits⟩ := resting.sits run memRun (List.ne_nil_of_mem inRun)
  obtain ⟨i, _, there⟩ := sits.exists_position inRun
  obtain rfl : start = stage.cursor := by
    have := Option.some.inj (here.symm.trans there)
    omega
  exact sits

/-- After a run that sits at the cursor, the others sit from there on. -/
lemma Resting.next (resting : Resting current stage) (consistent : current.Consistent)
    (picked : stage.remaining[best.index]? = some best.run) (noPadding : best.padding = 0)
    (sits : Sits current stage.cursor best.run) : Resting current (stage.next best) := by
  have split : best.run :: (stage.next best).remaining ~ stage.remaining := cons_eraseIdx_perm picked
  have cursor : (stage.next best).cursor = stage.cursor + best.run.length := by
    rw [Stage.next, noPadding, Nat.add_zero]
  have nodup : (best.run ++ (stage.next best).remaining.flatten).Nodup := by
    rw [← List.flatten_cons, split.flatten.nodup_iff]
    exact resting.nodup
  obtain ⟨_, nodupRest, apart⟩ := List.nodup_append.mp nodup
  refine ⟨nodupRest, ?_, ?_⟩
  · intro other mem given
    obtain ⟨start, le, sitsOther⟩ :=
      resting.sits other (split.mem_iff.mp (List.mem_cons_of_mem _ mem)) given
    refine ⟨start, ?_, sitsOther⟩
    rw [cursor]
    -- otherwise the first qubit of the other run would sit in the place of this one
    by_contra before
    obtain ⟨x, hereX⟩ : ∃ x, other[0]? = some x :=
      ⟨_, List.getElem?_eq_getElem (List.length_pos_iff.mpr given)⟩
    have inside : start - stage.cursor < best.run.length := by omega
    have sitsX := sitsOther 0 x hereX
    have sitsY := sits (start - stage.cursor) _ (List.getElem?_eq_getElem inside)
    rw [Nat.add_sub_cancel' le] at sitsY
    refine apart _ (List.getElem_mem inside) x ?_ (consistent.inj sitsX sitsY).symm
    exact List.mem_flatten.mpr ⟨other, mem, List.mem_of_getElem? hereX⟩
  · intro q p here le
    rw [cursor] at le
    have mem := split.flatten.mem_iff.mpr (resting.covers q p here (by omega))
    rw [List.flatten_cons, List.mem_append] at mem
    refine mem.resolve_left fun inRun => ?_
    obtain ⟨i, lt, there⟩ := sits.exists_position inRun
    have := Option.some.inj (here.symm.trans there)
    omega

/-- As long as there are runs with qubits left, what is chosen sits at the cursor already. -/
lemma Resting.sits_of_choose? (resting : Resting current stage) (fits : current.Fits n)
    (gapless : ∀ {q p s}, current.position? q = some p → s ≤ p → ∃ r, current.position? r = some s)
    (memRun : run ∈ stage.remaining) (given : run ≠ [])
    (found : choose? (candidates (current.toChain n) stage.remaining stage.unused stage.cursor)
      = some best) : best.padding = 0 ∧ Sits current stage.cursor best.run := by
  -- the position at the cursor is taken, as one behind it is
  obtain ⟨q, here⟩ : ∃ q, current.position? q = some stage.cursor := by
    obtain ⟨start, le, sits⟩ := resting.sits run memRun given
    obtain ⟨x, inRun⟩ := List.exists_mem_of_ne_nil run given
    obtain ⟨i, _, sitsX⟩ := sits.exists_position inRun
    exact gapless sitsX (by omega)
  obtain ⟨first, memFirst, inFirst⟩ := List.mem_flatten.mp (resting.covers q _ here le_rfl)
  have sitsFirst := resting.sits_of_mem memFirst inFirst here
  obtain ⟨index, picked⟩ := List.mem_iff_getElem?.mp memFirst
  have offered : stage.Offers (current.toChain n) ⟨index, first, 0, first.length⟩ :=
    ⟨picked, Nat.zero_le _, (overlap_of_sits fits sitsFirst).symm⟩
  have overlaps : ∀ c ∈ candidates (current.toChain n) stage.remaining stage.unused stage.cursor,
      c.overlap ≤ c.run.length := by
    intro c mem
    rw [(Stage.mem_candidates_iff.mp mem).overlap]
    exact overlap_le _ _ _
  have stays := stays_of_choose? overlaps (Stage.mem_candidates_iff.mpr offered) ⟨rfl, rfl⟩
    (List.ne_nil_of_mem inFirst) found
  have chosen := Stage.mem_candidates_iff.mp (choose?_mem found)
  refine ⟨stays.padding, ?_⟩
  by_cases empty : best.run = []
  · rw [empty]
    exact sits_nil current _
  · have inBest : q ∈ best.run := by
      by_contra absent
      have taken : (current.toChain n)[stage.cursor]? = some (some q) := by
        rw [Layout.toChain, List.getElem?_map, List.getElem?_range (fits.lt here), Option.map_some,
          (fits.consistent _ _).mp here]
      have less := overlap_lt taken absent empty
      have full := chosen.overlap.symm.trans stays.perfect
      rw [stays.padding, Nat.add_zero] at full
      omega
    exact resting.sits_of_mem (List.mem_of_getElem? chosen.run) inBest here

/-- Every run is placed where it sits. -/
lemma Resting.sits_of_mem_arrange (resting : Resting current stage) (fits : current.Fits n)
    (gapless : ∀ {q p s}, current.position? q = some p → s ≤ p → ∃ r, current.position? r = some s)
    {count : Nat} (enough : stage.remaining.length = count)
    (mem : (run, start) ∈
      arrange (current.toChain n) count stage.remaining stage.unused stage.cursor) :
    Sits current start run := by
  by_cases empty : run = []
  · rw [empty]
    exact sits_nil current start
  induction count generalizing stage with
  | zero => cases mem
  | succ count ih =>
    have memRun : run ∈ stage.remaining :=
      (arrange_spread _ enough le_rfl).2.mem_iff.mp (List.mem_map_of_mem mem)
    rw [arrange] at mem
    split at mem
    case h_1 => cases mem
    case h_2 best found =>
      obtain ⟨noPadding, sits⟩ := resting.sits_of_choose? fits gapless memRun empty found
      have picked := (Stage.mem_candidates_iff.mp (choose?_mem found)).run
      rcases List.mem_cons.mp mem with same | mem
      · obtain ⟨rfl, rfl⟩ := Prod.mk.inj same
        rw [noPadding]
        exact sits
      · refine ih (resting.next fits.consistent picked noPadding sits) ?_ mem
        exact Nat.succ.inj ((cons_eraseIdx_perm picked).length_eq.trans enough)

end Sits

end Placement

namespace Segments

open Placement

variable {segments : Segments} {n : Nat} {current : Layout Nat}

/-- A layout already satisfies the segments: it takes the first positions of the chain for the qubits that
need one, and the runs are disjoint and sit on consecutive positions. -/
structure Satisfied (segments : Segments) (n : Nat) (current : Layout Nat) : Prop where
  consistent : current.Consistent
  leading : ∃ k ≤ n, ∀ p, (∃ q, current.position? q = some p) ↔ p < k
  allocated : ∀ q, q ∈ segments.allocated ↔ ∃ p, current.position? q = some p
  disjoint : segments.runs.Pairwise List.Disjoint
  sits : ∀ run ∈ segments.runs, ∃ start, Sits current start run

/-- A layout is left alone: it is placed anew as it is, no swaps lead there, and a plan whose commands ask for
the segments is made of just that. -/
structure LeavesAlone (segments : Segments) (n : Nat) (current : Layout Nat) : Prop where
  placed : segments.place n current = current
  still : Move.chainSwaps n current (segments.place n current) = []
  planned : ∀ cyclic allocated commands, build n cyclic allocated commands = segments →
    Chain.plan ⟨n, cyclic⟩ ⟨allocated, commands, current⟩ = ⟨current, []⟩

namespace Satisfied

/-- A layout that satisfies segments stays on the chain. -/
lemma fits (satisfied : segments.Satisfied n current) : current.Fits n := by
  refine ⟨satisfied.consistent, ?_⟩
  intro q p here
  obtain ⟨k, le, taken⟩ := satisfied.leading
  exact ((taken p).mp ⟨q, here⟩).trans_le le

/-- Such a layout has no free position before one that is taken. -/
lemma gapless (satisfied : segments.Satisfied n current) {q : QubitId} {p s : Nat}
    (here : current.position? q = some p) (le : s ≤ p) : ∃ r, current.position? r = some s := by
  obtain ⟨k, _, taken⟩ := satisfied.leading
  exact (taken s).mpr (le.trans_lt ((taken p).mp ⟨q, here⟩))

/-- The chain has room for segments that a layout satisfies. -/
lemma packable (satisfied : segments.Satisfied n current) : segments.Packable n where
  room := satisfied.fits.size_le fun q mem => (satisfied.allocated q).mp mem
  nodup := by
    refine List.nodup_flatten.mpr ⟨?_, satisfied.disjoint⟩
    intro run mem
    obtain ⟨start, sits⟩ := satisfied.sits run mem
    exact sits.nodup
  placed := by
    intro q mem
    obtain ⟨run, memRun, inRun⟩ := List.mem_flatten.mp mem
    obtain ⟨start, sits⟩ := satisfied.sits run memRun
    obtain ⟨i, _, here⟩ := sits.exists_position inRun
    exact (satisfied.allocated q).mpr ⟨_, here⟩

/-- At the first stage the runs sit from the beginning of the chain on. -/
lemma resting (satisfied : segments.Satisfied n current) : Resting current (segments.firstStage n) where
  nodup := satisfied.packable.toPlace_perm.nodup_iff.mpr segments.allocated.toList_nodup
  sits := by
    intro run mem _
    rcases List.mem_append.mp mem with mem | mem
    · obtain ⟨start, sits⟩ := satisfied.sits run mem
      exact ⟨start, Nat.zero_le _, sits⟩
    · obtain ⟨q, memQ, rfl⟩ := List.mem_map.mp mem
      obtain ⟨p, here⟩ := (satisfied.allocated q).mp (List.mem_filter.mp memQ).1
      refine ⟨p, Nat.zero_le _, ?_⟩
      intro i r single
      rw [List.getElem?_singleton] at single
      split at single
      case isTrue zero =>
        cases single
        rw [zero]
        exact here
      case isFalse => cases single
  covers := by
    intro q p here _
    exact satisfied.packable.toPlace_perm.mem_iff.mpr ((satisfied.allocated q).mpr ⟨p, here⟩)

/-- Whoever is placed is placed where it sits. -/
lemma position?_of_place (satisfied : segments.Satisfied n current) {q : QubitId} {p : Nat}
    (placed : (segments.place n current).position? q = some p) : current.position? q = some p := by
  obtain ⟨mem, _⟩ := List.mem_filter.mp (Layout.mem_of_position?_ofPairs placed)
  obtain ⟨⟨run, start⟩, memPlaced, inRun⟩ := List.mem_flatMap.mp mem
  have sits := satisfied.resting.sits_of_mem_arrange satisfied.fits satisfied.gapless rfl memPlaced
  obtain ⟨i, rfl⟩ := Nat.exists_eq_add_of_le (List.le_snd_of_mem_zipIdx inRun)
  exact sits i q (List.mk_add_mem_zipIdx_iff_getElem?.mp inRun)

/-- Segments are placed as a layout that satisfies them has them. -/
lemma place_eq (satisfied : segments.Satisfied n current) : segments.place n current = current := by
  refine (fits_place segments n current).consistent.ext satisfied.consistent ?_
  intro q
  cases placed : (segments.place n current).position? q with
  | some p => exact (satisfied.position?_of_place placed).symm
  | none =>
    cases here : current.position? q with
    | none => rfl
    | some p =>
      have needed := (satisfied.allocated q).mpr ⟨p, here⟩
      obtain ⟨p, found⟩ := (satisfied.packable.place_iff current).mpr needed
      cases placed.symm.trans found

/-- A layout that satisfies the segments is left alone. -/
lemma leavesAlone (satisfied : segments.Satisfied n current) : segments.LeavesAlone n current := by
  have still : Move.chainSwaps n current current = [] := by
    apply Move.chainSwaps_of_still
    intro p _ q t here there
    exact Option.some.inj (there.symm.trans ((satisfied.consistent q p).mpr here))
  refine ⟨satisfied.place_eq, by rw [satisfied.place_eq, still], ?_⟩
  rintro cyclic allocated commands rfl
  rw [Chain.plan, satisfied.place_eq, still]

end Satisfied

/-- On a chain whose positions are all needed, what was placed satisfies the segments. -/
lemma Packable.satisfied_place (packable : segments.Packable n) (full : segments.allocated.size = n)
    (former : Layout Nat) : segments.Satisfied n (segments.place n former) := by
  have fits := fits_place segments n former
  refine ⟨fits.consistent, ⟨n, le_rfl, ?_⟩, fun q => (packable.place_iff former).symm,
    (List.nodup_flatten.mp packable.nodup).2, fun run mem => packable.place_run former mem⟩
  intro p
  constructor
  · rintro ⟨q, here⟩
    exact fits.lt here
  · intro lt
    obtain ⟨q, _, here⟩ :=
      fits.exists_position (fun q mem => (packable.place_iff former).mpr mem) full.ge lt
    exact ⟨q, here⟩

/-- A layout that already satisfies the segments is left alone. So is every layout that was planned for the
segments, on a chain whose positions are all needed. -/
theorem place_undisturbed (segments : Segments) (n : Nat) :
    (∀ current, segments.Satisfied n current → segments.LeavesAlone n current) ∧
      (segments.Packable n → segments.allocated.size = n →
        ∀ former, segments.LeavesAlone n (segments.place n former)) := by
  refine ⟨fun current satisfied => satisfied.leavesAlone, ?_⟩
  intro packable full former
  exact (packable.satisfied_place full former).leavesAlone

/-- Two runs, listed against their order on the chain and with an empty one between them, and a qubit of its
own behind them. With a sixth position, which is free, the layout is left alone; with five positions every
layout that was placed is. -/
theorem place_undisturbed_listed_backwards :
    let segments : Segments := ⟨[[⟨5⟩, ⟨1⟩], [], [⟨2⟩, ⟨0⟩]],
      OrderedSet.empty.insertAll [⟨0⟩, ⟨1⟩, ⟨2⟩, ⟨4⟩, ⟨5⟩]⟩
    let current : Layout Nat := .ofPairs [(⟨2⟩, 0), (⟨0⟩, 1), (⟨5⟩, 2), (⟨1⟩, 3), (⟨4⟩, 4)]
    segments.Satisfied 6 current ∧ segments.LeavesAlone 6 current ∧
      segments.Packable 5 ∧ segments.allocated.size = 5 ∧
      ∀ former, segments.LeavesAlone 5 (segments.place 5 former) := by
  intro segments current
  have sat (q : QubitId) (p : Nat) : current.position? q = some p ↔
      (q, p) ∈ [((⟨2⟩ : QubitId), 0), (⟨0⟩, 1), (⟨5⟩, 2), (⟨1⟩, 3), (⟨4⟩, 4)] :=
    Layout.position?_ofPairs_iff (by decide) (by decide)
  have satisfied : segments.Satisfied 6 current := by
    refine ⟨Layout.consistent_ofPairs _, ⟨5, by decide, ?_⟩, ?_, by simp [segments, List.Disjoint], ?_⟩
    · intro p
      simp only [sat, List.mem_cons, Prod.mk.injEq, List.not_mem_nil, or_false, exists_or, exists_eq_left]
      omega
    · intro q
      simp [sat, segments, exists_or, OrderedSet.mem_insertAll]
      tauto
    · simp only [segments, List.forall_mem_cons]
      refine ⟨⟨2, ?_⟩, ⟨0, sits_nil _ _⟩, ⟨0, ?_⟩, List.forall_mem_nil _⟩
      all_goals
        rintro (_ | _ | i) q here <;> cases here <;> rfl
  have packable : segments.Packable 5 := ⟨by decide, by decide, by decide⟩
  exact ⟨satisfied, (place_undisturbed segments 6).1 current satisfied, packable, by decide,
    (place_undisturbed segments 5).2 packable (by decide)⟩

end Segments

end QubitRouting
