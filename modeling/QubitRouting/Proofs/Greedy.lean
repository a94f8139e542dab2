import Mathlib.Algebra.Order.Field.Rat
import QubitRouting.Proofs.Placement

/-!
# Which segment is placed next

At every stage of a placement the candidate that is chosen agrees with the former layout in the greatest
share of its place. Among candidates that agree in full it is the one with the least padding, and among
equals otherwise the first one listed. The exception are stages at which nobody agrees in anything: there
the scan lets every candidate displace the one before it, and the last one listed is chosen.
-/

namespace QubitRouting

namespace Placement

/-! ### The rule -/

/-- The share of its place in which a candidate agrees with the former layout. -/
def Candidate.fraction (candidate : Candidate) : ℚ := candidate.overlap / candidate.run.length

/-- Candidates are listed segment by segment, and for each segment by ascending padding. -/
def Candidate.Precedes (candidate other : Candidate) : Prop :=
  candidate.index < other.index ∨ candidate.index = other.index ∧ candidate.padding < other.padding

/-- A candidate that agrees the most. If it agrees in full, no other one that does so has less padding, nor
the same padding and an earlier segment. -/
structure Greatest (offers : Candidate → Prop) (best : Candidate) : Prop where
  offered : offers best
  greatest : ∀ c, offers c → c.fraction ≤ best.fraction
  closest : best.fraction = 1 → ∀ c, offers c → c.fraction = 1 →
    best.padding < c.padding ∨ best.padding = c.padding ∧ best.index ≤ c.index

/-- A candidate that agrees the most, and is the first one to do so unless it agrees in full. -/
structure Preferred (offers : Candidate → Prop) (best : Candidate) : Prop
    extends Greatest offers best where
  first : best.fraction ≠ 1 → ∀ c, offers c → c.fraction = best.fraction → c = best ∨ best.Precedes c

/-- A candidate that agrees the most, and is the first one to do so unless it agrees in full or in
nothing. If nobody agrees in anything, it is the last one. -/
structure Chosen (offers : Candidate → Prop) (best : Candidate) : Prop
    extends Greatest offers best where
  first : 0 < best.fraction → best.fraction ≠ 1 →
    ∀ c, offers c → c.fraction = best.fraction → c = best ∨ best.Precedes c
  last : best.fraction = 0 → ∀ c, offers c → c = best ∨ c.Precedes best

/-- Of two candidates only one is listed before the other. -/
lemma Candidate.Precedes.asymm {c d : Candidate} (before : c.Precedes d) : ¬d.Precedes c := by
  rw [Precedes] at before ⊢
  omega

/-- The share of agreement is not negative. -/
lemma Candidate.fraction_nonneg (c : Candidate) : 0 ≤ c.fraction :=
  div_nonneg (Nat.cast_nonneg _) (Nat.cast_nonneg _)

/-- What is chosen is preferred, unless nobody agrees in anything and somebody else could be chosen. -/
lemma Chosen.preferred_iff {offers : Candidate → Prop} {best : Candidate} (chosen : Chosen offers best) :
    Preferred offers best ↔ 0 < best.fraction ∨ ∀ c, offers c → c = best := by
  constructor
  · intro preferred
    rcases best.fraction_nonneg.lt_or_eq with positive | none
    · exact .inl positive
    · right
      intro c offer
      have least : c.fraction = best.fraction :=
        le_antisymm (chosen.greatest c offer) (none ▸ c.fraction_nonneg)
      rcases chosen.last none.symm c offer with same | early
      · exact same
      · refine (preferred.first ?_ c offer least).resolve_right early.asymm
        rw [← none]
        exact zero_ne_one
  · rintro (positive | alone)
    · exact ⟨chosen.toGreatest, fun imperfect => chosen.first positive imperfect⟩
    · exact ⟨chosen.toGreatest, fun _ c offer _ => .inl (alone c offer)⟩

/-! ### The scan -/

/-- A candidate for a segment with qubits agrees in no more positions than the segment is long. -/
structure Candidate.Proper (candidate : Candidate) : Prop where
  run : candidate.run ≠ []
  overlap : candidate.overlap ≤ candidate.run.length

namespace Candidate.Proper

variable {c best : Candidate}

/-- The segment of a proper candidate has a qubit. -/
lemma length_pos (proper : c.Proper) : (0 : ℚ) < c.run.length :=
  Nat.cast_pos.mpr (List.length_pos_iff.mpr proper.run)

/-- The share of agreement is at most one. -/
lemma fraction_le_one (proper : c.Proper) : c.fraction ≤ 1 :=
  div_le_one_of_le₀ (Nat.cast_le.mpr proper.overlap) (Nat.cast_nonneg _)

/-- The test for full agreement passes exactly if the share is one. -/
lemma perfect_iff (proper : c.Proper) : c.perfect = true ↔ c.fraction = 1 := by
  rw [perfect, beq_iff_eq, fraction, div_eq_one_iff_eq proper.length_pos.ne', Nat.cast_inj]

/-- The test by cross-multiplication compares the shares of two candidates. -/
lemma exceeds_iff (proper : c.Proper) (other : best.Proper) :
    c.exceeds best = true ↔ best.fraction < c.fraction := by
  rw [exceeds, decide_eq_true_iff, fraction, fraction, div_lt_div_iff₀ other.length_pos proper.length_pos]
  norm_cast

/-- The test for no agreement passes exactly if the share is zero. -/
lemma disjoint_iff (proper : best.Proper) : best.disjoint = true ↔ best.fraction = 0 := by
  have notEmpty : (!best.run.isEmpty) = true := by simpa using proper.run
  rw [disjoint, notEmpty, Bool.and_true, beq_iff_eq, fraction,
    div_eq_zero_iff, or_iff_left proper.length_pos.ne', Nat.cast_eq_zero]

/-- The three reasons to displace the best candidate so far, in terms of fractions. -/
lemma displaces_iff (proper : c.Proper) (other : best.Proper) :
    c.displaces best = true ↔ c.fraction = 1 ∧ c.padding < best.padding ∨
      best.fraction < c.fraction ∨ best.fraction = 0 := by
  rw [displaces, Bool.or_eq_true, Bool.or_eq_true, Bool.and_eq_true, decide_eq_true_iff,
    proper.perfect_iff, proper.exceeds_iff other, other.disjoint_iff, or_assoc]

end Candidate.Proper

section Scan

variable {seen : List Candidate} {c best : Candidate}

/-- A candidate that displaces the one chosen so far is chosen. -/
lemma Chosen.displaced (chosen : Chosen (· ∈ seen) best) (proper : ∀ d ∈ seen ++ [c], d.Proper)
    (later : ∀ d ∈ seen, d.Precedes c) (displaces : c.displaces best = true) :
    Chosen (· ∈ seen ++ [c]) c := by
  have properSeen (d) (mem : d ∈ seen) : d.Proper := proper d (List.mem_append_left _ mem)
  have properC : c.Proper := proper c List.mem_concat_self
  have inSeen {d} (mem : d ∈ seen ++ [c]) : d ∈ seen ∨ d = c := by simpa using mem
  have atMostOne := properC.fraction_le_one
  rw [properC.displaces_iff (properSeen best chosen.offered)] at displaces
  have greatest (d) (mem : d ∈ seen) : d.fraction ≤ c.fraction := by
    have le := chosen.greatest d mem
    rcases displaces with ⟨perfect, _⟩ | more | none
    · rw [perfect]
      exact (properSeen d mem).fraction_le_one
    · exact le.trans more.le
    · exact (le.trans none.le).trans c.fraction_nonneg
  refine ⟨⟨List.mem_concat_self, ?_, ?_⟩, ?_, ?_⟩
  · intro d mem
    rcases inSeen mem with mem | rfl
    · exact greatest d mem
    · exact le_rfl
  · intro one d mem full
    rcases inSeen mem with mem | rfl
    · -- whoever agrees in full has at least the padding of the one that is displaced
      have le := chosen.greatest d mem
      rcases displaces with ⟨_, less⟩ | more | none
      · have former : best.fraction = 1 :=
          le_antisymm (properSeen best chosen.offered).fraction_le_one (full ▸ le)
        rcases chosen.closest former d mem full with farther | ⟨same, _⟩
        · exact .inl (less.trans farther)
        · exact .inl (same ▸ less)
      · linarith
      · linarith
    · exact .inr ⟨rfl, le_rfl⟩
  · intro positive imperfect d mem same
    rcases inSeen mem with mem | rfl
    · have le := chosen.greatest d mem
      rcases displaces with ⟨perfect, _⟩ | more | none
      · exact absurd perfect imperfect
      · linarith
      · linarith
    · exact .inl rfl
  · intro _ d mem
    rcases inSeen mem with mem | rfl
    · exact .inr (later d mem)
    · exact .inl rfl

/-- A candidate that does not displace the one chosen so far changes nothing. -/
lemma Chosen.kept (chosen : Chosen (· ∈ seen) best) (proper : ∀ d ∈ seen ++ [c], d.Proper)
    (later : ∀ d ∈ seen, d.Precedes c) (stays : ¬c.displaces best = true) :
    Chosen (· ∈ seen ++ [c]) best := by
  have properC : c.Proper := proper c List.mem_concat_self
  have properBest : best.Proper := proper best (List.mem_append_left _ chosen.offered)
  have inSeen {d} (mem : d ∈ seen ++ [c]) : d ∈ seen ∨ d = c := by simpa using mem
  rw [properC.displaces_iff properBest, not_or, not_or, not_and, not_lt, not_lt] at stays
  obtain ⟨farther, less, some⟩ := stays
  have early : best.Precedes c := later best chosen.offered
  refine ⟨⟨List.mem_append_left _ chosen.offered, ?_, ?_⟩, ?_, fun none => absurd none some⟩
  · intro d mem
    rcases inSeen mem with mem | rfl
    · exact chosen.greatest d mem
    · exact less
  · intro one d mem full
    rcases inSeen mem with mem | rfl
    · exact chosen.closest one d mem full
    · have le := farther full
      rw [Candidate.Precedes] at early
      omega
  · intro positive imperfect d mem same
    rcases inSeen mem with mem | rfl
    · exact chosen.first positive imperfect d mem same
    · exact .inr early

/-- The last candidate is chosen if it displaces the one chosen among those before it, or if
there are none. -/
lemma choose?_concat (seen : List Candidate) (c : Candidate) :
    choose? (seen ++ [c]) =
      match choose? seen with
      | none => some c
      | some best => if c.displaces best then some c else some best := by
  rw [choose?, List.foldl_append]
  rfl

/-- The scan of a list of candidates. -/
lemma chosen_of_choose? {listed : List Candidate} (proper : ∀ c ∈ listed, c.Proper)
    (ordered : listed.Pairwise Candidate.Precedes) (found : choose? listed = some best) :
    Chosen (· ∈ listed) best := by
  induction listed using List.reverseRecOn generalizing best with
  | nil => cases found
  | append_singleton seen c ih =>
    obtain ⟨ordered, _, later⟩ := List.pairwise_append.mp ordered
    have later (d) (mem : d ∈ seen) : d.Precedes c := later d mem c (List.mem_singleton_self c)
    rw [choose?_concat] at found
    cases former : choose? seen with
    | none =>
      rw [former] at found
      cases found
      obtain rfl : seen = [] := by
        by_contra some
        obtain ⟨best, found⟩ := exists_choose? some
        cases former.symm.trans found
      refine ⟨⟨List.mem_singleton_self c, ?_, ?_⟩, ?_, ?_⟩
      all_goals simp_all
    | some best =>
      have chosen := ih (fun d mem => proper d (List.mem_append_left _ mem)) ordered former
      rw [former] at found
      simp only at found
      split at found
      case isTrue displaces =>
        cases found
        exact chosen.displaced proper later displaces
      case isFalse stays =>
        cases found
        exact chosen.kept proper later stays

end Scan

/-! ### The stages of a placement -/

/-- A stage of a placement: the segments left, how many positions may still stay free, and the first
position that was not passed yet. -/
structure Stage where
  remaining : List (List QubitId)
  unused : Nat
  cursor : Nat

namespace Stage

variable {chain : List (Option QubitId)} {stage : Stage} {c best : Candidate}
  {rule rule' : Stage → Candidate → Prop} {choices : List Candidate}

/-- A candidate of a stage: a segment that is left, and a padding for which there is room. -/
structure Offers (chain : List (Option QubitId)) (stage : Stage) (c : Candidate) : Prop where
  run : stage.remaining[c.index]? = some c.run
  padding : c.padding ≤ stage.unused
  overlap : c.overlap = Placement.overlap chain (stage.cursor + c.padding) c.run

/-- The stage after a choice. -/
def next (stage : Stage) (best : Candidate) : Stage :=
  ⟨stage.remaining.eraseIdx best.index, stage.unused - best.padding,
    stage.cursor + best.padding + best.run.length⟩

/-- The choices from a stage on until no segment is left, each made by a rule. -/
inductive Follows (rule : Stage → Candidate → Prop) : Stage → List Candidate → Prop where
  | done {stage : Stage} : stage.remaining = [] → Follows rule stage []
  | step {stage : Stage} {best : Candidate} {choices : List Candidate} :
    rule stage best → Follows rule (stage.next best) choices → Follows rule stage (best :: choices)

/-- The segments chosen, with the position of their first qubit. -/
def laid : Stage → List Candidate → List (List QubitId × Nat)
  | _, [] => []
  | stage, best :: choices => (best.run, stage.cursor + best.padding) :: (stage.next best).laid choices

/-- Choices made by one rule are made by another one if at each stage what the first rule allows does not
violate the second. -/
lemma Follows.congr (follows : Follows rule stage choices) {allowed : Stage → Candidate → Prop}
    (same : ∀ {stage best}, rule stage best → (rule' stage best ↔ allowed stage best)) :
    Follows rule' stage choices ↔ Follows allowed stage choices := by
  induction follows with
  | done empty => exact ⟨fun _ => .done empty, fun _ => .done empty⟩
  | step rule _ ih =>
    constructor
    · rintro (_ | ⟨rule', rest⟩)
      exact .step ((same rule).mp rule') (ih.mp rest)
    · rintro (_ | ⟨allowed, rest⟩)
      exact .step ((same rule).mpr allowed) (ih.mpr rest)

/-- The candidates listed are those that a stage offers. -/
lemma mem_candidates_iff :
    c ∈ candidates chain stage.remaining stage.unused stage.cursor ↔ stage.Offers chain c := by
  rw [Placement.mem_candidates_iff]
  constructor
  · rintro ⟨run, padding, overlap⟩
    exact ⟨run, padding, overlap⟩
  · rintro ⟨run, padding, overlap⟩
    exact ⟨run, padding, overlap⟩

/-- Candidates are listed segment by segment, and for each segment by ascending padding. -/
lemma candidates_ordered (chain : List (Option QubitId)) (remaining : List (List QubitId))
    (unused cursor : Nat) : (candidates chain remaining unused cursor).Pairwise Candidate.Precedes := by
  rw [candidates, List.pairwise_flatMap]
  constructor
  · rintro ⟨run, index⟩ _
    refine List.pairwise_map.mpr (List.pairwise_lt_range.imp ?_)
    exact fun less => .inr ⟨rfl, less⟩
  · have indices : (remaining.zipIdx.map Prod.snd).Pairwise (· < ·) := by
      rw [List.zipIdx_map_snd]
      exact List.pairwise_lt_range'
    refine (List.pairwise_map.mp indices).imp ?_
    intro entry other less c memC d memD
    obtain ⟨_, _, rfl⟩ := List.mem_map.mp memC
    obtain ⟨_, _, rfl⟩ := List.mem_map.mp memD
    exact .inl less

/-- The scan at a stage at which segments with qubits are left. -/
lemma exists_chosen (stage : Stage) (chain : List (Option QubitId)) (left : stage.remaining ≠ [])
    (notEmpty : ∀ run ∈ stage.remaining, run ≠ []) :
    ∃ best, choose? (candidates chain stage.remaining stage.unused stage.cursor) = some best ∧
      Chosen (stage.Offers chain) best := by
  obtain ⟨best, found⟩ : ∃ best, choose? (candidates chain stage.remaining stage.unused stage.cursor)
      = some best := exists_choose? (candidates_ne_nil chain left)
  refine ⟨best, found, ?_⟩
  have proper : ∀ c ∈ candidates chain stage.remaining stage.unused stage.cursor, c.Proper := by
    intro c mem
    have offer := mem_candidates_iff.mp mem
    refine ⟨notEmpty c.run (List.mem_of_getElem? offer.run), ?_⟩
    rw [offer.overlap]
    exact overlap_le chain _ _
  have chosen := chosen_of_choose? proper (candidates_ordered _ _ _ _) found
  simpa only [mem_candidates_iff] using chosen

/-- After a choice the segments left still have qubits. -/
lemma mem_next (notEmpty : ∀ run ∈ stage.remaining, run ≠ []) (best : Candidate) :
    ∀ run ∈ (stage.next best).remaining, run ≠ [] :=
  fun run mem => notEmpty run (List.mem_of_mem_eraseIdx mem)

/-- The segments are arranged by the choices of the scan. -/
lemma exists_choices (chain : List (Option QubitId)) {count : Nat} (stage : Stage)
    (enough : stage.remaining.length = count) (notEmpty : ∀ run ∈ stage.remaining, run ≠ []) :
    ∃ choices, Follows (fun stage => Chosen (stage.Offers chain)) stage choices ∧
      arrange chain count stage.remaining stage.unused stage.cursor = stage.laid choices := by
  induction count generalizing stage with
  | zero => exact ⟨[], .done (List.eq_nil_of_length_eq_zero enough), rfl⟩
  | succ count ih =>
    have left : stage.remaining ≠ [] := List.ne_nil_of_length_eq_add_one enough
    obtain ⟨best, found, chosen⟩ := stage.exists_chosen chain left notEmpty
    have shorter : (stage.next best).remaining.length = count :=
      Nat.succ.inj ((cons_eraseIdx_perm chosen.offered.run).length_eq.trans enough)
    obtain ⟨choices, follows, laid⟩ := ih (stage.next best) shorter (mem_next notEmpty best)
    refine ⟨best :: choices, .step chosen follows, ?_⟩
    rw [arrange, found, Stage.laid, ← laid]
    rfl

end Stage

end Placement

namespace Segments

open Placement

/-- The first stage of the placement of segments on a chain. -/
def firstStage (segments : Segments) (n : Nat) : Stage :=
  ⟨segments.toPlace, n - segments.allocated.size, 0⟩

/-- The segments to place have qubits if all runs do. -/
lemma toPlace_ne_nil {segments : Segments} (notEmpty : ∀ run ∈ segments.runs, run ≠ []) :
    ∀ run ∈ segments.toPlace, run ≠ [] := by
  intro run mem
  rcases List.mem_append.mp mem with mem | mem
  · exact notEmpty run mem
  · obtain ⟨q, _, rfl⟩ := List.mem_map.mp mem
    exact List.cons_ne_nil q []

/-- Segments are placed one after the other. Each choice agrees with the former layout in the greatest
share of its place; one that agrees in full has the least padding, and is the first listed with it; one that
agrees in part is the first of those that agree as much. Where nobody agrees in anything the last candidate
is chosen, so that equals are always resolved in favour of the first one exactly if, at every stage, some
candidate agrees in something or there is no other one. -/
theorem place_greedy {segments : Segments} (notEmpty : ∀ run ∈ segments.runs, run ≠ []) (n : Nat)
    (current : Layout Nat) :
    ∃ choices, Stage.Follows (fun stage => Chosen (stage.Offers (current.toChain n)))
        (segments.firstStage n) choices ∧
      segments.place n current
        = .ofPairs ((seats ((segments.firstStage n).laid choices)).filter (·.2 < n)) ∧
      (Stage.Follows (fun stage => Preferred (stage.Offers (current.toChain n)))
          (segments.firstStage n) choices ↔
        Stage.Follows (fun stage best => 0 < best.fraction ∨
          ∀ c, stage.Offers (current.toChain n) c → c = best) (segments.firstStage n) choices) := by
  obtain ⟨choices, follows, laid⟩ := Stage.exists_choices (current.toChain n) (segments.firstStage n) rfl
    (toPlace_ne_nil notEmpty)
  refine ⟨choices, follows, ?_, follows.congr Chosen.preferred_iff⟩
  rw [← laid]
  rfl

/-- Two runs and a new qubit on a chain of seven. The second run agrees in full behind one free position; after
it both the first run and the new qubit do so, and the run is listed first. -/
theorem place_greedy_mixed :
    let segments : Segments := ⟨[[⟨4⟩, ⟨5⟩, ⟨6⟩], [⟨2⟩, ⟨1⟩]],
      .ofList [⟨1⟩, ⟨2⟩, ⟨3⟩, ⟨4⟩, ⟨5⟩, ⟨6⟩]⟩
    let current : Layout Nat := .ofPairs [(⟨1⟩, 1), (⟨2⟩, 2), (⟨4⟩, 4), (⟨5⟩, 5), (⟨6⟩, 6), (⟨9⟩, 0)]
    (∀ run ∈ segments.runs, run ≠ []) ∧
      segments.place 7 current = .ofPairs [(⟨2⟩, 1), (⟨1⟩, 2), (⟨4⟩, 3), (⟨5⟩, 4), (⟨6⟩, 5), (⟨3⟩, 6)] ∧
      ∃ choices, Stage.Follows (fun stage => Chosen (stage.Offers (current.toChain 7)))
          (segments.firstStage 7) choices ∧
        segments.place 7 current
          = .ofPairs ((seats ((segments.firstStage 7).laid choices)).filter (·.2 < 7)) := by
  intro segments current
  have notEmpty : ∀ run ∈ segments.runs, run ≠ [] := by decide
  obtain ⟨choices, follows, placed, _⟩ := place_greedy notEmpty 7 current
  exact ⟨notEmpty, by decide, choices, follows, placed⟩

/-- On a chain of four qubits in order, the run of two qubits that takes the first two positions leaves two
qubits, neither of which sat at the third position. The last of them is placed there, so that both move. -/
theorem place_last_listed :
    let segments : Segments := ⟨[[⟨2⟩, ⟨0⟩]], .ofList [⟨0⟩, ⟨1⟩, ⟨2⟩, ⟨3⟩]⟩
    let current : Layout Nat := .ofPairs [(⟨0⟩, 0), (⟨1⟩, 1), (⟨2⟩, 2), (⟨3⟩, 3)]
    segments.place 4 current = .ofPairs [(⟨2⟩, 0), (⟨0⟩, 1), (⟨3⟩, 2), (⟨1⟩, 3)] ∧
      ¬∃ choices, Stage.Follows (fun stage => Preferred (stage.Offers (current.toChain 4)))
          (segments.firstStage 4) choices ∧
        segments.place 4 current
          = .ofPairs ((seats ((segments.firstStage 4).laid choices)).filter (·.2 < 4)) := by
  intro segments current
  have placed : segments.place 4 current = .ofPairs [(⟨2⟩, 0), (⟨0⟩, 1), (⟨3⟩, 2), (⟨1⟩, 3)] := by decide
  refine ⟨placed, ?_⟩
  rintro ⟨choices, follows, same⟩
  rw [placed] at same
  obtain _ | @⟨_, best, _, preferred, follows⟩ := follows
  case done empty => cases empty
  have listed : best ∈ ([⟨0, [⟨2⟩, ⟨0⟩], 0, 1⟩, ⟨1, [⟨1⟩], 0, 0⟩, ⟨2, [⟨3⟩], 0, 0⟩] : List Candidate) :=
    Stage.mem_candidates_iff.mpr preferred.offered
  rcases List.mem_cons.mp listed with rfl | listed
  case inr =>
    -- only the run agrees in something
    have agrees := preferred.greatest ⟨0, [⟨2⟩, ⟨0⟩], 0, 1⟩ ⟨rfl, le_rfl, rfl⟩
    rcases List.mem_pair.mp listed with rfl | rfl
    all_goals norm_num [Candidate.fraction] at agrees
  obtain _ | @⟨_, best, _, preferred, follows⟩ := follows
  case done empty => cases empty
  have listed : best ∈ ([⟨0, [⟨1⟩], 0, 0⟩, ⟨1, [⟨3⟩], 0, 0⟩] : List Candidate) :=
    Stage.mem_candidates_iff.mpr preferred.offered
  rcases List.mem_pair.mp listed with rfl | rfl
  case inr =>
    -- the other one agrees as little and comes first
    have first := preferred.first (by norm_num [Candidate.fraction]) ⟨0, [⟨1⟩], 0, 0⟩ ⟨rfl, le_rfl, rfl⟩ rfl
    simp [Candidate.Precedes] at first
  obtain _ | @⟨_, best, _, preferred, follows⟩ := follows
  case done empty => cases empty
  have listed : best ∈ ([⟨0, [⟨3⟩], 0, 1⟩] : List Candidate) :=
    Stage.mem_candidates_iff.mpr preferred.offered
  obtain rfl := List.mem_singleton.mp listed
  obtain _ | ⟨preferred, _⟩ := follows
  · exact absurd same (by decide)
  · cases preferred.offered.run

end Segments

end QubitRouting
