import QubitRouting.Placement
import QubitRouting.Proofs.Layout
import QubitRouting.Proofs.Segment

/-!
# Placement finds room for every segment

Segments are laid out from left to right without overlap, whichever of them is chosen at each step. If
the runs are disjoint and there are enough positions, every qubit that needs a position gets one of its
own, and the qubits of a run get consecutive ones, in its order.
-/

namespace QubitRouting

open scoped List

namespace Placement

variable (chain : List (Option QubitId)) {remaining : List (List QubitId)} {unused cursor : Nat}

/-- Leaving out repetitions makes no list longer. -/
lemma length_eraseDups_le : ∀ qubits : List QubitId, qubits.eraseDups.length ≤ qubits.length
  | [] => le_rfl
  | q :: rest => by
    have others : (rest.filter fun r => !r == q).length ≤ rest.length := List.length_filter_le _ _
    rw [List.eraseDups_cons, List.length_cons, List.length_cons]
    exact Nat.succ_le_succ ((length_eraseDups_le _).trans others)
termination_by qubits => qubits.length

/-- A position counts once at most. -/
lemma agreeing_le_length (window : List (Option QubitId)) (run : List QubitId) :
    window.countP Option.isNone + ((window.filterMap id).filter (· ∈ run)).eraseDups.length
      ≤ window.length := by
  have occupied : (window.filterMap id).length = window.countP Option.isSome :=
    List.length_filterMap_eq_countP
  have shared := (length_eraseDups_le ((window.filterMap id).filter (· ∈ run))).trans
    (List.length_filter_le _ _)
  have split : window.length = window.countP Option.isNone + _ :=
    List.length_eq_countP_add_countP Option.isNone
  have rest : window.countP (fun a => decide ¬a.isNone = true) = window.countP Option.isSome :=
    List.countP_congr fun a _ => by cases a <;> simp
  omega

/-- No more positions agree than the run is long. -/
lemma overlap_le (start : Nat) (run : List QubitId) : overlap chain start run ≤ run.length :=
  (agreeing_le_length _ run).trans (List.length_take_le _ _)

/-- A candidate is chosen by keeping the better one, candidate after candidate. -/
lemma choose?_eq (candidates : List Candidate) :
    choose? candidates = candidates.foldl (keepBetter fun a b => a.displaces b = true) none := by
  rw [choose?]
  congr 1
  funext best candidate
  cases best <;> rfl

/-- The chosen candidate is one of the candidates. -/
lemma choose?_mem {candidates : List Candidate} {best : Candidate}
    (chosen : choose? candidates = some best) : best ∈ candidates := by
  rw [choose?_eq] at chosen
  rcases mem_of_foldl_keepBetter _ chosen with mem | absurdity
  · exact mem
  · cases absurdity

/-- Some candidate is chosen unless there are none. -/
lemma exists_choose? {candidates : List Candidate} (left : candidates ≠ []) :
    ∃ best, choose? candidates = some best := by
  rw [choose?_eq]
  exact Option.isSome_iff_exists.mp (foldl_keepBetter_isSome _ (.inl left))

/-- A candidate is one of the segments left, with no more padding than there are positions to spare. -/
lemma mem_candidates_iff {candidate : Candidate} :
    candidate ∈ candidates chain remaining unused cursor ↔
      remaining[candidate.index]? = some candidate.run ∧ candidate.padding ≤ unused ∧
        candidate.overlap = overlap chain (cursor + candidate.padding) candidate.run := by
  constructor
  · intro mem
    obtain ⟨⟨run, index⟩, memRun, mem⟩ := List.mem_flatMap.mp mem
    obtain ⟨padding, memPadding, rfl⟩ := List.mem_map.mp mem
    refine ⟨List.mem_zipIdx_iff_getElem?.mp memRun, ?_, rfl⟩
    exact Nat.le_of_lt_succ (List.mem_range.mp memPadding)
  · rintro ⟨here, padding, agrees⟩
    refine List.mem_flatMap.mpr ⟨(candidate.run, candidate.index), ?_, ?_⟩
    · exact List.mem_zipIdx_iff_getElem?.mpr here
    · refine List.mem_map.mpr ⟨candidate.padding, List.mem_range.mpr (Nat.lt_succ_of_le padding), ?_⟩
      rw [← agrees]

/-- While segments are left, there are candidates. -/
lemma candidates_ne_nil (left : remaining ≠ []) :
    candidates chain remaining unused cursor ≠ [] := by
  obtain ⟨run, rest, rfl⟩ := List.exists_cons_of_ne_nil left
  simp [candidates, List.range_succ]

/-- Segments that follow each other from a cursor on, without overlap and up to a limit. -/
def Spread : Nat → Nat → List (List QubitId × Nat) → Prop
  | cursor, limit, [] => cursor ≤ limit
  | cursor, limit, (run, start) :: rest => cursor ≤ start ∧ Spread (start + run.length) limit rest

/-- All segments are laid out one after the other. -/
lemma arrange_spread {count limit : Nat} (enough : remaining.length = count)
    (room : cursor + unused + remaining.flatten.length ≤ limit) :
    Spread cursor limit (arrange chain count remaining unused cursor) ∧
      (arrange chain count remaining unused cursor).map Prod.fst ~ remaining := by
  induction count generalizing remaining unused cursor with
  | zero =>
    obtain rfl := List.eq_nil_of_length_eq_zero enough
    exact ⟨by rw [arrange, Spread]; omega, .nil⟩
  | succ count ih =>
    have notEmpty : remaining ≠ [] := by
      rintro rfl
      cases enough
    obtain ⟨best, chosen⟩ : ∃ best, choose? (candidates chain remaining unused cursor) = some best :=
      exists_choose? (candidates_ne_nil chain notEmpty)
    obtain ⟨here, padding, _⟩ := (mem_candidates_iff chain).mp (choose?_mem chosen)
    have split := cons_eraseIdx_perm here
    have total : best.run.length + (remaining.eraseIdx best.index).flatten.length
        = remaining.flatten.length := by
      simpa using split.flatten.length_eq
    have shorter : (remaining.eraseIdx best.index).length = count :=
      Nat.succ.inj (split.length_eq.trans enough)
    -- the padding comes out of the positions that may stay free
    have room' : cursor + best.padding + best.run.length + (unused - best.padding)
        + (remaining.eraseIdx best.index).flatten.length ≤ limit := by
      omega
    obtain ⟨spread, perm⟩ := ih shorter room'
    rw [arrange, chosen]
    exact ⟨⟨by omega, spread⟩, (perm.cons best.run).trans split⟩

/-- The qubits of the segments with their positions. -/
def seats (placed : List (List QubitId × Nat)) : List (QubitId × Nat) :=
  placed.flatMap fun (run, start) => run.zipIdx start

/-- The qubits with seats are those of the segments placed. -/
lemma map_fst_seats (placed : List (List QubitId × Nat)) :
    (seats placed).map Prod.fst = (placed.map Prod.fst).flatten := by
  induction placed with
  | nil => rfl
  | cons head rest ih =>
    rw [seats, List.flatMap_cons, List.map_append, ← seats, ih]
    simp

/-- Positions ascend from the cursor to the limit. -/
lemma Spread.ascending {placed : List (List QubitId × Nat)} {limit : Nat}
    (spread : Spread cursor limit placed) :
    ((seats placed).map Prod.snd).Pairwise (· < ·) ∧
      (∀ seat ∈ seats placed, cursor ≤ seat.2 ∧ seat.2 < limit) ∧ cursor ≤ limit := by
  induction placed generalizing cursor with
  | nil => exact ⟨.nil, nofun, spread⟩
  | cons head rest ih =>
    obtain ⟨run, start⟩ := head
    obtain ⟨begins, spread⟩ := spread
    obtain ⟨ascending, within, le⟩ := ih spread
    have inRun : ∀ seat ∈ run.zipIdx start, start ≤ seat.2 ∧ seat.2 < start + run.length := by
      rintro ⟨q, p⟩ mem
      exact ⟨List.le_snd_of_mem_zipIdx mem, List.snd_lt_add_of_mem_zipIdx mem⟩
    refine ⟨?_, ?_, by omega⟩
    · rw [seats, List.flatMap_cons, List.map_append, List.pairwise_append]
      refine ⟨?_, ascending, ?_⟩
      · rw [List.zipIdx_map_snd]
        exact List.pairwise_lt_range'
      · -- a later run begins behind the end of this one
        intro p memP s memS
        obtain ⟨seatP, inHead, rfl⟩ := List.mem_map.mp memP
        obtain ⟨seatS, inRest, rfl⟩ := List.mem_map.mp memS
        have := inRun seatP inHead
        have := within seatS inRest
        omega
    · intro seat mem
      rcases List.mem_append.mp mem with mem | mem
      · have := inRun seat mem
        omega
      · have := within seat mem
        omega

end Placement

namespace Segments

open Placement

variable {segments : Segments} {n : Nat} {current : Layout Nat} {run : List QubitId} {q x y : QubitId}

/-- Segments that a chain has room for: no more qubits need a position than there are positions, and the
runs are disjoint and hold such qubits only. -/
structure Packable (segments : Segments) (n : Nat) : Prop where
  room : segments.allocated.size ≤ n
  nodup : segments.runs.flatten.Nodup
  placed : ∀ q ∈ segments.runs.flatten, q ∈ segments.allocated

/-- A chain has room for the segments of a pass. -/
lemma Sound.packable (sound : segments.Sound n) : segments.Packable n :=
  ⟨sound.room, sound.nodup, sound.placed⟩

/-- The segments to place hold every qubit that needs a position once. -/
lemma Packable.toPlace_perm (packable : segments.Packable n) :
    segments.toPlace.flatten ~ segments.allocated.toList := by
  have flat : segments.toPlace.flatten = segments.runs.flatten ++
      segments.allocated.toList.filter (· ∉ segments.runs.flatten) := by
    rw [toPlace, List.flatten_append]
    congr 1
    generalize segments.allocated.toList.filter _ = others
    induction others with
    | nil => rfl
    | cons head rest ih => simpa using ih
  rw [flat, List.perm_ext_iff_of_nodup _ segments.allocated.toList_nodup]
  · intro q
    rw [List.mem_append, List.mem_filter, decide_eq_true_iff]
    have := packable.placed q
    constructor
    · rintro (mem | ⟨mem, _⟩)
      · exact this mem
      · exact mem
    · intro mem
      by_cases inRun : q ∈ segments.runs.flatten
      · exact .inl inRun
      · exact .inr ⟨mem, inRun⟩
  · refine List.Nodup.append packable.nodup (segments.allocated.toList_nodup.filter _) ?_
    intro q inRun other
    have := (List.mem_filter.mp other).2
    exact of_decide_eq_true this inRun

/-- A placement stays on the chain, whatever the segments. -/
lemma fits_place (segments : Segments) (n : Nat) (current : Layout Nat) :
    (segments.place n current).Fits n := by
  apply Layout.fits_ofPairs
  intro pair mem
  exact of_decide_eq_true (List.mem_filter.mp mem).2

/-- The segments are laid out so that every qubit that needs a position gets one of its own. -/
lemma Packable.exists_seats (packable : segments.Packable n) (current : Layout Nat) :
    ∃ placed : List (List QubitId × Nat), placed.map Prod.fst ~ segments.toPlace ∧
      ∀ q p, (segments.place n current).position? q = some p ↔ (q, p) ∈ seats placed := by
  have size : segments.toPlace.flatten.length = segments.allocated.size :=
    packable.toPlace_perm.length_eq
  have room : 0 + (n - segments.allocated.size) + segments.toPlace.flatten.length ≤ n := by
    have := packable.room
    omega
  obtain ⟨spread, perm⟩ := arrange_spread (current.toChain n) rfl room
  obtain ⟨ascending, within, _⟩ := spread.ascending
  refine ⟨_, perm, ?_⟩
  intro q p
  rw [place]
  change (Layout.ofPairs ((seats _).filter _)).position? q = some p ↔ _
  rw [List.filter_eq_self.mpr fun seat mem => decide_eq_true (within seat mem).2]
  apply Layout.position?_ofPairs_iff
  · rw [map_fst_seats, perm.flatten.nodup_iff, packable.toPlace_perm.nodup_iff]
    exact segments.allocated.toList_nodup
  · exact ascending.imp fun less same => absurd same (Nat.ne_of_lt less)

/-- The qubits that get a position are those that need one. -/
lemma Packable.place_iff (packable : segments.Packable n) (current : Layout Nat) :
    (∃ p, (segments.place n current).position? q = some p) ↔ q ∈ segments.allocated := by
  obtain ⟨placed, perm, seated⟩ := packable.exists_seats current
  have : q ∈ (seats placed).map Prod.fst ↔ q ∈ segments.allocated := by
    rw [map_fst_seats, perm.flatten.mem_iff, packable.toPlace_perm.mem_iff]
    rfl
  simp only [seated, ← this, List.mem_map, Prod.exists, exists_and_right, exists_eq_right]

/-- The qubits of a run get consecutive positions, in its order. -/
lemma Packable.place_run (packable : segments.Packable n) (current : Layout Nat)
    (memRun : run ∈ segments.runs) :
    ∃ start, ∀ i q, run[i]? = some q → (segments.place n current).position? q = some (start + i) := by
  obtain ⟨placed, perm, seated⟩ := packable.exists_seats current
  have toPlace : run ∈ placed.map Prod.fst := perm.mem_iff.mpr (List.mem_append_left _ memRun)
  obtain ⟨⟨run, start⟩, memPlaced, rfl⟩ := List.mem_map.mp toPlace
  refine ⟨start, ?_⟩
  intro i q here
  apply (seated q (start + i)).mpr
  refine List.mem_flatMap.mpr ⟨(run, start), memPlaced, ?_⟩
  exact List.mk_add_mem_zipIdx_iff_getElem?.mpr here

/-- Qubits side by side in a run get neighbouring positions. -/
lemma Packable.place_consecutive (packable : segments.Packable n) (current : Layout Nat)
    (consecutive : Consecutive segments.runs x y) :
    ∃ p, (segments.place n current).position? x = some p ∧
        (segments.place n current).position? y = some (p + 1) ∨
      (segments.place n current).position? y = some p ∧
        (segments.place n current).position? x = some (p + 1) := by
  obtain ⟨run, memRun, beside⟩ := consecutive
  obtain ⟨start, seat⟩ := packable.place_run current memRun
  have pair {x y} (infixed : [x, y] <:+: run) : ∃ p, (segments.place n current).position? x = some p ∧
      (segments.place n current).position? y = some (p + 1) := by
    obtain ⟨before, after, rfl⟩ := infixed
    exact ⟨start + before.length, seat before.length x (by simp), seat (before.length + 1) y (by simp)⟩
  rcases beside with infixed | infixed
  · obtain ⟨p, hx, hy⟩ := pair infixed
    exact ⟨p, .inl ⟨hx, hy⟩⟩
  · obtain ⟨p, hy, hx⟩ := pair infixed
    exact ⟨p, .inr ⟨hy, hx⟩⟩

/-- A run through all positions begins at the first of them and ends at the last. -/
lemma Packable.place_full (packable : segments.Packable n) (current : Layout Nat)
    (memRun : run ∈ segments.runs) (full : run.length = n) (first : run.head? = some x)
    (last : run.getLast? = some y) : (segments.place n current).position? x = some 0 ∧
      (segments.place n current).position? y = some (n - 1) := by
  obtain ⟨start, seat⟩ := packable.place_run current memRun
  have positive : 0 < run.length := List.length_pos_of_mem (List.mem_of_head? first)
  have seatFirst := seat _ _ (List.head?_eq_getElem? ▸ first)
  have seatLast := seat _ _ (List.getLast?_eq_getElem? ▸ last)
  have lt := (fits_place segments n current).lt seatLast
  rw [full] at positive lt seatLast
  obtain rfl : start = 0 := by omega
  rw [Nat.zero_add] at seatFirst seatLast
  exact ⟨seatFirst, seatLast⟩

/-- The layout gives the qubits of the segments, and no others, a position of their own each, and the
qubits of a run consecutive ones, in its order. -/
structure Packs (layout : Layout Nat) (segments : Segments) (n : Nat) : Prop where
  domain : ∀ q, (∃ p, layout.position? q = some p) ↔ q ∈ segments.allocated
  fits : layout.Fits n
  distinct : ∀ q r p, layout.position? q = some p → layout.position? r = some p → q = r
  ascending : ∀ run ∈ segments.runs, ∃ start, ∀ i q,
    run[i]? = some q → layout.position? q = some (start + i)

/-- Placement never runs out of room, whatever the present layout: if no more qubits need a position than
there are positions, none is left over and no run is cut off or torn apart. -/
theorem place_packs {segments : Segments} {n : Nat} (room : segments.allocated.size ≤ n)
    (disjoint : segments.runs.Pairwise List.Disjoint) (nodup : ∀ run ∈ segments.runs, run.Nodup)
    (placed : ∀ run ∈ segments.runs, ∀ q ∈ run, q ∈ segments.allocated) (current : Layout Nat) :
    Packs (segments.place n current) segments n := by
  have packable : segments.Packable n := by
    refine ⟨room, List.nodup_flatten.mpr ⟨nodup, disjoint⟩, ?_⟩
    intro q mem
    obtain ⟨run, memRun, inRun⟩ := List.mem_flatten.mp mem
    exact placed run memRun q inRun
  have fits := fits_place segments n current
  refine ⟨fun q => packable.place_iff current, fits, ?_, fun run mem => packable.place_run current mem⟩
  intro q r p hereQ hereR
  exact fits.consistent.inj hereQ hereR

/-- Two runs and a qubit of its own on a chain of seven. In the present layout the qubits of the runs are
mixed, and one sits beyond the chain. -/
theorem place_packs_mixed :
    let segments : Segments := ⟨[[⟨3⟩, ⟨1⟩, ⟨4⟩], [⟨2⟩, ⟨0⟩]],
      OrderedSet.empty.insertAll [⟨0⟩, ⟨1⟩, ⟨2⟩, ⟨3⟩, ⟨4⟩, ⟨5⟩]⟩
    let current : Layout Nat :=
      .ofPairs [(⟨0⟩, 9), (⟨1⟩, 3), (⟨2⟩, 2), (⟨3⟩, 1), (⟨4⟩, 5), (⟨5⟩, 6)]
    segments.allocated.size = 6 ∧ Packs (segments.place 7 current) segments 7 ∧
      ∃ start, (segments.place 7 current).position? ⟨3⟩ = some start ∧
        (segments.place 7 current).position? ⟨1⟩ = some (start + 1) ∧
        (segments.place 7 current).position? ⟨4⟩ = some (start + 2) := by
  intro segments current
  have packs : Packs (segments.place 7 current) segments 7 :=
    place_packs (by decide) (by simp [segments, List.Disjoint]) (by decide) (by decide) current
  obtain ⟨start, seat⟩ := packs.ascending _ List.mem_cons_self
  exact ⟨by decide, packs, start, seat 0 _ rfl, seat 1 _ rfl, seat 2 _ rfl⟩

end Segments

end QubitRouting
