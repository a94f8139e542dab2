import Mathlib.Algebra.BigOperators.Group.Finset.Basic
import Mathlib.Algebra.Order.BigOperators.Group.Finset
import Mathlib.Data.List.Nodup
import QubitRouting.Grid.RowMatching
import QubitRouting.Proofs.Checked
import QubitRouting.Proofs.Matching
import QubitRouting.Proofs.Topology

/-!
# Regular moves split into matchings

If as many moves leave every column as arrive at every column, no search for a partner is blocked. Each
round then takes a perfect matching out of the moves and leaves regular moves behind.
-/

namespace QubitRouting.Grid

open QubitRouting.Graph
open scoped List

variable {columns k : Nat} {moves : List ColumnMove} {c : Nat}

/-- As many moves leave each column as arrive there. -/
structure Regular (columns k : Nat) (moves : List ColumnMove) : Prop where
  within : ∀ move ∈ moves, move.1 < columns ∧ move.2 < columns
  leaving : ∀ c < columns, (moves.map Prod.fst).count c = k
  arriving : ∀ c < columns, (moves.map Prod.snd).count c = k

/-! ### The graph of the moves -/

/-- The graph of the moves has a vertex for each source and each destination. -/
lemma order_moveGraph : (moveGraph columns moves).order = columns + columns := by
  simp [moveGraph, order]

/-- The neighbours of a source are its destinations, from the last one down. -/
lemma neighbours_source (lt : c < columns) :
    (moveGraph columns moves).neighbours c =
      ((List.range columns).reverse.filter fun d => (c, d) ∈ moves).map (columns + ·) := by
  simp [moveGraph, neighbours, List.getElem?_append_left, lt]

/-- The neighbours of a destination are its sources, from the last one down. -/
lemma neighbours_destination (lt : c < columns) :
    (moveGraph columns moves).neighbours (columns + c) =
      (List.range columns).reverse.filter fun s => (s, c) ∈ moves := by
  simp [moveGraph, neighbours, lt]

/-- The edges are the moves, in both directions. -/
lemma mem_neighbours {u v : Nat} : v ∈ (moveGraph columns moves).neighbours u ↔
    ∃ s < columns, ∃ d < columns, (s, d) ∈ moves ∧
      (u = s ∧ v = columns + d ∨ u = columns + d ∧ v = s) := by
  constructor
  · intro edge
    have lt := lt_order edge
    rw [order_moveGraph] at lt
    by_cases source : u < columns
    · rw [neighbours_source source, List.mem_map] at edge
      obtain ⟨d, mem, rfl⟩ := edge
      obtain ⟨inRange, mem⟩ := List.mem_filter.mp mem
      exact ⟨u, source, d, by simpa using inRange, of_decide_eq_true mem, .inl ⟨rfl, rfl⟩⟩
    · obtain ⟨d, rfl⟩ := Nat.exists_eq_add_of_le (Nat.le_of_not_lt source)
      have within : d < columns := by omega
      rw [neighbours_destination within] at edge
      obtain ⟨inRange, mem⟩ := List.mem_filter.mp edge
      exact ⟨v, by simpa using inRange, d, within, of_decide_eq_true mem, .inr ⟨rfl, rfl⟩⟩
  · rintro ⟨s, ltS, d, ltD, mem, ⟨rfl, rfl⟩ | ⟨rfl, rfl⟩⟩
    · rw [neighbours_source ltS]
      exact List.mem_map.mpr ⟨d, List.mem_filter.mpr ⟨by simpa using ltD, decide_eq_true mem⟩, rfl⟩
    · rw [neighbours_destination ltD]
      exact List.mem_filter.mpr ⟨by simpa using ltS, decide_eq_true mem⟩

/-- The graph of the moves joins sources with destinations only. -/
lemma bipartite_moveGraph :
    (moveGraph columns moves).Bipartite fun v => decide (v < columns) := by
  constructor
  · intro u v edge
    obtain ⟨s, ltS, d, ltD, mem, ends⟩ := mem_neighbours.mp edge
    exact mem_neighbours.mpr ⟨s, ltS, d, ltD, mem, ends.symm.imp And.symm And.symm⟩
  · intro u v edge
    obtain ⟨s, ltS, d, ltD, mem, ⟨rfl, rfl⟩ | ⟨rfl, rfl⟩⟩ := mem_neighbours.mp edge
    · simp [ltS]
    · simp [ltS]

/-! ### Regular moves block no search -/

/-- How many entries of a list are in a set, counted value by value. -/
lemma countP_mem_eq_sum (items : List Nat) (set : Finset Nat) :
    items.countP (· ∈ set) = ∑ x ∈ set, items.count x := by
  induction items with
  | nil => simp
  | cons head rest ih =>
    simp only [List.countP_cons, List.count_cons, Finset.sum_add_distrib, ← ih]
    simp

/-- No more moves arrive anywhere than leave each column. -/
lemma Regular.count_arriving_le (regular : Regular columns k moves) (d : Nat) :
    (moves.map Prod.snd).count d ≤ k := by
  by_cases lt : d < columns
  · exact Nat.le_of_eq (regular.arriving d lt)
  · rw [List.count_eq_zero_of_not_mem]
    · exact Nat.zero_le k
    · intro mem
      obtain ⟨move, inMoves, rfl⟩ := List.mem_map.mp mem
      exact lt (regular.within move inMoves).2

/-- The sources of a blocked search would have fewer destinations than regular moves give them. -/
lemma Regular.not_blocked (regular : Regular columns (k + 1) moves) {mates : Mates} {root : Nat}
    {seen : OrderedSet Nat} (matching : (moveGraph columns moves).IsMatching mates)
    (free : mates.find? root = none) (source : root < columns) :
    ¬ (moveGraph columns moves).Blocked mates (fun v => decide (v < columns)) root seen := by
  intro blocked
  have sources {s : Nat} (mem : s ∈ seen) : s < columns :=
    of_decide_eq_true ((blocked.color_eq mem).trans (decide_eq_true source))
  let origins := seen.toList.toFinset
  let goals := (origins.erase root).image fun m => (mates.find? m).getD 0 - columns
  have root_mem : root ∈ origins := List.mem_toFinset.mpr blocked.root_mem
  have leaving : (moves.map Prod.fst).countP (· ∈ origins) = origins.card * (k + 1) := by
    rw [countP_mem_eq_sum, Finset.sum_const_nat]
    intro s mem
    exact regular.leaving s (sources (List.mem_toFinset.mp mem))
  have arriving : (moves.map Prod.snd).countP (· ∈ goals) ≤ goals.card * (k + 1) := by
    rw [countP_mem_eq_sum, ← smul_eq_mul]
    exact Finset.sum_le_card_nsmul _ _ _ fun d _ => regular.count_arriving_le d
  have fewer : goals.card ≤ origins.card - 1 := by
    rw [← Finset.card_erase_of_mem root_mem]
    exact Finset.card_image_le
  -- every move that leaves the set arrives at the partner of another vertex of the set
  have through : (moves.map Prod.fst).countP (· ∈ origins) ≤ (moves.map Prod.snd).countP (· ∈ goals) := by
    rw [List.countP_map, List.countP_map]
    apply List.countP_mono_left
    rintro ⟨s, d⟩ mem leaves
    have inSeen : s ∈ seen := List.mem_toFinset.mp (of_decide_eq_true leaves)
    obtain ⟨ltS, ltD⟩ := regular.within _ mem
    have edge : columns + d ∈ (moveGraph columns moves).neighbours s :=
      mem_neighbours.mpr ⟨s, ltS, d, ltD, mem, .inl ⟨rfl, rfl⟩⟩
    obtain ⟨m, memM, partner⟩ := blocked.closed inSeen edge
    have back := matching.symm partner
    have notRoot : m ≠ root := by
      rintro rfl
      rw [free] at back
      cases back
    apply decide_eq_true
    refine Finset.mem_image.mpr ⟨m, Finset.mem_erase.mpr ⟨notRoot, List.mem_toFinset.mpr memM⟩, ?_⟩
    simp [back]
  have positive : 0 < origins.card := Finset.card_pos.mpr ⟨root, root_mem⟩
  have : origins.card * (k + 1) ≤ (origins.card - 1) * (k + 1) :=
    calc origins.card * (k + 1)
      _ = _ := leaving.symm
      _ ≤ _ := through
      _ ≤ goals.card * (k + 1) := arriving
      _ ≤ (origins.card - 1) * (k + 1) := Nat.mul_le_mul_right _ fewer
  have := Nat.le_of_mul_le_mul_right this (Nat.succ_pos k)
  omega

/-- Every source gets a partner. -/
lemma Regular.exists_partner (regular : Regular columns (k + 1) moves) {s : Nat} (lt : s < columns) :
    ∃ w, (moveGraph columns moves).maximumMatching.find? s = some w := by
  obtain ⟨_, covers⟩ := maximumMatching_covers bipartite_moveGraph
    (fun matching free source => regular.not_blocked matching free source)
  exact covers s (by rw [order_moveGraph]; omega) lt

/-! ### Matchings of the columns -/

/-- Distinct numbers below a bound, as many as the bound, are all of them. -/
lemma map_perm_range {items : List Nat} {f : Nat → Nat} {n : Nat} (length : items.length = n)
    (nodup : items.Nodup) (lt : ∀ x ∈ items, f x < n)
    (inj : ∀ x ∈ items, ∀ y ∈ items, f x = f y → x = y) : items.map f ~ List.range n := by
  have sub : items.map f ⊆ List.range n := by
    intro y mem
    obtain ⟨x, memX, rfl⟩ := List.mem_map.mp mem
    exact List.mem_range.mpr (lt x memX)
  exact ((nodup.map_on inj).subperm sub).perm_of_length_le (by simp [length])

section Matched

variable {mates : Mates} (matching : (moveGraph columns moves).IsMatching mates)
include matching

/-- The partner of a source stands for a move. -/
lemma move_of_partner {s w : Nat} (lt : s < columns) (found : mates.find? s = some w) :
    ∃ d < columns, w = columns + d ∧ (s, d) ∈ moves := by
  obtain ⟨s', _, d, ltD, mem, ⟨rfl, rfl⟩ | ⟨rfl, _⟩⟩ := mem_neighbours.mp (matching.edge found)
  · exact ⟨d, ltD, rfl, mem⟩
  · omega

/-- If every source has a partner, every source gets a destination of its own. -/
lemma exists_destinations (all : ∀ s < columns, ∃ w, mates.find? s = some w) :
    ∃ partner : Nat → Nat,
      (∀ s < columns, mates.find? s = some (columns + partner s) ∧ (s, partner s) ∈ moves) ∧
      (List.range columns).map partner ~ List.range columns := by
  have partners : ∀ s < columns, ∃ d,
      mates.find? s = some (columns + d) ∧ d < columns ∧ (s, d) ∈ moves := by
    intro s lt
    obtain ⟨w, found⟩ := all s lt
    obtain ⟨d, ltD, rfl, mem⟩ := move_of_partner matching lt found
    exact ⟨d, found, ltD, mem⟩
  choose! partner found ltD mem using partners
  refine ⟨partner, fun s lt => ⟨found s lt, mem s lt⟩, ?_⟩
  refine map_perm_range List.length_range List.nodup_range ?_ ?_
  · exact fun s inRange => ltD s (List.mem_range.mp inRange)
  · intro s inRange s' inRange' same
    have back := matching.symm (found s (List.mem_range.mp inRange))
    rw [same, matching.symm (found s' (List.mem_range.mp inRange'))] at back
    exact (Option.some.inj back).symm

end Matched

/-! ### Rounds -/

/-- A source with a partner takes its move out, and the other sources go on with what is left. -/
lemma matchColumns_of_partner (round : Nat) {mates : Mates} {s d : Nat} {rest : List Nat}
    (found : mates.find? s = some (columns + d)) (mem : (s, d) ∈ moves) :
    matchColumns columns round mates (s :: rest) moves =
      (matchColumns columns round mates rest (moves.erase (s, d))).map
        fun result => (d :: result.1, result.2) := by
  rw [matchColumns, found]
  simp only [Nat.le_add_right, if_true, Nat.add_sub_cancel_left, takeMove, mem]
  rfl

/-- Taking out the move of one source leaves those of the others. -/
lemma mem_erase_of_source {s s' d d' : Nat} {rest : List Nat} (notMem : s ∉ rest) (mem : s' ∈ rest)
    (inMoves : (s', d') ∈ moves) : (s', d') ∈ moves.erase (s, d) := by
  refine (List.mem_erase_of_ne ?_).mpr inMoves
  intro same
  obtain rfl : s' = s := congrArg Prod.fst same
  exact notMem mem

/-- Matching columns takes the matched moves out. -/
lemma matchColumns_eq (round : Nat) {mates : Mates} {partner : Nat → Nat} {sources : List Nat}
    (nodup : sources.Nodup)
    (matched : ∀ s ∈ sources, mates.find? s = some (columns + partner s) ∧ (s, partner s) ∈ moves) :
    ∃ left, matchColumns columns round mates sources moves = .ok (sources.map partner, left) ∧
      moves ~ sources.map (fun s => (s, partner s)) ++ left := by
  induction sources generalizing moves with
  | nil => exact ⟨moves, rfl, .refl moves⟩
  | cons s rest ih =>
    obtain ⟨found, mem⟩ := matched s List.mem_cons_self
    obtain ⟨notMem, nodup⟩ := List.nodup_cons.mp nodup
    have others : ∀ s' ∈ rest, mates.find? s' = some (columns + partner s') ∧
        (s', partner s') ∈ moves.erase (s, partner s) := by
      intro s' mem'
      obtain ⟨found', inMoves⟩ := matched s' (List.mem_cons_of_mem s mem')
      exact ⟨found', mem_erase_of_source notMem mem' inMoves⟩
    obtain ⟨left, run, perm⟩ := ih nodup others
    refine ⟨left, ?_, ?_⟩
    · rw [matchColumns_of_partner round found mem, run]
      rfl
    · exact (List.perm_cons_erase mem).trans (perm.cons (s, partner s))

/-- A round that succeeds takes the move of the first source to its partner, and goes on with the rest. -/
lemma matchColumns_cons {round source : Nat} {mates : Mates} {sources destinations : List Nat}
    {left : List ColumnMove}
    (run : matchColumns columns round mates (source :: sources) moves = .ok (destinations, left)) :
    ∃ mate, mates.find? source = some mate ∧ columns ≤ mate ∧
      ∃ next rest, takeMove moves (source, mate - columns) = .ok next ∧
        matchColumns columns round mates sources next = .ok (rest, left) ∧
        destinations = (mate - columns) :: rest := by
  rw [matchColumns] at run
  split at run
  · next mate found =>
    split at run
    · next le =>
      obtain ⟨next, taken, run⟩ := Checked.bind_eq_ok.mp run
      obtain ⟨⟨rest, last⟩, matched, run⟩ := Checked.bind_eq_ok.mp run
      cases run
      exact ⟨mate, found, le, next, rest, Failure.ofChecked_eq_ok.mp taken, matched, rfl⟩
    · cases run
  · cases run

/-- A round in which every source has a partner takes one move out of each column, to different columns. -/
lemma matchColumns_of_all (round : Nat) {mates : Mates}
    (matching : (moveGraph columns moves).IsMatching mates)
    (all : ∀ s < columns, ∃ w, mates.find? s = some w) :
    ∃ destinations left, matchColumns columns round mates (List.range columns) moves
        = .ok (destinations, left) ∧
      destinations ~ List.range columns ∧ moves ~ (List.range columns).zip destinations ++ left := by
  obtain ⟨partner, found, onto⟩ := exists_destinations matching all
  obtain ⟨left, run, perm⟩ := matchColumns_eq round List.nodup_range
    (fun s mem => found s (List.mem_range.mp mem))
  refine ⟨_, left, run, onto, ?_⟩
  have zipped : (List.range columns).zip ((List.range columns).map partner)
      = (List.range columns).map fun s => (s, partner s) := by
    simpa using List.zip_map' (f := id) (g := partner) (l := List.range columns)
  rwa [zipped]

/-- A round of matching leaves regular moves behind. -/
lemma Regular.round (regular : Regular columns (k + 1) moves) (round : Nat) :
    ∃ destinations left, matchColumns columns round (moveGraph columns moves).maximumMatching
        (List.range columns) moves = .ok (destinations, left) ∧
      destinations ~ List.range columns ∧ moves ~ (List.range columns).zip destinations ++ left ∧
      Regular columns k left := by
  obtain ⟨destinations, left, run, onto, perm⟩ := matchColumns_of_all round
    (maximumMatching_isMatching bipartite_moveGraph) fun s lt => regular.exists_partner lt
  have length : (List.range columns).length = destinations.length := onto.length_eq.symm
  have fst := perm.map Prod.fst
  have snd := perm.map Prod.snd
  rw [List.map_append, List.map_fst_zip (Nat.le_of_eq length)] at fst
  rw [List.map_append, List.map_snd_zip (Nat.le_of_eq length.symm)] at snd
  refine ⟨destinations, left, run, onto, perm, ?_, ?_, ?_⟩
  · exact fun move mem => regular.within move (perm.mem_iff.mpr (List.mem_append_right _ mem))
  · intro c lt
    have := regular.leaving c lt
    rw [fst.count_eq, List.count_append, List.count_range, if_pos lt] at this
    omega
  · intro c lt
    have := regular.arriving c lt
    rw [snd.count_eq, List.count_append, onto.count_eq, List.count_range, if_pos lt] at this
    omega

/-- Regular moves split into as many matchings as leave each column. -/
theorem Regular.matchingRounds_eq (regular : Regular columns k moves) (round : Nat) :
    ∃ matchings, matchingRounds columns k round moves = .ok matchings ∧ matchings.length = k ∧
      (∀ destinations ∈ matchings, destinations ~ List.range columns) ∧
      moves ~ matchings.flatMap (List.range columns).zip := by
  induction k generalizing moves round with
  | zero =>
    refine ⟨[], rfl, rfl, nofun, ?_⟩
    suffices empty : moves = [] by simp [empty]
    apply List.eq_nil_iff_forall_not_mem.mpr
    intro move mem
    have none := regular.leaving move.1 (regular.within move mem).1
    exact List.count_eq_zero.mp none (List.mem_map_of_mem mem)
  | succ k ih =>
    obtain ⟨destinations, left, run, onto, perm, regular'⟩ := regular.round round
    obtain ⟨matchings, rest, length, perms, split⟩ := ih regular' (round + 1)
    refine ⟨destinations :: matchings, ?_, by rw [List.length_cons, length], ?_, ?_⟩
    · rw [matchingRounds]
      simp only [run, rest, bind, Except.bind, pure, Except.pure]
    · intro ds mem
      rcases List.mem_cons.mp mem with rfl | mem
      · exact onto
      · exact perms ds mem
    · rw [List.flatMap_cons]
      exact perm.trans (split.append_left _)

/-! ### Matchings for a permutation of the cells -/

variable {grid : Grid} {rows d : Nat}

/-- A function sends each column to one place. -/
lemma count_graph {g : Nat → Nat} (lt : c < columns) :
    ((List.range columns).map fun p => (p, g p)).count (c, d) = if g c = d then 1 else 0 := by
  have nodup : ((List.range columns).map fun p => (p, g p)).Nodup :=
    List.nodup_range.map fun p q same => congrArg Prod.fst same
  split
  case isTrue same =>
    subst same
    exact List.count_eq_one_of_mem nodup (List.mem_map.mpr ⟨c, List.mem_range.mpr lt, rfl⟩)
  case isFalse differ =>
    apply List.count_eq_zero_of_not_mem
    intro mem
    obtain ⟨p, _, same⟩ := List.mem_map.mp mem
    obtain ⟨rfl, rfl⟩ := Prod.mk.inj same
    exact differ rfl

/-- The cells with their columns, row by row: one of each row is in a given column. -/
lemma count_cells {f : Nat → Nat} (lt : c < columns) :
    ((List.range (rows * columns)).map fun p => (p % columns, f p)).count (c, d)
      = ((List.range rows).map fun r => f (r * columns + c)).count d := by
  induction rows with
  | zero => simp
  | succ rows ih =>
    have row : ((List.range columns).map fun p => ((rows * columns + p) % columns,
        f (rows * columns + p))) = (List.range columns).map fun p => (p, f (rows * columns + p)) := by
      refine List.map_congr_left fun p mem => ?_
      rw [Nat.mul_comm rows, Nat.mul_add_mod, Nat.mod_eq_of_lt (List.mem_range.mp mem)]
    rw [Nat.succ_mul, List.range_add, List.map_append, List.count_append, ih, List.map_map,
      List.range_succ, List.map_append, List.count_append, List.map_singleton, List.count_singleton]
    congr 1
    refine (congrArg (List.count (c, d)) row).trans ?_
    rw [count_graph lt]
    simp

/-- Every column has as many cells as there are rows. -/
lemma count_column (lt : c < columns) :
    ((List.range (rows * columns)).map (· % columns)).count c = rows := by
  have pairs : (((List.range (rows * columns)).map (· % columns)).map (·, 0)).count (c, 0)
      = ((List.range rows).map fun _ => 0).count 0 := by
    rw [List.map_map]
    exact count_cells lt
  have inj : Function.Injective fun column : Nat => (column, 0) :=
    fun p q same => congrArg Prod.fst same
  rw [← List.count_map_of_injective _ _ inj, pairs]
  simp

variable {targets : Nat → Nat}

/-- The contents of a permutation's cells move regularly between columns. -/
lemma Valid.regular (valid : grid.Valid)
    (perm : (List.range (grid.rows * grid.columns)).map targets ~
      List.range (grid.rows * grid.columns)) :
    Regular grid.columns grid.rows ((List.range (grid.rows * grid.columns)).map fun p =>
      (p % grid.columns, targets p % grid.columns)) := by
  refine ⟨?_, ?_, ?_⟩
  · intro move mem
    obtain ⟨p, _, rfl⟩ := List.mem_map.mp mem
    exact ⟨Nat.mod_lt _ valid.columns_pos, Nat.mod_lt _ valid.columns_pos⟩
  · intro c lt
    rw [List.map_map]
    exact count_column lt
  · intro c lt
    have columns := perm.map (· % grid.columns)
    rw [List.map_map] at columns ⊢
    exact (columns.count_eq c).trans (count_column lt)

/-- What each cell contributes to the moves. -/
lemma columnMoves_eq_mapM (positive : 0 < grid.columns) (finalColumns : List Nat) :
    grid.columnMoves finalColumns = finalColumns.zipIdx.mapM fun cell =>
      if cell.1 < grid.columns then .ok (cell.2 % UInt32.size % grid.columns, cell.1)
      else .error (.error (.matching (.outsideGrid cell.1))) := by
  simp only [columnMoves, coordinates, if_neg (Nat.ne_of_gt positive), Failure.ofChecked]
  rfl

/-- Destinations that are columns give one move for each cell. -/
lemma columnMoves_eq (positive : 0 < grid.columns) {f : Nat → Nat} {n : Nat}
    (within : ∀ p < n, f p < grid.columns) :
    grid.columnMoves ((List.range n).map f)
      = .ok ((List.range n).map fun p => (p % UInt32.size % grid.columns, f p)) := by
  have zipped : ((List.range n).map f).zipIdx = (List.range n).map fun p => (f p, p) := by
    apply List.ext_getElem
    · simp
    · intro i _ _
      simp
  rw [columnMoves_eq_mapM positive, zipped,
    Checked.mapM_eq_ok (g := fun cell => (cell.2 % UInt32.size % grid.columns, cell.1)), List.map_map]
  · rfl
  · intro cell mem
    obtain ⟨p, inRange, rfl⟩ := List.mem_map.mp mem
    exact if_pos (within p (List.mem_range.mp inRange))

/-- On a grid whose cells can be numbered, no cell is taken for another. -/
lemma Valid.columnMoves_eq (valid : grid.Valid) {f : Nat → Nat}
    (within : ∀ p < grid.rows * grid.columns, f p < grid.columns) :
    grid.columnMoves ((List.range (grid.rows * grid.columns)).map f)
      = .ok ((List.range (grid.rows * grid.columns)).map fun p => (p % grid.columns, f p)) := by
  rw [Grid.columnMoves_eq valid.columns_pos within]
  congr 1
  apply List.map_congr_left
  intro p mem
  rw [Nat.mod_eq_of_lt ((List.mem_range.mp mem).trans valid.small : p < UInt32.size)]

/-- What leaves a column, matching by matching. -/
lemma count_matchings {matchings : List (List Nat)} (lt : c < columns)
    (perms : ∀ destinations ∈ matchings, destinations ~ List.range columns) :
    (matchings.flatMap (List.range columns).zip).count (c, d)
      = (matchings.map (·.getD c 0)).count d := by
  induction matchings with
  | nil => rfl
  | cons ds rest ih =>
    have length : ds.length = columns := by
      rw [(perms ds List.mem_cons_self).length_eq, List.length_range]
    have graph : (List.range columns).zip ds = (List.range columns).map fun p => (p, ds.getD p 0) := by
      apply List.ext_getElem
      · simp [length]
      · intro i inZip _
        have lt : i < ds.length := by
          rw [List.length_zip] at inZip
          exact Nat.lt_of_lt_of_le inZip (Nat.min_le_right _ _)
        simp [List.getElem?_eq_getElem lt]
    rw [List.flatMap_cons, List.count_append, graph, count_graph lt,
      ih fun ds' mem => perms ds' (List.mem_cons_of_mem ds mem), List.map_cons, List.count_cons,
      Nat.add_comm]
    simp

/-- Matchings for the given targets: one per row, each a permutation of the columns, and each column
sends its contents where the matchings say. -/
structure Splits (grid : Grid) (targets : Nat → Nat) (matchings : List (List Nat)) : Prop where
  length_eq : matchings.length = grid.rows
  perm : ∀ destinations ∈ matchings, destinations ~ List.range grid.columns
  columns : ∀ c < grid.columns, ((List.range grid.rows).map fun r =>
    targets (r * grid.columns + c) % grid.columns) ~ matchings.map (·.getD c 0)

/-- The contents of a permutation's cells split into one matching per row. -/
theorem Valid.rowMatchings_eq (valid : grid.Valid)
    (perm : (List.range (grid.rows * grid.columns)).map targets ~
      List.range (grid.rows * grid.columns)) :
    ∃ matchings, grid.rowMatchings ((List.range (grid.rows * grid.columns)).map fun p =>
        targets p % grid.columns) = .ok matchings ∧ Splits grid targets matchings := by
  obtain ⟨matchings, run, length, perms, split⟩ := (valid.regular perm).matchingRounds_eq 0
  refine ⟨matchings, ?_, length, perms, ?_⟩
  · rw [rowMatchings, valid.columnMoves_eq fun p _ => Nat.mod_lt _ valid.columns_pos]
    exact run
  · intro c lt
    apply List.perm_iff_count.mpr
    intro d
    rw [← count_matchings lt perms, ← split.count_eq, count_cells lt]

end QubitRouting.Grid
