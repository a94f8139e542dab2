import Mathlib.Data.List.Duplicate
import QubitRouting.Proofs.Checked
import QubitRouting.Proofs.Collections
import QubitRouting.Router

/-!
# Tables of hardware qubits

Without a table the hardware qubits of a grid are numbered like its positions. A router takes a table
exactly if that lists every position once and no hardware qubit twice, in whatever order the pairs come.
Then it numbers its positions as listed. Otherwise the cause that it reports is true of the table.
-/

namespace QubitRouting

/-- Every position below a bound is listed once, and no hardware qubit twice. -/
structure Renumbers (n : Nat) (pairs : List (Nat × QubitId)) : Prop where
  positions : (pairs.map Prod.fst).Perm (List.range n)
  qubits : (pairs.map Prod.snd).Nodup

/-- What is reported about a table is true of it. -/
def TableError.Explains (n : Nat) (pairs : List (Nat × QubitId)) : TableError → Prop
  | outside position numPositions =>
    numPositions = n ∧ n ≤ position ∧ position ∈ pairs.map Prod.fst
  | repeatedPosition position => List.Duplicate position (pairs.map Prod.fst)
  | repeatedQubit qubit => List.Duplicate qubit (pairs.map Prod.snd)
  | missing position => position < n ∧ position ∉ pairs.map Prod.fst

variable {n : Nat} {pairs done rest : List (Nat × QubitId)} {cause : TableError}

/-- A table about which something is reported does not renumber the positions. -/
lemma TableError.Explains.not_renumbers (explains : cause.Explains n pairs) : ¬Renumbers n pairs := by
  rintro ⟨positions, qubits⟩
  cases cause with
  | outside position numPositions =>
    obtain ⟨_, le, mem⟩ := explains
    exact absurd (List.mem_range.mp (positions.mem_iff.mp mem)) (Nat.not_lt.mpr le)
  | repeatedPosition position =>
    exact explains.not_nodup (positions.nodup_iff.mpr List.nodup_range)
  | repeatedQubit qubit => exact explains.not_nodup qubits
  | missing position => exact explains.2 (positions.mem_iff.mpr (List.mem_range.mpr explains.1))

namespace GridRouter

/-- The position of a hardware qubit is where that qubit is listed. -/
def Inverse (router : GridRouter) : Prop :=
  ∀ p q, router.positions.find? q = some p ↔ router.hardware[p]? = some q

/-- Without a table the hardware qubits are numbered like the positions. -/
lemma inverse_ofGrid {grid : Grid} {cost : Grid.Cost} {steps : Nat} {seed : UInt64} {router : GridRouter}
    (built : ofGrid grid cost steps seed = .ok router) :
    router.grid = grid ∧ router.hardware.size = grid.rows * grid.columns ∧ router.Inverse := by
  obtain ⟨numQubits, counted, built⟩ := Checked.bind_eq_ok.mp built
  cases built
  rw [Grid.numQubits, word32] at counted
  split at counted
  case isFalse => cases counted
  case isTrue small =>
    cases counted
    -- numbers that fit a word are apart as hardware qubits
    have nodup : (((List.range (grid.rows * grid.columns)).map fun p => (QubitId.ofNat p, p)).map
        Prod.fst).Nodup := by
      rw [List.map_map]
      refine List.nodup_range.map_on fun a memA b memB same => ?_
      rw [← QubitId.toNat_ofNat (Nat.lt_trans (List.mem_range.mp memA) small),
        ← QubitId.toNat_ofNat (Nat.lt_trans (List.mem_range.mp memB) small)]
      exact congrArg QubitId.toNat same
    refine ⟨rfl, by simp, ?_⟩
    intro p q
    rw [OrderedMap.find?_ofList_iff nodup, List.mem_map, List.getElem?_toArray, List.getElem?_map,
      Option.map_eq_some_iff]
    constructor
    · rintro ⟨p', mem, same⟩
      cases same
      exact ⟨p, List.getElem?_range (List.mem_range.mp mem), rfl⟩
    · rintro ⟨p', here, rfl⟩
      obtain ⟨inRange, rfl⟩ := List.getElem?_eq_some_iff.mp here
      rw [List.length_range] at inRange
      exact ⟨p, List.mem_range.mpr inRange, by rw [List.getElem_range]⟩

/-- The table holds exactly the pairs listed, none of which is in the way of another. -/
structure Table.Holds (n : Nat) (pairs : List (Nat × QubitId)) (table : Table) : Prop where
  hardware : ∀ {p q}, table.hardware.find? p = some q ↔ (p, q) ∈ pairs
  positions : ∀ {p q}, table.positions.find? q = some p ↔ (p, q) ∈ pairs
  lt : ∀ p ∈ pairs.map Prod.fst, p < n
  nodup : (pairs.map Prod.fst).Nodup
  qubits : (pairs.map Prod.snd).Nodup

/-- A value that comes again is listed twice. -/
lemma duplicate_of_mem {α β : Type} {f : α → β} {done rest : List α} {a : α} (mem : f a ∈ done.map f) :
    List.Duplicate (f a) ((done ++ a :: rest).map f) := by
  rw [List.duplicate_iff_sublist, List.map_append, List.map_cons]
  exact (List.singleton_sublist.mpr mem).append (List.singleton_sublist.mpr List.mem_cons_self)

/-- The empty table holds no pairs. -/
lemma Table.holds_empty (n : Nat) : ({} : Table).Holds n [] :=
  ⟨by simp, by simp, by simp, .nil, .nil⟩

section Holds

variable {table : Table} (holds : table.Holds n done)
include holds

/-- A position without an entry is one that is not listed. -/
lemma Table.Holds.hardware_eq_none {p : Nat} :
    table.hardware.find? p = none ↔ p ∉ done.map Prod.fst := by
  simp [Option.eq_none_iff_forall_ne_some, holds.hardware]

/-- A hardware qubit without an entry is one that is not listed. -/
lemma Table.Holds.positions_eq_none {q : QubitId} :
    table.positions.find? q = none ↔ q ∉ done.map Prod.snd := by
  simp [Option.eq_none_iff_forall_ne_some, holds.positions]

/-- A table with one more entry holds one more pair, if its position and its qubit are new. -/
lemma Table.Holds.insert {p : Nat} {q : QubitId} (lt : p < n) (freshPosition : p ∉ done.map Prod.fst)
    (freshQubit : q ∉ done.map Prod.snd) :
    (Table.mk (table.hardware.insert p q) (table.positions.insert q p)).Holds n (done ++ [(p, q)]) := by
  constructor
  · intro p' q'
    rw [OrderedMap.find?_insert_of_absent (holds.hardware_eq_none.mpr freshPosition), holds.hardware,
      List.mem_append, List.mem_singleton, Prod.mk.injEq]
  · intro p' q'
    rw [OrderedMap.find?_insert_of_absent (holds.positions_eq_none.mpr freshQubit), holds.positions,
      List.mem_append, List.mem_singleton, Prod.mk.injEq, and_comm (a := q' = q)]
  · rw [List.map_append]
    intro p' mem
    rcases List.mem_append.mp mem with mem | mem
    · exact holds.lt p' mem
    · obtain rfl := List.mem_singleton.mp mem
      exact lt
  · rw [List.map_append]
    exact holds.nodup.append (List.nodup_singleton p) (List.disjoint_singleton.mpr freshPosition)
  · rw [List.map_append]
    exact holds.qubits.append (List.nodup_singleton q) (List.disjoint_singleton.mpr freshQubit)

/-- One more pair is listed, or the cause why not is true whatever comes after it. -/
lemma Table.Holds.add (pair : Nat × QubitId) :
    (∃ grown, table.add n pair = .ok grown ∧ grown.Holds n (done ++ [pair])) ∨
      ∃ cause, table.add n pair = .error cause ∧ ∀ rest, cause.Explains n (done ++ pair :: rest) := by
  rw [Table.add, OrderedMap.contains, OrderedMap.contains]
  split
  case isTrue le =>
    refine .inr ⟨_, rfl, fun rest => ⟨rfl, le, ?_⟩⟩
    exact List.mem_map_of_mem (List.mem_append_right done List.mem_cons_self)
  case isFalse lt =>
    split
    case isTrue listed =>
      refine .inr ⟨_, rfl, fun rest => duplicate_of_mem ?_⟩
      by_contra fresh
      rw [holds.hardware_eq_none.mpr fresh] at listed
      cases listed
    case isFalse freshPosition =>
      rw [Option.not_isSome_iff_eq_none, holds.hardware_eq_none] at freshPosition
      split
      case isTrue listed =>
        refine .inr ⟨_, rfl, fun rest => duplicate_of_mem ?_⟩
        by_contra fresh
        rw [holds.positions_eq_none.mpr fresh] at listed
        cases listed
      case isFalse freshQubit =>
        rw [Option.not_isSome_iff_eq_none, holds.positions_eq_none] at freshQubit
        exact .inl ⟨_, rfl, holds.insert (Nat.lt_of_not_le lt) freshPosition freshQubit⟩

end Holds

/-- Adding pairs one after the other gives a table that holds them all, or a report that is true of them. -/
lemma Table.Holds.foldlM {table : Table} (holds : table.Holds n done) (rest : List (Nat × QubitId)) :
    (∃ full, rest.foldlM (Table.add n) table = .ok full ∧ full.Holds n (done ++ rest)) ∨
      ∃ cause, rest.foldlM (Table.add n) table = .error cause ∧ cause.Explains n (done ++ rest) := by
  induction rest generalizing table done with
  | nil =>
    rw [List.append_nil]
    exact .inl ⟨table, rfl, holds⟩
  | cons pair rest ih =>
    rw [List.foldlM_cons]
    rcases holds.add pair with ⟨grown, added, holds⟩ | ⟨cause, refused, explains⟩
    · have more := ih holds
      rw [List.append_assoc, List.singleton_append] at more
      rw [added]
      exact more
    · rw [refused]
      exact .inr ⟨cause, rfl, explains rest⟩

/-- A router that took a table: its positions are numbered as listed, and nothing else about it changed. -/
structure NumberedBy (router : GridRouter) (pairs : List (Nat × QubitId)) (numbered : GridRouter) : Prop where
  renumbers : Renumbers router.numQubits pairs
  same : ∃ hardware positions, numbered = { router with hardware, positions }
  size : numbered.hardware.size = router.hardware.size
  hardware : ∀ {p q}, numbered.hardware[p]? = some q ↔ (p, q) ∈ pairs
  positions : ∀ {p q}, numbered.positions.find? q = some p ↔ (p, q) ∈ pairs

/-- The two tables of a router that took a table are inverse. -/
lemma NumberedBy.inverse {router numbered : GridRouter} (numbering : router.NumberedBy pairs numbered) :
    numbered.Inverse :=
  fun _ _ => numbering.positions.trans numbering.hardware.symm

/-- The hardware qubits that were looked up position by position are those listed. -/
lemma Table.Holds.numberedBy {router : GridRouter} {table : Table} (holds : table.Holds router.numQubits pairs)
    {hardware : List QubitId} (listing : List.Forall₂ (fun p q => table.hardware.find? p = some q)
      (List.range router.numQubits) hardware) :
    router.NumberedBy pairs { router with hardware := hardware.toArray, positions := table.positions } := by
  have length : hardware.length = router.numQubits := by
    rw [← listing.length_eq, List.length_range]
  have here {p : Nat} (lt : p < hardware.length) : table.hardware.find? p = some hardware[p] := by
    have := (List.forall₂_iff_get.mp listing).2 p (by rwa [List.length_range, ← length]) lt
    simpa using this
  refine ⟨⟨?_, holds.qubits⟩, ⟨_, _, rfl⟩, ?_, ?_, holds.positions⟩
  · refine (List.perm_ext_iff_of_nodup holds.nodup List.nodup_range).mpr fun p => ?_
    rw [List.mem_range]
    refine ⟨holds.lt p, fun lt => ?_⟩
    rw [← length] at lt
    exact List.mem_map_of_mem (holds.hardware.mp (here lt))
  · rw [List.size_toArray, length]
    rfl
  · intro p q
    rw [← holds.hardware, List.getElem?_toArray]
    constructor
    · intro found
      obtain ⟨lt, rfl⟩ := List.getElem?_eq_some_iff.mp found
      exact here lt
    · intro found
      have lt : p < hardware.length := by
        rw [length]
        exact holds.lt p (List.mem_map_of_mem (holds.hardware.mp found))
      rw [List.getElem?_eq_getElem lt, ← here lt, found]

/-- A table is taken, or the cause why not is true. -/
lemma withTable_cases (router : GridRouter) (pairs : List (Nat × QubitId)) :
    (∃ numbered, router.withTable pairs = .ok numbered ∧ router.NumberedBy pairs numbered) ∨
      ∃ cause, router.withTable pairs = .error cause ∧ cause.Explains router.numQubits pairs := by
  rw [withTable]
  rcases (Table.holds_empty router.numQubits).foldlM pairs with ⟨table, listed, holds⟩ | ⟨cause, refused, explains⟩
  · rw [listed, Checked.ok_bind]
    generalize looked : (List.range router.numQubits).mapM (m := Except TableError) _ = result
    cases result with
    | error cause =>
      obtain ⟨p, mem, absent⟩ := Checked.exists_of_mapM_eq_error looked
      split at absent
      case h_1 => cases absent
      case h_2 none_found =>
        cases absent
        exact .inr ⟨_, rfl, List.mem_range.mp mem, holds.hardware_eq_none.mp none_found⟩
    | ok hardware =>
      refine .inl ⟨_, rfl, holds.numberedBy ((Checked.forall₂_of_mapM looked).imp fun p q found => ?_)⟩
      split at found
      case h_1 same =>
        cases found
        exact same
      case h_2 => cases found
  · rw [refused]
    exact .inr ⟨cause, rfl, explains⟩

/-- A router that takes a table is numbered as listed. -/
lemma numberedBy_of_withTable {router numbered : GridRouter} (taken : router.withTable pairs = .ok numbered) :
    router.NumberedBy pairs numbered := by
  rcases router.withTable_cases pairs with ⟨numbered, taken', numbering⟩ | ⟨cause, refused, _⟩
  · cases taken.symm.trans taken'
    exact numbering
  · cases taken.symm.trans refused

/-- A table is taken exactly if it lists every position once and no hardware qubit twice. -/
lemma exists_withTable_iff (router : GridRouter) (pairs : List (Nat × QubitId)) :
    (∃ numbered, router.withTable pairs = .ok numbered) ↔ Renumbers router.numQubits pairs := by
  constructor
  · rintro ⟨numbered, taken⟩
    exact (numberedBy_of_withTable taken).renumbers
  · intro renumbers
    rcases router.withTable_cases pairs with ⟨numbered, taken, _⟩ | ⟨cause, _, explains⟩
    · exact ⟨numbered, taken⟩
    · exact absurd renumbers explains.not_renumbers

end GridRouter

end QubitRouting
