import QubitRouting.Ranked

/-!
# Ordered sets

A finite set held as its members in ascending order. The order is part of the type, so two sets with
the same members are equal.
-/

namespace QubitRouting

/-- A finite set: members in strictly ascending order. -/
structure OrderedSet (K : Type) [Ranked K] where
  /-- The members, smallest first. -/
  toList : List K
  /-- Members ascend strictly, so none occurs twice. -/
  ascending : toList.Pairwise fun a b => rank a < rank b

namespace OrderedSet

variable {K : Type} [Ranked K]

/-- Put a member in its place, unless it is there already. -/
def insertMember (member : K) : List K → List K
  | [] => [member]
  | k :: rest =>
    if rank member < rank k then member :: k :: rest
    else if rank member = rank k then k :: rest
    else k :: insertMember member rest

/-- The member list after an insertion has the new member and the former ones. -/
theorem mem_insertMember {member k : K} {members : List K} :
    k ∈ insertMember member members ↔ k = member ∨ k ∈ members := by
  induction members with
  | nil => simp [insertMember]
  | cons head rest ih =>
    simp only [insertMember]
    split
    · simp
    · split
      · next same =>
        have : member = head := Ranked.rank_inj same
        subst this
        simp
      · simp only [List.mem_cons, ih]
        exact or_left_comm

/-- Inserting keeps the members in ascending order. -/
theorem ascending_insertMember (member : K) {members : List K}
    (h : members.Pairwise fun a b => rank a < rank b) :
    (insertMember member members).Pairwise fun a b => rank a < rank b := by
  induction members with
  | nil => simp [insertMember]
  | cons head rest ih =>
    obtain ⟨before, tail⟩ := List.pairwise_cons.mp h
    simp only [insertMember]
    split
    · next less =>
      refine List.pairwise_cons.mpr ⟨?_, h⟩
      intro k mem
      rcases List.mem_cons.mp mem with rfl | mem
      · exact less
      · exact Nat.lt_trans less (before k mem)
    · split
      · exact h
      · refine List.pairwise_cons.mpr ⟨?_, ih tail⟩
        intro k mem
        rcases mem_insertMember.mp mem with rfl | mem
        · omega
        · exact before k mem

/-- The set without members. -/
def empty : OrderedSet K := ⟨[], List.Pairwise.nil⟩

instance : EmptyCollection (OrderedSet K) := ⟨empty⟩

instance : Inhabited (OrderedSet K) := ⟨empty⟩

instance : Membership K (OrderedSet K) := ⟨fun set k => k ∈ set.toList⟩

instance [DecidableEq K] : DecidableEq (OrderedSet K) := fun a b =>
  if h : a.toList = b.toList then
    isTrue (by cases a; cases b; cases h; rfl)
  else
    isFalse fun same => h (congrArg toList same)

/-- Whether a value is a member. -/
def contains (set : OrderedSet K) (k : K) : Bool := set.toList.any fun member => rank member == rank k

/-- The test of membership decides it. -/
theorem contains_iff {set : OrderedSet K} {k : K} : set.contains k = true ↔ k ∈ set := by
  simp only [contains, List.any_eq_true, beq_iff_eq]
  constructor
  · rintro ⟨member, mem, same⟩
    exact Ranked.rank_inj same ▸ mem
  · intro mem
    exact ⟨k, mem, rfl⟩

/-- Add a member. -/
def insert (set : OrderedSet K) (k : K) : OrderedSet K :=
  ⟨insertMember k set.toList, ascending_insertMember k set.ascending⟩

/-- A set after an insertion has the new member and the former ones. -/
theorem mem_insert {set : OrderedSet K} {k member : K} :
    k ∈ set.insert member ↔ k = member ∨ k ∈ set := mem_insertMember

/-- Take a member out. -/
def erase (set : OrderedSet K) (k : K) : OrderedSet K :=
  ⟨set.toList.filter fun member => rank member != rank k, set.ascending.filter _⟩

/-- A set after an erasure has the former members but for the erased one. -/
theorem mem_erase {set : OrderedSet K} {k member : K} :
    k ∈ set.erase member ↔ k ∈ set ∧ k ≠ member := by
  simp only [Membership.mem, erase]
  refine List.mem_filter.trans (and_congr_right fun _ => ?_)
  rw [bne_iff_ne]
  exact not_congr Ranked.rank_eq_iff

/-- The number of members. -/
def size (set : OrderedSet K) : Nat := set.toList.length

/-- Whether there are no members. -/
def isEmpty (set : OrderedSet K) : Bool := set.toList.isEmpty

/-- The set of the values in a list. -/
def ofList (members : List K) : OrderedSet K := members.foldl insert empty

/-- The set with the values of a list added. -/
def insertAll (set : OrderedSet K) (members : List K) : OrderedSet K := members.foldl insert set

end OrderedSet

end QubitRouting
