import Mathlib.Data.List.Forall2
import Mathlib.Tactic
import QubitRouting.Layout
import QubitRouting.OrderedSet

/-!
# Corresponding collections

Two collections correspond if their members do, by a relation that keeps their order. Sets and maps list
their members in order, so every operation on them carries corresponding arguments to corresponding
results, and so does every operation on layouts.
-/

namespace QubitRouting

open List (Forall₂)

/-- Optional values correspond if both are missing, or both are there and correspond. -/
lemma cases_of_rel {α β : Type} {S : α → β → Prop} {one : Option α} {other : Option β}
    (rel : Option.Rel S one other) :
    one = none ∧ other = none ∨ ∃ v w, one = some v ∧ other = some w ∧ S v w := by
  cases rel with
  | none => exact .inl ⟨rfl, rfl⟩
  | some here => exact .inr ⟨_, _, rfl, rfl, here⟩

/-- Options with equal contents are equal. -/
lemma eq_of_rel {α : Type} {one other : Option α} (rel : Option.Rel Eq one other) : one = other := by
  cases rel with
  | none => rfl
  | some same => rw [same]

/-! ### Lists -/

section Lists

variable {α β γ δ : Type} {S : α → β → Prop} {items : List α} {others : List β}

/-- Corresponding lists have corresponding first items. -/
lemma head?_rel (listed : Forall₂ S items others) : Option.Rel S items.head? others.head? := by
  cases listed with
  | nil => exact .none
  | cons head _ => exact .some head

/-- Corresponding lists have corresponding last items. -/
lemma getLast?_rel (listed : Forall₂ S items others) :
    Option.Rel S items.getLast? others.getLast? := by
  rw [← List.head?_reverse, ← List.head?_reverse]
  exact head?_rel (List.rel_reverse listed)

/-- Functions with corresponding values make corresponding lists. -/
lemma map_rel {f : γ → α} {g : γ → β} (each : ∀ item, S (f item) (g item)) (list : List γ) :
    Forall₂ S (list.map f) (list.map g) := by
  rw [List.forall₂_map_left_iff, List.forall₂_map_right_iff, List.forall₂_same]
  exact fun item _ => each item

/-- A test that passes alike leaves corresponding lists. -/
lemma filter_rel {p : α → Bool} {p' : β → Bool} (listed : Forall₂ S items others)
    (same : ∀ item other, S item other → p item = p' other) :
    Forall₂ S (items.filter p) (others.filter p') := by
  refine List.rel_filter ?_ listed
  intro item other here
  dsimp only
  rw [same item other here]

/-- A test that passes alike passes on all of corresponding lists alike. -/
lemma all_eq_of_rel {p : α → Bool} {p' : β → Bool} (listed : Forall₂ S items others)
    (same : ∀ item other, S item other → p item = p' other) : items.all p = others.all p' := by
  induction listed with
  | nil => rfl
  | cons head _ ih => rw [List.all_cons, List.all_cons, same _ _ head, ih]

/-- Functions that agree on what corresponds make the same list. -/
lemma map_eq_of_rel {f : α → γ} {g : β → γ} (listed : Forall₂ S items others)
    (same : ∀ item ∈ items, ∀ other, S item other → f item = g other) : items.map f = others.map g := by
  induction listed with
  | nil => rfl
  | cons head _ ih =>
    rw [List.map_cons, List.map_cons, same _ List.mem_cons_self _ head,
      ih fun item mem => same item (List.mem_cons_of_mem _ mem)]

/-- Corresponding items are at the same places. -/
lemma zipIdx_rel (listed : Forall₂ S items others) (start : Nat) :
    Forall₂ (fun item other => S item.1 other.1 ∧ item.2 = other.2) (items.zipIdx start)
      (others.zipIdx start) := by
  induction listed generalizing start with
  | nil => exact .nil
  | cons head _ ih => exact .cons ⟨head, rfl⟩ (ih _)

/-- The first results found in corresponding lists correspond. -/
lemma findSome?_rel {T : γ → δ → Prop} {f : α → Option γ} {g : β → Option δ} (listed : Forall₂ S items others)
    (each : ∀ item other, S item other → Option.Rel T (f item) (g other)) :
    Option.Rel T (items.findSome? f) (others.findSome? g) := by
  induction listed with
  | nil => exact .none
  | cons head _ ih =>
    rw [List.findSome?_cons, List.findSome?_cons]
    obtain ⟨missing, missing'⟩ | ⟨v, w, found, found', here⟩ := cases_of_rel (each _ _ head)
    · rw [missing, missing']
      exact ih
    · rw [found, found']
      exact .some here

/-- Writing corresponding items at a place keeps lists corresponding. -/
lemma set_rel {item : α} {other : β} (listed : Forall₂ S items others) (here : S item other) (i : Nat) :
    Forall₂ S (items.set i item) (others.set i other) := by
  induction listed generalizing i with
  | nil => exact .nil
  | cons head rest ih =>
    cases i with
    | zero => exact .cons here rest
    | succ i => exact .cons head (ih i)

/-- Taking out the items at a place keeps lists corresponding. -/
lemma eraseIdx_rel (listed : Forall₂ S items others) (i : Nat) :
    Forall₂ S (items.eraseIdx i) (others.eraseIdx i) := by
  induction listed generalizing i with
  | nil => exact .nil
  | cons head rest ih =>
    cases i with
    | zero => exact rest
    | succ i => exact .cons head (ih i)

end Lists

/-! ### Computations -/

section Results

variable {ε ε' α β γ δ : Type} {E : ε → ε' → Prop} {S : α → β → Prop} {T : γ → δ → Prop}

/-- Computations that both fail, or both give results, that correspond. -/
inductive ResultRel (E : ε → ε' → Prop) (S : α → β → Prop) : Except ε α → Except ε' β → Prop
  | error {e : ε} {e' : ε'} : E e e' → ResultRel E S (.error e) (.error e')
  | ok {a : α} {b : β} : S a b → ResultRel E S (.ok a) (.ok b)

namespace ResultRel

/-- Computations that correspond in both parts correspond. -/
lemma bind {one : Except ε α} {other : Except ε' β} (rel : ResultRel E S one other) {f : α → Except ε γ}
    {g : β → Except ε' δ} (next : ∀ a b, S a b → ResultRel E T (f a) (g b)) :
    ResultRel E T (one >>= f) (other >>= g) := by
  cases rel with
  | error here => exact .error here
  | ok here => exact next _ _ here

/-- Computations that correspond on each item correspond on lists. -/
lemma mapM {f : α → Except ε γ} {g : β → Except ε' δ} {items : List α} {others : List β}
    (listed : Forall₂ S items others) (each : ∀ item other, S item other → ResultRel E T (f item) (g other)) :
    ResultRel E (Forall₂ T) (items.mapM f) (others.mapM g) := by
  induction listed with
  | nil => exact .ok .nil
  | cons head _ ih =>
    rw [List.mapM_cons, List.mapM_cons]
    refine (each _ _ head).bind fun _ _ first => ?_
    exact ih.bind fun _ _ rest => .ok (.cons first rest)

end ResultRel

end Results

/-! ### Keys -/

section Keys

variable {K L : Type} [Ranked K] [Ranked L] {R : K → L → Prop} {a b : K} {x y : L}

/-- What corresponds is ordered alike. -/
structure KeepsOrder (R : K → L → Prop) : Prop where
  lt_iff : ∀ {a b x y}, R a x → R b y → (rank a < rank b ↔ rank x < rank y)

namespace KeepsOrder

/-- What corresponds is of equal rank alike. -/
lemma rank_eq_iff (keeps : KeepsOrder R) (first : R a x) (second : R b y) :
    rank a = rank b ↔ rank x = rank y := by
  have less := keeps.lt_iff first second
  have more := keeps.lt_iff second first
  omega

/-- What corresponds is equal alike. -/
lemma eq_iff (keeps : KeepsOrder R) (first : R a x) (second : R b y) : a = b ↔ x = y := by
  rw [← Ranked.rank_eq_iff, keeps.rank_eq_iff first second, Ranked.rank_eq_iff]

/-- What corresponds compares alike. -/
lemma beq_eq (keeps : KeepsOrder R) (first : R a x) (second : R b y) :
    (rank a == rank b) = (rank x == rank y) := by
  rw [Bool.eq_iff_iff, beq_iff_eq, beq_iff_eq, keeps.rank_eq_iff first second]

/-- A correspondence that keeps the order is one to one. -/
lemma biUnique (keeps : KeepsOrder R) : Relator.BiUnique R := by
  constructor
  · intro a x b first second
    exact (keeps.eq_iff first second).mpr rfl
  · intro a x y first second
    exact (keeps.eq_iff first second).mp rfl

/-- What corresponds is a member of corresponding lists alike. -/
lemma mem_iff (keeps : KeepsOrder R) (first : R a x) {items : List K} {others : List L}
    (listed : Forall₂ R items others) : a ∈ items ↔ x ∈ others :=
  List.rel_mem keeps.biUnique first listed

/-- Equality keeps the order. -/
protected lemma eq : KeepsOrder (Eq : K → K → Prop) := by
  constructor
  rintro a b _ _ rfl rfl
  rfl

end KeepsOrder

/-! ### Sets -/

namespace OrderedSet

variable {set more : OrderedSet K} {other others : OrderedSet L}

/-- Corresponding members. -/
def Rel (R : K → L → Prop) (set : OrderedSet K) (other : OrderedSet L) : Prop :=
  Forall₂ R set.toList other.toList

namespace Rel

/-- Empty sets correspond. -/
protected lemma empty : Rel R ∅ ∅ := .nil

/-- Inserting corresponding items into corresponding lists makes corresponding lists. -/
lemma insertMember (keeps : KeepsOrder R) (new : R a x) {members : List K} {others : List L}
    (listed : Forall₂ R members others) :
    Forall₂ R (OrderedSet.insertMember a members) (OrderedSet.insertMember x others) := by
  induction listed with
  | nil => exact .cons new .nil
  | cons head rest ih =>
    simp only [OrderedSet.insertMember, keeps.lt_iff new head, keeps.rank_eq_iff new head]
    split
    · exact .cons new (.cons head rest)
    · split
      · exact .cons head rest
      · exact .cons head ih

/-- Inserting corresponding members keeps sets corresponding. -/
lemma insert (keeps : KeepsOrder R) (rel : Rel R set other) (new : R a x) :
    Rel R (set.insert a) (other.insert x) :=
  insertMember keeps new rel

/-- Erasing corresponding members keeps sets corresponding. -/
lemma erase (keeps : KeepsOrder R) (rel : Rel R set other) (old : R a x) :
    Rel R (set.erase a) (other.erase x) := by
  refine List.rel_filter ?_ rel
  intro b y here
  dsimp only
  rw [bne_iff_ne, bne_iff_ne]
  exact not_congr (keeps.rank_eq_iff here old)

/-- Corresponding sets contain what corresponds alike. -/
lemma contains_eq (keeps : KeepsOrder R) (rel : Rel R set other) (here : R a x) :
    set.contains a = other.contains x := by
  rw [Bool.eq_iff_iff, contains_iff, contains_iff]
  exact keeps.mem_iff here rel

/-- Corresponding sets are of the same size. -/
lemma size_eq (rel : Rel R set other) : set.size = other.size := rel.length_eq

/-- Corresponding sets are empty alike. -/
lemma isEmpty_eq (rel : Rel R set other) : set.isEmpty = other.isEmpty := by
  obtain ⟨members, _⟩ := set
  obtain ⟨partners, _⟩ := other
  cases (rel : Forall₂ R members partners) <;> rfl

/-- Inserting corresponding lists keeps sets corresponding. -/
lemma insertAll (keeps : KeepsOrder R) (rel : Rel R set other) {members : List K} {others : List L}
    (listed : Forall₂ R members others) : Rel R (set.insertAll members) (other.insertAll others) :=
  List.rel_foldl (fun _ _ rel _ _ new => rel.insert keeps new) rel listed

/-- Erasing corresponding lists keeps sets corresponding. -/
lemma foldl_erase (keeps : KeepsOrder R) (rel : Rel R set other) {members : List K} {others : List L}
    (listed : Forall₂ R members others) :
    Rel R (members.foldl OrderedSet.erase set) (others.foldl OrderedSet.erase other) :=
  List.rel_foldl (fun _ _ rel _ _ old => rel.erase keeps old) rel listed

end Rel

end OrderedSet

/-! ### Maps -/

namespace OrderedMap

variable {V W : Type} {S : V → W → Prop} {map : OrderedMap K V} {other : OrderedMap L W} {v : V} {w : W}

/-- Corresponding values at corresponding keys. -/
def Rel (R : K → L → Prop) (S : V → W → Prop) (map : OrderedMap K V) (other : OrderedMap L W) : Prop :=
  Forall₂ (fun entry partner => R entry.1 partner.1 ∧ S entry.2 partner.2) map.entries other.entries

namespace Rel

/-- Empty maps correspond. -/
protected lemma empty : Rel R S (∅ : OrderedMap K V) ∅ := .nil

/-- Inserting corresponding entries into corresponding lists makes corresponding lists. -/
lemma insertEntry (keeps : KeepsOrder R) (key : R a x) (value : S v w) {entries : List (K × V)}
    {partners : List (L × W)}
    (listed : Forall₂ (fun entry partner => R entry.1 partner.1 ∧ S entry.2 partner.2) entries partners) :
    Forall₂ (fun entry partner => R entry.1 partner.1 ∧ S entry.2 partner.2)
      (OrderedMap.insertEntry a v entries) (OrderedMap.insertEntry x w partners) := by
  induction listed with
  | nil => exact .cons ⟨key, value⟩ .nil
  | cons head rest ih =>
    simp only [OrderedMap.insertEntry, keeps.lt_iff key head.1, keeps.rank_eq_iff key head.1]
    split
    · exact .cons ⟨key, value⟩ (.cons head rest)
    · split
      · exact .cons ⟨key, value⟩ rest
      · exact .cons head ih

/-- Inserting corresponding values at corresponding keys keeps maps corresponding. -/
lemma insert (keeps : KeepsOrder R) (rel : Rel R S map other) (key : R a x) (value : S v w) :
    Rel R S (map.insert a v) (other.insert x w) :=
  insertEntry keeps key value rel

/-- Erasing corresponding keys keeps maps corresponding. -/
lemma erase (keeps : KeepsOrder R) (rel : Rel R S map other) (key : R a x) :
    Rel R S (map.erase a) (other.erase x) := by
  refine List.rel_filter ?_ rel
  intro entry partner here
  dsimp only
  rw [bne_iff_ne, bne_iff_ne]
  exact not_congr (keeps.rank_eq_iff here.1 key)

/-- Corresponding values are found at corresponding keys of entry lists. -/
lemma findEntry (keeps : KeepsOrder R) (key : R a x) {entries : List (K × V)} {partners : List (L × W)}
    (listed : Forall₂ (fun entry partner => R entry.1 partner.1 ∧ S entry.2 partner.2) entries partners) :
    Option.Rel S ((entries.find? fun entry => rank entry.1 == rank a).map Prod.snd)
      ((partners.find? fun entry => rank entry.1 == rank x).map Prod.snd) := by
  induction listed with
  | nil => exact .none
  | cons head _ ih =>
    rw [List.find?_cons, List.find?_cons, keeps.beq_eq head.1 key]
    split
    · exact .some head.2
    · exact ih

/-- Corresponding values are found at corresponding keys. -/
lemma find? (keeps : KeepsOrder R) (rel : Rel R S map other) (key : R a x) :
    Option.Rel S (map.find? a) (other.find? x) :=
  findEntry keeps key rel

/-- Corresponding maps contain corresponding keys alike. -/
lemma contains_eq (keeps : KeepsOrder R) (rel : Rel R S map other) (key : R a x) :
    map.contains a = other.contains x := by
  rw [contains, contains]
  obtain ⟨missing, missing'⟩ | ⟨v, w, found, found', _⟩ := cases_of_rel (rel.find? keeps key)
  · rw [missing, missing']
    rfl
  · rw [found, found']
    rfl

/-- The keys of corresponding maps correspond. -/
lemma keys (rel : Rel R S map other) : Forall₂ R map.keys other.keys :=
  List.rel_map (fun _ _ here => here.1) rel

/-- Maps made from corresponding lists correspond. -/
lemma ofList (keeps : KeepsOrder R) {entries : List (K × V)} {partners : List (L × W)}
    (listed : Forall₂ (fun entry partner => R entry.1 partner.1 ∧ S entry.2 partner.2) entries partners) :
    Rel R S (OrderedMap.ofList entries) (OrderedMap.ofList partners) :=
  List.rel_foldl (fun _ _ rel _ _ new => rel.insert keeps new.1 new.2) .empty listed

end Rel

end OrderedMap

end Keys

/-! ### Layouts -/

variable {R : QubitId → QubitId → Prop} {q q' : QubitId}

namespace Layout

variable {P T : Type} [Ranked P] [Ranked T] {layout layout' : Layout P}

/-- Corresponding qubits at the same positions. -/
structure Rel (R : QubitId → QubitId → Prop) (layout layout' : Layout P) : Prop where
  positions : OrderedMap.Rel R Eq layout.positions layout'.positions
  occupants : OrderedMap.Rel Eq R layout.occupants layout'.occupants

/-- Corresponding qubits with the same position. -/
def PairRel (R : QubitId → QubitId → Prop) (pair pair' : QubitId × P) : Prop :=
  R pair.1 pair'.1 ∧ pair.2 = pair'.2

namespace Rel

/-- Empty layouts correspond. -/
protected lemma empty : Rel R (∅ : Layout P) ∅ := ⟨.empty, .empty⟩

/-- Corresponding qubits have the same position. -/
lemma position?_eq (keeps : KeepsOrder R) (rel : Rel R layout layout') (here : R q q') :
    layout.position? q = layout'.position? q' :=
  eq_of_rel (rel.positions.find? keeps here)

/-- A position holds corresponding qubits. -/
lemma occupant? (rel : Rel R layout layout') (p : P) :
    Option.Rel R (layout.occupant? p) (layout'.occupant? p) :=
  rel.occupants.find? .eq rfl

/-- Corresponding layouts contain corresponding qubits alike. -/
lemma contains_eq (keeps : KeepsOrder R) (rel : Rel R layout layout') (here : R q q') :
    layout.contains q = layout'.contains q' :=
  rel.positions.contains_eq keeps here

/-- Inserting corresponding qubits at the same position keeps layouts corresponding. -/
lemma insert (keeps : KeepsOrder R) (rel : Rel R layout layout') (new : R q q') (p : P) :
    Rel R (layout.insert q p) (layout'.insert q' p) := by
  rw [Layout.insert, Layout.insert]
  constructor
  · refine OrderedMap.Rel.insert keeps ?_ new rfl
    obtain ⟨free, free'⟩ | ⟨r, r', taken, taken', displaced⟩ := cases_of_rel (rel.occupant? p)
    · rw [free, free']
      exact rel.positions
    · rw [taken, taken']
      exact rel.positions.erase keeps displaced
  · refine OrderedMap.Rel.insert .eq ?_ rfl new
    rw [rel.position?_eq keeps new]
    split
    · exact rel.occupants.erase .eq rfl
    · exact rel.occupants

/-- Layouts made from corresponding pairs correspond. -/
lemma ofPairs (keeps : KeepsOrder R) {pairs pairs' : List (QubitId × P)}
    (listed : Forall₂ (PairRel R) pairs pairs') : Rel R (Layout.ofPairs pairs) (Layout.ofPairs pairs') := by
  refine List.rel_foldl ?_ .empty listed
  intro layout layout' rel pair pair' new
  dsimp only
  rw [new.2]
  exact rel.insert keeps new.1 _

/-- Erasing corresponding qubits keeps layouts corresponding. -/
lemma erase (keeps : KeepsOrder R) (rel : Rel R layout layout') (old : R q q') :
    Rel R (layout.erase q) (layout'.erase q') := by
  rw [Layout.erase, Layout.erase, rel.position?_eq keeps old]
  split
  · exact ⟨rel.positions.erase keeps old, rel.occupants.erase .eq rfl⟩
  · exact rel

/-- The pairs of corresponding layouts correspond. -/
lemma pairs (rel : Rel R layout layout') : Forall₂ (PairRel R) layout.pairs layout'.pairs := rel.positions

/-- The qubits of corresponding layouts correspond. -/
lemma qubits (rel : Rel R layout layout') : Forall₂ R layout.qubits layout'.qubits := rel.positions.keys

/-- Renaming positions keeps layouts corresponding. -/
lemma mapPositions (keeps : KeepsOrder R) (rel : Rel R layout layout') (f : P → T) :
    Rel R (layout.mapPositions f) (layout'.mapPositions f) := by
  refine ofPairs keeps (List.rel_map ?_ rel.pairs)
  intro pair pair' here
  exact ⟨here.1, congrArg f here.2⟩

end Rel

end Layout

end QubitRouting
