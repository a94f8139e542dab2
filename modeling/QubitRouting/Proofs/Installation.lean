import QubitRouting.Proofs.LayoutOperations
import QubitRouting.Proofs.Session

/-!
# Installing layouts

A layout on hardware qubits is translated to positions when it is installed, and back when it is read. Both
are one to one for every router that can be made, whatever table of hardware qubits it took. So a layout can
be installed exactly if the device has all its hardware qubits, and what is read then is what was installed.
-/

namespace QubitRouting

namespace Router

variable {router other : Router} {layout : Layout QubitId} {p : Nat}

/-- A router as it can be made: for a chain, for a grid whose hardware qubits are numbered like the positions
or by a table, or one that searches in another way on the same device. -/
inductive Made : Router → Prop
  | chain {c : Chain} : c.numQubits < 2 ^ 32 → Made (chain c)
  | grid {g : Grid} {cost : Grid.Cost} {steps : Nat} {seed : UInt64} {r : GridRouter} :
      GridRouter.ofGrid g cost steps seed = .ok r → Made (grid r)
  | table {r numbered : GridRouter} {pairs : List (Nat × QubitId)} :
      Made (grid r) → r.withTable pairs = .ok numbered → Made (grid numbered)
  | search {router other : Router} : Made router → router.SameDevice other → Made other

/-- Whether hardware qubits are found at their positions only depends on the device. -/
lemma Invertible.sameDevice (invertible : router.Invertible) (same : router.SameDevice other) :
    other.Invertible := by
  intro q p
  rw [same.position?_eq, same.numQubits_eq, same.hardwareQubit_eq]
  exact invertible q p

/-- A router as it can be made finds hardware qubits at their positions. -/
lemma Made.invertible (made : router.Made) : router.Invertible := by
  induction made with
  | chain small => exact invertible_chain small
  | grid built => exact invertible_grid (GridRouter.inverse_ofGrid built).2.2
  | table _ taken _ => exact invertible_grid (GridRouter.numberedBy_of_withTable taken).inverse
  | search _ same ih => exact ih.sameDevice same

/-- All hardware qubits of a layout are on the device. -/
def Knows (router : Router) (layout : Layout QubitId) : Prop :=
  ∀ q b, layout.position? q = some b → ∃ p < router.numQubits, router.hardwareQubit p = b

/-- A layout on the positions that its hardware qubits stand for. -/
def translate (router : Router) (layout : Layout QubitId) : Layout Nat :=
  layout.mapPositions fun b => (router.position? b).getD 0

section Known

variable (invertible : router.Invertible) (consistent : layout.Consistent) (knows : router.Knows layout)
include invertible

/-- The hardware qubit of a position is found there. -/
lemma Invertible.position?_hardwareQubit (lt : p < router.numQubits) :
    router.position? (router.hardwareQubit p) = some p :=
  (invertible _ _).mpr ⟨lt, rfl⟩

include consistent knows

/-- A translated layout has a qubit at a position if the layout has it at the hardware qubit there. -/
lemma Invertible.position?_translate {q : QubitId} :
    (router.translate layout).position? q = some p ↔
      p < router.numQubits ∧ layout.position? q = some (router.hardwareQubit p) := by
  have inj : Set.InjOn (fun b => (router.position? b).getD 0) layout.taken := by
    rintro b ⟨q, placed⟩ c ⟨r, placed'⟩ same
    obtain ⟨pb, ltB, rfl⟩ := knows q b placed
    obtain ⟨pc, ltC, rfl⟩ := knows r c placed'
    simp only [invertible.position?_hardwareQubit ltB, invertible.position?_hardwareQubit ltC,
      Option.getD_some] at same
    rw [same]
  rw [translate, Layout.position?_mapPositions_of_injOn consistent inj, Option.map_eq_some_iff]
  constructor
  · rintro ⟨b, placed, rfl⟩
    obtain ⟨p, lt, rfl⟩ := knows q b placed
    rw [invertible.position?_hardwareQubit lt]
    exact ⟨lt, placed⟩
  · rintro ⟨lt, placed⟩
    refine ⟨_, placed, ?_⟩
    rw [invertible.position?_hardwareQubit lt]
    rfl

/-- Translated back, a layout is what it was. -/
lemma Invertible.mapPositions_translate :
    (router.translate layout).mapPositions router.hardwareQubit = layout := by
  have translated {q : QubitId} {p : Nat} := invertible.position?_translate (p := p) consistent knows (q := q)
  have inj : Set.InjOn router.hardwareQubit (router.translate layout).taken := by
    rintro p ⟨q, placed⟩ s ⟨r, placed'⟩ same
    have here := invertible.position?_hardwareQubit (translated.mp placed).1
    rw [same, invertible.position?_hardwareQubit (translated.mp placed').1] at here
    exact (Option.some.inj here).symm
  refine (Layout.consistent_ofPairs _).ext consistent fun q => ?_
  refine (Layout.position?_mapPositions_of_injOn (Layout.consistent_ofPairs _) inj q).trans ?_
  apply Option.ext
  intro b
  rw [Option.map_eq_some_iff]
  constructor
  · rintro ⟨p, placed, rfl⟩
    exact (translated.mp placed).2
  · intro placed
    obtain ⟨p, lt, rfl⟩ := knows q b placed
    exact ⟨p, translated.mpr ⟨lt, placed⟩, rfl⟩

end Known

end Router

namespace GridRouter.NumberedBy

variable {router numbered : GridRouter} {pairs : List (Nat × QubitId)}
  (numbering : router.NumberedBy pairs numbered) {p : Nat} {b : QubitId}
include numbering

/-- A position stands for the hardware qubit that the table lists for it. -/
lemma hardwareQubit_eq (listed : (p, b) ∈ pairs) : (Router.grid numbered).hardwareQubit p = b := by
  rw [Router.hardwareQubit, numbering.hardware.mpr listed]
  rfl

/-- With a table, the hardware qubit of a position is found there. -/
lemma position?_hardwareQubit (lt : p < router.numQubits) :
    (Router.grid numbered).position? ((Router.grid numbered).hardwareQubit p) = some p := by
  apply (Router.invertible_grid numbering.inverse).position?_hardwareQubit
  rw [Router.numQubits, GridRouter.numQubits, numbering.size]
  exact lt

/-- A hardware qubit that the table does not list has no position. -/
lemma position?_eq_none (unlisted : b ∉ pairs.map Prod.snd) : (Router.grid numbered).position? b = none := by
  rw [Router.position?, Option.eq_none_iff_forall_ne_some]
  intro p found
  exact unlisted (List.mem_map_of_mem (numbering.positions.mp found))

end GridRouter.NumberedBy

namespace Mapper

variable {mapper : Mapper} {layout : Layout QubitId}

/-- A layout on hardware qubits of the device is installed, on the positions they stand for. -/
lemma setLayout_of_knows (invertible : mapper.router.Invertible) (knows : mapper.router.Knows layout) :
    mapper.setLayout layout = .ok { mapper with layout := some (mapper.router.translate layout) } := by
  refine Checked.bind_eq_ok.mpr ⟨_, Layout.mapPositionsM_eq fun {q b} placed => ?_, rfl⟩
  obtain ⟨p, lt, rfl⟩ := knows q b placed
  rw [invertible.position?_hardwareQubit lt]
  rfl

/-- What is reported is a hardware qubit that the device does not have. -/
lemma setLayout_of_error (invertible : mapper.router.Invertible) {error : RoutingError}
    (refused : mapper.setLayout layout = .error error) :
    ∃ q b, layout.position? q = some b ∧ (∀ p < mapper.router.numQubits, mapper.router.hardwareQubit p ≠ b) ∧
      error = .setting (.unknownQubit b) := by
  rcases Checked.bind_eq_error.mp refused with refused | ⟨_, _, ⟨⟩⟩
  rcases Checked.bind_eq_error.mp refused with refused | ⟨_, _, ⟨⟩⟩
  obtain ⟨⟨q, b⟩, mem, refused⟩ := Checked.exists_of_mapM_eq_error refused
  rcases Checked.bind_eq_error.mp refused with refused | ⟨_, _, ⟨⟩⟩
  dsimp only at refused
  split at refused
  case h_1 => cases refused
  case h_2 unknown =>
    cases refused
    refine ⟨q, b, Layout.mem_pairs_iff.mp mem, ?_, rfl⟩
    rintro p lt rfl
    rw [invertible.position?_hardwareQubit lt] at unknown
    cases unknown

/-- A layout that is installed is on hardware qubits of the device. -/
lemma knows_of_setLayout (invertible : mapper.router.Invertible) {after : Mapper}
    (installed : mapper.setLayout layout = .ok after) : mapper.router.Knows layout := by
  obtain ⟨_, translated, _⟩ := Checked.bind_eq_ok.mp installed
  obtain ⟨_, moved, _⟩ := Checked.bind_eq_ok.mp translated
  intro q b placed
  obtain ⟨_, _, found⟩ := Checked.exists_of_forall₂ (Checked.forall₂_of_mapM moved).flip
    (Layout.mem_pairs_iff.mpr placed)
  obtain ⟨_, found, _⟩ := Checked.bind_eq_ok.mp found
  dsimp only at found
  split at found
  case h_1 p here => exact ⟨p, (invertible b p).mp here⟩
  case h_2 => cases found

/-- A layout is installed, or a hardware qubit that the device does not have is reported. -/
lemma setLayout_cases (invertible : mapper.router.Invertible) (layout : Layout QubitId) :
    (mapper.router.Knows layout ∧
      mapper.setLayout layout = .ok { mapper with layout := some (mapper.router.translate layout) }) ∨
    ¬mapper.router.Knows layout ∧ ∃ q b, layout.position? q = some b ∧
      (∀ p < mapper.router.numQubits, mapper.router.hardwareQubit p ≠ b) ∧
      mapper.setLayout layout = .error (.setting (.unknownQubit b)) := by
  cases result : mapper.setLayout layout with
  | ok after =>
    have knows := knows_of_setLayout invertible result
    exact .inl ⟨knows, result ▸ setLayout_of_knows invertible knows⟩
  | error error =>
    obtain ⟨q, b, placed, unknown, rfl⟩ := setLayout_of_error invertible result
    refine .inr ⟨fun knows => ?_, q, b, placed, unknown, rfl⟩
    obtain ⟨p, lt, here⟩ := knows q b placed
    exact unknown p lt here

end Mapper

/-! ### Routers of mappers -/

/-- The router of a grid configuration is one that can be made. -/
lemma GridConfig.made_router {config : GridConfig} {router : GridRouter} (built : config.router = .ok router) :
    (Router.grid router).Made := by
  obtain ⟨plain, built, numbered⟩ := Checked.bind_eq_ok.mp built
  have made : (Router.grid plain).Made := .grid (Failure.ofChecked_eq_ok.mp built)
  split at numbered
  · cases numbered
    exact made
  · split at numbered
    · cases numbered
    case h_2 taken =>
      cases numbered
      exact .table made taken

/-- The router of a configured mapper is one that can be made. -/
lemma Config.made_mapper {config : Config} {mapper : Mapper} (built : config.mapper = .ok mapper) :
    mapper.router.Made := by
  cases config with
  | linear config =>
    rw [Config.mapper, LinearConfig.mapper] at built
    split at built
    · cases built
    · cases built
      exact .chain config.numQubits.toNat_lt
  | grid config =>
    rw [Config.mapper, GridConfig.mapper] at built
    split at built
    · cases built
    · obtain ⟨router, found, same⟩ := Checked.bind_eq_ok.mp built
      cases same
      exact GridConfig.made_router found

/-- The router of a configured mapper is one that can be made, after any calls. -/
lemma Mapper.made_session {config : Config} {mapper : Mapper} (built : config.mapper = .ok mapper)
    (calls : List Call) : (mapper.session calls).mapper.router.Made :=
  (session_keeps (fun _ mapper => mapper.router.Made) (fun _ made step => made.search step.sameDevice) id
    (Config.fresh_mapper built).sound (Config.made_mapper built) calls).2

/-- A grid takes a table of hardware qubits exactly if that lists every position once and no hardware qubit
twice; otherwise the cause that it reports is true. With the table, a position stands for the hardware qubit
listed, which is found there, and no other hardware qubit is found.

A layout that operations lead to can be installed exactly if all its hardware qubits are on the device. Then
what is read is what was installed, its positions are on the device, and nothing else changed. Otherwise a
hardware qubit is reported that the device does not have, and nothing changed at all. That is so for every
router that can be made, so for every mapper that a configuration gives, after any calls. -/
theorem tables_and_layouts_round_trip :
    (∀ {grid : Grid} {cost : Grid.Cost} {steps : Nat} {seed : UInt64} {router : GridRouter},
      GridRouter.ofGrid grid cost steps seed = .ok router → ∀ pairs : List (Nat × QubitId),
        ((∃ numbered, router.withTable pairs = .ok numbered) ↔ Renumbers (grid.rows * grid.columns) pairs) ∧
        (¬Renumbers (grid.rows * grid.columns) pairs →
          ∃ cause, router.withTable pairs = .error cause ∧ cause.Explains (grid.rows * grid.columns) pairs) ∧
        ∀ numbered, router.withTable pairs = .ok numbered →
          (∀ p b, (p, b) ∈ pairs → (Router.grid numbered).hardwareQubit p = b) ∧
          (∀ p < grid.rows * grid.columns,
            (Router.grid numbered).position? ((Router.grid numbered).hardwareQubit p) = some p) ∧
          ∀ b, b ∉ pairs.map Prod.snd → (Router.grid numbered).position? b = none) ∧
    (∀ {mapper : Mapper} {layout : Layout QubitId}, mapper.router.Made → layout.Built →
      ((mapper.call (.install layout)).failure = none ↔ mapper.router.Knows layout) ∧
      ((mapper.call (.install layout)).failure = none →
        (mapper.call (.install layout)).mapper.hardwareLayout? = some layout ∧
        ∃ positions, (mapper.call (.install layout)).mapper = { mapper with layout := some positions } ∧
          ∀ q p, positions.position? q = some p → p < mapper.router.numQubits) ∧
      ∀ failure, (mapper.call (.install layout)).failure = some failure →
        (mapper.call (.install layout)).mapper = mapper ∧
        ∃ q b, layout.position? q = some b ∧
          (∀ p < mapper.router.numQubits, mapper.router.hardwareQubit p ≠ b) ∧
          failure = .error (.setting (.unknownQubit b))) ∧
    ∀ {config : Config} {mapper : Mapper}, config.mapper = .ok mapper → ∀ calls : List Call,
      (mapper.session calls).mapper.router.Made := by
  refine ⟨?_, ?_, Mapper.made_session⟩
  · intro grid cost steps seed router built pairs
    obtain ⟨_, size, _⟩ := GridRouter.inverse_ofGrid built
    have size : router.numQubits = grid.rows * grid.columns := size
    rw [← size]
    refine ⟨router.exists_withTable_iff pairs, ?_, ?_⟩
    · intro refusable
      rcases router.withTable_cases pairs with ⟨_, _, numbering⟩ | refused
      · exact absurd numbering.renumbers refusable
      · exact refused
    · intro numbered taken
      have numbering := GridRouter.numberedBy_of_withTable taken
      refine ⟨?_, ?_, ?_⟩
      · exact fun p b listed => numbering.hardwareQubit_eq listed
      · exact fun p lt => numbering.position?_hardwareQubit lt
      · exact fun b unlisted => numbering.position?_eq_none unlisted
  · intro mapper layout made built
    have invertible := made.invertible
    rw [Mapper.call]
    rcases Mapper.setLayout_cases invertible layout with ⟨knows, installed⟩ | ⟨missing, q, b, placed, unknown, refused⟩
    · rw [installed]
      refine ⟨iff_of_true rfl knows, fun _ => ⟨?_, _, rfl, ?_⟩, ?_⟩
      · exact congrArg some (invertible.mapPositions_translate built.consistent knows)
      · intro q p placed
        exact ((invertible.position?_translate built.consistent knows).mp placed).1
      · rintro _ ⟨⟩
    · rw [refused]
      refine ⟨iff_of_false (Option.some_ne_none _) missing, fun ok => absurd ok (Option.some_ne_none _), ?_⟩
      rintro _ ⟨⟩
      exact ⟨rfl, q, b, placed, unknown, rfl⟩

/-- A table that does not list its positions in order is taken, and one that gives a hardware qubit to two
positions is not. Under the first one, a layout on hardware qubits that it lists is installed, and one on
another hardware qubit is not. -/
theorem tables_and_layouts_round_trip_out_of_order :
    let known : Layout QubitId := (Layout.ofPairs [(⟨7⟩, ⟨10⟩), (⟨8⟩, ⟨30⟩)]).swap ⟨10⟩ ⟨20⟩
    let unknown : Layout QubitId := Layout.ofPairs [(⟨7⟩, ⟨10⟩), (⟨8⟩, ⟨2⟩)]
    ∃ router numbered : GridRouter, ∃ mapper : Mapper, mapper.router = .grid numbered ∧
      GridRouter.ofGrid ⟨1, 3⟩ List.length 1 0 = .ok router ∧
      router.withTable [(2, ⟨30⟩), (0, ⟨10⟩), (1, ⟨20⟩)] = .ok numbered ∧
      Renumbers 3 [(2, ⟨30⟩), (0, ⟨10⟩), (1, ⟨20⟩)] ∧
      (Router.grid numbered).hardwareQubit 2 = ⟨30⟩ ∧ (Router.grid numbered).position? ⟨2⟩ = none ∧
      (∃ cause, router.withTable [(0, ⟨1⟩), (1, ⟨1⟩), (2, ⟨3⟩)] = .error cause ∧
        cause.Explains 3 [(0, ⟨1⟩), (1, ⟨1⟩), (2, ⟨3⟩)]) ∧
      known.Built ∧ mapper.router.Knows known ∧
      (mapper.call (.install known)).mapper.hardwareLayout? = some known ∧
      unknown.Built ∧ ¬mapper.router.Knows unknown ∧ (mapper.call (.install unknown)).mapper = mapper ∧
      ∃ ring, (Config.linear { numQubits := 3, cyclic := true, storage := 1 }).mapper = .ok ring ∧
        (ring.session [.install unknown, .receive [.allocate ⟨4⟩]]).mapper.router.Made := by
  intro known unknown
  obtain ⟨tables, layouts, mappers⟩ := tables_and_layouts_round_trip
  obtain ⟨router, built⟩ : ∃ router, GridRouter.ofGrid ⟨1, 3⟩ List.length 1 0 = .ok router := ⟨_, rfl⟩
  obtain ⟨numbered, taken⟩ : ∃ numbered,
      router.withTable [(2, ⟨30⟩), (0, ⟨10⟩), (1, ⟨20⟩)] = .ok numbered := by
    cases built
    exact ⟨_, rfl⟩
  have renumbers : Renumbers 3 [(2, ⟨30⟩), (0, ⟨10⟩), (1, ⟨20⟩)] := ⟨by decide, by decide⟩
  obtain ⟨_, _, listed⟩ := tables built [(2, ⟨30⟩), (0, ⟨10⟩), (1, ⟨20⟩)]
  obtain ⟨hardware, _, absent⟩ := listed numbered taken
  obtain ⟨_, refused, _⟩ := tables built [(0, ⟨1⟩), (1, ⟨1⟩), (2, ⟨3⟩)]
  have made : (Router.grid numbered).Made := .table (.grid built) taken
  have knownBuilt : known.Built := .swap _ _ (.ofPairs _)
  have unknownBuilt : unknown.Built := .ofPairs _
  obtain ⟨knows, installed, _⟩ := @layouts { router := .grid numbered, storage := 1 } known made knownBuilt
  obtain ⟨knows', _, unchanged⟩ := @layouts { router := .grid numbered, storage := 1 } unknown made unknownBuilt
  obtain ⟨ring, ringBuilt⟩ : ∃ ring,
      (Config.linear { numQubits := 3, cyclic := true, storage := 1 }).mapper = .ok ring := ⟨_, rfl⟩
  refine ⟨router, numbered, { router := .grid numbered, storage := 1 }, rfl, built, taken, renumbers,
    hardware 2 ⟨30⟩ (by decide), absent ⟨2⟩ (by decide), refused ?_, knownBuilt, ?_, ?_, unknownBuilt, ?_, ?_,
    ring, ringBuilt, mappers ringBuilt _⟩
  · exact fun renumbers => absurd renumbers.qubits (by decide)
  all_goals cases built; cases taken
  · exact knows.mp rfl
  · exact (installed rfl).1
  · exact fun known => absurd (knows'.mpr known) (by decide)
  · exact (unchanged _ rfl).1

end QubitRouting
