import QubitRouting.Config
import QubitRouting.Proofs.Router

/-!
# Configurations give valid routers

A configuration that is accepted gives a mapper that has not seen any command, with room in its buffer
and a router that numbers its positions one to one.
-/

namespace QubitRouting

namespace GridRouter

/-- The router made for a valid grid numbers its positions one to one. -/
lemma valid_ofGrid {grid : Grid} (valid : grid.Valid) {cost : Grid.Cost} {steps : Nat} {seed : UInt64}
    {router : GridRouter} (built : ofGrid grid cost steps seed = .ok router) :
    (Router.grid router).Valid := by
  obtain ⟨rfl, size, inverse⟩ := inverse_ofGrid built
  exact ⟨valid, size, inverse _ _⟩

/-- A table that is accepted numbers the positions one to one. -/
lemma valid_withTable {router numbered : GridRouter} (valid : (Router.grid router).Valid)
    {pairs : List (Nat × QubitId)} (built : router.withTable pairs = .ok numbered) :
    (Router.grid numbered).Valid := by
  have numbering := numberedBy_of_withTable built
  have inverse := numbering.inverse
  obtain ⟨hardware, positions, rfl⟩ := numbering.same
  exact ⟨valid.1, numbering.size.trans valid.2.1, inverse _ _⟩

end GridRouter

/-- The state of a mapper before its first command. -/
structure Mapper.Fresh (mapper : Mapper) : Prop where
  valid : mapper.router.Valid
  storage_pos : 0 < mapper.storage
  buffer_eq : mapper.buffer = []
  layout_eq : mapper.layout = none
  allocated_eq : mapper.allocated = ∅

namespace Config

/-- A storage that passes its check is positive. -/
lemma storage_pos {storage : UInt64} (valid : validateStorage storage = .ok ()) :
    0 < storage.toNat := by
  rw [validateStorage] at valid
  split at valid
  · cases valid
  case isFalse positive =>
    apply Nat.pos_of_ne_zero
    intro zero
    exact positive (UInt64.toNat_inj.mp zero)

/-- The mapper made from a linear configuration is fresh. -/
lemma fresh_linear {config : LinearConfig} {mapper : Mapper} (built : config.mapper = .ok mapper) :
    mapper.Fresh := by
  rw [LinearConfig.mapper] at built
  cases valid : config.validate with
  | error cause =>
    rw [valid] at built
    cases built
  | ok =>
    rw [valid] at built
    cases built
    rw [LinearConfig.validate] at valid
    split at valid
    · cases valid
    case isFalse positive =>
      refine ⟨⟨?_, config.numQubits.toNat_lt⟩, storage_pos valid, rfl, rfl, rfl⟩
      apply Nat.pos_of_ne_zero
      intro zero
      exact positive (UInt32.toNat_inj.mp zero)

/-- A grid configuration that passes its check has a valid grid and a positive storage. -/
lemma valid_grid {config : GridConfig} (valid : config.validate = .ok ()) :
    (Grid.mk config.rows.toNat config.columns.toNat).Valid ∧ 0 < config.storage.toNat := by
  rw [GridConfig.validate] at valid
  split at valid
  · cases valid
  · split at valid
    · cases valid
    · split at valid
      · cases valid
      case isFalse notEmpty small _ =>
        rw [not_or] at notEmpty
        refine ⟨⟨?_, ?_, ?_⟩, storage_pos valid⟩
        · exact Nat.pos_of_ne_zero notEmpty.1
        · exact Nat.pos_of_ne_zero notEmpty.2
        · exact Nat.lt_of_not_le small

/-- The router made from a configuration of a valid grid numbers its positions one to one. -/
lemma valid_router {config : GridConfig} {router : GridRouter}
    (valid : (Grid.mk config.rows.toNat config.columns.toNat).Valid)
    (built : config.router = .ok router) : (Router.grid router).Valid := by
  obtain ⟨plain, built, numbered⟩ := Checked.bind_eq_ok.mp built
  have validPlain := GridRouter.valid_ofGrid valid (Failure.ofChecked_eq_ok.mp built)
  split at numbered
  · cases numbered
    exact validPlain
  · split at numbered
    · cases numbered
    case h_2 built =>
      cases numbered
      exact GridRouter.valid_withTable validPlain built

/-- A configuration that is accepted gives a fresh mapper with a valid router. -/
lemma fresh_mapper {config : Config} {mapper : Mapper} (built : config.mapper = .ok mapper) :
    mapper.Fresh := by
  cases config with
  | linear config =>
    rw [Config.mapper] at built
    cases plain : config.mapper with
    | error cause =>
      rw [plain] at built
      cases built
    | ok =>
      rw [plain] at built
      cases built
      exact fresh_linear plain
  | grid config =>
    rw [Config.mapper, GridConfig.mapper] at built
    cases valid : config.validate with
    | error cause =>
      rw [valid] at built
      cases built
    | ok =>
      rw [valid] at built
      obtain ⟨router, found, same⟩ := Checked.bind_eq_ok.mp built
      cases same
      obtain ⟨validGrid, positive⟩ := valid_grid valid
      exact ⟨valid_router validGrid found, positive, rfl, rfl, rfl⟩

/-- A configuration gives the settings of a mapper, not a state. -/
lemma exists_router {config : Config} {mapper : Mapper} (built : config.mapper = .ok mapper) :
    ∃ router storage, router.Valid ∧ mapper = { router, storage } := by
  refine ⟨mapper.router, mapper.storage, (fresh_mapper built).valid, ?_⟩
  cases config with
  | linear config =>
    rw [Config.mapper, LinearConfig.mapper] at built
    split at built
    · cases built
    · cases built
      rfl
  | grid config =>
    rw [Config.mapper, GridConfig.mapper] at built
    split at built
    · cases built
    · obtain ⟨router, _, same⟩ := Checked.bind_eq_ok.mp built
      cases same
      rfl

end Config

end QubitRouting
