import QubitRouting.Mapper

/-!
# Configurations

The settings of a mapper for a chain or a grid. Settings that are left out have default values.
-/

namespace QubitRouting

/-- What the search for swaps on a grid minimises. -/
inductive Objective where
  | swapDepth
  | swapCount
deriving DecidableEq

/-- The cost of a list of swaps. -/
def Objective.cost : Objective → Grid.Cost
  | swapDepth => Swap.depth
  | swapCount => List.length

/-- The number of buffered commands that starts a round, unless set otherwise. -/
def defaultStorage : UInt64 := 1000

/-- The number of steps of a search, unless set otherwise. -/
def defaultSteps : UInt64 := 50

/-- The seed of a search, unless set otherwise. -/
def defaultSeed : UInt64 := 11

/-- A mapper for a chain. -/
structure LinearConfig where
  numQubits : UInt32
  /-- Whether the chain is closed into a ring. -/
  cyclic : Bool := false
  /-- The number of buffered commands that starts a round. -/
  storage : UInt64 := defaultStorage
deriving DecidableEq

/-- A mapper for a grid. -/
structure GridConfig where
  rows : UInt32
  columns : UInt32
  /-- The hardware qubit of each position; numbered like the positions if there is no table. -/
  hardware : Option (OrderedMap UInt32 QubitId) := none
  /-- The number of buffered commands that starts a round. -/
  storage : UInt64 := defaultStorage
  objective : Objective := .swapDepth
  /-- How many orders the search may try. -/
  steps : UInt64 := defaultSteps
  seed : UInt64 := defaultSeed
deriving DecidableEq

/-- A mapper for one of the topologies. -/
inductive Config where
  | linear (config : LinearConfig)
  | grid (config : GridConfig)
deriving DecidableEq

/-- A buffer has room for a command at least. -/
def validateStorage (storage : UInt64) : Except SettingError Unit :=
  if storage = 0 then .error .noStorage else .ok ()

/-- Check the settings. -/
def LinearConfig.validate (config : LinearConfig) : Except SettingError Unit :=
  if config.numQubits = 0 then .error .noQubits else validateStorage config.storage

/-- Check the settings. The table is checked when the mapper is built. -/
def GridConfig.validate (config : GridConfig) : Except SettingError Unit :=
  let rows := config.rows.toNat
  let columns := config.columns.toNat
  if rows = 0 ∨ columns = 0 then .error (.emptyGrid rows columns)
  else if UInt32.size ≤ rows * columns then .error (.gridTooLarge rows columns)
  else if config.steps = 0 then .error .noSteps
  else validateStorage config.storage

/-- A mapper with an empty buffer. -/
def LinearConfig.mapper (config : LinearConfig) : Except RoutingError Mapper :=
  match config.validate with
  | .error error => .error (.setting error)
  | .ok () =>
    .ok { router := .chain ⟨config.numQubits.toNat, config.cyclic⟩, storage := config.storage.toNat }

/-- The router of a grid, with its table of hardware qubits. -/
def GridConfig.router (config : GridConfig) : Except Failure GridRouter := do
  let router ← Failure.ofChecked (GridRouter.ofGrid ⟨config.rows.toNat, config.columns.toNat⟩
    config.objective.cost config.steps.toNat config.seed)
  match config.hardware with
  | none => return router
  | some table =>
    match router.withTable (table.entries.map fun entry => (entry.1.toNat, entry.2)) with
    | .error error => throw (.error (.table error))
    | .ok router => return router

/-- A mapper with an empty buffer. -/
def GridConfig.mapper (config : GridConfig) : Except Failure Mapper :=
  match config.validate with
  | .error error => .error (.error (.setting error))
  | .ok () => do return { router := .grid (← config.router), storage := config.storage.toNat }

namespace Config

/-- Check the settings. -/
def validate : Config → Except SettingError Unit
  | linear config => config.validate
  | grid config => config.validate

/-- The number of buffered commands that starts a round. -/
def storage : Config → UInt64
  | linear config => config.storage
  | grid config => config.storage

/-- A mapper with an empty buffer. -/
def mapper : Config → Except Failure Mapper
  | linear config => Failure.ofReported config.mapper
  | grid config => config.mapper

end Config

end QubitRouting
