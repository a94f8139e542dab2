import QubitRouting.Config.Document
import QubitRouting.Proofs.Json.Record

/-!
# Configurations are read back, tables apart

The configuration of a chain or of a grid is read back from a JSON document of its own, with its table of
hardware qubits. A configuration for any topology is read from plain data instead, in which the keys of an
object are texts, and a table needs keys that are numbers: a configuration with an entry in its table is
refused, and every other one is read back.
-/

namespace QubitRouting

/-! ### Plain data -/

namespace Datum

/-- The data of named entries. -/
def ofEntries (entries : List (String × Datum)) : Datum := map (entries.map fun entry => (text entry.1, entry.2))

/-- An entry holds the data of a field. -/
def Reads (field : String × Json) (entry : String × Datum) : Prop :=
  field.1 = entry.1 ∧ ofJson? field.2 = some entry.2

/-- A number that fits a 64-bit word becomes plain data as it is. -/
lemma ofJson?_ofNat {n : Nat} (less : n < UInt64.size) : ofJson? (Json.ofNat n) = some (natural n) := by
  simp [Json.ofNat, ofJson?, Numeral.ofNat, Numeral.toNat?, less]

/-- A 32-bit word becomes plain data as it is. -/
@[simp]
lemma ofJson?_word32 (word : UInt32) : ofJson? (Json.ofNat word.toNat) = some (natural word.toNat) :=
  ofJson?_ofNat (Nat.lt_trans word.toNat_lt (by decide))

/-- A 64-bit word becomes plain data as it is. -/
@[simp]
lemma ofJson?_word64 (word : UInt64) : ofJson? (Json.ofNat word.toNat) = some (natural word.toNat) :=
  ofJson?_ofNat word.toNat_lt

/-- A text becomes plain data as it is. -/
@[simp]
lemma ofJson?_text (value : String) : ofJson? (Json.text value) = some (text value) := by
  simp [Json.text, ofJson?]

/-- The data of an object are those of its fields. -/
lemma ofJson?_ofFields {fields : List (String × Json)} {entries : List (String × Datum)}
    (reads : List.Forall₂ Reads fields entries) :
    ofJson? (Json.ofFields fields) = some (ofEntries entries) := by
  have each : ofFields? (fields.map fun field => (.ofText field.1, field.2))
      = some (entries.map fun entry => (text entry.1, entry.2)) := by
    induction reads with
    | nil => rfl
    | cons read _ ih => simp [ofFields?, read.1, read.2, ih]
  simp [Json.ofFields, ofJson?, each, ofEntries]

/-- A record is read back from its entries. -/
lemma record?_ofEntries {names : List String} {entries : List (String × Datum)}
    (keys : entries.map Prod.fst = names) (nodup : names.Nodup) :
    record? names (ofEntries entries) = some (entries.map fun entry => some entry.2) := by
  subst keys
  have named : (entries.map fun entry => (text entry.1, entry.2)).mapM
      (fun entry => do return (← fieldOf? (entries.map Prod.fst) entry.1, entry.2))
      = some (entries.map fun entry => ((entries.map Prod.fst).idxOf? entry.1, entry.2)) := by
    rw [List.mapM_map]
    exact mapM_eq_some_map (by simp [fieldOf?])
  exact (congrArg (· >>= Fields.ofEntries? _) named).trans (Fields.ofEntries?_fields nodup)

/-- A 32-bit word is read back from plain data. -/
@[simp]
lemma toUInt32?_natural (word : UInt32) : (natural word.toNat).toUInt32? = some word := by
  have less : word.toNat < UInt32.size := word.toNat_lt
  simp [toUInt32?, natBelow?, less]

/-- A 64-bit word is read back from plain data. -/
@[simp]
lemma toUInt64?_natural (word : UInt64) : (natural word.toNat).toUInt64? = some word := by
  have less : word.toNat < UInt64.size := word.toNat_lt
  simp [toUInt64?, natBelow?, less]

end Datum

namespace Json

/-- An object is one deeper than its fields. -/
lemma depth_ofFields_le {fields : List (String × Json)} {n : Nat}
    (each : ∀ field ∈ fields, field.2.depth ≤ n) : (ofFields fields).depth ≤ n + 1 := by
  rw [ofFields, depth]
  induction fields with
  | nil => simp [fieldsDepth]
  | cons field fields ih =>
    obtain ⟨first, others⟩ := List.forall_mem_cons.mp each
    exact Nat.succ_le_succ (Nat.max_le.mpr ⟨first, Nat.le_of_succ_le_succ (ih others)⟩)

end Json

/-! ### Chains -/

namespace LinearConfig

/-- The fields as plain data. -/
def toEntries (config : LinearConfig) : List (String × Datum) :=
  [ ("num_qubits", .natural config.numQubits.toNat),
    ("cyclic", .bool config.cyclic),
    ("storage", .natural config.storage.toNat) ]

/-- A linear configuration is read back from its fields. -/
lemma ofJson?_toFields (config : LinearConfig) : ofJson? (Json.ofFields config.toFields) = some config := by
  rw [ofJson?, toFields, @Json.record?_ofFields fieldNames _ rfl (by decide)]
  simp [Fields.required, Fields.optional, Json.toBool?]

/-- A linear configuration is read back from plain data. -/
lemma ofDatum?_toEntries (config : LinearConfig) : ofDatum? (.ofEntries config.toEntries) = some config := by
  rw [ofDatum?, toEntries, @Datum.record?_ofEntries fieldNames _ rfl (by decide)]
  simp [Fields.required, Fields.optional, Datum.toBool?]

/-- The fields of a linear configuration can be written. -/
lemma sound_toFields (config : LinearConfig) : ∀ field ∈ config.toFields, field.2.Sound := by
  simp [toFields, Json.sound_ofNat, Json.sound_bool]

/-- The plain data of a linear configuration hold its fields, one by one. -/
lemma reads_toFields (config : LinearConfig) : List.Forall₂ Datum.Reads config.toFields config.toEntries := by
  simp [toFields, toEntries, Datum.Reads, Datum.ofJson?]

/-- The fields of a linear configuration are nested once at most. -/
lemma depth_toFields_le (config : LinearConfig) : ∀ field ∈ config.toFields, field.2.depth ≤ 1 := by
  simp [toFields, Json.ofNat, Json.depth]

end LinearConfig

/-! ### Grids -/

/-- An objective is read back from its name. -/
lemma Objective.ofJson?_name (objective : Objective) : ofJson? (.text objective.name) = some objective := by
  rw [ofJson?, Json.variant?_text]
  cases objective <;> rfl

/-- An objective is read back from its name in plain data. -/
lemma Objective.ofDatum?_name (objective : Objective) : ofDatum? (.text objective.name) = some objective := by
  cases objective <;> rfl

namespace GridConfig

/-- A table of hardware qubits as plain data: its keys are texts. -/
def tableToDatum : Option (OrderedMap UInt32 QubitId) → Datum
  | none => .null
  | some table => .ofEntries (table.entries.map fun entry => (toString entry.1.toNat, .natural entry.2.toNat))

/-- The fields as plain data. -/
def toEntries (config : GridConfig) : List (String × Datum) :=
  [ ("num_rows", .natural config.rows.toNat),
    ("num_columns", .natural config.columns.toNat),
    ("mapped_ids_to_backend_ids", tableToDatum config.hardware),
    ("storage", .natural config.storage.toNat),
    ("optimization", .text config.objective.name),
    ("num_optimization_steps", .natural config.steps.toNat),
    ("seed", .natural config.seed.toNat) ]

/-- The entries of the table of hardware qubits, if there is one. -/
def tableEntries (config : GridConfig) : List (UInt32 × QubitId) :=
  (config.hardware.map OrderedMap.entries).getD []

/-- A table is read back from JSON. -/
lemma tableOfJson?_tableToJson (hardware : Option (OrderedMap UInt32 QubitId)) :
    tableOfJson? (tableToJson hardware) = some hardware := by
  cases hardware with
  | none => rfl
  | some table =>
    have read : Json.map? (fun key => (Json.keyBelow? UInt32.size key).map UInt32.ofNat)
        (fun value => value.toUInt32?.map QubitId.mk) (tableToJson (some table)) = some table := by
      rw [tableToJson]
      apply Json.map?_ofMap
      intro entry mem
      rw [Json.keyBelow?_ofText entry.1.toNat_lt, QubitId.toNat, Json.toUInt32?_ofNat]
      simp
    rw [tableOfJson?, read]
    · rfl
    · simp [tableToJson, Json.ofMap, Json.ofFields]

/-- A table with an entry is not read from plain data. -/
lemma tableOfDatum?_tableToDatum (hardware : Option (OrderedMap UInt32 QubitId)) :
    tableOfDatum? (tableToDatum hardware)
      = if ((hardware.map OrderedMap.entries).getD []).isEmpty then some hardware else none := by
  cases hardware with
  | none => rfl
  | some table =>
    cases entries : table.entries with
    | nil =>
      have empty : OrderedMap.ofList [] = table := by rw [← entries, table.ofList_entries]
      simp [tableToDatum, Datum.ofEntries, tableOfDatum?, entries, empty]
    | cons entry rest =>
      simp [tableToDatum, Datum.ofEntries, tableOfDatum?, entries, Datum.toUInt32?, Datum.natBelow?]

/-- A grid configuration is read back from its fields. -/
lemma ofJson?_toFields (config : GridConfig) : ofJson? (Json.ofFields config.toFields) = some config := by
  rw [ofJson?, toFields, @Json.record?_ofFields fieldNames _ rfl (by decide)]
  simp [Fields.required, Fields.optional, tableOfJson?_tableToJson, Objective.ofJson?_name]

/-- From plain data, a configuration is read back unless there is an entry in its table. -/
lemma ofDatum?_toEntries (config : GridConfig) : ofDatum? (.ofEntries config.toEntries)
    = if config.tableEntries.isEmpty then some config else none := by
  rw [ofDatum?, toEntries, @Datum.record?_ofEntries fieldNames _ rfl (by decide)]
  have table := tableOfDatum?_tableToDatum config.hardware
  rw [tableEntries]
  split
  · next empty =>
    rw [if_pos empty] at table
    simp [Fields.required, Fields.optional, Objective.ofDatum?_name, table]
  · next entry =>
    rw [if_neg entry] at table
    simp [Fields.required, Fields.optional, table]

/-- The fields of a grid configuration can be written. -/
lemma sound_toFields (config : GridConfig) : ∀ field ∈ config.toFields, field.2.Sound := by
  have table : (tableToJson config.hardware).Sound := by
    cases config.hardware with
    | none => exact Json.sound_null
    | some table => exact Json.sound_ofMap (fun q => Json.sound_ofNat q.toNat) table
  simp [toFields, Json.sound_ofNat, Json.sound_text, table]

/-- A table of hardware qubits becomes plain data, with texts for keys. -/
lemma ofJson?_tableToJson (hardware : Option (OrderedMap UInt32 QubitId)) :
    Datum.ofJson? (tableToJson hardware) = some (tableToDatum hardware) := by
  cases hardware with
  | none => rfl
  | some table =>
    apply Datum.ofJson?_ofFields
    rw [List.forall₂_map_left_iff, List.forall₂_map_right_iff, List.forall₂_same]
    intro entry _
    exact ⟨rfl, Datum.ofJson?_word32 entry.2.index⟩

/-- The plain data of a grid configuration hold its fields, one by one. -/
lemma reads_toFields (config : GridConfig) : List.Forall₂ Datum.Reads config.toFields config.toEntries := by
  simp [toFields, toEntries, Datum.Reads, ofJson?_tableToJson]

/-- The fields of a grid configuration are nested once at most. -/
lemma depth_toFields_le (config : GridConfig) : ∀ field ∈ config.toFields, field.2.depth ≤ 1 := by
  have table : (tableToJson config.hardware).depth ≤ 1 := by
    cases config.hardware with
    | none => exact Nat.zero_le 1
    | some table =>
      apply Json.depth_ofFields_le
      intro field mem
      obtain ⟨entry, _, rfl⟩ := List.mem_map.mp mem
      exact Nat.le_refl 0
  simp [toFields, table, Json.ofNat, Json.text, Json.depth]

end GridConfig

/-! ### Any topology -/

namespace Config

variable {topology : String} {entries : List (String × Datum)}

/-- The entries of the table of hardware qubits, if there is one. -/
def tableEntries : Config → List (UInt32 × QubitId)
  | linear _ => []
  | grid config => config.tableEntries

/-- The topology is taken out of the entries. -/
lemma ofDatum?_cons {data : List (Datum × Datum)} (others : ∀ entry ∈ data, isTopologyKey entry.1 = false) :
    ofDatum? (.map ((.text topologyKey, .text topology) :: data)) = ofParts? topology (.map data) := by
  have topologies : data.filter (isTopologyKey ·.1) = [] := by
    rw [List.filter_eq_nil_iff]
    intro entry mem
    simp [others entry mem]
  have settings : data.filter (not ∘ (isTopologyKey ·.1)) = data := by
    rw [List.filter_eq_self]
    intro entry mem
    simp [others entry mem]
  have split : ((.text topologyKey, .text topology) :: data).partition (isTopologyKey ·.1)
      = ([(.text topologyKey, .text topology)], data) := by
    rw [List.partition_eq_filter_filter, List.filter_cons_of_pos (by simp [isTopologyKey]),
      List.filter_cons_of_neg (by simp [isTopologyKey]), topologies, settings]
  rw [ofDatum?, split]

/-- The document of a configuration is read by its topology and the data of its settings. -/
lemma ofJson?_ofFields {fields : List (String × Json)} (reads : List.Forall₂ Datum.Reads fields entries)
    (absent : topologyKey ∉ entries.map Prod.fst) (depth : ∀ field ∈ fields, field.2.depth ≤ 1) :
    ofJson? (Json.ofFields ((topologyKey, .text topology) :: fields)) = ofParts? topology (.ofEntries entries) := by
  have shallow : (Json.ofFields ((topologyKey, .text topology) :: fields)).depth ≤ maxJsonDepth := by
    refine Nat.le_trans (Json.depth_ofFields_le ?_) (by decide : 1 + 1 ≤ maxJsonDepth)
    exact List.forall_mem_cons.mpr ⟨Nat.zero_le 1, depth⟩
  have named : Datum.Reads (topologyKey, .text topology) (topologyKey, .text topology) :=
    ⟨rfl, Datum.ofJson?_text topology⟩
  rw [ofJson?, if_pos shallow, Datum.ofJson?_ofFields (.cons named reads)]
  apply ofDatum?_cons
  intro entry mem
  obtain ⟨entry, member, rfl⟩ := List.mem_map.mp mem
  rw [isTopologyKey, beq_eq_false_iff_ne]
  intro same
  exact absent (same ▸ List.mem_map_of_mem member)

/-- A configuration is read back unless there is an entry in its table. -/
lemma ofJson?_toJson (config : Config) :
    ofJson? config.toJson = if config.tableEntries.isEmpty then some config else none := by
  cases config with
  | linear config =>
    rw [toJson, ofJson?_ofFields config.reads_toFields (by simp [LinearConfig.toEntries, topologyKey])
      config.depth_toFields_le]
    simp [ofParts?, config.ofDatum?_toEntries, tableEntries]
  | grid config =>
    rw [toJson, ofJson?_ofFields config.reads_toFields (by simp [GridConfig.toEntries, topologyKey])
      config.depth_toFields_le]
    simp only [ofParts?, config.ofDatum?_toEntries]
    exact apply_ite (Option.map grid) _ _ _

/-- The document of a configuration can be written. -/
lemma sound_toJson (config : Config) : config.toJson.Sound := by
  cases config with
  | linear config =>
    exact Json.sound_ofFields (List.forall_mem_cons.mpr ⟨Json.sound_text _, config.sound_toFields⟩)
  | grid config =>
    exact Json.sound_ofFields (List.forall_mem_cons.mpr ⟨Json.sound_text _, config.sound_toFields⟩)

end Config

/-- A configuration for any topology is read back from its text exactly if there is no entry in its table of
hardware qubits, and refused otherwise. From the text of its fields without the topology, the configuration of
a chain or of a grid is read back with any table. -/
theorem configs_read_back (config : Config) :
    (Config.parse? config.render = if config.tableEntries.isEmpty then some config else none) ∧
    (∀ chain : LinearConfig, config = .linear chain →
      (Json.parse? (Json.ofFields chain.toFields).compact).bind LinearConfig.ofJson? = some chain) ∧
    ∀ grid : GridConfig, config = .grid grid →
      (Json.parse? (Json.ofFields grid.toFields).compact).bind GridConfig.ofJson? = some grid := by
  refine ⟨?_, ?_, ?_⟩
  · rw [Config.parse?, Config.render, Json.parse?_compact config.sound_toJson, Option.bind_some]
    exact config.ofJson?_toJson
  · rintro chain rfl
    rw [Json.parse?_compact (Json.sound_ofFields chain.sound_toFields), Option.bind_some]
    exact chain.ofJson?_toFields
  · rintro grid rfl
    rw [Json.parse?_compact (Json.sound_ofFields grid.sound_toFields), Option.bind_some]
    exact grid.ofJson?_toFields

/-- The table that exchanges the two qubits of a row is written but not read. -/
theorem config_not_read_back :
    (let config : Config :=
      .grid { rows := 1, columns := 2, hardware := some (OrderedMap.ofList [(0, ⟨1⟩), (1, ⟨0⟩)]) }
    Config.parse? config.render = none) := by
  intro config
  rw [Config.parse?, Config.render, Json.parse?_compact config.sound_toJson, Option.bind_some,
    config.ofJson?_toJson]
  rfl

end QubitRouting
