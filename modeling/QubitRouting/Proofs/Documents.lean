import QubitRouting.Command.Document
import QubitRouting.Proofs.Json.Record
import QubitRouting.Statistics.Document

/-!
# Commands and statistics are read back

Each part of a command is read back from its document whatever it is, but for its angle. Only a finite
angle has a numeral, and numerals are read by scaling in binary64, which rounds twice, so that some are read
as a neighbour of the angle that they were written for. A command is therefore read back exactly if its angle
is, and statistics exactly if their numbers are words.
-/

namespace QubitRouting

variable {angle : Angle} {gate : Gate} {command : Command} {statistics : Statistics}

/-! ### Angles and gates -/

/-- The numeral that is written for an angle is read as the same bits. -/
def Angle.ReadsBack (angle : Angle) : Prop :=
  (Json.parse? (Json.number (angle.toNumeral documentStyle)).compact).bind ofJson? = some angle

/-- The numeral of an angle can be written. -/
lemma Angle.sound_number (angle : Angle) : (Json.number (angle.toNumeral documentStyle)).Sound := by
  have sound : (angle.toNumeral documentStyle).Sound := Numeral.sound_layOut _ _ _
  simpa only [Json.Sound, Json.tokens, List.mem_singleton, forall_eq, Json.Token.Sound] using sound

/-- The document of an angle can be written. -/
lemma Angle.sound_toJson (angle : Angle) : angle.toJson.Sound := by
  rw [toJson]
  split
  · exact angle.sound_number
  · exact Json.sound_null

/-- An angle is read back exactly if its numeral has its bits. -/
lemma Angle.readsBack_iff : angle.ReadsBack ↔ (angle.toNumeral documentStyle).bits? = some angle.bits := by
  rw [ReadsBack, Json.parse?_compact angle.sound_number, Option.bind_some, ofJson?, Option.map_eq_some_iff]
  constructor
  · rintro ⟨bits, read, rfl⟩
    exact read
  · intro read
    exact ⟨angle.bits, read, rfl⟩

-- The numeral `5.3909500419728476` is read as a neighbour of the angle that it is written for.
example : ¬(⟨0x40159055353292a5⟩ : Angle).ReadsBack := by
  rw [Angle.readsBack_iff]
  decide +kernel

/-- An angle is read back from its document exactly if it has a numeral that is. -/
lemma Angle.ofJson?_toJson_iff :
    Angle.ofJson? angle.toJson = some angle ↔ angle.isFinite = true ∧ angle.ReadsBack := by
  rw [ReadsBack, Json.parse?_compact angle.sound_number, Option.bind_some, toJson]
  split
  · next finite => rw [and_iff_right finite]
  · next infinite => simp only [ofJson?, infinite, reduceCtorEq, false_and]

/-- A qubit is read back from its document. -/
@[simp]
lemma QubitId.ofJson?_toJson (q : QubitId) : QubitId.ofJson? q.toJson = some q := by
  rw [ofJson?, toJson, toNat, Json.toUInt32?_ofNat]
  rfl

/-- The document of a qubit can be written. -/
lemma QubitId.sound_toJson (q : QubitId) : q.toJson.Sound := Json.sound_ofNat q.toNat

/-- A gate without an angle is read back. -/
lemma Gate.ofJson?_toJson_of_none (plain : gate.angle? = none) : Gate.ofJson? gate.toJson = some gate := by
  have document : gate.toJson = .text gate.key := by rw [toJson, plain]
  rw [ofJson?, document, Json.variant?_text]
  cases gate with
  | rx | ry | rz | p | cp | rzz => cases plain
  | _ => rfl

/-- A gate is read back with the angle that is read. -/
lemma Gate.ofJson?_toJson_of_some (rotates : gate.angle? = some angle) :
    Gate.ofJson? gate.toJson = (Angle.ofJson? angle.toJson).bind (Gate.ofAngleKey? gate.key) := by
  have document : gate.toJson = .ofFields [(gate.key, angle.toJson)] := by rw [toJson, rotates]
  rw [ofJson?, document, Json.variant?_ofFields]
  generalize angle.toJson = content
  cases gate with
  | rx | ry | rz | p | cp | rzz => rfl
  | _ => cases rotates

/-- The key of a gate with an angle gives it back. -/
lemma Gate.ofAngleKey?_key_iff {read : Angle} (rotates : gate.angle? = some angle) :
    Gate.ofAngleKey? gate.key read = some gate ↔ read = angle := by
  cases gate with
  | rx | ry | rz | p | cp | rzz =>
    cases rotates
    simp only [key, ofAngleKey?, Option.some.injEq, rx.injEq, ry.injEq, rz.injEq, p.injEq, cp.injEq, rzz.injEq]
  | _ => cases rotates

/-- A gate is read back exactly if its angle is, in case it has one. -/
lemma Gate.ofJson?_toJson_iff : Gate.ofJson? gate.toJson = some gate ↔
    ∀ angle, gate.angle? = some angle → angle.isFinite = true ∧ angle.ReadsBack := by
  cases rotates : gate.angle? with
  | none => simp [Gate.ofJson?_toJson_of_none rotates]
  | some angle =>
    simp only [Gate.ofJson?_toJson_of_some rotates, Option.bind_eq_some_iff,
      Gate.ofAngleKey?_key_iff rotates, exists_eq_right, Angle.ofJson?_toJson_iff, Option.some.injEq,
      forall_eq']

/-- The document of a gate can be written. -/
lemma Gate.sound_toJson (gate : Gate) : gate.toJson.Sound := by
  rw [toJson]
  cases gate.angle? with
  | none => exact Json.sound_text _
  | some angle => exact Json.sound_ofFields (by simp [angle.sound_toJson])

/-! ### Commands -/

/-- The angle of a command that applies a rotation or phase gate. -/
def Command.angle? (command : Command) : Option Angle :=
  match command.kind with
  | .gate gate => gate.angle?
  | _ => none

/-- Reading back what a gate command does is reading back the gate. -/
lemma CommandKind.ofJson?_toJson_gate (gate : Gate) :
    CommandKind.ofJson? (CommandKind.gate gate).toJson = (Gate.ofJson? gate.toJson).map CommandKind.gate := by
  simp only [ofJson?, toJson, Json.variant?_ofFields, Option.bind_eq_bind, Option.bind_some, if_true]
  cases Gate.ofJson? gate.toJson <;> rfl

/-- What a command does is read back unless it applies a gate. -/
lemma CommandKind.ofJson?_toJson_of_ne {kind : CommandKind} (plain : ∀ gate, kind ≠ .gate gate) :
    CommandKind.ofJson? kind.toJson = some kind := by
  rw [ofJson?]
  cases kind with
  | gate gate => exact absurd rfl (plain gate)
  | _ =>
    rw [toJson, Json.variant?_text]
    rfl

/-- The document of what a command does can be written. -/
lemma CommandKind.sound_toJson (kind : CommandKind) : kind.toJson.Sound := by
  cases kind with
  | gate gate => exact Json.sound_ofFields (by simp [gate.sound_toJson])
  | _ => exact Json.sound_text _

/-- A tag is read back from its document. -/
@[simp]
lemma Tag.ofJson?_toJson (tag : Tag) : Tag.ofJson? tag.toJson = some tag := by
  cases tag with
  | logicalQubit q => simp [ofJson?, toJson]
  | label text => simp [ofJson?, toJson]

/-- The document of a tag can be written. -/
lemma Tag.sound_toJson (tag : Tag) : tag.toJson.Sound := by
  cases tag with
  | logicalQubit q => exact Json.sound_ofFields (by simp [q.sound_toJson])
  | label text => exact Json.sound_ofFields (by simp [Json.sound_text])

/-- A list is read back if its items are. -/
lemma Json.list?_array {α : Type} {read : Json → Option α} {write : α → Json}
    (reads : ∀ item, read (write item) = some item) (items : List α) :
    Json.list? read (.array (items.map write)) = some items := by
  have same := mapM_eq_some_map (fun item (_ : item ∈ items) => reads item)
  rw [List.map_id'] at same
  rw [list?, items?]
  exact (List.mapM_map ..).trans same

namespace Command

/-- All of a command but its kind is read back. -/
lemma ofJson?_toJson (command : Command) :
    ofJson? command.toJson
      = (CommandKind.ofJson? command.kind.toJson).map fun kind => { command with kind } := by
  have qubits := Json.list?_array QubitId.ofJson?_toJson
  rw [ofJson?, toJson, @Json.record?_ofFields fieldNames _ rfl (by decide), Option.map_eq_bind]
  simp [Json.list?_array qubits, qubits, Json.list?_array Tag.ofJson?_toJson]

/-- A command is read back from its document exactly if its angle is, in case it has one. -/
lemma ofJson?_toJson_iff : ofJson? command.toJson = some command ↔
    ∀ angle, command.angle? = some angle → angle.isFinite = true ∧ angle.ReadsBack := by
  obtain ⟨kind, registers, controls, tags⟩ := command
  rw [ofJson?_toJson, angle?]
  cases kind with
  | gate gate => simp [CommandKind.ofJson?_toJson_gate, Gate.ofJson?_toJson_iff]
  | _ => simp [CommandKind.ofJson?_toJson_of_ne]

/-- The document of a command can be written. -/
lemma sound_toJson (command : Command) : command.toJson.Sound := by
  have qubits (register : List QubitId) : (Json.array (register.map QubitId.toJson)).Sound :=
    Json.sound_array (by simp [QubitId.sound_toJson])
  apply Json.sound_ofFields
  simp [CommandKind.sound_toJson, qubits, Json.sound_array, Tag.sound_toJson]

end Command

/-! ### Statistics -/

namespace Statistics

/-- Every counter is a 64-bit number, and so is every depth and every number of swaps. -/
structure InWords (statistics : Statistics) : Prop where
  numMappings : statistics.numMappings < UInt64.size
  depths : ∀ entry ∈ statistics.depths.entries, entry.1 < UInt64.size ∧ entry.2 < UInt64.size
  counts : ∀ entry ∈ statistics.counts.entries, entry.1 < UInt64.size ∧ entry.2 < UInt64.size

/-- A histogram is read back exactly if all its keys and counts fit a word. -/
lemma histogramOfJson?_toJson_iff {histogram : OrderedMap Nat Nat} :
    histogramOfJson? (histogramToJson histogram) = some histogram ↔
      ∀ entry ∈ histogram.entries, entry.1 < UInt64.size ∧ entry.2 < UInt64.size := by
  constructor
  · intro read entry mem
    obtain ⟨⟨key, readsKey⟩, value, readsValue⟩ := Json.exists_of_map? read entry mem
    exact ⟨Json.lt_of_keyBelow? readsKey, (Json.natBelow?_eq_some_iff.mp readsValue).2⟩
  · intro small
    apply Json.map?_ofMap
    intro entry mem
    exact ⟨Json.keyBelow?_ofText (small entry mem).1, Json.natBelow?_ofNat (small entry mem).2⟩

/-- Statistics are read back exactly if all their numbers are words. -/
lemma ofJson?_toJson_iff : ofJson? statistics.toJson = some statistics ↔ statistics.InWords := by
  obtain ⟨numMappings, depths, counts⟩ := statistics
  rw [ofJson?, toJson, @Json.record?_ofFields fieldNames _ rfl (by decide)]
  simp only [List.map_cons, List.map_nil, Option.bind_eq_bind, Option.bind_some, Option.bind_eq_some_iff,
    Json.natBelow?_eq_some_iff, Json.toNat?_ofNat, Option.pure_def, Option.some.injEq, Statistics.mk.injEq]
  constructor
  · rintro ⟨_, ⟨_, small⟩, _, readsDepths, _, readsCounts, rfl, rfl, rfl⟩
    exact ⟨small, histogramOfJson?_toJson_iff.mp readsDepths, histogramOfJson?_toJson_iff.mp readsCounts⟩
  · rintro ⟨small, smallDepths, smallCounts⟩
    exact ⟨_, ⟨rfl, small⟩, _, histogramOfJson?_toJson_iff.mpr smallDepths, _,
      histogramOfJson?_toJson_iff.mpr smallCounts, rfl, rfl, rfl⟩

/-- The document of statistics can be written. -/
lemma sound_toJson (statistics : Statistics) : statistics.toJson.Sound := by
  have histogram (histogram : OrderedMap Nat Nat) : (histogramToJson histogram).Sound :=
    Json.sound_ofMap Json.sound_ofNat histogram
  apply Json.sound_ofFields
  simp [Json.sound_ofNat, histogram]

end Statistics

/-- A command is read back from its text exactly if its angle, in case it has one, is a finite number whose
numeral is read as the same bits; registers, controls and tags may be any. Statistics are read back exactly
if all their numbers are words. -/
theorem documents_read_back :
    (∀ command : Command, Command.parse? command.render = some command ↔
      ∀ angle, command.angle? = some angle → angle.isFinite = true ∧ angle.ReadsBack) ∧
    ∀ statistics : Statistics,
      Statistics.parse? statistics.render = some statistics ↔ statistics.InWords := by
  constructor
  · intro command
    rw [Command.parse?, Command.render, Json.parse?_compact command.sound_toJson, Option.bind_some]
    exact Command.ofJson?_toJson_iff
  · intro statistics
    rw [Statistics.parse?, Statistics.render, Json.parse?_compact statistics.sound_toJson, Option.bind_some]
    exact Statistics.ofJson?_toJson_iff

/-- Empty registers, escapes and characters beyond the basic plane, the angle `π`, and the largest words. -/
theorem documents_read_back_at_limits :
    (let command : Command :=
      { kind := .gate (.rzz ⟨0x400921FB54442D18⟩),
        registers := [[], [⟨4294967295⟩, ⟨0⟩], []],
        controls := [⟨7⟩],
        tags := [.label "\"\\/\n\x01\x7f é 😀", .logicalQubit ⟨4294967295⟩, .label ""] }
    Command.parse? command.render = some command) ∧
    (let statistics : Statistics :=
      { numMappings := 18446744073709551615,
        depths := OrderedMap.ofList [(18446744073709551615, 0), (10, 18446744073709551615)] }
    Statistics.parse? statistics.render = some statistics) := by
  constructor
  · refine (documents_read_back.1 _).mpr ?_
    rintro angle ⟨⟩
    exact ⟨by decide +kernel, Angle.readsBack_iff.mpr (by decide +kernel)⟩
  · refine (documents_read_back.2 _).mpr ⟨by decide, ?_, ?_⟩
    · decide +kernel
    · decide +kernel

end QubitRouting
