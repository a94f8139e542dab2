import Mathlib.Data.List.Nodup
import Mathlib.Tactic
import QubitRouting.Buffered

/-!
# Commands that can be buffered

A command passes its check if its operands fit what it does. The check does not depend on which qubits
it acts on as long as they differ, so it still passes after the qubits are renamed. The buffer takes
every such command on one or two qubits, and its shape tells what it does.
-/

namespace QubitRouting

namespace Command

variable {command : Command} {f : QubitId → QubitId}

/-! ### The check of a command -/

/-- The number of targets that a command needs. -/
def arity (command : Command) : Nat :=
  match command.kind with
  | .gate g => g.arity
  | _ => 1

/-- The operands of a command fit what it does. -/
structure OperandsFit (command : Command) : Prop where
  nonempty : command.qubits ≠ []
  count : command.targets.length = command.arity
  uncontrolled : (∃ g, command.kind = .gate g) ∨ command.controls = []
  nodup : command.qubits.Nodup

/-- No repetition is found exactly if the qubits are all different and none was seen before. -/
lemma firstRepeated?_eq_none {seen qubits : List QubitId} :
    firstRepeated? seen qubits = none ↔ qubits.Nodup ∧ ∀ q ∈ qubits, q ∉ seen := by
  induction qubits generalizing seen with
  | nil => exact ⟨fun _ => ⟨.nil, nofun⟩, fun _ => rfl⟩
  | cons q rest ih =>
    rw [firstRepeated?]
    split
    case isTrue known =>
      refine ⟨nofun, ?_⟩
      rintro ⟨_, apart⟩
      exact absurd known (apart q List.mem_cons_self)
    case isFalse unknown =>
      rw [ih, List.nodup_cons]
      constructor
      · rintro ⟨nodup, apart⟩
        refine ⟨⟨fun mem => apart q mem List.mem_cons_self, nodup⟩, ?_⟩
        intro r mem
        rcases List.mem_cons.mp mem with rfl | mem
        · exact unknown
        · exact fun known => apart r mem (List.mem_cons_of_mem _ known)
      · rintro ⟨⟨fresh, nodup⟩, apart⟩
        refine ⟨nodup, ?_⟩
        intro r mem known
        rcases List.mem_cons.mp known with rfl | known
        · exact fresh mem
        · exact apart r (List.mem_cons_of_mem _ mem) known

/-- The check of operands passes exactly for different qubits, at least one, with so many targets. -/
lemma checkOperands_eq_ok {expected : Nat} :
    command.checkOperands expected = .ok () ↔
      command.qubits ≠ [] ∧ command.targets.length = expected ∧ command.qubits.Nodup := by
  rw [checkOperands]
  split
  case isTrue empty =>
    refine ⟨nofun, fun fit => ?_⟩
    exact absurd (List.length_eq_zero_iff.mp empty) fit.1
  case isFalse nonempty =>
    split
    case isTrue wrong =>
      refine ⟨nofun, fun fit => ?_⟩
      exact absurd fit.2.1 wrong
    case isFalse right =>
      have unrepeated := @firstRepeated?_eq_none [] command.qubits
      split
      case h_1 q repeated =>
        refine ⟨nofun, fun fit => ?_⟩
        have none_found := unrepeated.mpr ⟨fit.2.2, fun _ _ => List.not_mem_nil⟩
        rw [repeated] at none_found
        cases none_found
      case h_2 none_found =>
        refine ⟨fun _ => ⟨?_, not_not.mp right, (unrepeated.mp none_found).1⟩, fun _ => rfl⟩
        exact fun empty => nonempty (List.length_eq_zero_iff.mpr empty)

/-- The operands fit exactly if only gates have controls and the check of operands passes. -/
lemma operandsFit_iff : command.OperandsFit ↔
    ((∃ g, command.kind = .gate g) ∨ command.controls = []) ∧
      command.checkOperands command.arity = .ok () := by
  rw [checkOperands_eq_ok]
  constructor
  · intro fit
    exact ⟨fit.uncontrolled, fit.nonempty, fit.count, fit.nodup⟩
  · rintro ⟨uncontrolled, nonempty, count, nodup⟩
    exact ⟨nonempty, count, uncontrolled, nodup⟩

/-- The check passes exactly if the operands fit. -/
lemma validate_eq_ok (notFlush : command.isFlush = false) :
    command.validate = .ok () ↔ command.OperandsFit := by
  rw [operandsFit_iff, validate, arity]
  cases kind : command.kind with
  | flush =>
    rw [isFlush, kind] at notFlush
    cases notFlush
  | gate g => exact (and_iff_right (.inl ⟨g, rfl⟩)).symm
  | measure => cases command.controls <;> simp
  | allocate => cases command.controls <;> simp
  | deallocate => cases command.controls <;> simp

/-- Only gates have controls or several targets. -/
lemma OperandsFit.exists_targets_eq (fit : command.OperandsFit) (other : ∀ g, command.kind ≠ .gate g) :
    ∃ q, command.controls = [] ∧ command.targets = [q] := by
  have count := fit.count
  rw [arity] at count
  split at count
  case h_1 g kind => exact absurd kind (other g)
  case h_2 =>
    obtain ⟨q, target⟩ := List.length_eq_one_iff.mp count
    rcases fit.uncontrolled with ⟨g, kind⟩ | uncontrolled
    · exact absurd kind (other g)
    · exact ⟨q, uncontrolled, target⟩

/-- A command other than a gate acts on one qubit. -/
lemma OperandsFit.length_eq_one (fit : command.OperandsFit) (other : ∀ g, command.kind ≠ .gate g) :
    command.qubits.length = 1 := by
  obtain ⟨q, uncontrolled, target⟩ := fit.exists_targets_eq other
  rw [qubits, uncontrolled, target]
  rfl

/-- Renaming the qubits of a command renames its targets. -/
lemma targets_mapQubits (f : QubitId → QubitId) (command : Command) :
    (command.mapQubits f).targets = command.targets.map f := by
  rw [targets, mapQubits, targets, List.map_flatten]

/-- Renaming the qubits of a command renames all of them, in order. -/
lemma qubits_mapQubits (f : QubitId → QubitId) (command : Command) :
    (command.mapQubits f).qubits = command.qubits.map f := by
  rw [qubits, targets_mapQubits, qubits, List.map_append]
  rfl

/-- Operands that differ still fit under other names that differ. -/
lemma OperandsFit.mapQubits (fit : command.OperandsFit)
    (inj : ∀ a ∈ command.qubits, ∀ b ∈ command.qubits, f a = f b → a = b) :
    (command.mapQubits f).OperandsFit := by
  refine ⟨?_, ?_, ?_, ?_⟩
  · rw [qubits_mapQubits, ne_eq, List.map_eq_nil_iff]
    exact fit.nonempty
  · rw [targets_mapQubits, List.length_map]
    exact fit.count
  · exact fit.uncontrolled.imp_right fun none => List.map_eq_nil_iff.mpr none
  · rw [qubits_mapQubits]
    exact fit.nodup.map_on inj

/-- A tag does not touch the operands. -/
lemma OperandsFit.withTag (fit : command.OperandsFit) (tag : Tag) :
    (command.withTag tag).OperandsFit :=
  ⟨fit.nonempty, fit.count, fit.uncontrolled, fit.nodup⟩

/-- The operand of an allocation fits. -/
lemma operandsFit_allocate (q : QubitId) : (allocate q).OperandsFit :=
  ⟨List.cons_ne_nil _ _, rfl, .inr rfl, List.nodup_singleton q⟩

/-- The operand of a release fits. -/
lemma operandsFit_deallocate (q : QubitId) : (deallocate q).OperandsFit :=
  ⟨List.cons_ne_nil _ _, rfl, .inr rfl, List.nodup_singleton q⟩

/-- A swap acts on its two qubits. -/
lemma qubits_swap (a b : QubitId) : (gate .swap [a, b]).qubits = [a, b] := rfl

/-- The operands of a swap fit if they are different. -/
lemma operandsFit_swap {a b : QubitId} (ne : a ≠ b) : (gate .swap [a, b]).OperandsFit :=
  ⟨List.cons_ne_nil _ _, rfl, .inr rfl, List.nodup_cons.mpr ⟨by simpa, List.nodup_singleton b⟩⟩

end Command

/-! ### What a shape tells -/

/-- The shape names the qubits of a command and tells whether it allocates or releases one. -/
def Shape.Describes (shape : Shape) (command : Command) : Prop :=
  command.qubits = shape.qubits ∧
    match shape with
    | .allocate _ => command.kind = .allocate
    | .deallocate _ => command.kind = .deallocate
    | .single _ | .pair _ _ => command.kind ≠ .allocate ∧ command.kind ≠ .deallocate

namespace Buffered

variable {b : Buffered} {command : Command}

/-- A command as it stands in the buffer: its shape is the one the command was given there. -/
def Classified (b : Buffered) : Prop := classify b.command = .ok b

/-- A command that goes to the buffer goes there unchanged, is no flush, has operands that fit,
and its shape describes it. -/
lemma of_classify (classified : classify command = .ok b) :
    b.command = command ∧ command.isFlush = false ∧ command.OperandsFit ∧ b.shape.Describes command := by
  rw [classify] at classified
  split at classified
  case isTrue => cases classified
  case isFalse flush =>
    have notFlush : command.isFlush = false := Bool.eq_false_iff.mpr flush
    split at classified
    case h_1 q operands =>
      cases valid : command.validate with
      | error cause =>
        rw [valid] at classified
        cases classified
      | ok =>
        have fit := (Command.validate_eq_ok notFlush).mp valid
        rw [valid] at classified
        dsimp only at classified
        split at classified
        case h_1 kind =>
          cases classified
          exact ⟨rfl, notFlush, fit, operands, kind⟩
        case h_2 kind =>
          cases classified
          exact ⟨rfl, notFlush, fit, operands, kind⟩
        case h_3 notAllocate notDeallocate =>
          cases classified
          exact ⟨rfl, notFlush, fit, operands, notAllocate, notDeallocate⟩
    case h_2 x y operands =>
      cases valid : command.validate with
      | error cause =>
        rw [valid] at classified
        cases classified
      | ok =>
        have fit := (Command.validate_eq_ok notFlush).mp valid
        rw [valid] at classified
        cases classified
        -- a command on two qubits is a gate
        have gate {kind : CommandKind} (other : ∀ g, kind ≠ .gate g) : command.kind ≠ kind := by
          rintro rfl
          have single := fit.length_eq_one other
          rw [operands] at single
          cases single
        exact ⟨rfl, notFlush, fit, operands, gate nofun, gate nofun⟩
    case h_3 => cases classified

/-- What goes to the buffer has the shape it was given there. -/
lemma classified_of_classify (classified : classify command = .ok b) : b.Classified := by
  rw [Classified, (of_classify classified).1]
  exact classified

/-- The operands of a buffered command fit. -/
lemma Classified.operandsFit (classified : b.Classified) : b.command.OperandsFit :=
  (of_classify classified).2.2.1

/-- The shape of a buffered command describes it. -/
lemma Classified.describes (classified : b.Classified) : b.shape.Describes b.command :=
  (of_classify classified).2.2.2

/-- The two qubits of a buffered command differ. -/
lemma Classified.distinct (classified : b.Classified) {x y : QubitId} (shape : b.shape = .pair x y) :
    x ≠ y := by
  rintro rfl
  have nodup := classified.operandsFit.nodup
  rw [classified.describes.1, shape] at nodup
  exact (List.nodup_cons.mp nodup).1 List.mem_cons_self

/-- Every command on one or two qubits whose operands fit can be buffered. -/
lemma exists_classify (notFlush : command.isFlush = false) (fit : command.OperandsFit)
    (few : command.qubits.length ≤ 2) : ∃ b, classify command = .ok b := by
  have valid := (Command.validate_eq_ok notFlush).mpr fit
  rw [classify, if_neg (Bool.eq_false_iff.mp notFlush)]
  match operands : command.qubits with
  | [] => exact absurd operands fit.nonempty
  | [q] =>
    simp only [valid]
    split
    · exact ⟨_, rfl⟩
    · exact ⟨_, rfl⟩
    · exact ⟨_, rfl⟩
  | [x, y] =>
    simp only [valid]
    exact ⟨_, rfl⟩
  | x :: y :: z :: rest =>
    rw [operands] at few
    simp only [List.length_cons] at few
    omega

end Buffered

end QubitRouting
