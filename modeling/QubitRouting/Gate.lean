import QubitRouting.Angle

/-!
# Gates

The gates a command can apply. Controls belong to the command, not to the gate, so a controlled-X on
two targets and an X with one control are both commands on two qubits.
-/

namespace QubitRouting

/-- A gate with its angle, if it has one. -/
inductive Gate where
  | i | x | y | z | h | s | sdg | t | tdg
  | rx (angle : Angle) | ry (angle : Angle) | rz (angle : Angle) | p (angle : Angle)
  | cx | cz | swap
  | cp (angle : Angle) | rzz (angle : Angle)
  | ccx | cswap
deriving DecidableEq

namespace Gate

/-- The lower-case name of a gate. -/
def name : Gate → String
  | i => "id"
  | x => "x"
  | y => "y"
  | z => "z"
  | h => "h"
  | s => "s"
  | sdg => "sdg"
  | t => "t"
  | tdg => "tdg"
  | rx _ => "rx"
  | ry _ => "ry"
  | rz _ => "rz"
  | p _ => "p"
  | cx => "cx"
  | cz => "cz"
  | swap => "swap"
  | cp _ => "cp"
  | rzz _ => "rzz"
  | ccx => "ccx"
  | cswap => "cswap"

/-- The key of a gate in documents and descriptions. -/
def key : Gate → String
  | i => "I"
  | x => "X"
  | y => "Y"
  | z => "Z"
  | h => "H"
  | s => "S"
  | sdg => "Sdg"
  | t => "T"
  | tdg => "Tdg"
  | rx _ => "Rx"
  | ry _ => "Ry"
  | rz _ => "Rz"
  | p _ => "P"
  | cx => "CX"
  | cz => "CZ"
  | swap => "Swap"
  | cp _ => "CP"
  | rzz _ => "RZZ"
  | ccx => "CCX"
  | cswap => "CSwap"

/-- The angle of a rotation or phase gate. -/
def angle? : Gate → Option Angle
  | rx angle | ry angle | rz angle | p angle | cp angle | rzz angle => some angle
  | _ => none

/-- The number of target qubits, controls not counted. -/
def arity : Gate → Nat
  | i | x | y | z | h | s | sdg | t | tdg | rx _ | ry _ | rz _ | p _ => 1
  | cx | cz | swap | cp _ | rzz _ => 2
  | ccx | cswap => 3

/-- The gate without an angle that has the given key. -/
def ofKey? : String → Option Gate
  | "I" => some i
  | "X" => some x
  | "Y" => some y
  | "Z" => some z
  | "H" => some h
  | "S" => some s
  | "Sdg" => some sdg
  | "T" => some t
  | "Tdg" => some tdg
  | "CX" => some cx
  | "CZ" => some cz
  | "Swap" => some swap
  | "CCX" => some ccx
  | "CSwap" => some cswap
  | _ => none

/-- The gate with an angle that has the given key. -/
def ofAngleKey? (key : String) (angle : Angle) : Option Gate :=
  match key with
  | "Rx" => some (rx angle)
  | "Ry" => some (ry angle)
  | "Rz" => some (rz angle)
  | "P" => some (p angle)
  | "CP" => some (cp angle)
  | "RZZ" => some (rzz angle)
  | _ => none

end Gate

end QubitRouting
