import QubitRouting.Command
import QubitRouting.Fault
import QubitRouting.Random.Draw

/-!
# Circuits

Circuits to route: every one allocates its qubits, releases them at the end and finishes with a flush.
-/

namespace QubitRouting.Circuit

open QubitRouting.Random (Stream)

/-- The first qubits, as many as asked for. -/
def firstQubits (count : Nat) : List QubitId := (List.range count).map QubitId.ofNat

/-- A circuit with the given commands between the allocation and the release of its qubits. -/
def wrap (numQubits : Nat) (body : List Command) : List Command :=
  let qubits := firstQubits numQubits
  qubits.map Command.allocate ++ body ++ qubits.map Command.deallocate ++ [Command.flush]

/-- The preparation of an entangled state: a Hadamard gate on the first qubit, a controlled X from it
to each other qubit, and a measurement of all. -/
def ghz (numQubits : Nat) : List Command :=
  let qubits := firstQubits numQubits
  let spread :=
    match qubits with
    | [] => []
    | first :: others =>
      Command.gate .h [first] :: others.map fun target => Command.controlled .x [first] [target]
  wrap numQubits (spread ++ qubits.map Command.measure)

/-- Half a turn. -/
def halfTurn : Float := Float.ofBits 0x400921fb54442d18

/-- A full turn. -/
def fullTurn : Float := Float.ofBits 0x401921fb54442d18

/-- Half a turn, halved once for each step between two qubits but never more than 31 times. -/
def phaseAngle (distance : Nat) : Angle :=
  ⟨(halfTurn / Float.ofNat (Nat.pow 2 (min distance 31))).toBits⟩

/-- The Fourier transform without the final reversal: a controlled phase for every pair of qubits. -/
def fourier (numQubits : Nat) : List Command :=
  let phase (target control : Nat) : Command :=
    Command.controlled (.p (phaseAngle (control - target))) [QubitId.ofNat control]
      [QubitId.ofNat target]
  let controlsOf (target : Nat) := (List.range numQubits).filter (target < ·)
  wrap numQubits ((List.range numQubits).flatMap fun target =>
    Command.gate .h [QubitId.ofNat target] :: (controlsOf target).map (phase target))

/-- A random gate on one qubit. -/
def randomSingle (stream : Stream) : Gate × Stream :=
  match Random.below 3 stream with
  | (0, stream) => (.h, stream)
  | (1, stream) => (.t, stream)
  | (_, stream) =>
    let (angle, stream) := Random.fractionOf fullTurn stream
    (.rz ⟨angle.toBits⟩, stream)

/-- A random gate: with two qubits or more, every other one acts on two of them. -/
def randomCommand (numQubits : Nat) (stream : Stream) : Except Fault (Command × Stream) :=
  let (a, stream) := Random.below numQubits stream
  let (two, stream) := if numQubits ≥ 2 then Random.coin stream else (false, stream)
  if two then do
    let (step, stream) := Random.below (numQubits - 1) stream
    let sum ← word32 (a + (1 + step))
    return (Command.gate .cz [QubitId.ofNat a, QubitId.ofNat (sum % numQubits)], stream)
  else
    let (gate, stream) := randomSingle stream
    .ok (Command.gate gate [QubitId.ofNat a], stream)

/-- The given number of random gates. -/
def randomCommands (numQubits : Nat) : Nat → Stream → Except Fault (List Command)
  | 0, _ => .ok []
  | count + 1, stream => do
    let (command, stream) ← randomCommand numQubits stream
    let rest ← randomCommands numQubits count stream
    return command :: rest

/-- A circuit of random gates. -/
def random (numQubits numGates : Nat) (seed : UInt64) : Except Fault (List Command) :=
  if numQubits = 0 then .ok (wrap 0 [])
  else do return wrap numQubits (← randomCommands numQubits numGates (Stream.ofSeed seed))

end QubitRouting.Circuit
