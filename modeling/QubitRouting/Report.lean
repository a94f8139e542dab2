import QubitRouting.Mapper

/-!
# Reports

Routing a whole circuit and summing up what it took.
-/

namespace QubitRouting

/-- A summary of one routed circuit. -/
structure Report where
  strategy : String
  inputCommands : Nat
  outputCommands : Nat
  insertedSwaps : Nat
  statistics : Statistics

/-- Send a circuit through a mapper; gives the commands sent and a summary. -/
def Mapper.route (mapper : Mapper) (circuit : List Command) : Except Failure (List Command × Report) :=
  let outcome := mapper.receive circuit
  match outcome.failure with
  | some failure => .error failure
  | none =>
    .ok (outcome.sent,
      { strategy := outcome.mapper.router.name
        inputCommands := circuit.length
        outputCommands := outcome.sent.length
        insertedSwaps := outcome.mapper.statistics.totalSwaps
        statistics := outcome.mapper.statistics })

end QubitRouting
