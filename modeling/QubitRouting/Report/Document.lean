import QubitRouting.Report
import QubitRouting.Statistics.Document

/-!
# Reports as JSON
-/

namespace QubitRouting

/-- The document of a report. -/
def Report.toJson (report : Report) : Json :=
  .ofFields
    [ ("strategy", .text report.strategy),
      ("input_commands", .ofNat report.inputCommands),
      ("output_commands", .ofNat report.outputCommands),
      ("inserted_swaps", .ofNat report.insertedSwaps),
      ("statistics", report.statistics.toJson) ]

end QubitRouting
