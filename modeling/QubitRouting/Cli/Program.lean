import QubitRouting.Circuit
import QubitRouting.Cli.Options
import QubitRouting.Config.Yaml
import QubitRouting.Report.Document

/-!
# The demonstration program

Route a circuit on a chain or a grid and report the swaps that it took.
-/

namespace QubitRouting.Cli

/-- How a run ends: its exit code and what it printed. -/
structure Ending where
  code : UInt8 := 0
  output : String := ""
  errors : String := ""

/-- The ending of a run whose options are misused. -/
def misuse : Ending := { code := 2, errors := "error: invalid arguments\n" }

/-- The message of an error and of what caused it. -/
def causeChain (error : RoutingError) : List String :=
  match error with
  | .command cause => [error.message, cause.message]
  | .file cause => [error.message, cause.message]
  | _ => [error.message]

/-- The lines that report causes: a single one as it is, several ones numbered. -/
def causeLines : List String → String
  | [] => ""
  | [cause] => "\n\nCaused by:\n    " ++ cause
  | causes => "\n\nCaused by:" ++ String.join (causes.zipIdx.map fun (cause, index) =>
      "\n    " ++ toString index ++ ": " ++ cause)

/-- The ending of a run that reports an error, the outermost message first. -/
def failed (messages : List String) : Ending :=
  { code := 1, errors := "Error: " ++ messages.headD "" ++ causeLines (messages.drop 1) ++ "\n" }

/-- The ending of a run that failed. -/
def ofFailure : Failure → Ending
  | .fault _ => { code := 101 }
  | .error error => failed (causeChain error)

/-- The configuration that the topology options describe. -/
def Options.toConfig (options : Options) : Config :=
  match options.topology with
  | .linear => .linear { numQubits := options.qubits, cyclic := options.cyclic }
  | .grid =>
    .grid {
      rows := options.rows
      columns := options.columns
      objective := if options.swapCount then .swapCount else .swapDepth }

/-- The configuration of a run. `contents` are those of the configuration file, if one is asked for. -/
def Options.load (options : Options) (contents : Except FileError ByteArray) : Except Ending Config :=
  match options.config with
  | some path =>
    match Config.ofFile contents with
    | .error error => .error (failed (("loading mapper config " ++ path) :: causeChain error))
    | .ok config => .ok config
  | none =>
    match options.toConfig.validate with
    | .error cause => .error (failed (causeChain (.setting cause)))
    | .ok () => .ok options.toConfig

/-- The number of qubits of a device. -/
def numQubits : Config → Except Fault Nat
  | .linear config => .ok config.numQubits.toNat
  | .grid config => (Grid.mk config.rows.toNat config.columns.toNat).numQubits

/-- The circuit to route. -/
def Options.toCircuit (options : Options) (numQubits : Nat) : Except Fault (List Command) :=
  match options.circuit with
  | .ghz => .ok (Circuit.ghz numQubits)
  | .fourier => .ok (Circuit.fourier numQubits)
  | .random => Circuit.random numQubits options.gates.toNat options.seed

/-- Route the circuit on the device. -/
def Options.route (options : Options) (config : Config) : Except Failure (List Command × Report) := do
  let size ← Failure.ofChecked (numQubits config)
  let circuit ← Failure.ofChecked (options.toCircuit size)
  let mapper ← config.mapper
  mapper.route circuit

/-! ## Output -/

/-- A line made of one character. -/
def rule (c : Char) (width : Nat) : String := String.ofList (List.replicate width c) ++ "\n"

/-- The header of the output. -/
def header (title : String) : String := "\n" ++ rule '═' 60 ++ "  " ++ title ++ "\n" ++ rule '═' 60 ++ "\n"

/-- The start of a section. -/
def sectionStart (title : String) : String := "\n▶ " ++ title ++ "\n" ++ rule '─' 40

/-- A line with a label and a number. -/
def resultLine (label : String) (value : String) : String := "  " ++ label ++ ": " ++ value ++ "\n"

/-- A line for a command. -/
def commandLine (command : Command) : String :=
  "  " ++ command.name ++ " " ++ ", ".intercalate (command.qubits.map QubitId.label) ++ "\n"

/-- The section on how many swaps and commands there are. -/
def summary (report : Report) : String :=
  sectionStart "Routing"
    ++ resultLine "Strategy" report.strategy
    ++ resultLine "Input commands" (toString report.inputCommands)
    ++ resultLine "Output commands" (toString report.outputCommands)
    ++ resultLine "Inserted swaps" (toString report.insertedSwaps)
    ++ resultLine "Remaps with swaps" (toString report.statistics.numMappings)

/-- The section on the depths of the swaps, if there were any. -/
def histogram (report : Report) : String :=
  let depths := report.statistics.depths.entries
  if depths.isEmpty then ""
  else
    sectionStart "Swap Depth Histogram"
      ++ String.join (depths.map fun (depth, count) => resultLine s!"depth {depth}" (toString count))

/-- The section that lists the commands. -/
def listing (commands : List Command) : String :=
  sectionStart "Routed Commands" ++ String.join (commands.map commandLine)

/-- What a run prints. -/
def Options.print (options : Options) (commands : List Command) (report : Report) : String :=
  if options.json then report.toJson.pretty ++ "\n"
  else
    header "qroute Mapping Demo" ++ summary report ++ histogram report
      ++ (if options.showCommands then listing commands else "")
      ++ "\n✓ Circuit routed\n"

/-- A run with the given options. `contents` are those of the configuration file, if one is asked for. -/
def Options.run (options : Options) (contents : Except FileError ByteArray) : Ending :=
  match options.load contents with
  | .error ending => ending
  | .ok config =>
    match options.route config with
    | .error failure => ofFailure failure
    | .ok (commands, report) => { output := options.print commands report }

end QubitRouting.Cli
