/-!
# Command line options

The options of the demonstration program. An option is written `--name value` or `--name=value`, some
also by a letter as `-n value`, `-nvalue` or `-n=value`; no option may be given twice, and there are no
other arguments.
-/

namespace QubitRouting.Cli

/-- An option that is on or off. -/
inductive Flag where
  | cyclic | swapCount | showCommands | json | verbose
deriving DecidableEq

/-- An option with a value. -/
inductive Setting where
  | config | topology | qubits | rows | columns | circuit | gates | seed
deriving DecidableEq

/-- An option of either kind. -/
inductive OptionName where
  | flag (flag : Flag)
  | setting (setting : Setting)

/-- The option of a long name. -/
def ofName? : String → Option OptionName
  | "cyclic" => some (.flag .cyclic)
  | "swap-count" => some (.flag .swapCount)
  | "show-commands" => some (.flag .showCommands)
  | "json" => some (.flag .json)
  | "verbose" => some (.flag .verbose)
  | "config" => some (.setting .config)
  | "topology" => some (.setting .topology)
  | "qubits" => some (.setting .qubits)
  | "rows" => some (.setting .rows)
  | "columns" => some (.setting .columns)
  | "circuit" => some (.setting .circuit)
  | "gates" => some (.setting .gates)
  | "seed" => some (.setting .seed)
  | _ => none

/-- The option of a letter. -/
def ofLetter? : Char → Option OptionName
  | 'c' => some (.setting .config)
  | 't' => some (.setting .topology)
  | 'n' => some (.setting .qubits)
  | 'v' => some (.flag .verbose)
  | _ => none

/-- The options given, as they are written. -/
structure Given where
  flags : List Flag := []
  settings : List (Setting × String) := []

/-- One more flag, unless it was given before. -/
def Given.addFlag (given : Given) (flag : Flag) : Option Given :=
  if flag ∈ given.flags then none else some { given with flags := flag :: given.flags }

/-- The value of a setting. -/
def Given.value? (given : Given) (setting : Setting) : Option String := given.settings.lookup setting

/-- One more setting, unless it was given before. -/
def Given.addSetting (given : Given) (setting : Setting) (value : String) : Option Given :=
  if (given.value? setting).isSome then none
  else some { given with settings := (setting, value) :: given.settings }

/-- Whether an argument is an option and so no value: it starts with a dash and goes on. -/
def looksLikeOption (argument : String) : Bool :=
  match argument.toList with
  | '-' :: _ :: _ => true
  | _ => false

/-- One argument taken apart. -/
inductive Argument where
  | complete (given : Given)
  /-- Options of which the last one takes its value from the next argument. -/
  | awaiting (given : Given) (setting : Setting)

/-- An option by its long name, with the value after an equals sign if there is one. -/
def readLong (given : Given) (name : String) (value : Option String) : Option Argument := do
  match ← ofName? name, value with
  | .flag flag, none => return .complete (← given.addFlag flag)
  | .flag _, some _ => none
  | .setting setting, some value => return .complete (← given.addSetting setting value)
  | .setting setting, none => return .awaiting given setting

/-- Options by their letters; the first one with a value takes what is left of the argument. -/
def readLetters (given : Given) : List Char → Option Argument
  | [] => some (.complete given)
  | letter :: rest => do
    match ← ofLetter? letter with
    | .flag flag => readLetters (← given.addFlag flag) rest
    | .setting setting =>
      match rest with
      | [] => return .awaiting given setting
      | '=' :: value => return .complete (← given.addSetting setting (String.ofList value))
      | value => return .complete (← given.addSetting setting (String.ofList value))

/-- One argument. -/
def readArgument (given : Given) (argument : String) : Option Argument :=
  match argument.toList with
  | '-' :: '-' :: text =>
    let name := String.ofList (text.takeWhile (· != '='))
    match text.dropWhile (· != '=') with
    | '=' :: value => readLong given name (some (String.ofList value))
    | _ => readLong given name none
  | '-' :: letter :: letters => readLetters given (letter :: letters)
  | _ => none

/-- The options of a list of arguments. Two dashes end the options, and nothing may follow them. -/
def readArguments (given : Given) : List String → Option Given
  | [] => some given
  | ["--"] => some given
  | argument :: rest =>
    match readArgument given argument, rest with
    | none, _ => none
    | some (.complete given), rest => readArguments given rest
    | some (.awaiting _ _), [] => none
    | some (.awaiting given setting), value :: rest =>
      if looksLikeOption value then none
      else
        match given.addSetting setting value with
        | some given => readArguments given rest
        | none => none

/-- Which topology to route on. -/
inductive TopologyChoice where
  | linear | grid
deriving DecidableEq

/-- Which circuit to route. -/
inductive CircuitChoice where
  | ghz | fourier | random
deriving DecidableEq

/-- The options of a run. -/
structure Options where
  /-- The path of a configuration file, which overrides the topology options. -/
  config : Option String := none
  topology : TopologyChoice := .linear
  qubits : UInt32 := 8
  /-- Whether the chain is closed into a ring. -/
  cyclic : Bool := false
  rows : UInt32 := 3
  columns : UInt32 := 3
  /-- Whether to minimise the number of swaps and not that of layers. -/
  swapCount : Bool := false
  circuit : CircuitChoice := .fourier
  gates : UInt64 := 40
  seed : UInt64 := 7
  showCommands : Bool := false
  json : Bool := false

/-- A decimal number below a bound, without a sign. -/
def digitsBelow? (bound : Nat) (digits : List Char) : Option Nat :=
  if digits.isEmpty || !digits.all Char.isDigit then none
  else
    let n := digits.foldl (fun n c => 10 * n + (c.toNat - '0'.toNat)) 0
    if n < bound then some n else none

/-- A decimal number below a bound, which may have a plus sign. -/
def numberBelow? (bound : Nat) (text : String) : Option Nat :=
  match text.toList with
  | '+' :: digits => digitsBelow? bound digits
  | digits => digitsBelow? bound digits

/-- The value of a setting, its default if it is not given, or nothing if it makes no sense. -/
def Given.read {α : Type} (given : Given) (setting : Setting) (default : α)
    (read : String → Option α) : Option α :=
  match given.value? setting with
  | some value => read value
  | none => some default

/-- The path of the configuration file: given as an option, or else by the environment. A path is not
empty. -/
def Given.configPath (given : Given) (environment : Option String) : Option (Option String) :=
  match given.value? .config <|> environment with
  | none => some none
  | some path => if path.isEmpty then none else some (some path)

/-- The topology of a name. -/
def TopologyChoice.ofName? : String → Option TopologyChoice
  | "linear" => some .linear
  | "grid" => some .grid
  | _ => none

/-- The circuit of a name. -/
def CircuitChoice.ofName? : String → Option CircuitChoice
  | "ghz" => some .ghz
  | "qft" => some .fourier
  | "random" => some .random
  | _ => none

/-- A 32-bit number. It may have a minus sign if it is zero. -/
def word32? (text : String) : Option UInt32 :=
  match text.toList with
  | '-' :: digits => (digitsBelow? 1 digits).map UInt32.ofNat
  | _ => (numberBelow? UInt32.size text).map UInt32.ofNat

/-- A 64-bit number. -/
def word64? (text : String) : Option UInt64 := (numberBelow? UInt64.size text).map UInt64.ofNat

/-- The options of a command line and of the environment, unless they are misused. -/
def Options.parse? (arguments : List String) (environment : Option String) : Option Options := do
  let given ← readArguments {} arguments
  return {
    config := ← given.configPath environment
    topology := ← given.read .topology .linear TopologyChoice.ofName?
    qubits := ← given.read .qubits 8 word32?
    cyclic := .cyclic ∈ given.flags
    rows := ← given.read .rows 3 word32?
    columns := ← given.read .columns 3 word32?
    swapCount := .swapCount ∈ given.flags
    circuit := ← given.read .circuit .fourier CircuitChoice.ofName?
    gates := ← given.read .gates 40 word64?
    seed := ← given.read .seed 7 word64?
    showCommands := .showCommands ∈ given.flags
    json := .json ∈ given.flags }

end QubitRouting.Cli
