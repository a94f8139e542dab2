import QubitRouting.Cli.Program

/-!
# Entry point

Reads the arguments, the environment and the configuration file, and prints what the run prints.
-/

open QubitRouting Cli

/-- Whether the code of an error, which may be negated, has the given number. -/
def hasNumber (code number : UInt32) : Bool := code == number || code == 0 - number

/-- Why the system did not read a file. -/
def fileError : IO.Error → FileError
  | .permissionDenied .. => .notPermitted
  | .inappropriateType _ code _ => if hasNumber code 21 then .isDirectory else .notDirectory
  | .invalidArgument _ code _ => if hasNumber code 36 then .nameTooLong else .notFound
  | _ => .notFound

/-- The bytes of a file. -/
def readBytes (path : String) : IO (Except FileError ByteArray) := do
  try
    return .ok (← IO.FS.readBinFile path)
  catch error =>
    return .error (fileError error)

/-- Run the demonstration program. -/
def main (arguments : List String) : IO UInt32 := do
  let environment ← IO.getEnv "QROUTE_CONFIG"
  let ending ←
    match Options.parse? arguments environment with
    | none => pure misuse
    | some options => do
      let contents ←
        match options.config with
        | some path => readBytes path
        | none => pure (.error .notFound)
      pure (options.run contents)
  IO.print ending.output
  IO.eprint ending.errors
  return ending.code.toUInt32
