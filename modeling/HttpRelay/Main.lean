import HttpRelay.Config.Json
import HttpRelay.Config.Load

/-!
# Command Line

Loads the configuration file that the command line names, or the defaults, and shows the
configuration in use or what is wrong with it.
-/

namespace HttpRelay

/-- How the command line is written. -/
def usage : String := "usage: http-relay [--config <file>]"

/-- The file that a command line names, if it names one. There is no result for a command line
that is not well-formed. -/
def configFile? : List String → Option (Option String)
  | [] => some none
  | ["-c", path] | ["--config", path] => some (some path)
  | _ => none

/-- What is shown of the outcome of loading, and the exit code. -/
def report : Except Config.LoadError Config → String × UInt32
  | .ok config => (config.toJson.render, 0)
  | .error (.io failure) => ("IO error: " ++ failure.name, 1)
  | .error .unreadable => ("Parse error", 1)
  | .error (.invalid faults) => ((Config.LoadError.invalid faults).message?.getD "", 1)

/-- The contents of a file. -/
def readFile (path : String) : IO (Except IoFailure Bytes) := do
  try
    return .ok (← IO.FS.readBinFile path).toList
  catch _ => return .error .notFound

end HttpRelay

open HttpRelay in
/-- Load the configuration and show it. -/
def main (args : List String) : IO UInt32 := do
  match configFile? args with
  | none => IO.eprintln usage; return 2
  | some file =>
    let outcome ← match file with
      | some path => Config.load <$> readFile path
      | none => pure (.ok {})
    let (shown, code) := report outcome
    IO.println shown
    return code
