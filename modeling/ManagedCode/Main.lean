import ManagedCode.CommandLine.Run

/-!
# The installer as a program

    Reads the files that the arguments name, runs the installer on them, prints its lines, and
    ends with the status of the run.
-/

namespace ManagedCode

/-- The files that arguments name. -/
def Arguments.files (a : Arguments) : List String :=
  a.runtime.toList ++ a.config.toList ++ a.units

/-- What is said about how a run ended. -/
def Ending.remarks : Ending → List String
  | .success => []
  | .usage => ["usage: [-c CONFIG] [-p KEY=VALUE]... [-v]... -r RUNTIME UNIT..."]
  | .failure message cause =>
      s!"Error: {message}" :: (cause.map fun cause => s!"\nCaused by:\n    {cause}").toList
  | .crash fault =>
      match fault.report with
      | .fatal message => [s!"fatal error: {message}"]
      | .guarantee message => [s!"guarantee failed: {message}"]
      | .assertion => ["assertion failed"]
      | .index => ["index out of range"]
      | .arithmetic => ["arithmetic overflow"]

/-- The contents of a file, if it can be read. -/
def contents? (file : String) : IO (Option String) := do
  try
    return some (← IO.FS.readFile file)
  catch _ =>
    return none

end ManagedCode

/-- Runs the installer. -/
def main (arguments : List String) : IO UInt32 := do
  let named := ((ManagedCode.Arguments.parse? arguments).map fun a => a.files).getD []
  let files ← named.mapM fun file => return (file, ← ManagedCode.contents? file)
  let outcome := ManagedCode.CommandLine.run (fun file => (files.lookup file).join) arguments
  outcome.lines.forM fun line => IO.println line
  outcome.ending.remarks.forM fun line => IO.eprintln line
  return UInt32.ofNat outcome.status
