import ManagedCode.CommandLine.Arguments
import ManagedCode.CommandLine.Files
import ManagedCode.CommandLine.Summary
import ManagedCode.Install.Install
import ManagedCode.Notation.Passage
import ManagedCode.Notation.RuntimeForm
import ManagedCode.Notation.UnitForm

/-!
# Running the installer

    Loads settings and a runtime, then reads and installs units in order, printing a summary of
    each. Files are given as a function from names to contents, so the whole run is a value: the
    lines printed and how it ended.
-/

namespace ManagedCode

/-- How a run ended. -/
inductive Ending where
  | success
  /-- The arguments were refused. -/
  | usage
  /-- An error, and what caused it where that says more. -/
  | failure (message : String) (cause : Option String)
  | crash (fault : Fault)

/-- A run: the lines printed, and how it ended. -/
structure Outcome where
  lines : List String := []
  ending : Ending

namespace Outcome

/-- A run that ends in an error without printing. -/
def fail (message : String) : Outcome := { ending := .failure message none }

/-- A run with more lines in front. -/
def after (lines : List String) (o : Outcome) : Outcome := { o with lines := lines ++ o.lines }

/-- The exit status of a run. -/
def status (o : Outcome) : Nat :=
  match o.ending with
  | .success => 0
  | .failure _ _ => 1
  | .usage => 2
  | .crash _ => 101

end Outcome

namespace CommandLine

/-- Why a file gives no value. -/
inductive LoadError where
  | unreadable
  | malformed
deriving DecidableEq, Repr

/-- The value of a text in the object notation. -/
def parse {α : Type} (reader : Notation.Passage → Option α) (text : String) :
    Except LoadError α :=
  match (Notation.Passage.parse? text).bind reader with
  | some value => .ok value
  | none => .error .malformed

/-- The value in a file. -/
def load {α : Type} (reader : Notation.Passage → Option α) (content : Option String) :
    Except LoadError α :=
  match content with
  | some text => parse reader text
  | none => .error .unreadable

/-- Loads the settings, or takes the defaults, and changes them as told. -/
def loadSettings (files : Files) (a : Arguments) : Except String Settings := do
  let settings ← match a.config with
    | none => pure {}
    | some file => (load Read.settings (files file)).mapError fun _ => s!"loading config {file}"
  (settings.override a.properties).mapError SettingsError.message

/-- Loads the runtime. -/
def loadRuntime (files : Files) (settings : Settings) (file : String) :
    Except String Runtime := do
  let error := s!"loading runtime {file}"
  let world ← (load Read.description (files file)).mapError fun _ => error
  (Runtime.create world settings).mapError fun _ => error

/-- Loads a unit. -/
def loadUnit (files : Files) (file : String) : Except String CompiledUnit :=
  (load Read.compiledUnit (files file)).mapError fun
    | .unreadable => s!"reading {file}"
    | .malformed => s!"parsing {file}"

/-- The lines about an installed unit. -/
def installedLines (name : String) (receipt : Receipt) : Checked (List String) := do
  let summary ← receipt.installed.code.summary
  match receipt.stub with
  | some stub => return s!"{name}: stub id {stub}" :: summary
  | none => return summary

/-- Installs a unit: the lines to print and the runtime to go on with, or how the run ends. -/
def installUnit (settings : Settings) (r : Runtime) (u : CompiledUnit) :
    Except Ending (List String × Runtime) := do
  let (result, r) ← (install settings u r).mapError .crash
  match result with
  | .ok receipt => return (← (installedLines u.name receipt).mapError .crash, r)
  | .error (.brokenDependency d) => return ([s!"{u.name}: not installed, {d.violation}"], r)
  | .error (.spaceFull full) => throw (.failure s!"{u.name}: {full.message}" none)
  | .error (.overflow cause) => throw (.failure s!"installing {u.name}" (some cause.message))

/-- Reads and installs units in order. -/
def installUnits (files : Files) (settings : Settings) (r : Runtime) : List String → Outcome
  | [] => { ending := .success }
  | file :: rest =>
      match loadUnit files file with
      | .error message => .fail message
      | .ok u =>
          match installUnit settings r u with
          | .error ending => { ending }
          | .ok (lines, r) => (installUnits files settings r rest).after lines

/-- Runs the installer with the given arguments. -/
def run (files : Files) (arguments : List String) : Outcome :=
  match Arguments.parse? arguments with
  | none => { ending := .usage }
  | some a =>
      match loadSettings files a with
      | .error message => .fail message
      | .ok settings =>
          match loadRuntime files settings (a.runtime.getD "") with
          | .error message => .fail message
          | .ok r => installUnits files settings r a.units

end CommandLine

end ManagedCode
