/-!
# Command line arguments

    `-r`/`--runtime FILE` names the runtime description, `-c`/`--config FILE` the settings,
    `-p`/`--property KEY=VALUE` changes a setting and may be repeated, `-v`/`--verbose` asks for
    more logging, and what remains are the units. Short options may be joined, and the value of an
    option may be attached to it.
-/

namespace ManagedCode

/-- The arguments of the installer. -/
structure Arguments where
  runtime : Option String := none
  config : Option String := none
  /-- Changed settings, latest first. -/
  properties : List (String × String) := []
  verbosity : Nat := 0
  /-- Units, latest first. -/
  units : List String := []
deriving DecidableEq, Repr, Inhabited

namespace Arguments

/-- The options that take a value. -/
inductive Key where
  | runtime
  | config
  | property
deriving DecidableEq, Repr, Inhabited

/-- The option of a long name. -/
def Key.ofLong? : String → Option Key
  | "runtime" => some runtime
  | "config" => some config
  | "property" => some property
  | _ => none

/-- The option of a letter. -/
def Key.ofLetter? : Char → Option Key
  | 'r' => some runtime
  | 'c' => some config
  | 'p' => some property
  | _ => none

/-- The parts of a text around its first equals sign. -/
def splitAtEquals? (text : List Char) : Option (String × String) :=
  match text.dropWhile (· != '=') with
  | _ :: rest => some (String.ofList (text.takeWhile (· != '=')), String.ofList rest)
  | [] => none

/-- Takes in the value of an option. File names are not empty, and only properties repeat. -/
def setValue? (a : Arguments) (key : Key) (value : List Char) : Option Arguments :=
  match key with
  | .runtime =>
      if a.runtime.isSome ∨ value.isEmpty then none
      else some { a with runtime := some (String.ofList value) }
  | .config =>
      if a.config.isSome ∨ value.isEmpty then none
      else some { a with config := some (String.ofList value) }
  | .property =>
      (splitAtEquals? value).map fun property => { a with properties := property :: a.properties }

/-- Takes in a unit. -/
def addUnit? (a : Arguments) (unit : List Char) : Option Arguments :=
  if unit.isEmpty then none else some { a with units := String.ofList unit :: a.units }

/-- What a read argument leaves to be done: nothing, or a value to be found in the next one. -/
abbrev Pending := Option Key

/-- Reads joined short options. -/
def shorts? (a : Arguments) : List Char → Option (Arguments × Pending)
  | [] => some (a, none)
  | 'v' :: rest => shorts? { a with verbosity := a.verbosity + 1 } rest
  | c :: rest =>
      match Key.ofLetter? c, rest with
      | none, _ => none
      | some key, [] => some (a, some key)
      | some key, '=' :: value => (a.setValue? key value).map fun a => (a, none)
      | some key, value => (a.setValue? key value).map fun a => (a, none)

/-- Reads a long option. -/
def long? (a : Arguments) (text : List Char) : Option (Arguments × Pending) :=
  if text = "verbose".toList then some ({ a with verbosity := a.verbosity + 1 }, none)
  else
    match splitAtEquals? text with
    | some (name, value) =>
        (Key.ofLong? name).bind fun key =>
          (a.setValue? key value.toList).map fun a => (a, none)
    | none => (Key.ofLong? (String.ofList text)).map fun key => (a, some key)

/-- Reads the remaining arguments. An argument with a leading dash is never a value. -/
def read? (a : Arguments) (pending : Pending) : List (List Char) → Option Arguments
  | [] => if pending.isSome then none else some a
  | argument :: rest =>
      match pending, argument with
      | some key, ['-'] => (a.setValue? key ['-']).bind fun a => read? a none rest
      | some _, '-' :: _ => none
      | some key, value => (a.setValue? key value).bind fun a => read? a none rest
      | none, ['-', '-'] => rest.foldlM addUnit? a
      | none, '-' :: '-' :: text => (a.long? text).bind fun (a, pending) => read? a pending rest
      | none, ['-'] => (a.addUnit? ['-']).bind fun a => read? a none rest
      | none, '-' :: text => (a.shorts? text).bind fun (a, pending) => read? a pending rest
      | none, unit => (a.addUnit? unit).bind fun a => read? a none rest

/-- Reads a command line. A runtime and at least one unit have to be given. -/
def parse? (arguments : List String) : Option Arguments :=
  ((read? {} none (arguments.map String.toList)).map fun a =>
    { a with properties := a.properties.reverse, units := a.units.reverse }).filter fun a =>
      a.runtime.isSome && !a.units.isEmpty

end Arguments

end ManagedCode
