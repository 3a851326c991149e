/-!
# Files

    The files that a run may read. Where they are those of one directory, with no other directory
    in it, a path leads to one of them by its name, behind any number of steps that stay in the
    directory.
-/

namespace ManagedCode.CommandLine

/-- The contents of the file at a path, if it can be read. -/
abbrev Files := String → Option String

/-- The name that a path has within its directory. -/
def fileName? (path : String) : Option String :=
  match path.splitOn "/" with
  | [name] => some name
  | "." :: steps =>
      if steps.dropLast.all fun step => step == "." || step == "" then steps.getLast? else none
  | _ => none

/-- The files of one directory. -/
def Files.ofDirectory (files : List (String × String)) : Files := fun path =>
  (fileName? path).bind fun name => files.lookup name

end ManagedCode.CommandLine
