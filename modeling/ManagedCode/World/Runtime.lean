import ManagedCode.Install.Settings
import ManagedCode.World.CodeTable
import ManagedCode.World.Handles

/-!
# Runtimes

    A runtime that code is installed into: what its description says, and what installations
    change, which are the installed code, the stubs, the handles, and how many scopes currently
    hold off collection.
-/

namespace ManagedCode

/-- A runtime and its state. -/
structure Runtime where
  world : Description
  codes : CodeTable
  stubs : List UInt64 := []
  handles : HandleTable := {}
  /-- How many scopes hold off collection. -/
  pauses : Nat := 0
deriving DecidableEq, Repr, Inhabited

namespace Runtime

/-- A fresh runtime, unless its description has something twice. -/
def create (world : Description) (settings : Settings) : Except Duplicate Runtime :=
  match world.duplicate? with
  | some duplicate => .error duplicate
  | none =>
      .ok {
        world
        codes := { space := { base := settings.codeBase, capacity := settings.codeCapacity } }
        stubs := world.stubs }

/-- Whether collection may run. -/
def allowsSafepoints (r : Runtime) : Bool := r.pauses == 0

/-- Holds off collection. -/
def pause (r : Runtime) : Runtime := { r with pauses := r.pauses + 1 }

/-- Ends one scope that holds off collection. -/
def resume (r : Runtime) : Runtime := { r with pauses := r.pauses - 1 }

/-- Adds a stub, and gives its number. -/
def addStub (r : Runtime) (address : UInt64) : Nat × Runtime :=
  (r.stubs.length, { r with stubs := r.stubs ++ [address] })

/-- Gives back handles that no installed code refers to. -/
def releaseAll (r : Runtime) (handles : List Handle) : Checked Runtime := do
  return { r with handles := ← r.handles.releaseAll handles }

end Runtime

end ManagedCode
