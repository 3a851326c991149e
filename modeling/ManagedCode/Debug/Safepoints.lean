import ManagedCode.Debug.ScopeValue

/-!
# Safepoints

    The suspension points of a unit, in ascending order: for each the reference map, the scopes of
    the inlined frames and the pool of their objects. A safepoint is opened, described outermost
    frame first, and closed; only closed ones are part of the result.
-/

namespace ManagedCode

/-- One frame of a suspension point, ready to be rebuilt. -/
structure Scope where
  method : MethodId
  bci : Int
  reexecute : Bool := false
  rethrow : Bool := false
  locals : List ScopeValue := []
  expressions : List ScopeValue := []
  monitors : List Monitor := []
deriving DecidableEq, Repr, Inhabited

/-- The text of a scope. -/
def Scope.text (s : Scope) : Checked String := do
  let locals ← ScopeValue.listText s.locals
  let expressions ← ScopeValue.listText s.expressions
  let monitors ← s.monitors.mapM Monitor.text
  let locks := "[" ++ String.intercalate ", " monitors ++ "]"
  return s!"{s.method.text}@{s.bci}" ++ (if s.reexecute then " reexecute" else "") ++
    (if s.rethrow then " rethrow" else "") ++
    s!" locals={locals} stack={expressions} locks={locks}"

/-- One suspension point. -/
structure Safepoint where
  pc : Nat
  leafGraphId : Int
  /-- The scopes described so far, outermost first. -/
  described : List Scope := []
  objects : ObjectPool := {}
deriving DecidableEq, Repr, Inhabited

namespace Safepoint

/-- The chain of inlined frames, innermost first. -/
def scopes (s : Safepoint) : List Scope := s.described.reverse

/-- The innermost frame. -/
def innermost? (s : Safepoint) : Option Scope := s.described.getLast?

end Safepoint

/-- The safepoints recorded so far: the closed ones, their maps, and the one being described. -/
structure SafepointLog where
  maps : RefMapTable := {}
  closed : List Safepoint := []
  current : Option Safepoint := none
deriving DecidableEq, Repr, Inhabited

namespace SafepointLog

/-- Opens a safepoint behind all closed ones. -/
def start (log : SafepointLog) (pc : Nat) (leafGraphId : Int) (map : RefMap) :
    Checked SafepointLog := do
  require (log.current = none) (.table (.safepointInProgress pc))
  match log.closed.getLast? with
  | some last => require (last.pc < pc) (.table (.safepointOutOfOrder pc last.pc))
  | none => pure ()
  let maps ← log.maps.add pc map
  return { log with maps, current := some { pc, leafGraphId } }

/-- The open safepoint, which has to be the one at `pc`. -/
def currentAt (log : SafepointLog) (pc : Nat) : Checked Safepoint :=
  match log.current with
  | some s => do
      require (s.pc = pc) (.table (.safepointElsewhere s.pc pc))
      return s
  | none => .error (.table (.noSafepointOpen pc))

/-- Adds a scope to the open safepoint, inside of those described before. -/
def describe (log : SafepointLog) (pc : Nat) (scope : Scope) : Checked SafepointLog := do
  let s ← log.currentAt pc
  return { log with current := some { s with described := s.described ++ [scope] } }

/-- Gives the open safepoint its objects. -/
def setObjects (log : SafepointLog) (pc : Nat) (objects : ObjectPool) :
    Checked SafepointLog := do
  let s ← log.currentAt pc
  return { log with current := some { s with objects } }

/-- Closes the open safepoint. -/
def finish (log : SafepointLog) (pc : Nat) : Checked SafepointLog := do
  let s ← log.currentAt pc
  return { log with closed := log.closed ++ [s], current := none }

/-- The closed safepoint at an offset. -/
def find? (log : SafepointLog) (pc : Nat) : Option Safepoint :=
  log.closed.find? fun s => s.pc == pc

/-- The finished tables. No safepoint may be open. -/
def toTables (log : SafepointLog) : Checked (RefMapTable × List Safepoint) := do
  require (log.current = none) (.table .safepointLeftOpen)
  return (log.maps, log.closed)

end SafepointLog

end ManagedCode
