import ManagedCode.Debug.Location

/-!
# Scope values

    The values a frame is rebuilt from: locations, constants, and objects that have to be made
    again from their fields. Such objects are kept in one pool per suspension point, and refer to
    each other by their position in it.
-/

namespace ManagedCode

/-- A value a frame is rebuilt from. -/
inductive ScopeValue where
  | location (location : Location)
  | int (value : Int)
  | long (value : Int)
  /-- A reference through a handle, or null. -/
  | reference (handle : Option Handle)
  /-- The object at a position of the pool. -/
  | object (position : Nat)
deriving DecidableEq, Repr, Inhabited

namespace ScopeValue

/-- The value that is nowhere. -/
def invalid : ScopeValue := .location .invalid

/-- The location of a value that has one. -/
def location? : ScopeValue → Option Location
  | location l => some l
  | _ => none

/-- The text of a value. -/
def text : ScopeValue → Checked String
  | location l => l.text
  | int value => .ok (toString value)
  | long value => .ok s!"{value}L"
  | reference none => .ok "null"
  | reference (some handle) => .ok s!"oop@{Word.hex handle.address.toNat}"
  | object position => .ok s!"obj[{position}]"

/-- The texts of a list of values, between brackets. -/
def listText (values : List ScopeValue) : Checked String := do
  return "[" ++ String.intercalate ", " (← values.mapM text) ++ "]"

end ScopeValue

/-- A lock held by a frame. -/
structure Monitor where
  owner : ScopeValue
  lock : Location
  eliminated : Bool := false
deriving DecidableEq, Repr, Inhabited

/-- The text of a lock. -/
def Monitor.text (m : Monitor) : Checked String := do
  let owner ← m.owner.text
  let lock ← m.lock.text
  return s!"lock({owner} @ {lock}" ++ (if m.eliminated then ", eliminated" else "") ++ ")"

/-- An object to be made again: the mirror of its type and its fields. -/
structure PoolObject where
  id : Int
  mirror : ScopeValue
  fields : List ScopeValue := []
deriving DecidableEq, Repr, Inhabited

/-- The objects of one suspension point. An object gets its position before its fields are known,
    so that a field may refer back to it. -/
structure ObjectPool where
  objects : List PoolObject := []
deriving DecidableEq, Repr, Inhabited

namespace ObjectPool

/-- How many objects there are. -/
def size (p : ObjectPool) : Nat := p.objects.length

/-- Adds an object without fields; its position is the size of the pool before. -/
def allocate (p : ObjectPool) (id : Int) (mirror : ScopeValue) : ObjectPool :=
  ⟨p.objects ++ [⟨id, mirror, []⟩]⟩

/-- The object at a position. -/
def get (p : ObjectPool) (position : Nat) : Checked PoolObject :=
  match p.objects[position]? with
  | some object => .ok object
  | none => .error .outOfBounds

/-- Gives the object at a position its fields, which it must not have yet. -/
def setFields (p : ObjectPool) (position : Nat) (fields : List ScopeValue) :
    Checked ObjectPool := do
  let object ← p.get position
  require (object.fields = []) (.table (.fieldsSetTwice object.id))
  return ⟨p.objects.set position { object with fields }⟩

end ObjectPool

end ManagedCode
