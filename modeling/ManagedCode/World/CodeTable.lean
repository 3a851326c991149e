import ManagedCode.Code.Blob
import ManagedCode.Code.EntryPoints
import ManagedCode.Debug.Handlers
import ManagedCode.Debug.References
import ManagedCode.Debug.Safepoints
import ManagedCode.World.CodeSpace
import ManagedCode.World.Dependency

/-!
# Installed code

    The table of installed units, in order of installation, with indexes to the latest unit of a
    method, of a loop entry of a method, and of a stub name.
-/

namespace ManagedCode

/-- What an installation produces. -/
structure Code where
  name : String
  /-- The method, or none for a stub. -/
  method : Option MethodId := none
  entryBci : Int := -1
  blob : Blob
  entryPoints : EntryPoints := {}
  /-- The frame size in bytes, with the return address. -/
  frameSize : Nat := 0
  customStackAreaOffset : Int := -1
  maps : RefMapTable := {}
  safepoints : List Safepoint := []
  handlers : HandlerTable := {}
  implicitNulls : ImplicitTable := {}
  dependencies : List Dependency := []
  references : References := {}
deriving DecidableEq, Repr, Inhabited

namespace Code

/-- The address of the first instruction. -/
def address (c : Code) : UInt64 := c.blob.base

/-- The address of the verified entry. -/
def verifiedEntry (c : Code) : Checked UInt64 :=
  Address.advance c.address c.entryPoints.verified

/-- Whether the code is entered in the middle of a loop. -/
def isOsr (c : Code) : Bool := c.entryBci != invocationEntryBci

/-- Whether the code is a stub. -/
def isStub (c : Code) : Bool := c.method.isNone

end Code

/-- Installed code, and the identity it is installed under. -/
structure InstalledCode where
  id : CodeId
  code : Code
deriving DecidableEq, Repr, Inhabited

/-- The installed units. In each index the latest entry of a key comes first. -/
structure CodeTable where
  space : CodeSpace
  entries : List InstalledCode := []
  byMethod : List (MethodId × CodeId) := []
  byLoopEntry : List ((MethodId × Int) × CodeId) := []
  byStubName : List (String × CodeId) := []
deriving DecidableEq, Repr, Inhabited

namespace CodeTable

/-- The code of every unit, in order of installation. -/
def codes (t : CodeTable) : List Code := t.entries.map InstalledCode.code

/-- How many units are installed. -/
def size (t : CodeTable) : Nat := t.entries.length

/-- The unit at the place that an identity stands for. -/
def get? (t : CodeTable) (id : CodeId) : Option InstalledCode := t.entries[id.index]?

/-- The latest unit entered at the start of a method. -/
def forMethod? (t : CodeTable) (method : MethodId) : Option InstalledCode :=
  (t.byMethod.lookup method).bind t.get?

/-- The latest unit entered at a loop of a method. -/
def forLoopEntry? (t : CodeTable) (method : MethodId) (bci : Int) : Option InstalledCode :=
  (t.byLoopEntry.lookup (method, bci)).bind t.get?

/-- The latest stub of a name. -/
def forStub? (t : CodeTable) (name : String) : Option InstalledCode :=
  (t.byStubName.lookup name).bind t.get?

/-- The verified entry of a unit. -/
def verifiedEntry? (t : CodeTable) (id : CodeId) : Checked (Option UInt64) :=
  match t.get? id with
  | some installed => installed.code.verifiedEntry.map some
  | none => .ok none

/-- The identity of the next unit. -/
def nextId (t : CodeTable) : CodeId := ⟨t.entries.length⟩

/-- Makes a unit at its final address known, under the next identity. -/
def enter (t : CodeTable) (code : Code) : CodeTable :=
  let id := t.nextId
  let t := { t with entries := t.entries ++ [InstalledCode.mk id code] }
  match code.method with
  | some method =>
      if code.entryBci = invocationEntryBci then { t with byMethod := (method, id) :: t.byMethod }
      else { t with byLoopEntry := ((method, code.entryBci), id) :: t.byLoopEntry }
  | none => { t with byStubName := (code.name, id) :: t.byStubName }

/-- Moves a unit into the code space and enters it. The blob is aligned at least like its
    constants, so that these keep their alignment. -/
def register (t : CodeTable) (code : Code) :
    Checked (Except SpaceFull (InstalledCode × CodeTable)) := do
  let size ← code.blob.size
  match ← t.space.allocate size code.blob.layout.constantsAlignment with
  | .error full => return .error full
  | .ok (address, space) =>
      let blob ← code.blob.moveTo address
      let code := { code with blob }
      return .ok (⟨t.nextId, code⟩, { t with space }.enter code)

end CodeTable

end ManagedCode
