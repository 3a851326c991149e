import ManagedCode.Size

/-!
# Described runtimes

    A runtime as its description gives it: the types and methods it has loaded, and the addresses
    compiled code calls and polls. Types and methods are known by their identity; a description
    that has one twice is refused.
-/

namespace ManagedCode

/-- A loaded type. -/
structure TypeInfo where
  id : TypeId
  name : String
  parent : Option TypeId := none
  isAbstract : Bool := false
  hasFinalizer : Bool := false
  mirror : ObjectAddress
deriving DecidableEq, Repr, Inhabited

/-- A loaded method. -/
structure MethodInfo where
  id : MethodId
  holder : TypeId
  name : String
  isStatic : Bool := false
  parameterSize : Nat := 0
  /-- Whether the method was redefined. -/
  evolved : Bool := false
  /-- The method this one overrides. -/
  overrides : Option MethodId := none
deriving DecidableEq, Repr, Inhabited

/-- The description of a runtime. -/
structure Description where
  types : List TypeInfo := []
  methods : List MethodInfo := []
  /-- The addresses of the runtime stubs, by number. -/
  stubs : List UInt64 := []
  resolveVirtualCall : UInt64
  resolveStaticCall : UInt64
  resolveSpecialCall : UInt64
  pollingPage : UInt64
  pageSize : Nat
  /-- What an empty inline cache holds: no type has this address. -/
  emptyCacheWord : UInt64
  longArrayType : TypeId
  /-- Call sites with the method handles they are bound to. -/
  callSiteTargets : List (ObjectAddress × ObjectAddress) := []
deriving DecidableEq, Repr, Inhabited

/-- A type or method that a description has twice. -/
inductive Duplicate where
  | type (id : TypeId)
  | method (id : MethodId)
deriving DecidableEq, Repr, Inhabited

/-- The wording of a refused description. -/
def Duplicate.message : Duplicate → String
  | type id => s!"{id.text} is described twice"
  | method id => s!"{id.text} is described twice"

namespace Description

/-- The first element of a list that occurs earlier in it. -/
def firstRepeated {α : Type} [DecidableEq α] (seen : List α) : List α → Option α
  | [] => none
  | a :: rest => if a ∈ seen then some a else firstRepeated (a :: seen) rest

/-- What a description has twice, types before methods. -/
def duplicate? (d : Description) : Option Duplicate :=
  match firstRepeated [] (d.types.map TypeInfo.id) with
  | some id => some (.type id)
  | none => (firstRepeated [] (d.methods.map MethodInfo.id)).map .method

/-- The type of the given identity. -/
def type? (d : Description) (id : TypeId) : Option TypeInfo :=
  d.types.find? fun t => t.id == id

/-- The method of the given identity. -/
def method? (d : Description) (id : MethodId) : Option MethodInfo :=
  d.methods.find? fun m => m.id == id

/-- The mirror of a described type. -/
def mirror (d : Description) (id : TypeId) : Checked ObjectAddress :=
  match d.type? id with
  | some t => .ok t.mirror
  | none => .error (.runtime (.noMirror id))

/-- Whether a method is static; one that is not described is not. -/
def isStatic (d : Description) (id : MethodId) : Bool := (d.method? id).any MethodInfo.isStatic

/-- The number of parameter words of a method; none for one that is not described. -/
def parameterSize (d : Description) (id : MethodId) : Nat :=
  ((d.method? id).map MethodInfo.parameterSize).getD 0

end Description

end ManagedCode
