import ManagedCode.Word

/-!
# Identities

    The names by which the runtime knows its methods, types, heap objects, handles and installed
    code. All but the last are addresses; the types keep them apart.
-/

namespace ManagedCode

/-- A method, named by the address of its metadata. -/
structure MethodId where
  address : UInt64
deriving DecidableEq, Repr, Inhabited

/-- A type, named by the address of its metadata. -/
structure TypeId where
  address : UInt64
deriving DecidableEq, Repr, Inhabited

/-- The raw address of a heap object, meaningful only while collection is held off. -/
structure ObjectAddress where
  address : UInt64
deriving DecidableEq, Repr, Inhabited

/-- A tracked reference to a heap object, handed out by the runtime. -/
structure Handle where
  address : UInt64
deriving DecidableEq, Repr, Inhabited

/-- The position of a unit in the table of installed code. -/
structure CodeId where
  index : Nat
deriving DecidableEq, Repr, Inhabited

/-- The text of a method's identity. -/
def MethodId.text (m : MethodId) : String := s!"method@{Word.hex m.address.toNat}"

/-- The text of a type's identity. -/
def TypeId.text (t : TypeId) : String := s!"klass@{Word.hex t.address.toNat}"

/-- Metadata that installed code may embed and the runtime may need to patch. -/
inductive Metadata where
  | type (id : TypeId)
  | method (id : MethodId)
deriving DecidableEq, Repr, Inhabited

namespace Metadata

/-- The address under which metadata is embedded. -/
def address : Metadata → UInt64
  | type id => id.address
  | method id => id.address

/-- The text of a piece of metadata. -/
def text : Metadata → String
  | type id => id.text
  | method id => id.text

end Metadata

end ManagedCode
