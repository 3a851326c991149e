import ManagedCode.Ident
import ManagedCode.Kind

/-!
# Values as the producer describes them

    Where a logical value lives at a suspension point: in a register, on the stack, as a constant,
    or nowhere because its object was taken apart. Lock records appear only in the lock part of a
    frame.
-/

namespace ManagedCode

/-- What a constant refers to besides its bits. -/
inductive ConstantObject where
  | heap (object : ObjectAddress)
  /-- A type, whose address the bits of the constant must equal. -/
  | type (id : TypeId)
  /-- A remark of the producer without a meaning at run time. -/
  | remark (text : String)
deriving DecidableEq, Repr, Inhabited

/-- A constant: its kind, its raw bits as a signed 64 bit number, and what it refers to. -/
structure Constant where
  kind : Kind
  bits : Int := 0
  object : Option ConstantObject := none
deriving DecidableEq, Repr, Inhabited

namespace Constant

/-- An integer constant. -/
def int (value : Int) : Constant := ⟨.int, value, none⟩

/-- A float constant, from the 32 bits of its encoding. -/
def float (encoding : UInt32) : Constant := ⟨.float, Word.signed32 encoding.toNat, none⟩

/-- A long constant. -/
def long (value : Int) : Constant := ⟨.long, value, none⟩

/-- A double constant, from the 64 bits of its encoding. -/
def double (encoding : UInt64) : Constant := ⟨.double, Word.signed64 encoding, none⟩

/-- The null reference. -/
def null : Constant := ⟨.object, 0, none⟩

/-- A reference to a heap object. -/
def ofObject (object : ObjectAddress) : Constant := ⟨.object, 0, some (.heap object)⟩

/-- A raw machine word. -/
def word (bits : Int) : Constant := ⟨.word, bits, none⟩

/-- A word holding the address of a type. -/
def ofType (id : TypeId) : Constant := ⟨.word, Word.signed64 id.address, some (.type id)⟩

end Constant

/-- A value at a suspension point. -/
inductive Value where
  | illegal
  | register (number : Int) (kind : Kind)
  /-- A stack slot at a byte offset, counted from the caller's end of the frame if
      `addFrameSize`. -/
  | stackSlot (offset : Int) (addFrameSize : Bool) (kind : Kind)
  | constant (constant : Constant)
  /-- An object that exists only as its field values. -/
  | virtualObject (id : Int)
  /-- A lock: the object locked and the place of the lock record. -/
  | stackLock (owner slot : Value) (eliminated : Bool)
deriving DecidableEq, Repr, Inhabited

namespace Value

/-- The kind of a value. -/
def kind : Value → Kind
  | illegal => .illegal
  | register _ kind => kind
  | stackSlot _ _ kind => kind
  | constant c => c.kind
  | virtualObject _ => .object
  | stackLock _ _ _ => .object

/-- Whether a value is the placeholder that follows a wide one. -/
def isIllegal : Value → Bool
  | illegal => true
  | _ => false

end Value

/-- The description of an object that exists only as its field values. -/
structure VirtualObject where
  id : Int
  type : TypeId
  values : List Value
deriving DecidableEq, Repr, Inhabited

end ManagedCode
