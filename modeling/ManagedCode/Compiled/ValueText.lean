import ManagedCode.Compiled.Value
import ManagedCode.Text.Quoted

/-!
# The text of values in messages

    A value that makes the producer's output unusable is shown in full: constructor, field names
    and fields, nested values included.
-/

namespace ManagedCode

/-- Fields between braces, behind the name of what they belong to. -/
def recordText (name : String) (fields : List (String × String)) : String :=
  let inner := String.intercalate ", " (fields.map fun f => f.1 ++ ": " ++ f.2)
  name ++ " \x7b " ++ inner ++ " \x7d"

/-- One argument in parentheses, behind the name of what it belongs to. -/
def wrapText (name argument : String) : String := name ++ "(" ++ argument ++ ")"

/-- The text of a truth value. -/
def boolText (b : Bool) : String := if b then "true" else "false"

/-- The full text of what a constant refers to. -/
def ConstantObject.describe : ConstantObject → String
  | heap object => wrapText "Heap" (wrapText "ObjectAddress" (toString object.address.toNat))
  | type id => wrapText "Type" (wrapText "KlassId" (toString id.address.toNat))
  | remark text => wrapText "Annotation" (Text.quoted text)

/-- The full text of a constant. -/
def Constant.describe (c : Constant) : String :=
  recordText "Constant"
    [("kind", c.kind.name), ("primitive", toString c.bits),
     ("object", match c.object with
       | none => "None"
       | some object => wrapText "Some" object.describe)]

/-- The full text of a value. -/
def Value.describe : Value → String
  | illegal => "Illegal"
  | register number kind =>
      recordText "Register" [("number", toString number), ("kind", kind.name)]
  | stackSlot offset addFrameSize kind =>
      recordText "StackSlot"
        [("offset", toString offset), ("add_frame_size", boolText addFrameSize),
         ("kind", kind.name)]
  | constant c => wrapText "Constant" c.describe
  | virtualObject id => recordText "VirtualObject" [("id", toString id)]
  | stackLock owner slot eliminated =>
      wrapText "StackLock" (recordText "StackLock"
        [("owner", owner.describe), ("slot", slot.describe),
         ("eliminated", boolText eliminated)])

end ManagedCode
