/-!
# Relocations

    A relocation says what an installed instruction refers to and in which operand, so that the
    reference can be found again when the code moves or its target changes.
-/

namespace ManagedCode

/-- The two sections of an installed blob. -/
inductive SectionName where
  | constants
  | code
deriving DecidableEq, Repr, Inhabited

/-- The name of a section in messages. -/
def SectionName.text : SectionName → String
  | constants => "Consts"
  | code => "Insts"

/-- What a relocated instruction refers to. -/
inductive RelocationKind where
  | none
  | runtimeCall
  /-- A call bound through the inline cache loaded at `cache`. -/
  | virtualCall (cache : Nat)
  | specialCall
  | staticCall
  /-- A static call stub, serving the call at `call`. -/
  | staticStub (call : Nat)
  /-- A word of a section, at `target` within it. -/
  | sectionWord (place : SectionName) (target : Nat)
  | reference
  | metadata
  | poll
  | pollReturn
deriving DecidableEq, Repr, Inhabited

namespace RelocationKind

/-- The name of a kind of relocation in messages and summaries. -/
def text : RelocationKind → String
  | none => "None"
  | runtimeCall => "RuntimeCall"
  | virtualCall _ => "VirtualCall"
  | specialCall => "OptVirtualCall"
  | staticCall => "StaticCall"
  | staticStub _ => "StaticStub"
  | sectionWord _ _ => "SectionWord"
  | reference => "Oop"
  | metadata => "Metadata"
  | poll => "Poll"
  | pollReturn => "PollReturn"

/-- Whether the relocated instruction is a call to an address outside of the blob. -/
def isCall : RelocationKind → Bool
  | runtimeCall | virtualCall _ | specialCall | staticCall => true
  | _ => false

/-- Whether the relocated instruction polls for a safepoint. -/
def isPoll : RelocationKind → Bool
  | poll | pollReturn => true
  | _ => false

end RelocationKind

/-- Which operand of the instruction carries the reference. -/
inductive OperandFormat where
  | none
  | call32
  | immediate
  | displacement32
deriving DecidableEq, Repr, Inhabited

/-- The name of an operand format in messages and summaries. -/
def OperandFormat.text : OperandFormat → String
  | none => "None"
  | call32 => "Call32"
  | immediate => "Imm"
  | displacement32 => "Disp32"

/-- One record: the instruction at `offset` refers to `kind` through `format`. -/
structure Relocation where
  offset : Nat
  kind : RelocationKind
  format : OperandFormat
deriving DecidableEq, Repr, Inhabited

/-- Whether the operand holds a distance to a fixed address, so that it changes with the position
    of the blob. Distances between the sections of one blob do not. -/
def Relocation.isPositional (r : Relocation) : Bool :=
  match r.format with
  | .call32 => r.kind.isCall
  | .displacement32 => r.kind.isPoll
  | _ => false

end ManagedCode
