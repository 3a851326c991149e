import ManagedCode.Machine.Register

/-!
# Shapes of instructions

    What the installer needs to know of a machine instruction: where it ends, which of the few
    patchable shapes it has, and where its displacement and its immediate lie.
-/

namespace ManagedCode

/-- The shapes the installer tells apart. -/
inductive Shape where
  /-- A call with a 32 bit relative target. -/
  | call
  /-- A jump with a 32 bit relative target. -/
  | jump
  /-- A move of a 64 bit literal into a register. -/
  | movLiteral
  /-- A call through a register. -/
  | callRegister
  | other
deriving DecidableEq, Repr, Inhabited

/-- The name of a shape in messages. -/
def Shape.name : Shape → String
  | call => "Call"
  | jump => "Jump"
  | movLiteral => "MovLiteral64"
  | callRegister => "CallRegister"
  | other => "Other"

/-- The bytes of an operand: where they start and how many there are. -/
structure Operand where
  offset : Nat
  size : Nat
deriving DecidableEq, Repr, Inhabited

/-- A decoded instruction. Offsets count from the start of the code it was found in. -/
structure Instruction where
  offset : Nat
  length : Nat
  shape : Shape
  displacement : Option Operand
  immediate : Option Operand
  register : Option Register
  /-- Whether the memory operand is relative to the end of the instruction. -/
  ipRelative : Bool
deriving DecidableEq, Repr, Inhabited

namespace Instruction

/-- The offset right after the instruction. -/
def next (i : Instruction) : Nat := i.offset + i.length

/-- Whether the target of the instruction is a 32 bit relative one. -/
def isBranch (i : Instruction) : Bool := i.shape == .call || i.shape == .jump

end Instruction

end ManagedCode
