/-!
# Opcodes

    What follows an opcode of the 64 bit instruction set: whether an addressing byte, and how wide
    an immediate. Opcodes that do not exist in 64 bit mode, and those no producer emits, have no
    form.
-/

namespace ManagedCode

/-- The immediate that follows an opcode. -/
inductive Immediate where
  | absent
  | fixed (size : Nat)
  /-- Two bytes under an operand size override, four otherwise. -/
  | operand
  /-- As wide as the register: two, four or eight bytes. -/
  | full
  /-- Present for the first two members of an opcode group only, `fixed 1`. -/
  | groupByte
  /-- Present for the first two members of an opcode group only, as for `operand`. -/
  | groupOperand
deriving DecidableEq, Repr, Inhabited

/-- What an opcode does, as far as the installer cares. -/
inductive Role where
  | plain
  | call
  | jump
  /-- Loads an immediate into the register of the given number. -/
  | load (register : Nat)
  /-- The group that holds the call through a register or memory. -/
  | indirect
  /-- Has the address of its operand as a displacement, as wide as an address. -/
  | absolute
deriving DecidableEq, Repr, Inhabited

/-- What follows an opcode, and what it does. -/
structure Form where
  addressed : Bool
  immediate : Immediate := .absent
  role : Role := .plain
deriving DecidableEq, Repr, Inhabited

namespace Form

/-- An opcode without operands in the code. -/
def bare : Form := ⟨false, .absent, .plain⟩

/-- An opcode with an addressing byte only. -/
def addressing : Form := ⟨true, .absent, .plain⟩

/-- An opcode with an immediate only. -/
def withImmediate (i : Immediate) : Form := ⟨false, i, .plain⟩

/-- An opcode with an addressing byte and an immediate. -/
def addressedImmediate (i : Immediate) : Form := ⟨true, i, .plain⟩

/-- The two-operand arithmetic block: four register forms and two accumulator forms in each row
    of eight opcodes. -/
def arithmetic (opcode : Nat) : Option Form :=
  match opcode % 8 with
  | 4 => some (withImmediate (.fixed 1))
  | 5 => some (withImmediate .operand)
  | 6 | 7 => none
  | _ => some addressing

/-- The form of a one-byte opcode. -/
def ofOpcode (opcode : Nat) : Option Form :=
  if opcode < 0x40 then arithmetic opcode
  else if 0x50 ≤ opcode ∧ opcode ≤ 0x5f then some bare
  else if opcode = 0x63 then some addressing
  else if opcode = 0x68 then some (withImmediate .operand)
  else if opcode = 0x69 then some (addressedImmediate .operand)
  else if opcode = 0x6a then some (withImmediate (.fixed 1))
  else if opcode = 0x6b then some (addressedImmediate (.fixed 1))
  else if 0x70 ≤ opcode ∧ opcode ≤ 0x7f then some (withImmediate (.fixed 1))
  else if opcode = 0x80 ∨ opcode = 0x83 then some (addressedImmediate (.fixed 1))
  else if opcode = 0x81 then some (addressedImmediate .operand)
  else if 0x84 ≤ opcode ∧ opcode ≤ 0x8b then some addressing
  else if opcode = 0x8d ∨ opcode = 0x8f then some addressing
  else if 0x90 ≤ opcode ∧ opcode ≤ 0x99 then some bare
  else if 0x9b ≤ opcode ∧ opcode ≤ 0x9f then some bare
  else if 0xa0 ≤ opcode ∧ opcode ≤ 0xa3 then some ⟨false, .absent, .absolute⟩
  else if opcode = 0xa8 then some (withImmediate (.fixed 1))
  else if opcode = 0xa9 then some (withImmediate .operand)
  else if 0xa4 ≤ opcode ∧ opcode ≤ 0xaf then some bare
  else if 0xb0 ≤ opcode ∧ opcode ≤ 0xb7 then some (withImmediate (.fixed 1))
  else if 0xb8 ≤ opcode ∧ opcode ≤ 0xbf then some ⟨false, .full, .load (opcode % 8)⟩
  else if opcode = 0xc0 ∨ opcode = 0xc1 ∨ opcode = 0xc6 then
    some (addressedImmediate (.fixed 1))
  else if opcode = 0xc2 then some (withImmediate (.fixed 2))
  else if opcode = 0xc7 then some (addressedImmediate .operand)
  else if opcode = 0xc3 ∨ opcode = 0xc9 ∨ opcode = 0xcc then some bare
  else if opcode = 0xcd then some (withImmediate (.fixed 1))
  else if 0xd0 ≤ opcode ∧ opcode ≤ 0xd3 then some addressing
  else if opcode = 0xe8 then some ⟨false, .fixed 4, .call⟩
  else if opcode = 0xe9 then some ⟨false, .fixed 4, .jump⟩
  else if opcode = 0xeb then some (withImmediate (.fixed 1))
  else if opcode = 0xf6 then some (addressedImmediate .groupByte)
  else if opcode = 0xf7 then some (addressedImmediate .groupOperand)
  else if 0xf4 ≤ opcode ∧ opcode ≤ 0xfd then some bare
  else if opcode = 0xfe then some addressing
  else if opcode = 0xff then some ⟨true, .absent, .indirect⟩
  else none

/-- The form of an opcode behind the escape byte. -/
def ofEscaped (opcode : Nat) : Option Form :=
  if opcode = 0x05 ∨ opcode = 0x0b ∨ opcode = 0xa2 then some bare
  else if 0x10 ≤ opcode ∧ opcode ≤ 0x1f then some addressing
  else if 0x28 ≤ opcode ∧ opcode ≤ 0x2f then some addressing
  else if 0x40 ≤ opcode ∧ opcode ≤ 0x6f then some addressing
  else if 0x80 ≤ opcode ∧ opcode ≤ 0x8f then some (withImmediate (.fixed 4))
  else if 0x90 ≤ opcode ∧ opcode ≤ 0x9f then some addressing
  else if opcode = 0xaf ∨ opcode = 0xb6 ∨ opcode = 0xb7 ∨ opcode = 0xbe ∨ opcode = 0xbf then
    some addressing
  else none

end Form

end ManagedCode
