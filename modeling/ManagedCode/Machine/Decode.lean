import ManagedCode.Machine.Opcode
import ManagedCode.Size

/-!
# Decoding

    An instruction is a head (modifier bytes, opcode, addressing bytes) and a tail (displacement,
    then immediate). The head alone fixes the sizes of the tail, so the bytes of an operand never
    take part in the decoding: patching one leaves length, shape and operand positions alone.

* **`Head.ofBytes?`** reads the head from the front of the code.
* **`Instruction.decodeAt`** checks that head and tail are there and within the length limit, and
  gives the operands their places.
-/

namespace ManagedCode

/-- The bytes in front of an opcode that change its meaning. -/
structure Modifiers where
  /-- The operand size override. -/
  operand16 : Bool := false
  /-- The address size override. -/
  address32 : Bool := false
  /-- The four bits of the extension byte, which counts only right before the opcode. -/
  extension : Nat := 0
deriving DecidableEq, Repr, Inhabited

namespace Modifiers

/-- Whether operands are 64 bits wide. -/
def wide (m : Modifiers) : Bool := m.extension / 8 % 2 == 1

/-- What to add to the number of a register named by the opcode or the addressing byte. -/
def registerBase (m : Modifiers) : Nat := if m.extension % 2 == 1 then 8 else 0

/-- The modifiers with one more byte, if it is a modifier. -/
def extend? (m : Modifiers) (byte : Nat) : Option Modifiers :=
  if 0x40 ≤ byte ∧ byte ≤ 0x4f then some { m with extension := byte % 16 }
  else if byte = 0x66 then some { m with operand16 := true, extension := 0 }
  else if byte = 0x67 then some { m with address32 := true, extension := 0 }
  else if byte ∈ [0x26, 0x2e, 0x36, 0x3e, 0x64, 0x65, 0xf0, 0xf2, 0xf3] then
    some { m with extension := 0 }
  else none

end Modifiers

/-- What the addressing bytes say about an operand in a register or in memory. -/
structure Addressing where
  /-- How many bytes they take. -/
  size : Nat
  /-- The member of an opcode group. -/
  member : Nat
  /-- The register, when the operand is one. -/
  direct : Option Nat
  /-- The size of the displacement that follows. -/
  displacement : Nat
  ipRelative : Bool
deriving DecidableEq, Repr, Inhabited

namespace Addressing

/-- Reads the addressing byte and, where a memory operand needs one, the index byte. -/
def ofBytes? : List UInt8 → Option Addressing
  | [] => none
  | first :: rest =>
      let byte := first.toNat
      let mode := byte / 64
      let member := byte / 8 % 8
      let target := byte % 8
      if mode = 3 then some ⟨1, member, some target, 0, false⟩
      else
        let displacement := if mode = 1 then 1 else if mode = 2 then 4 else 0
        if target = 4 then
          match rest with
          | [] => none
          | index :: _ =>
              if mode = 0 ∧ index.toNat % 8 = 5 then some ⟨2, member, none, 4, false⟩
              else some ⟨2, member, none, displacement, false⟩
        else if mode = 0 ∧ target = 5 then some ⟨1, member, none, 4, true⟩
        else some ⟨1, member, none, displacement, false⟩

end Addressing

/-- The size of an immediate, given the modifiers and the member of an opcode group. -/
def Immediate.size (m : Modifiers) (member : Nat) : Immediate → Nat
  | absent => 0
  | fixed size => size
  | operand => if m.operand16 && !m.wide then 2 else 4
  | full => if m.wide then 8 else if m.operand16 then 2 else 4
  | groupByte => if member < 2 then 1 else 0
  | groupOperand => if member < 2 then (if m.operand16 && !m.wide then 2 else 4) else 0

/-- The head of an instruction: how long it is and what it says about the tail. -/
structure Head where
  size : Nat
  shape : Shape
  displacement : Nat
  immediate : Nat
  register : Option Register
  ipRelative : Bool
deriving DecidableEq, Repr, Inhabited

namespace Head

/-- The register of the given number. -/
def registerOf (number : Nat) : Option Register := some ⟨UInt8.ofNat number⟩

/-- The head of an opcode with neither addressing bytes nor a group. -/
def unaddressed (m : Modifiers) (size : Nat) (form : Form) : Head :=
  let immediate := form.immediate.size m 0
  match form.role with
  | .call => ⟨size, .call, 0, immediate, none, false⟩
  | .jump => ⟨size, .jump, 0, immediate, none, false⟩
  | .load register =>
      if m.wide then
        ⟨size, .movLiteral, 0, immediate, registerOf (m.registerBase + register), false⟩
      else ⟨size, .other, 0, immediate, none, false⟩
  | .absolute => ⟨size, .other, if m.address32 then 4 else 8, immediate, none, false⟩
  | .plain | .indirect => ⟨size, .other, 0, immediate, none, false⟩

/-- The head of an opcode with addressing bytes. -/
def addressed (m : Modifiers) (size : Nat) (form : Form) (a : Addressing) : Head :=
  let plain : Head :=
    ⟨size + a.size, .other, a.displacement, form.immediate.size m a.member, none, a.ipRelative⟩
  match form.role, a.direct with
  | .indirect, some register =>
      if a.member = 2 then
        { plain with
          shape := .callRegister
          register := registerOf (m.registerBase + register) }
      else plain
  | _, _ => plain

/-- Completes a head after the opcode, `size` bytes into the instruction. -/
def ofForm? (m : Modifiers) (size : Nat) (form : Form) (rest : List UInt8) : Option Head :=
  if form.addressed then (Addressing.ofBytes? rest).map (addressed m size form)
  else some (unaddressed m size form)

/-- Reads modifiers and opcode, `size` bytes into the instruction. -/
def scan (m : Modifiers) (size : Nat) : List UInt8 → Option Head
  | [] => none
  | byte :: rest =>
      match m.extend? byte.toNat with
      | some m => scan m (size + 1) rest
      | none =>
          if byte = 0x0f then
            match rest with
            | [] => none
            | escaped :: rest =>
                (Form.ofEscaped escaped.toNat).bind fun form => ofForm? m (size + 2) form rest
          else (Form.ofOpcode byte.toNat).bind fun form => ofForm? m (size + 1) form rest

/-- The head of the instruction at the front of `code`. -/
def ofBytes? (code : List UInt8) : Option Head := scan {} 0 code

/-- The length of the whole instruction. -/
def length (h : Head) : Nat := h.size + h.displacement + h.immediate

end Head

namespace Instruction

/-- No instruction is longer than this. -/
def maxLength : Nat := 15

/-- The operand of the given size at `offset`, if it has a size. -/
def operandAt (offset size : Nat) : Option Operand :=
  if size = 0 then none else some ⟨offset, size⟩

/-- The instruction with head `h` at `offset`: its displacement follows the head, and its immediate
    follows the displacement. -/
def ofHead (offset : Nat) (h : Head) : Instruction where
  offset := offset
  length := h.length
  shape := h.shape
  displacement := operandAt (offset + h.size) h.displacement
  immediate := operandAt (offset + h.size + h.displacement) h.immediate
  register := h.register
  ipRelative := h.ipRelative

/-- The instruction at the front of `code`, which stands at `offset`. -/
def ofBytes? (offset : Nat) (code : List UInt8) : Option Instruction :=
  (Head.ofBytes? code).bind fun h =>
    if h.length ≤ code.length ∧ h.length ≤ maxLength then some (ofHead offset h) else none

/-- Decodes the instruction at `offset` of code assembled at address `base`. -/
def decodeAt (code : List UInt8) (offset : Nat) (base : UInt64) : Checked Instruction := do
  require (offset < code.length) (.machine (.offsetOutside offset code.length))
  let _ ← Address.advance base offset
  match ofBytes? offset (code.drop offset) with
  | some i => return i
  | none => .error (.machine (.undecodable offset))

/-- The relative target of a call or jump: the last four bytes. -/
def branchOperand (i : Instruction) : Checked Operand := do
  require i.isBranch (.machine (.noBranchOperand i.shape i.offset))
  return ⟨i.next - 4, 4⟩

/-- The immediate, which has to be eight bytes wide. -/
def immediate64 (i : Instruction) : Checked Operand :=
  match i.immediate with
  | some o => if o.size = 8 then .ok o else .error (.machine (.noImmediate64 i.offset))
  | none => .error (.machine (.noImmediate64 i.offset))

/-- The displacement, which has to be four bytes wide. -/
def displacement32 (i : Instruction) : Checked Operand :=
  match i.displacement with
  | some o => if o.size = 4 then .ok o else .error (.machine (.noDisplacement32 i.offset))
  | none => .error (.machine (.noDisplacement32 i.offset))

end Instruction

end ManagedCode
