import ManagedCode.Code.Relocation
import ManagedCode.Machine.Decode

/-!
# Blobs

    The output of one installation: a code section, a constants section and the relocations of the
    code. The constants start at the capacity of the code rounded up to their alignment, so that
    the distance between the two sections does not change when the blob moves.

* **`Blob.copyCode`**, **`Blob.appendConstant`**, **`Blob.relocate`** add to the sections, within
  the capacities fixed at the start; **`Overflow`** says which one is used up. They give the blob
  they leave, also where they are refused.
* **`Blob.read32`** .. **`Blob.write64`** access operands in the code.
* **`Blob.moveTo`** re-resolves the distances to fixed addresses.
-/

namespace ManagedCode

/-- A section or the relocation table is used up. -/
inductive Overflow where
  | instructions (size capacity : Nat)
  | constants (needed capacity : Nat)
  | relocations (capacity : Nat)
deriving DecidableEq, Repr

/-- The wording of an overflow. -/
def Overflow.message : Overflow → String
  | instructions size capacity =>
      s!"{size} bytes of code do not fit the {capacity} byte instruction section"
  | constants needed capacity =>
      s!"constants section full: need {needed} bytes, capacity is {capacity}"
  | relocations capacity => s!"relocation section full after {capacity} records"

/-- The capacities of a blob, fixed before anything is put into it. -/
structure Layout where
  codeCapacity : Nat
  constantsCapacity : Nat
  constantsAlignment : Nat
  relocationCapacity : Nat
deriving DecidableEq, Repr, Inhabited

/-- The output of one installation. -/
structure Blob where
  layout : Layout
  code : List UInt8
  constants : List UInt8
  relocations : List Relocation
  /-- The address the code is currently assembled at. -/
  base : UInt64
deriving DecidableEq, Repr, Inhabited

namespace Blob

/-- An empty blob at `base`. -/
def empty (layout : Layout) (base : UInt64) : Blob := ⟨layout, [], [], [], base⟩

-- ── Adding to the sections ──────────────────────────────────────────────────────

/-- Appends to the code section. -/
def copyCode (b : Blob) (bytes : List UInt8) : Except Overflow Unit × Blob :=
  let size := b.code.length + bytes.length
  if size ≤ b.layout.codeCapacity then (.ok (), { b with code := b.code ++ bytes })
  else (.error (.instructions size b.layout.codeCapacity), b)

/-- Where a constant of the given alignment goes; alignment 0 asks for none. -/
def constantOffset (b : Blob) (alignment : Nat) : Checked Nat :=
  if alignment = 0 then .ok b.constants.length
  else do
    require (alignment ≤ b.layout.constantsAlignment)
      (.blob (.alignmentAboveSection alignment b.layout.constantsAlignment))
    Size.alignUp b.constants.length alignment

/-- Appends to the constants section at the given alignment, padding with zeros, and gives the
    offset of the new bytes. -/
def appendConstant (b : Blob) (bytes : List UInt8) (alignment : Nat) :
    Checked (Except Overflow Nat × Blob) := do
  let offset ← b.constantOffset alignment
  let needed ← Size.add offset bytes.length
  if needed ≤ b.layout.constantsCapacity then
    let padding := List.replicate (offset - b.constants.length) 0
    return (.ok offset, { b with constants := b.constants ++ padding ++ bytes })
  else return (.error (.constants needed b.layout.constantsCapacity), b)

/-- Records a relocation of the instruction at `offset`. -/
def relocate (b : Blob) (offset : Nat) (kind : RelocationKind) (format : OperandFormat) :
    Checked (Except Overflow Unit × Blob) := do
  require (offset < b.code.length) (.blob (.relocationOutside offset b.code.length))
  if b.relocations.length < b.layout.relocationCapacity then
    return (.ok (), { b with relocations := b.relocations ++ [⟨offset, kind, format⟩] })
  else return (.error (.relocations b.layout.relocationCapacity), b)

/-- Replaces the first relocation of kind `old` at `offset` in a list. -/
def rekindFirst (offset : Nat) (old new : RelocationKind) :
    List Relocation → Option (List Relocation)
  | [] => none
  | r :: rest =>
      if r.offset = offset ∧ r.kind = old then some ({ r with kind := new } :: rest)
      else (rekindFirst offset old new rest).map (r :: ·)

/-- Changes the kind of the latest relocation of kind `old` at `offset`. -/
def changeKind (b : Blob) (offset : Nat) (old new : RelocationKind) : Checked Blob :=
  match rekindFirst offset old new b.relocations.reverse with
  | some changed => .ok { b with relocations := changed.reverse }
  | none => .error (.blob (.noRelocation old offset))

-- ── Places ──────────────────────────────────────────────────────────────────────

/-- Where the constants start, counted from the start of the code. -/
def constantsStart (b : Blob) : Checked Nat :=
  Size.alignUp b.layout.codeCapacity b.layout.constantsAlignment

/-- The size of the whole blob. -/
def size (b : Blob) : Checked Nat := do
  let start ← b.constantsStart
  Size.add start b.constants.length

/-- The address of a place in the code. -/
def codeAddress (b : Blob) (offset : Nat) : Checked UInt64 := Address.advance b.base offset

/-- The address of a place among the constants. -/
def constantAddress (b : Blob) (offset : Nat) : Checked UInt64 := do
  let start ← b.constantsStart
  let place ← Size.add start offset
  Address.advance b.base place

/-- The instruction at a place in the code. -/
def instructionAt (b : Blob) (offset : Nat) : Checked Instruction :=
  Instruction.decodeAt b.code offset b.base

-- ── Operands ────────────────────────────────────────────────────────────────────

/-- Checks that `size` bytes at `offset` are within the code. -/
def checkAccess (b : Blob) (offset size : Nat) : Checked Unit := do
  let last ← Size.add offset size
  require (last ≤ b.code.length) (.blob (.accessOutside size offset b.code.length))

/-- The bytes of `code` with those at `offset` replaced. -/
def overwrite (code : List UInt8) (offset : Nat) (bytes : List UInt8) : List UInt8 :=
  code.take offset ++ bytes ++ code.drop (offset + bytes.length)

/-- Reads `width` bytes of code as a number. -/
def readBytes (b : Blob) (offset width : Nat) : Checked Nat := do
  b.checkAccess offset width
  return Word.ofBytes ((b.code.drop offset).take width)

/-- Writes the `width` low bytes of a number into the code. -/
def writeBytes (b : Blob) (offset width value : Nat) : Checked Blob := do
  b.checkAccess offset width
  return { b with code := overwrite b.code offset (Word.toBytes width value) }

/-- Checks the width of an operand. -/
def checkWidth (o : Operand) (width : Nat) : Checked Unit :=
  require (o.size = width) (.blob (.operandSize o.offset o.size width))

/-- Reads one byte of code. -/
def read8 (b : Blob) (offset : Nat) : Checked UInt8 := do
  return UInt8.ofNat (← b.readBytes offset 1)

/-- Writes one byte of code. -/
def write8 (b : Blob) (offset : Nat) (value : UInt8) : Checked Blob :=
  b.writeBytes offset 1 value.toNat

/-- Reads a four byte operand as a signed number. -/
def read32 (b : Blob) (o : Operand) : Checked Int := do
  checkWidth o 4
  return Word.signed32 (← b.readBytes o.offset 4)

/-- Writes a signed number into a four byte operand. -/
def write32 (b : Blob) (o : Operand) (value : Int) : Checked Blob := do
  checkWidth o 4
  b.writeBytes o.offset 4 (value % Word.limit32).toNat

/-- Reads an eight byte operand. -/
def read64 (b : Blob) (o : Operand) : Checked UInt64 := do
  checkWidth o 8
  return UInt64.ofNat (← b.readBytes o.offset 8)

/-- Writes an eight byte operand. -/
def write64 (b : Blob) (o : Operand) (value : UInt64) : Checked Blob := do
  checkWidth o 8
  b.writeBytes o.offset 8 value.toNat

/-- Reads an eight byte constant. -/
def readConstant (b : Blob) (offset : Nat) : Checked UInt64 := do
  let last ← Size.add offset 8
  require (last ≤ b.constants.length) .outOfBounds
  return UInt64.ofNat (Word.ofBytes ((b.constants.drop offset).take 8))

-- ── Moving ──────────────────────────────────────────────────────────────────────

/-- The operand that a positional relocation resolves through. -/
def positionalOperand (r : Relocation) (i : Instruction) : Checked Operand :=
  match r.format with
  | .call32 => i.branchOperand
  | _ => i.displacement32

/-- Keeps the target of one relocated instruction when the code moves to `newBase`. -/
def retarget (newBase : UInt64) (b : Blob) (r : Relocation) : Checked Blob :=
  if r.isPositional then do
    let i ← b.instructionAt r.offset
    let operand ← positionalOperand r i
    let distance ← b.read32 operand
    let target := Address.displace (← Address.advance b.base i.next) distance
    let moved ← Address.distance target (← Address.advance newBase i.next)
    b.write32 operand moved
  else .ok b

/-- Moves the blob, keeping the targets of its positional relocations. -/
def moveTo (b : Blob) (newBase : UInt64) : Checked Blob := do
  let moved ← b.relocations.foldlM (retarget newBase) b
  return { moved with base := newBase }

end Blob

end ManagedCode
