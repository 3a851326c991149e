import ManagedCode.Size

/-!
# Code space

    The address range code is installed into. Blocks are handed out in ascending order and never
    given back; alignment applies to the address of a block, not to its offset into the range.
-/

namespace ManagedCode

/-- The address range for code, and how much of it is used. -/
structure CodeSpace where
  base : UInt64
  capacity : Nat
  used : Nat := 0
deriving DecidableEq, Repr, Inhabited

/-- A request that does not fit: the size asked for, and what was left. -/
structure SpaceFull where
  requested : Nat
  free : Nat
deriving DecidableEq, Repr, Inhabited

/-- The wording of a request that does not fit. -/
def SpaceFull.message (f : SpaceFull) : String :=
  s!"code cache full: {f.requested} bytes requested, {f.free} free"

namespace CodeSpace

/-- Every block starts at a multiple of this. -/
def entryAlignment : Nat := 64

/-- The offset of the next block of the given alignment. -/
def nextStart (s : CodeSpace) (alignment : Nat) : Checked Nat := do
  let free ← Size.add s.base.toNat s.used
  let address ← Size.alignUp free (max alignment entryAlignment)
  return address - s.base.toNat

/-- Takes a block, and gives its address. -/
def allocate (s : CodeSpace) (size alignment : Nat) :
    Checked (Except SpaceFull (UInt64 × CodeSpace)) := do
  let start ← s.nextStart alignment
  let last ← Size.add start size
  if last ≤ s.capacity then
    let address ← Address.advance s.base start
    return .ok (address, { s with used := last })
  else return .error ⟨size, s.capacity - start⟩

end CodeSpace

end ManagedCode
