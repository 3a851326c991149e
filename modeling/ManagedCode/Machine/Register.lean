/-!
# Registers

    The producer numbers the 16 general registers from 0 and the 16 vector registers from 16, in
    the order of their machine encoding. A register keeps whatever number it was given; only the
    32 known numbers have a name.
-/

namespace ManagedCode

/-- A register, by its number. -/
structure Register where
  number : UInt8
deriving DecidableEq, Repr, Inhabited

namespace Register

/-- How many general registers there are. They come first in the numbering. -/
def generalCount : Nat := 16

/-- How many registers have a name. -/
def count : Nat := 32

/-- The names of the general registers, in encoding order. -/
def generalNames : List String :=
  ["rax", "rcx", "rdx", "rbx", "rsp", "rbp", "rsi", "rdi",
   "r8", "r9", "r10", "r11", "r12", "r13", "r14", "r15"]

/-- The names of all known registers, in the order of their numbers. -/
def names : List String :=
  generalNames ++ (List.range 16).map fun i => s!"xmm{i}"

/-- The name of a register, if its number is known. -/
def name? (r : Register) : Option String := names[r.number.toNat]?

/-- Whether a register is a general one. -/
def isGeneral (r : Register) : Bool := r.number.toNat < generalCount

/-- Whether a register may hold a reference: the stack and frame pointers and the scratch register
    of inline caches may not, and no vector register may. -/
def mayHoldReference (r : Register) : Bool :=
  r.isGeneral && !([4, 5, 10].contains r.number.toNat)

end Register

end ManagedCode
