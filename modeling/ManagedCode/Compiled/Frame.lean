import ManagedCode.Compiled.RefBits

/-!
# Frames and debug information

    What the producer says about one suspension point: the chain of inlined frames with the values
    of each, the reference bits of registers and stack, and the objects that exist only as field
    values.
-/

namespace ManagedCode

/-- One frame: the values of its locals, its expression stack and its locks, in this order. -/
structure Frame where
  method : MethodId
  bci : Int
  values : List Value
  localCount : Nat
  stackCount : Nat
  lockCount : Nat
  duringCall : Bool := false
  rethrow : Bool := false
  leafGraphId : Int := 0
deriving DecidableEq, Repr, Inhabited

namespace Frame

/-- The bytecode index of a state before the first instruction of a method. -/
def beforeBci : Int := -1

/-- The bytecode index of a state after the return of a method. -/
def afterBci : Int := -2

/-- Whether the interrupted instruction is executed again on return to the interpreter. -/
def reexecutes (f : Frame) : Bool :=
  if f.bci = beforeBci ∨ f.bci = afterBci then false else !f.duringCall

end Frame

/-- What the producer says about one suspension point. -/
structure DebugInfo where
  /-- The innermost frame. -/
  frame : Frame
  /-- The frames it was inlined into, innermost first. -/
  callers : List Frame := []
  registerBits : Option RefBits := none
  frameBits : RefBits
  virtualObjects : List VirtualObject := []
deriving DecidableEq, Repr, Inhabited

namespace DebugInfo

/-- All frames, innermost first. -/
def chain (d : DebugInfo) : List Frame := d.frame :: d.callers

/-- The number of frames. -/
def depth (d : DebugInfo) : Nat := d.chain.length

end DebugInfo

end ManagedCode
