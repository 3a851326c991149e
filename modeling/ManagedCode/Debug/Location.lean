import ManagedCode.Debug.RefMap

/-!
# Locations

    Where a frame value is found when the frame is rebuilt, and how its bits are to be read.
-/

namespace ManagedCode

/-- How the bits at a location are read. -/
inductive Reading where
  | normal
  | reference
  /-- An int extended to a 64 bit register. -/
  | intInLong
  | long
  | double
  | invalid
deriving DecidableEq, Repr, Inhabited

/-- The name of a reading in listings. -/
def Reading.text : Reading → String
  | normal => "normal"
  | reference => "oop"
  | intInLong => "int_in_long"
  | long => "lng"
  | double => "dbl"
  | invalid => "invalid"

/-- A register, or a byte offset from the stack pointer. -/
inductive Spot where
  | stack (offset : Int)
  | register (register : Register)
deriving DecidableEq, Repr, Inhabited

/-- Where a value is and how it is read. -/
structure Location where
  spot : Spot
  reading : Reading
deriving DecidableEq, Repr, Inhabited

namespace Location

/-- The location of a value that is nowhere. -/
def invalid : Location := ⟨.stack 0, .invalid⟩

/-- Whether a location stands for no value. -/
def isInvalid (l : Location) : Bool := l.reading == .invalid

/-- Whether a location is on the stack. -/
def isStack (l : Location) : Bool :=
  match l.spot with
  | .stack _ => true
  | .register _ => false

/-- Whether a location is a register. -/
def isRegister (l : Location) : Bool := !l.isStack

/-- The text of a location: the spot, and the reading unless it is the normal one. -/
def text (l : Location) : Checked String :=
  if l.isInvalid then .ok "invalid"
  else do
    let spot ← match l.spot with
      | .stack offset => pure s!"stack[{offset}]"
      | .register r => r.text
    if l.reading = .normal then return spot else return spot ++ "," ++ l.reading.text

end Location

end ManagedCode
