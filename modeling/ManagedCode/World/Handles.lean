import ManagedCode.Size

/-!
# Handles

    Tracked references to heap objects. A handle is the address of a slot; slots are 8 bytes apart
    from a fixed base, and a released slot is the next to be used again.
-/

namespace ManagedCode

/-- The slots of a runtime: what each refers to, and the empty ones, latest released first. -/
structure HandleTable where
  slots : List (Option ObjectAddress) := []
  free : List Nat := []
deriving DecidableEq, Repr, Inhabited

namespace HandleTable

/-- The address of the first slot. -/
def base : Nat := 0x100000

/-- Bytes from one slot to the next. -/
def stride : Nat := 8

/-- The handle of a slot, whose address has to be within the range of words. -/
def handleOf (slot : Nat) : Checked Handle := do
  let address ← Size.add base (stride * slot)
  return ⟨UInt64.ofNat address⟩

/-- The slot of a handle, if it is the address of one. -/
def slotOf? (h : Handle) : Option Nat :=
  let address := h.address.toNat
  if base ≤ address ∧ (address - base) % stride = 0 then some ((address - base) / stride)
  else none

/-- Makes a handle for an object. -/
def make (t : HandleTable) (object : ObjectAddress) : Checked (Handle × HandleTable) :=
  match t.free with
  | slot :: free => do
      require (slot < t.slots.length) .outOfBounds
      return (← handleOf slot, ⟨t.slots.set slot (some object), free⟩)
  | [] => do return (← handleOf t.slots.length, ⟨t.slots ++ [some object], []⟩)

/-- The object a live handle refers to. -/
def resolve? (t : HandleTable) (h : Handle) : Option ObjectAddress :=
  (slotOf? h).bind fun slot => (t.slots[slot]?).join

/-- Gives back a live handle. -/
def release (t : HandleTable) (h : Handle) : Checked HandleTable :=
  match slotOf? h with
  | none => .error (.runtime (.unknownHandle h))
  | some slot =>
      match t.slots[slot]? with
      | none => .error (.runtime (.unknownHandle h))
      | some none => .error (.runtime (.handleReleasedTwice h))
      | some (some _) => .ok ⟨t.slots.set slot none, slot :: t.free⟩

/-- Gives back a list of live handles, in order. -/
def releaseAll (t : HandleTable) (handles : List Handle) : Checked HandleTable :=
  handles.foldlM release t

/-- How many handles are live. -/
def live (t : HandleTable) : Nat := t.slots.length - t.free.length

end HandleTable

end ManagedCode
