import ManagedCode.Compiled.RefBits

/-!
# Reference maps

    For one suspension point, which registers and stack slots hold references and which hold other
    values. Places are listed registers first, then stack slots, each in ascending order.

* **`RefMap.record`** enters a place, at most once.
* **`RefMap.ofBits`** builds the map of a suspension point from the producer's reference bits.
* **`RefMapTable`** keeps the maps of a unit by the offset of their suspension point.
-/

namespace ManagedCode

/-- The name of a register in listings. A register without a name stops the listing. -/
def Register.text (r : Register) : Checked String :=
  match r.name? with
  | some name => .ok name
  | none => .error (.machine (.registerOutOfRange r.number.toNat))

/-- The register of a number that the producer gave. -/
def Register.ofNumber (number : Int) : Checked Register := do
  require (0 ≤ number ∧ number < Register.count) (.machine (.registerOutOfRange number))
  return ⟨UInt8.ofNat number.toNat⟩

/-- A register or a stack slot. Slots count units of 4 bytes from the stack pointer. -/
inductive Place where
  | register (register : Register)
  | stack (slot : Nat)
deriving DecidableEq, Repr, Inhabited

namespace Place

/-- Whether a place is on the stack. -/
def isStack : Place → Bool
  | stack _ => true
  | register _ => false

/-- The listing order: registers by number, then stack slots. -/
def lt : Place → Place → Bool
  | register a, register b => a.number < b.number
  | register _, stack _ => true
  | stack _, register _ => false
  | stack a, stack b => a < b

/-- The text of a place. -/
def text : Place → Checked String
  | register r => r.text
  | stack slot => .ok s!"stack[{slot}]"

end Place

/-- What a place holds. -/
inductive Content where
  | reference
  | plain
deriving DecidableEq, Repr, Inhabited

/-- The name of a content in messages. -/
def Content.text : Content → String
  | reference => "oop"
  | plain => "value"

/-- The places of one suspension point with their contents, in listing order. -/
structure RefMap where
  frameSize : Nat
  parameterCount : Nat
  entries : List (Place × Content) := []
deriving DecidableEq, Repr, Inhabited

namespace RefMap

/-- What a place holds, if it was recorded. -/
def get? (m : RefMap) (place : Place) : Option Content := m.entries.lookup place

/-- A list of entries with one more, in listing order. -/
def insertEntry (place : Place) (content : Content) :
    List (Place × Content) → List (Place × Content)
  | [] => [(place, content)]
  | entry :: rest =>
      if place.lt entry.1 then (place, content) :: entry :: rest
      else entry :: insertEntry place content rest

/-- Records what a place holds. Recording a place again stops with a fault. -/
def record (m : RefMap) (place : Place) (content : Content) : Checked RefMap :=
  match m.get? place with
  | some previous => do
      let name ← place.text
      .error (.table (.placeRecordedTwice name previous.text))
  | none => .ok { m with entries := insertEntry place content m.entries }

/-- The places that hold references, in listing order. -/
def references (m : RefMap) : List Place :=
  (m.entries.filter fun entry => entry.2 == .reference).map fun entry => entry.1

/-- The text of a map: its references between braces. -/
def text (m : RefMap) : Checked String := do
  let names ← m.references.mapM Place.text
  return "OopMap\x7b" ++ String.intercalate ", " names ++ "\x7d"

-- ── Building a map from reference bits ──────────────────────────────────────────

/-- Bytes of a stack word, the unit of the frame bits. -/
def stackWord : Nat := 8

/-- The stack slot of a frame bit: two slots of 4 bytes to a word, as a 32 bit number. -/
def slotOfBit (i : Nat) : Nat := 2 * i % Word.limit32

/-- The register with the given number. -/
def registerAt (i : Nat) : Register := ⟨UInt8.ofNat i⟩

/-- What a set or clear bit says. -/
def contentOfBit (isSet : Bool) : Content := if isSet then .reference else .plain

/-- Checks that no reference bit is set on a register that may hold none. -/
def checkRegisters (bits : RefBits) : Checked Unit :=
  (List.range (min bits.size Register.count)).forM fun i => do
    if (← bits.isSet i) && !(registerAt i).mayHoldReference then
      let name ← (registerAt i).text
      .error (.table (.referenceInRegister name))

/-- Whether the bits of the registers, if there are any, set register `i`. -/
def registerBit (bits : Option RefBits) (i : Nat) : Checked Bool :=
  match bits with
  | some bits => if i < bits.size then bits.isSet i else .ok false
  | none => .ok false

/-- Records every general register. -/
def recordRegisters (bits : Option RefBits) (m : RefMap) : Checked RefMap :=
  (List.range Register.generalCount).foldlM
    (fun m i => do
      let isSet ← registerBit bits i
      m.record (.register (registerAt i)) (contentOfBit isSet)) m

/-- Records the stack word of one frame bit. A bit beyond the frame has to be clear. -/
def recordFrameBit (bits : RefBits) (m : RefMap) (i : Nat) : Checked RefMap := do
  let isSet ← bits.isSet i
  if i < m.frameSize / stackWord then m.record (.stack (slotOfBit i)) (contentOfBit isSet)
  else if isSet then .error (.table (.referenceOutsideFrame i m.frameSize))
  else return m

/-- Records the stack words of the frame bits. -/
def recordFrame (bits : RefBits) (m : RefMap) : Checked RefMap :=
  (List.range bits.size).foldlM (recordFrameBit bits) m

/-- The map of a suspension point. Frame bit `i` stands for the stack word `i` words from the
    stack pointer; `frameSize` is in bytes and includes the return address. -/
def ofBits (frameSize parameterCount : Nat) (registerBits : Option RefBits)
    (frameBits : RefBits) : Checked RefMap := do
  registerBits.forM checkRegisters
  let m ← recordRegisters registerBits { frameSize, parameterCount }
  recordFrame frameBits m

end RefMap

/-- The maps of a unit, by ascending offset of their suspension point. -/
structure RefMapTable where
  maps : List (Nat × RefMap) := []
deriving DecidableEq, Repr, Inhabited

namespace RefMapTable

/-- The map at an offset. -/
def find? (t : RefMapTable) (pc : Nat) : Option RefMap := t.maps.lookup pc

/-- A list of maps with one more, by ascending offset. -/
def insertMap (pc : Nat) (m : RefMap) : List (Nat × RefMap) → List (Nat × RefMap)
  | [] => [(pc, m)]
  | entry :: rest =>
      if pc < entry.1 then (pc, m) :: entry :: rest else entry :: insertMap pc m rest

/-- Adds the map of an offset that has none yet. -/
def add (t : RefMapTable) (pc : Nat) (m : RefMap) : Checked RefMapTable := do
  require (t.find? pc = none) (.table (.secondMap pc))
  return ⟨insertMap pc m t.maps⟩

end RefMapTable

end ManagedCode
