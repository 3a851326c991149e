import ManagedCode.Debug.References
import ManagedCode.Debug.ScopeValue
import ManagedCode.Install.Settings
import ManagedCode.World.Description
import ManagedCode.World.Handles

/-!
# Lowering of values

    Turns the producer's values of one suspension point into scope values. Objects that exist only
    as field values are put into the pool of the suspension point the first time they are met, and
    found there afterwards, so objects may refer to each other in cycles.

* **`lower`** gives the scope value of a value, and a second one where it takes two slots.
* **`meetObject`** is one level of the recursion, and **`lowerObject`** the recursion. Each object
  on the way to the current one is described and distinct, so the number of descriptions bounds the
  depth.
* **`lowerMonitor`** reads a lock.
-/

namespace ManagedCode

/-- A lowered value. Where it takes two slots, `second` comes before `primary`. -/
structure Lowered where
  primary : ScopeValue
  second : Option ScopeValue := none
deriving DecidableEq, Repr, Inhabited

namespace Lowered

/-- A value that takes one slot. -/
def single (v : ScopeValue) : Lowered := ⟨v, none⟩

/-- A location that takes two slots. -/
def wide (v : ScopeValue) : Lowered := ⟨v, some v⟩

/-- The slots of a value, in order. -/
def slots (t : Lowered) : List ScopeValue :=
  match t.second with
  | some second => [second, t.primary]
  | none => [t.primary]

/-- The two halves of an element of a long array. A narrow value leaves the other half zero; the
    byte order decides which half that is. -/
def asLongElement (order : ByteOrder) (t : Lowered) : Lowered :=
  match t.second, order with
  | some _, _ => t
  | none, .little => ⟨t.primary, some (.int 0)⟩
  | none, .big => ⟨.int 0, some t.primary⟩

end Lowered

/-- What stays the same while the values of one suspension point are lowered. -/
structure ValueContext where
  world : Description
  byteOrder : ByteOrder
  /-- The frame size in bytes, with the return address, as a 32 bit number. -/
  frameSize : Int
  virtualObjects : List VirtualObject

namespace ValueContext

/-- The context of a suspension point, whose objects must be described once each. -/
def create (world : Description) (byteOrder : ByteOrder) (frameSize : Int)
    (virtualObjects : List VirtualObject) : Checked ValueContext :=
  match Description.firstRepeated [] (virtualObjects.map VirtualObject.id) with
  | some id => .error (.value (.describedTwice id))
  | none => .ok { world, byteOrder, frameSize, virtualObjects }

/-- The description of an object. -/
def describe? (ctx : ValueContext) (id : Int) : Option VirtualObject :=
  ctx.virtualObjects.find? fun object => object.id == id

end ValueContext

/-- What changes while the values of one suspension point are lowered. -/
structure Lowering where
  references : ReferenceRecorder := {}
  handles : HandleTable := {}
  pool : ObjectPool := {}
  /-- The objects met so far, with their positions in the pool. -/
  seen : List (Int × Nat) := []
deriving DecidableEq, Repr, Inhabited

/-- A step of the lowering. -/
abbrev Lower := StateT Lowering Checked

-- ── Values without parts ────────────────────────────────────────────────────────

/-- Records the type that a word constant embeds. -/
def ReferenceRecorder.addConstant (r : ReferenceRecorder) (c : Constant) :
    Checked ReferenceRecorder :=
  if c.kind = .word ∨ c.kind = .long then
    match c.object with
    | some (.type id) => do
        require (Word.ofInt c.bits = id.address) (.value (.typeMismatch id c.bits))
        return (r.addMetadata (.type id)).2
    | some (.heap object) => .error (.value (.heapRemark object c.bits c.kind))
    | some (.remark _) => .ok r
    | none => .ok r
  else .ok r

/-- A value of the given kind in a register. -/
def lowerRegister (r : Register) (kind : Kind) : Checked Lowered := do
  let located (reading : Reading) : ScopeValue := .location ⟨.register r, reading⟩
  if r.isGeneral then
    match kind with
    | .long => return .wide (located .long)
    | .object => return .single (located .reference)
    | .double | .illegal => .error (.value (.kindInGeneralRegister kind (← r.text)))
    | _ => return .single (located .intInLong)
  else
    match kind with
    | .float => return .single (located .normal)
    | .double => return .wide (located .double)
    | _ => .error (.value (.kindInVectorRegister kind (← r.text)))

/-- How a stack slot of the given kind is read. -/
def stackReading : Kind → Reading
  | .double => .double
  | .long => .long
  | .object => .reference
  | _ => .normal

/-- The byte offset of a stack slot, a 32 bit number. -/
def stackOffset (ctx : ValueContext) (offset : Int) (addFrameSize : Bool) : Checked Int :=
  if addFrameSize then do
    let sum := offset + ctx.frameSize
    require (sum = Word.signed32 sum) .overflow
    return sum
  else .ok offset

/-- A value of the given kind on the stack. -/
def lowerStackSlot (ctx : ValueContext) (offset : Int) (addFrameSize : Bool) (kind : Kind) :
    Checked Lowered := do
  let offset ← stackOffset ctx offset addFrameSize
  let located : ScopeValue := .location ⟨.stack offset, stackReading kind⟩
  if kind.isWide then return .wide located else return .single located

/-- Makes a handle for an object and records it, so that it can be given back should the code
    never be installed. -/
def makeHandle (object : ObjectAddress) : Lower Handle := do
  let t ← get
  let (handle, handles) ← t.handles.make object
  set { t with handles, references := (t.references.addHandle handle).2 }
  return handle

/-- A constant. -/
def lowerConstant (c : Constant) : Lower Lowered := do
  let t ← get
  let references ← t.references.addConstant c
  set { t with references }
  match c.kind with
  | .long | .double => return ⟨.long c.bits, some (.int 0)⟩
  | .object =>
      match c.object with
      | none => return .single (.reference none)
      | some (.heap object) => return .single (.reference (some (← makeHandle object)))
      | some other => throw (.value (.notHeapObject other))
  | .word => return .single (.long c.bits)
  | .illegal => throw (.value (.constantKind c.kind))
  | _ => return .single (.int (Word.signed32 c.bits))

-- ── Objects ─────────────────────────────────────────────────────────────────────

/-- Lowers a value, given how to find or make the object of an identity. -/
def lowerWith (ctx : ValueContext) (object : Int → Lower Nat) :
    Value → Lower Lowered
  | .illegal => return .single .invalid
  | .register number kind => do
      let r ← Register.ofNumber number
      lowerRegister r kind
  | .stackSlot offset addFrameSize kind => lowerStackSlot ctx offset addFrameSize kind
  | .constant c => lowerConstant c
  | .virtualObject id => return .single (.object (← object id))
  | .stackLock owner slot eliminated =>
      throw (.value (.lockAmongValues (.stackLock owner slot eliminated)))

/-- Puts an object without fields into the pool, and gives its position. -/
def enterObject (ctx : ValueContext) (object : VirtualObject) : Lower Nat := do
  let mirror ← ctx.world.mirror object.type
  let handle ← makeHandle mirror
  let t ← get
  let position := t.pool.size
  set { t with
    pool := t.pool.allocate object.id (.reference (some handle))
    seen := (object.id, position) :: t.seen }
  return position

/-- The slots that one field of an object takes. -/
def fieldSlots (ctx : ValueContext) (object : VirtualObject) (t : Lowered) : List ScopeValue :=
  if object.type = ctx.world.longArrayType then (t.asLongElement ctx.byteOrder).slots
  else t.slots

/-- The position of an object in the pool. An object met for the first time is entered, and then
    gets its fields; `object` finds or makes the objects they refer to. -/
def meetObject (ctx : ValueContext) (object : Int → Lower Nat) (id : Int) : Lower Nat := do
  match (← get).seen.lookup id with
  | some position => return position
  | none =>
      match ctx.describe? id with
      | none => throw (.value (.notDescribed id))
      | some described =>
          let position ← enterObject ctx described
          let fields ← described.values.mapM fun v => do
            return fieldSlots ctx described (← lowerWith ctx object v)
          let t ← get
          let pool ← t.pool.setFields position fields.flatten
          set { t with pool }
          return position

/-- The position of an object in the pool. At most `unopened` described objects have not been
    met. -/
def lowerObject (ctx : ValueContext) : (unopened : Nat) → (id : Int) → Lower Nat
  | 0, id => do
      match (← get).seen.lookup id with
      | some position => return position
      | none => throw (.value (.notDescribed id))
  | unopened + 1, id => meetObject ctx (lowerObject ctx unopened) id

/-- Lowers a value. -/
def lower (ctx : ValueContext) (v : Value) : Lower Lowered :=
  lowerWith ctx (lowerObject ctx ctx.virtualObjects.length) v

/-- Lowers a lock. Its owner takes one slot, its record is a location of two slots. -/
def lowerMonitor (ctx : ValueContext) : Value → Lower Monitor
  | .stackLock owner slot eliminated => do
      let owner ← lower ctx owner
      require (owner.second = none) (.value .wideOwner)
      let lock ← lower ctx slot
      require (lock.second = some lock.primary) (.value .narrowLock)
      match lock.primary.location? with
      | some location => return ⟨owner.primary, location, eliminated⟩
      | none => throw (.value (.lockNotLocated (← lock.primary.text)))
  | v => throw (.value (.notLock v))

end ManagedCode
