import ManagedCode.Compiled.Mark
import ManagedCode.Install.Scopes
import ManagedCode.World.CodeTable

/-!
# Drafts

    A unit in the making: its blob, the tables filled so far, and the handles of the runtime. A
    step over a draft either goes through, stops with a fault, or is refused by an overflow, in
    which case the draft stays as the step left it.
-/

namespace ManagedCode

/-- The kind of call that the last invoke mark announced. -/
inductive PendingCall where
  | none
  /-- Through the inline cache loaded at `cache`. -/
  | throughCache (cache : Nat)
  | static
  | special
  /-- Bound in the code itself. -/
  | inlined
deriving DecidableEq, Repr, Inhabited

/-- What the invoke marks leave for the next call: the mark that counts, and the offset of the
    last one. -/
structure Announcement where
  mark : Mark := .invokeInvalid
  offset : Option Nat := none
deriving DecidableEq, Repr, Inhabited

/-- The kind of call that is announced. -/
def Announcement.pending (a : Announcement) : PendingCall :=
  match a.mark, a.offset with
  | .invokeVirtual, some cache => .throughCache cache
  | .invokeInterface, some cache => .throughCache cache
  | .invokeStatic, _ => .static
  | .invokeSpecial, _ => .special
  | .inlineInvokeVirtual, _ => .inlined
  | _, _ => .none

/-- A unit in the making. -/
structure Draft where
  blob : Blob
  log : SafepointLog := {}
  references : ReferenceRecorder := {}
  entryPoints : EntryPoints := {}
  implicitNulls : ImplicitTable := {}
  announced : Announcement := {}
  handles : HandleTable := {}
deriving DecidableEq, Repr, Inhabited

/-- The kind of call that is announced in a draft. -/
def Draft.pending (d : Draft) : PendingCall := d.announced.pending

/-- What stays the same while the sites of a unit are applied. -/
structure SiteContext where
  world : Description
  stubs : List UInt64
  codes : CodeTable
  settings : Settings
  /-- The frame size in bytes, with the return address. -/
  frameSize : Nat
  parameterCount : Nat

/-- A step over a draft. -/
abbrev Patch := ExceptT Overflow (StateT Draft Checked)

namespace Patch

/-- Runs a step on a draft. -/
def runOn {α : Type} (step : Patch α) (d : Draft) : Checked (Except Overflow α × Draft) :=
  (ExceptT.run step).run d

/-- Changes the blob. -/
def modifyBlob (f : Blob → Checked Blob) : Patch Unit := do
  let d ← get
  let blob ← f d.blob
  set { d with blob }

/-- Changes the log of safepoints. -/
def modifyLog (f : SafepointLog → Checked SafepointLog) : Patch Unit := do
  let d ← get
  let log ← f d.log
  set { d with log }

/-- The blob. -/
def blob : Patch Blob := do return (← get).blob

/-- Records a relocation. -/
def relocate (offset : Nat) (kind : RelocationKind) (format : OperandFormat) : Patch Unit := do
  let d ← get
  let (result, blob) ← d.blob.relocate offset kind format
  set { d with blob }
  liftExcept result

/-- Appends a constant, and gives its offset. -/
def appendConstant (bytes : List UInt8) (alignment : Nat) : Patch Nat := do
  let d ← get
  let (result, blob) ← d.blob.appendConstant bytes alignment
  set { d with blob }
  liftExcept result

/-- Runs a lowering with an empty pool, keeping what it records. -/
def lowering {α : Type} (step : Lower α) : Patch α := do
  let d ← get
  let (a, t) ← step.run { references := d.references, handles := d.handles }
  set { d with references := t.references, handles := t.handles }
  return a

/-- Sets the target of a call or jump. -/
def setBranchTarget (i : Instruction) (target : UInt64) : Patch Unit :=
  modifyBlob fun b => do
    let next ← b.codeAddress i.next
    let operand ← i.branchOperand
    b.write32 operand (← Address.distance target next)

/-- Sets the target of a memory operand that is relative to the end of its instruction. -/
def setRelativeOperand (i : Instruction) (operand : Operand) (target : UInt64) : Patch Unit :=
  modifyBlob fun b => do
    let next ← b.codeAddress i.next
    b.write32 operand (← Address.distance target next)

/-- Opens the safepoint of a suspension point and describes it. -/
def openSafepoint (ctx : SiteContext) (pc : Nat) (info : DebugInfo) (leafGraphId : Int) :
    Patch Unit := do
  let map ← RefMap.ofBits ctx.frameSize ctx.parameterCount info.registerBits info.frameBits
  modifyLog fun log => log.start pc leafGraphId map
  let values ← ValueContext.create ctx.world ctx.settings.byteOrder
    (Word.signed32 ctx.frameSize) info.virtualObjects
  let log ← lowering (describeSafepoint values pc (← get).log info)
  modify fun d => { d with log }

/-- Closes the open safepoint. -/
def closeSafepoint (pc : Nat) : Patch Unit := modifyLog fun log => log.finish pc

/-- Sets a named offset. -/
def setEntryPoint (kind : EntryKind) (offset : Nat) : Patch Unit :=
  modify fun d => { d with entryPoints := d.entryPoints.set kind offset }

/-- Announces the next call by an invoke mark. -/
def announce (mark : Mark) (offset : Nat) : Patch Unit :=
  modify fun d => { d with announced := ⟨mark, some offset⟩ }

/-- Uses up what was announced. The offset of the mark stays. -/
def useAnnounced : Patch Unit :=
  modify fun d => { d with announced := { d.announced with mark := .invokeInvalid } }

end Patch

end ManagedCode
