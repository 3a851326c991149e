import ManagedCode.Install.Draft

/-!
# Applying sites

    What each kind of site does to a draft. Sites are applied by ascending offset; the only thing
    one site leaves for a later one is the kind of call announced by an invoke mark, which the next
    call takes.

* **`applySite`** applies one site, **`applySites`** a list of them.
-/

namespace ManagedCode

open Patch

/-- A site or reference offset, if it is within the code. -/
def checkOffset (b : Blob) (offset : Int) : Checked Nat := do
  require (0 ≤ offset ∧ offset.toNat < b.code.length)
    (.site (.offsetOutside offset b.code.length))
  return offset.toNat

-- ── Calls ───────────────────────────────────────────────────────────────────────

/-- The size of a call through a register with its extension byte. -/
def registerCallSize : Nat := 3

/-- The offset right after a call: the end of a direct call, of a call through a register, or of
    the register call that follows the load of its target. -/
def callEnd (b : Blob) (target : CallTarget) (i : Instruction) : Checked Nat :=
  match i.shape with
  | .call | .jump => .ok i.next
  | .movLiteral => do
      let start := i.next
      require (start + registerCallSize ≤ b.code.length) (.site (.movWithoutCall i.offset))
      let extension ← b.read8 start
      let opcode ← b.read8 (start + 1)
      require ((extension = 0x40 ∨ extension = 0x41) ∧ opcode = 0xff)
        (.site (.movWithOtherCall i.offset))
      return start + registerCallSize
  | .callRegister =>
      match target with
      | .method _ => .ok i.next
      | _ => .error (.site (.registerCallTarget i.offset))
  | .other => .error (.site (.callInstruction i.offset))

/-- Binds a direct call to the stub that resolves it. -/
def bindCall (i : Instruction) (target : UInt64) (kind : RelocationKind) : Patch Unit := do
  require (i.shape = .call) (.site (.directCallExpected i.offset kind))
  setBranchTarget i target
  relocate i.offset kind .call32

/-- Binds a jump to code that is installed already. -/
def bindInstalledCode (ctx : SiteContext) (i : Instruction) (id : CodeId) : Patch Unit := do
  require (i.shape = .jump) (.site (.jumpExpected i.offset))
  match ← ctx.codes.verifiedEntry? id with
  | some entry =>
      setBranchTarget i entry
      relocate i.offset .runtimeCall .call32
  | none => (.error (.site (.unknownCode id)) : Checked Unit)

/-- The address of a runtime stub. -/
def stubAddress? (stubs : List UInt64) (id : Int) : Option UInt64 :=
  if 0 ≤ id then stubs[id.toNat]? else none

/-- Binds a call to a runtime stub, by the immediate of a load or by a relative target. -/
def bindStub (ctx : SiteContext) (i : Instruction) (id : Int) : Patch Unit := do
  match stubAddress? ctx.stubs id with
  | none => (.error (.site (.unknownStub id)) : Checked Unit)
  | some target =>
      if i.shape = .movLiteral then
        modifyBlob fun b => do b.write64 (← i.immediate64) target
        relocate i.offset .runtimeCall .immediate
      else
        setBranchTarget i target
        relocate i.offset .runtimeCall .call32

/-- Binds a call through the inline cache that an invoke mark announced. -/
def bindThroughCache (ctx : SiteContext) (i : Instruction) (cache : Option Nat) : Patch Unit :=
  match cache with
  | some cache => bindCall i ctx.world.resolveVirtualCall (.virtualCall cache)
  | none => (.error (.site (.noInlineCache i.offset)) : Checked Unit)

/-- Binds a method call the way the last invoke mark announced. -/
def bindMethod (ctx : SiteContext) (i : Instruction) (method : Option MethodId) : Patch Unit := do
  let announced := (← get).announced
  match announced.mark with
  | .inlineInvokeVirtual => return
  | .invokeVirtual | .invokeInterface =>
      require (method.all fun m => !ctx.world.isStatic m)
        (.site (.staticThroughReceiver i.offset))
      bindThroughCache ctx i announced.offset
  | .invokeStatic =>
      require (method.all fun m => ctx.world.isStatic m) (.site (.receiverThroughStatic i.offset))
      bindCall i ctx.world.resolveStaticCall .staticCall
  | .invokeSpecial =>
      require (method.all fun m => !ctx.world.isStatic m)
        (.site (.staticThroughSpecial i.offset))
      bindCall i ctx.world.resolveSpecialCall .specialCall
  | .invokeInvalid => (.error (.site (.noCallType i.offset)) : Checked Unit)
  | mark => (.error (.site (.notCallType mark)) : Checked Unit)

/-- Runs a step inside of the safepoint of a call, which is at the end of the call. -/
def withCallSafepoint (ctx : SiteContext) (pc : Nat) (info : Option DebugInfo)
    (step : Patch Unit) : Patch Unit := do
  match info with
  | some info => openSafepoint ctx pc info info.frame.leafGraphId
  | none => pure ()
  step
  useAnnounced
  if info.isSome then closeSafepoint pc

/-- Binds a call inside of its safepoint. A jump to installed code has none and is bound before. -/
def bindTarget (ctx : SiteContext) (offset : Nat) (i : Instruction) (info : Option DebugInfo) :
    CallTarget → Patch Unit
  | .runtimeStub id => bindStub ctx i id
  | .method method => do
      require info.isSome (.site (.noDebugInfo offset))
      bindMethod ctx i method.resolved?
  | .installedCode _ => (.error (.site .targetBoundBefore) : Checked Unit)

/-- Applies a call. -/
def applyCall (ctx : SiteContext) (offset : Nat) (target : CallTarget)
    (info : Option DebugInfo) : Patch Unit := do
  let b ← blob
  let i ← b.instructionAt offset
  let pc ← callEnd b target i
  match target with
  | .installedCode id => bindInstalledCode ctx i id
  | _ => withCallSafepoint ctx pc info (bindTarget ctx offset i info target)

/-- Applies a suspension point outside of a call. -/
def applySafepoint (ctx : SiteContext) (offset : Nat) (info : DebugInfo) : Patch Unit := do
  openSafepoint ctx offset info (-1)
  closeSafepoint offset

-- ── Constants ───────────────────────────────────────────────────────────────────

/-- Puts a constant into the constants section and makes a load refer to it. -/
def placeConstant (i : Instruction) (bits : UInt64) (alignment : Nat) : Patch Unit := do
  require i.ipRelative (.site (.loadNotRelative i.offset))
  let operand ← i.displacement32
  let offset ← appendConstant (Word.toBytes 8 bits.toNat) alignment
  let target ← (← blob).constantAddress offset
  setRelativeOperand i operand target
  relocate i.offset (.sectionWord .constants offset) .displacement32

/-- Makes the handle of an object constant and records it; null has the handle 0. -/
def constantHandle (offset : Nat) (object : Option ConstantObject) : Patch Handle := do
  match object with
  | none => return ⟨0⟩
  | some (.heap object) => lowering (makeHandle object)
  | some other => (.error (.site (.patchObject other offset)) : Checked Handle)

/-- Applies a constant that an instruction loads. -/
def applyDataPatch (offset : Nat) (c : Constant) (alignment : Nat) (inlined : Bool) :
    Patch Unit := do
  let i ← (← blob).instructionAt offset
  match c.kind with
  | .float | .long | .double | .word =>
      let d ← get
      let references ← d.references.addConstant c
      set { d with references }
      if inlined then modifyBlob fun b => do b.write64 (← i.immediate64) (Word.ofInt c.bits)
      else placeConstant i (Word.ofInt c.bits) alignment
  | .object =>
      let handle ← constantHandle offset c.object
      modifyBlob fun b => do b.write64 (← i.immediate64) handle.address
      relocate offset .reference .immediate
  | .illegal => (.error (.site (.patchKind c.kind offset)) : Checked Unit)
  | _ => (.error (.site (.narrowPatch offset)) : Checked Unit)

-- ── Marks ───────────────────────────────────────────────────────────────────────

/-- A static call stub, which refers back to the call it serves. -/
def markStaticStub (offset : Nat) (references : List Int) : Patch Unit := do
  match references with
  | [call] =>
      let call ← checkOffset (← blob) call
      relocate offset .metadata .immediate
      relocate offset (.staticStub call) .none
  | _ => (.error (.site (.stubReferences offset references.length)) : Checked Unit)

/-- The load of an inline cache, which starts out holding a word that is no type. -/
def markInlineCache (ctx : SiteContext) (mark : Mark) (offset : Nat) : Patch Unit := do
  modifyBlob fun b => do
    let i ← b.instructionAt offset
    require (i.shape = .movLiteral) (.site (.cacheMovExpected offset))
    let operand ← i.immediate64
    let word ← b.read64 operand
    require (word = 0) (.site (.cacheNotEmpty offset))
    b.write64 operand ctx.world.emptyCacheWord
  announce mark offset

/-- An instruction that may fault on null and continues in place. -/
def markImplicitNull (offset : Nat) : Patch Unit := do
  let d ← get
  let implicitNulls ← d.implicitNulls.add offset offset
  set { d with implicitNulls }

/-- A poll that reaches the polling page relative to its end. -/
def markNearPoll (ctx : SiteContext) (offset : Nat) (kind : RelocationKind) : Patch Unit := do
  let i ← (← blob).instructionAt offset
  require i.ipRelative (.site (.pollNotRelative offset))
  let operand ← i.displacement32
  require (0 < ctx.world.pageSize) (.site .pageSizeZero)
  let target ← Address.advance ctx.world.pollingPage
    (ctx.settings.pollOffset % ctx.world.pageSize)
  setRelativeOperand i operand target
  relocate offset kind .displacement32

/-- The number of bytes a patching stub skips. -/
def patchingSkip : UInt8 := 5

/-- The two references of a patching mark. -/
def patchingReferences (offset : Nat) (references : List Int) : Checked (Int × Int) :=
  match references with
  | [first, second] => .ok (first, second)
  | _ => .error (.site (.patchReferences offset references.length))

/-- Fills the three bytes in front of a patching stub: the distance to the entry taken while the
    type is being initialized, the skip, and the number of bytes to be patched. Gives the offset
    of the patched instruction. -/
def fillPatchingHeader (offset : Nat) (references : List Int) (b : Blob) :
    Checked (Nat × Blob) := do
  require (3 ≤ offset) (.site (.patchHeader offset))
  let (first, second) ← patchingReferences offset references
  let skip ← b.read8 (offset - 2)
  require (skip = patchingSkip) (.site (.patchSkip skip offset))
  let first ← checkOffset b first
  let second ← checkOffset b second
  let count : Int := (second : Int) - first
  require (0 ≤ count ∧ count ≤ 255) (.site (.patchByteCount count offset))
  let entry : Int := count + skip.toNat
  require (entry ≤ 255) (.site (.patchEntryOffset entry offset))
  let b ← b.write8 (offset - 1) (UInt8.ofNat count.toNat)
  let b ← b.write8 (offset - 3) (UInt8.ofNat entry.toNat)
  return (first, b)

/-- What the displacement of a field access holds until it is patched. -/
def fieldPlaceholder : Int := 0x7fffffff

/-- Clears the displacement of a field access. -/
def clearFieldOffset (offset : Nat) (b : Blob) : Checked Blob := do
  let i ← b.instructionAt offset
  let operand ← i.displacement32
  let value ← b.read32 operand
  require (value = fieldPlaceholder) (.site (.fieldPlaceholder offset))
  b.write32 operand 0

/-- A relocation that keeps its place among the records but refers to nothing. -/
def markDummyReference (offset : Nat) : Patch Unit := do
  relocate offset .reference .immediate
  modifyBlob fun b => b.changeKind offset .reference .none

/-- Applies a mark. -/
def applyMark (ctx : SiteContext) (offset : Nat) (id : Int) (references : List Int) :
    Patch Unit := do
  match Mark.ofNumber? id with
  | none => (.error (.site (.unknownMark id)) : Checked Unit)
  | some .unverifiedEntry => setEntryPoint .entry offset
  | some .verifiedEntry => setEntryPoint .verifiedEntry offset
  | some .osrEntry => setEntryPoint .osrEntry offset
  | some .unwindEntry => setEntryPoint .unwindHandler offset
  | some .exceptionHandlerEntry => setEntryPoint .exceptions offset
  | some .deoptHandlerEntry => setEntryPoint .deopt offset
  | some .staticCallStub => markStaticStub offset references
  | some .invokeVirtual => markInlineCache ctx .invokeVirtual offset
  | some .invokeInterface => markInlineCache ctx .invokeInterface offset
  | some .invokeInvalid => announce .invokeInvalid offset
  | some .invokeStatic => announce .invokeStatic offset
  | some .invokeSpecial => announce .invokeSpecial offset
  | some .inlineInvokeVirtual => announce .inlineInvokeVirtual offset
  | some .implicitNull => markImplicitNull offset
  | some .pollNear => markNearPoll ctx offset .poll
  | some .pollReturnNear => markNearPoll ctx offset .pollReturn
  | some .pollFar => relocate offset .poll .none
  | some .pollReturnFar => relocate offset .pollReturn .none
  | some .typePatching =>
      modifyBlob fun b => do return (← fillPatchingHeader offset references b).2
  | some .accessFieldPatching =>
      modifyBlob fun b => do
        let (first, b) ← fillPatchingHeader offset references b
        clearFieldOffset first b
  | some .dummyReference => markDummyReference offset

-- ── Sites ───────────────────────────────────────────────────────────────────────

/-- Applies a site. -/
def applySite (ctx : SiteContext) (site : Site) : Patch Unit := do
  let offset ← checkOffset (← blob) site.offset
  match site.kind with
  | .call target info => applyCall ctx offset target info
  | .safepoint info => applySafepoint ctx offset info
  | .dataPatch constant alignment inlined => applyDataPatch offset constant alignment inlined
  | .mark id references => applyMark ctx offset id references

/-- Applies sites in order, up to the first that is refused. -/
def applySites (ctx : SiteContext) (sites : List Site) : Patch Unit :=
  sites.forM (applySite ctx)

end ManagedCode
