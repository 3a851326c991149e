import ManagedCode.Code.Relocation
import ManagedCode.Compiled.Mark
import ManagedCode.Compiled.ValueText
import ManagedCode.Machine.Shape

/-!
# Faults

    The code and the tables of a unit come from a producer that is built together with the
    installer. Output that breaks the contract between the two is a defect of the build: the
    installation stops with a fault and nothing is recovered. What may go wrong in an orderly way
    (a full section, a full code space, an assumption that fails) is not a fault and has types of
    its own.

* One inductive type per area names the causes.
* **`Fault`** joins them, and **`Fault.report`** gives the class and the wording of each.
* **`Checked`** is the type of a computation that may stop with a fault.
-/

namespace ManagedCode

/-- Causes found while decoding instructions and computing their operands. -/
inductive MachineFault where
  | registerOutOfRange (number : Int)
  | offsetOutside (offset size : Nat)
  | undecodable (offset : Nat)
  | noBranchOperand (shape : Shape) (offset : Nat)
  | noImmediate64 (offset : Nat)
  | noDisplacement32 (offset : Nat)
  | displacementTooFar (distance : Int) (target : UInt64)

/-- Causes found while reading and changing a blob. -/
inductive BlobFault where
  | operandSize (offset size expected : Nat)
  | accessOutside (size offset codeSize : Nat)
  | alignmentAboveSection (alignment sectionAlignment : Nat)
  | relocationOutside (offset codeSize : Nat)
  | noRelocation (kind : RelocationKind) (offset : Nat)

/-- Causes found while building the tables of a unit. -/
inductive TableFault where
  | placeRecordedTwice (place content : String)
  | secondMap (pc : Nat)
  | referenceInRegister (register : String)
  | referenceOutsideFrame (bit frameSize : Nat)
  | fieldsSetTwice (id : Int)
  | safepointInProgress (pc : Nat)
  | safepointOutOfOrder (pc last : Nat)
  | safepointElsewhere (opened pc : Nat)
  | noSafepointOpen (pc : Nat)
  | safepointLeftOpen
  | emptyHandlers (pc : Int)
  | secondImplicitEntry (pc : Nat)

/-- Causes found in the runtime a unit is installed into. -/
inductive RuntimeFault where
  | unknownHandle (handle : Handle)
  | handleReleasedTwice (handle : Handle)
  | noMirror (type : TypeId)
  | concreteContext (context : TypeId)

/-- Causes found while lowering values and frames. -/
inductive ValueFault where
  | describedTwice (id : Int)
  | notDescribed (id : Int)
  | lockAmongValues (value : Value)
  | notHeapObject (object : ConstantObject)
  | constantKind (kind : Kind)
  | notLock (value : Value)
  | wideOwner
  | narrowLock
  | lockNotLocated (value : String)
  | kindInGeneralRegister (kind : Kind) (register : String)
  | kindInVectorRegister (kind : Kind) (register : String)
  | typeMismatch (type : TypeId) (bits : Int)
  | heapRemark (object : ObjectAddress) (bits : Int) (kind : Kind)
  | slotCount (values locals expressions monitors : Nat)
  | noPlaceholder

/-- Causes found while applying a site to the code. -/
inductive SiteFault where
  | offsetOutside (offset : Int) (codeSize : Nat)
  | movWithoutCall (offset : Nat)
  | movWithOtherCall (offset : Nat)
  | registerCallTarget (offset : Nat)
  | callInstruction (offset : Nat)
  | jumpExpected (offset : Nat)
  | unknownCode (id : CodeId)
  | unknownStub (id : Int)
  | noDebugInfo (offset : Nat)
  | staticThroughReceiver (offset : Nat)
  | receiverThroughStatic (offset : Nat)
  | staticThroughSpecial (offset : Nat)
  | noCallType (offset : Nat)
  | noInlineCache (offset : Nat)
  | notCallType (mark : Mark)
  | targetBoundBefore
  | directCallExpected (offset : Nat) (kind : RelocationKind)
  | narrowPatch (offset : Nat)
  | patchKind (kind : Kind) (offset : Nat)
  | patchObject (object : ConstantObject) (offset : Nat)
  | loadNotRelative (offset : Nat)
  | unknownMark (id : Int)
  | stubReferences (offset count : Nat)
  | cacheMovExpected (offset : Nat)
  | cacheNotEmpty (offset : Nat)
  | pollNotRelative (offset : Nat)
  | pageSizeZero
  | patchHeader (offset : Nat)
  | patchReferences (offset count : Nat)
  | patchSkip (skip : UInt8) (offset : Nat)
  | patchByteCount (count : Int) (offset : Nat)
  | patchEntryOffset (entry : Int) (offset : Nat)
  | fieldPlaceholder (offset : Nat)

/-- Causes found in a unit as a whole. -/
inductive UnitFault where
  | noMethod (name : String)
  | stubWithMethod (name : String)
  | stubWithAssumptions (name : String)
  | codeTooShort (size available : Nat)
  | negativeFrame (size : Int)
  | safepointsAllowed (name : String)
  | handlerSiteOutside (pc : Int)
  | handlerOutside (pc : Int)
  | stubVanished (id : CodeId)
  | stubDependencies (violation : String)

/-- Why an installation stops for good. -/
inductive Fault where
  /-- A size or an address left the range of 64 bit words, or an offset that of 32 bit ones. -/
  | overflow
  /-- A position outside of a table was asked for. -/
  | outOfBounds
  /-- An alignment was not a power of two. -/
  | badAlignment
  /-- A bit outside of a bit vector was asked for. -/
  | bitOutside
  | machine (cause : MachineFault)
  | blob (cause : BlobFault)
  | table (cause : TableFault)
  | runtime (cause : RuntimeFault)
  | value (cause : ValueFault)
  | site (cause : SiteFault)
  | unit (cause : UnitFault)

/-- How a fault is reported: its class, and its wording where the class has one. -/
inductive Report where
  | fatal (message : String)
  | guarantee (message : String)
  | assertion
  | index
  | arithmetic
deriving DecidableEq, Repr

/-- The report of a decoding fault. Instructions have no text: a report of `noImmediate64` or
    `noDisplacement32` names the instruction by its offset only, without its disassembly in
    brackets behind. -/
def MachineFault.report : MachineFault → Report
  | registerOutOfRange number => .fatal s!"register number {number} out of range"
  | offsetOutside offset size =>
      .guarantee s!"instruction offset {offset} outside of code of size {size}"
  | undecodable offset => .fatal s!"undecodable instruction at offset {offset}"
  | noBranchOperand shape offset =>
      .guarantee s!"{shape.name} at {offset} has no branch operand"
  | noImmediate64 offset => .fatal s!"instruction at {offset} has no 64 bit immediate"
  | noDisplacement32 offset => .fatal s!"instruction at {offset} has no 32 bit displacement"
  | displacementTooFar distance target =>
      .guarantee (s!"displacement {Word.hex64 distance} to {Word.hex target.toNat} " ++
        "does not fit in 32 bits")

/-- The report of a blob fault. -/
def BlobFault.report : BlobFault → Report
  | operandSize offset size expected =>
      .guarantee s!"operand at {offset} is {size} bytes, not {expected}"
  | accessOutside size offset codeSize =>
      .guarantee s!"access of {size} bytes at {offset} outside of code of size {codeSize}"
  | alignmentAboveSection alignment sectionAlignment =>
      .guarantee (s!"alignment {alignment} inside constants section is restricted by " ++
        s!"alignment of section begin ({sectionAlignment})")
  | relocationOutside offset codeSize =>
      .guarantee s!"relocation at {offset} outside of code of size {codeSize}"
  | noRelocation kind offset => .fatal s!"no {kind.text} relocation at {offset}"

/-- The report of a fault in a table. -/
def TableFault.report : TableFault → Report
  | placeRecordedTwice place content =>
      .fatal s!"{place} already recorded as {content} in oop map"
  | secondMap pc => .guarantee s!"second oop map at pc offset {pc}"
  | referenceInRegister register =>
      .fatal s!"reference bit set on register {register} which cannot hold a reference"
  | referenceOutsideFrame bit frameSize =>
      .fatal s!"reference bit {bit} is outside of the {frameSize} byte frame"
  | fieldsSetTwice id => .guarantee s!"fields of object {id} set twice"
  | safepointInProgress pc =>
      .guarantee s!"safepoint at {pc} opened while another is in progress"
  | safepointOutOfOrder pc last =>
      .guarantee s!"safepoint at {pc} does not follow the one at {last}"
  | safepointElsewhere opened pc =>
      .guarantee s!"safepoint at {opened} is still open, not at {pc}"
  | noSafepointOpen pc => .fatal s!"no safepoint open at {pc}"
  | safepointLeftOpen => .guarantee "safepoint left open"
  | emptyHandlers pc => .guarantee s!"empty handler subtable at {pc}"
  | secondImplicitEntry pc => .guarantee s!"second implicit exception entry at {pc}"

/-- The report of a fault in the runtime. -/
def RuntimeFault.report : RuntimeFault → Report
  | unknownHandle handle =>
      .fatal s!"releasing unknown handle {Word.hex handle.address.toNat}"
  | handleReleasedTwice handle =>
      .guarantee s!"handle {Word.hex handle.address.toNat} released twice"
  | noMirror type => .fatal s!"no mirror for unknown type {type.text}"
  | concreteContext context =>
      .guarantee s!"concrete subtype assumption on non-abstract context {context.text}"

/-- The report of a fault in a value or a frame. -/
def ValueFault.report : ValueFault → Report
  | describedTwice id => .guarantee s!"virtual object {id} described twice"
  | notDescribed id => .fatal s!"virtual object {id} is not described"
  | lockAmongValues value =>
      .fatal s!"lock {value.describe} outside of the lock section of a frame"
  | notHeapObject object =>
      .fatal s!"object constant carries {object.describe} instead of a heap object"
  | constantKind kind => .fatal s!"unexpected constant kind {kind.name}"
  | notLock value => .fatal s!"monitors must be stack locks, got {value.describe}"
  | wideOwner => .guarantee "monitor owner cannot occupy two stack slots"
  | narrowLock => .guarantee "monitor lock data must be a two slot value"
  | lockNotLocated value => .fatal s!"invalid monitor location {value}"
  | kindInGeneralRegister kind register =>
      .fatal s!"unexpected type {kind.name} in cpu register {register}"
  | kindInVectorRegister kind register =>
      .fatal s!"only float and double expected in xmm register {register}, got {kind.name}"
  | typeMismatch type bits => .guarantee s!"{type.text} != {Word.hex64 bits}"
  | heapRemark object bits kind =>
      .fatal (s!"unexpected annotation {Word.hex object.address.toNat} for constant {bits} " ++
        s!"of kind {kind.letter}")
  | slotCount values locals expressions monitors =>
      .guarantee (s!"unexpected values length {values} for {locals} locals, " ++
        s!"{expressions} expressions and {monitors} monitors")
  | noPlaceholder => .guarantee "double-slot value not followed by Illegal"

/-- The report of a fault in a site. As with decoding faults, a report of `callInstruction` names
    the instruction by its offset only, without its disassembly. -/
def SiteFault.report : SiteFault → Report
  | offsetOutside offset codeSize =>
      .guarantee s!"offset {offset} outside of code of size {codeSize}"
  | movWithoutCall offset => .guarantee s!"mov at {offset} is not followed by a call"
  | movWithOtherCall offset =>
      .guarantee s!"expected call with rex/rexb prefix byte after mov at {offset}"
  | registerCallTarget offset =>
      .guarantee s!"call through register at {offset} is only valid for method calls"
  | callInstruction offset =>
      .fatal s!"unsupported type of instruction for call site at {offset}"
  | jumpExpected offset =>
      .guarantee s!"jump expected at {offset} for a call to installed code"
  | unknownCode id => .fatal s!"no installed code InstalledCodeId({id.index})"
  | unknownStub id => .fatal s!"unknown runtime stub {id}"
  | noDebugInfo offset => .guarantee s!"debug info expected at method call {offset}"
  | staticThroughReceiver offset =>
      .guarantee ("cannot call static method with invokeinterface or invokevirtual at " ++
        toString offset)
  | receiverThroughStatic offset =>
      .guarantee s!"cannot call non-static method with invokestatic at {offset}"
  | staticThroughSpecial offset =>
      .guarantee s!"cannot call static method with invokespecial at {offset}"
  | noCallType offset => .fatal s!"invalid next call type for call at {offset}"
  | noInlineCache offset =>
      .fatal s!"should not reach here: virtual call at {offset} without inline cache"
  | notCallType mark => .fatal s!"should not reach here: {mark.name} is not a call type"
  | targetBoundBefore => .fatal "should not reach here"
  | directCallExpected offset kind =>
      .guarantee s!"direct call expected at {offset} for {kind.text}"
  | narrowPatch offset => .fatal s!"int-sized values not expected in DataPatch at {offset}"
  | patchKind kind offset => .fatal s!"unexpected constant kind {kind.name} at {offset}"
  | patchObject object offset =>
      .fatal s!"unexpected object constant {object.describe} at {offset}"
  | loadNotRelative offset =>
      .guarantee s!"constant load at {offset} is not rip-relative"
  | unknownMark id => .fatal s!"invalid mark id: {Word.hex32 id}"
  | stubReferences offset count =>
      .guarantee (s!"static call stub at {offset} needs exactly one call reference, " ++
        s!"got {count}")
  | cacheMovExpected offset => .guarantee s!"inline cache mov expected at {offset}"
  | cacheNotEmpty offset =>
      .guarantee s!"inline cache Klass* initial value should be 0L at {offset}"
  | pollNotRelative offset => .guarantee s!"poll at {offset} is not rip-relative"
  | pageSizeZero => .guarantee "vm page size must not be 0"
  | patchHeader offset =>
      .guarantee s!"patching mark at {offset} needs three header bytes"
  | patchReferences offset count =>
      .guarantee s!"patching mark at {offset} needs two references, got {count}"
  | patchSkip skip offset => .guarantee s!"unexpected byte_skip {skip.toNat} at {offset}"
  | patchByteCount count offset =>
      .guarantee s!"invalid patching byte count {count} at {offset}"
  | patchEntryOffset entry offset =>
      .guarantee s!"invalid being initialized entry offset {entry} at {offset}"
  | fieldPlaceholder offset =>
      .guarantee s!"unexpected field offset placeholder at {offset}"

/-- The report of a fault in a unit. -/
def UnitFault.report : UnitFault → Report
  | noMethod name => .fatal s!"{name} has no method to install code for"
  | stubWithMethod name => .guarantee s!"stub {name} must not have a method"
  | stubWithAssumptions name => .guarantee s!"stub {name} must not make assumptions"
  | codeTooShort size available =>
      .guarantee s!"target code size {size} exceeds the {available} code bytes"
  | negativeFrame size => .guarantee s!"negative frame size {size}"
  | safepointsAllowed name =>
      .guarantee s!"installing {name} while safepoints are allowed"
  | handlerSiteOutside pc => .guarantee s!"exception handler site {pc} outside of code"
  | handlerOutside pc => .guarantee s!"exception handler {pc} outside of code"
  | stubVanished id =>
      .fatal s!"should not reach here: stub InstalledCodeId({id.index}) vanished"
  | stubDependencies violation =>
      .fatal s!"should not reach here: stub without dependencies failed {violation}"

/-- The report of a fault. -/
def Fault.report : Fault → Report
  | overflow => .arithmetic
  | outOfBounds => .index
  | badAlignment => .assertion
  | bitOutside => .assertion
  | machine cause => cause.report
  | blob cause => cause.report
  | table cause => cause.report
  | runtime cause => cause.report
  | value cause => cause.report
  | site cause => cause.report
  | unit cause => cause.report

/-- A computation that may stop with a fault. -/
abbrev Checked := Except Fault

/-- Stops with `fault` unless `p` holds. -/
def require (p : Prop) [Decidable p] (fault : Fault) : Checked Unit :=
  if p then .ok () else .error fault

end ManagedCode
