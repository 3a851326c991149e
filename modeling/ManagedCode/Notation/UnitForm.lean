import ManagedCode.Compiled.CompiledUnit
import ManagedCode.Notation.Field

/-!
# The written form of compiled units

    Reads a compiled unit from a document. Frames nest into their callers and locks into their
    owners, so these readers take the number of levels they may go down; the depth of the document
    always suffices.
-/

namespace ManagedCode.Read

variable {δ : Type} [Document δ]

/-- A kind. -/
def kind (d : δ) : Option Kind :=
  if Document.isBare d then (Document.alternative? d).bind Kind.ofName? else none

/-- What a constant refers to. -/
def constantObject (d : δ) : Option ConstantObject := do
  let content ← Document.content? d
  match ← Document.alternative? d with
  | "Heap" => return .heap (← objectAddress content)
  | "Type" => return .type (← typeId content)
  | "Annotation" => return .remark (← text content)
  | _ => none

/-- A constant. -/
def constant (d : δ) : Option Constant := do
  let fields ← Document.fields? "Constant" ["kind", "primitive", "object"] d
  return {
    kind := ← required fields "kind" kind
    bits := ← defaulted fields "primitive" 0 int64
    object := ← optional fields "object" constantObject }

/-- A value. -/
def value : (levels : Nat) → δ → Option Value
  | 0, _ => none
  | levels + 1, d => do
      match ← Document.alternative? d with
      | "Illegal" => if Document.isBare d then return .illegal else none
      | "Register" =>
          let fields ← Document.contents? ["number", "kind"] d
          return .register (← required fields "number" int32) (← required fields "kind" kind)
      | "StackSlot" =>
          let fields ← Document.contents? ["offset", "add_frame_size", "kind"] d
          return .stackSlot (← required fields "offset" int32)
            (← required fields "add_frame_size" flag) (← required fields "kind" kind)
      | "Constant" => return .constant (← constant (← Document.content? d))
      | "VirtualObject" =>
          let fields ← Document.contents? ["id"] d
          return .virtualObject (← required fields "id" int32)
      | "StackLock" =>
          let fields ← Document.fields? "StackLock" ["owner", "slot", "eliminated"]
            (← Document.content? d)
          return .stackLock (← required fields "owner" (value levels))
            (← required fields "slot" (value levels)) (← required fields "eliminated" flag)
      | _ => none

/-- The description of an object that exists only as its field values. -/
def virtualObject (levels : Nat) (d : δ) : Option VirtualObject := do
  let fields ← Document.fields? "VirtualObject" ["id", "object_type", "values"] d
  return {
    id := ← required fields "id" int32
    type := ← required fields "object_type" typeId
    values := ← required fields "values" (list (value levels)) }

/-- Reference bits. -/
def refBits (d : δ) : Option RefBits := do
  let fields ← Document.fields? "BitMap" ["words"] d
  return ⟨← required fields "words" (list word)⟩

/-- A frame and its callers, innermost first. -/
def frames : (levels : Nat) → δ → Option (Frame × List Frame)
  | 0, _ => none
  | levels + 1, d => do
      let fields ← Document.fields? "BytecodeFrame" ["caller", "method", "bci", "values",
        "num_locals", "num_stack", "num_locks", "during_call", "rethrow_exception",
        "leaf_graph_id"] d
      let caller ← optional fields "caller" (frames levels)
      let frame : Frame := {
        method := ← required fields "method" methodId
        bci := ← required fields "bci" int32
        values := ← required fields "values" (list (value levels))
        localCount := ← required fields "num_locals" size
        stackCount := ← required fields "num_stack" size
        lockCount := ← required fields "num_locks" size
        duringCall := ← defaulted fields "during_call" false flag
        rethrow := ← defaulted fields "rethrow_exception" false flag
        leafGraphId := ← defaulted fields "leaf_graph_id" 0 int64 }
      match caller with
      | some (next, others) => return (frame, next :: others)
      | none => return (frame, [])

/-- Debug information. -/
def debugInfo (levels : Nat) (d : δ) : Option DebugInfo := do
  let fields ← Document.fields? "DebugInfo"
    ["frame", "register_ref_map", "frame_ref_map", "virtual_objects"] d
  let (frame, callers) ← required fields "frame" (frames levels)
  return {
    frame
    callers
    registerBits := ← optional fields "register_ref_map" refBits
    frameBits := ← required fields "frame_ref_map" refBits
    virtualObjects := ← defaulted fields "virtual_objects" [] (list (virtualObject levels)) }

/-- A reference to a method. -/
def methodRef (d : δ) : Option MethodRef := do
  match ← Document.alternative? d with
  | "Resolved" => return .resolved (← methodId (← Document.content? d))
  | "Unresolved" =>
      let fields ← Document.contents? ["holder", "name", "signature"] d
      return .unresolved (← required fields "holder" text) (← required fields "name" text)
        (← required fields "signature" text)
  | _ => none

/-- What a call site calls. -/
def callTarget (d : δ) : Option CallTarget := do
  let content ← Document.content? d
  match ← Document.alternative? d with
  | "Method" => return .method (← methodRef content)
  | "RuntimeStub" => return .runtimeStub (← int64 content)
  | "InstalledCode" => return .installedCode (← codeId content)
  | _ => none

/-- What the installer has to do at a site. -/
def siteKind (levels : Nat) (d : δ) : Option SiteKind := do
  match ← Document.alternative? d with
  | "Call" =>
      let fields ← Document.contents? ["target", "debug_info"] d
      return .call (← required fields "target" callTarget)
        (← optional fields "debug_info" (debugInfo levels))
  | "Safepoint" =>
      let fields ← Document.contents? ["debug_info"] d
      return .safepoint (← required fields "debug_info" (debugInfo levels))
  | "DataPatch" =>
      let fields ← Document.contents? ["constant", "alignment", "inlined"] d
      return .dataPatch (← required fields "constant" constant)
        (← required fields "alignment" size) (← required fields "inlined" flag)
  | "Mark" =>
      let fields ← Document.contents? ["id", "references"] d
      return .mark (← required fields "id" int32)
        (← defaulted fields "references" [] (list int32))
  | _ => none

/-- A site. -/
def site (levels : Nat) (d : δ) : Option Site := do
  let fields ← Document.fields? "Site" ["pc_offset", "kind"] d
  return {
    offset := ← required fields "pc_offset" int32
    kind := ← required fields "kind" (siteKind levels) }

/-- An assumption. -/
def assumption (d : δ) : Option Assumption := do
  match ← Document.alternative? d with
  | "MethodContents" =>
      let fields ← Document.contents? ["method"] d
      return .methodContents (← required fields "method" methodId)
  | "ConcreteSubtype" =>
      let fields ← Document.contents? ["context", "subtype"] d
      return .concreteSubtype (← required fields "context" typeId)
        (← required fields "subtype" typeId)
  | "ConcreteMethod" =>
      let fields ← Document.contents? ["method", "context", "impl_"] d
      return .concreteMethod (← required fields "method" methodId)
        (← required fields "context" typeId) (← required fields "impl_" methodId)
  | "LeafType" =>
      let fields ← Document.contents? ["context"] d
      return .leafType (← required fields "context" typeId)
  | "NoFinalizableSubclass" =>
      let fields ← Document.contents? ["receiver_type"] d
      return .noFinalizableSubclass (← required fields "receiver_type" typeId)
  | "CallSiteTargetValue" =>
      let fields ← Document.contents? ["call_site", "method_handle"] d
      return .callSiteTarget (← required fields "call_site" objectAddress)
        (← required fields "method_handle" objectAddress)
  | _ => none

/-- An exception handler. -/
def exceptionHandler (d : δ) : Option ExceptionHandler := do
  let fields ← Document.fields? "ExceptionHandler" ["pc_offset", "handler_pos"] d
  return {
    offset := ← required fields "pc_offset" int32
    handler := ← required fields "handler_pos" int32 }

/-- A data section. -/
def dataSection (d : δ) : Option DataSection := do
  let fields ← Document.fields? "DataSection" ["data", "alignment"] d
  return {
    data := ← required fields "data" (list byte)
    alignment := ← required fields "alignment" size }

/-- A compiled unit. -/
def compiledUnit (d : δ) : Option CompiledUnit := do
  let levels := Document.depth d
  let fields ← Document.fields? "CompilationResult" ["name", "method", "entry_bci", "target_code",
    "target_code_size", "frame_size", "parameter_count", "custom_stack_area_offset", "sites",
    "exception_handlers", "assumptions", "data_section"] d
  return {
    name := ← required fields "name" text
    method := ← optional fields "method" methodId
    entryBci := ← defaulted fields "entry_bci" (-1) int32
    code := ← required fields "target_code" (list byte)
    codeSize := ← required fields "target_code_size" size
    frameSize := ← required fields "frame_size" int32
    parameterCount := ← defaulted fields "parameter_count" 0 nat32
    customStackAreaOffset := ← defaulted fields "custom_stack_area_offset" (-1) int32
    sites := ← defaulted fields "sites" [] (list (site levels))
    exceptionHandlers := ← defaulted fields "exception_handlers" [] (list exceptionHandler)
    assumptions := ← defaulted fields "assumptions" [] (list assumption)
    dataSection := ← optional fields "data_section" dataSection }

end ManagedCode.Read
