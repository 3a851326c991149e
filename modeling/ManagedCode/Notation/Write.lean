import ManagedCode.Compiled.CompiledUnit
import ManagedCode.Notation.Term
import ManagedCode.World.Description

/-!
# Writing units and runtimes

    The terms that stand for compiled units and runtime descriptions, with every field given and
    the names of types left out.
-/

namespace ManagedCode.Write

open Notation

/-- A signed number. -/
def int (n : Int) : Term := .figure (.ofInt n)

/-- An unsigned number. -/
def nat (n : Nat) : Term := int n

/-- A word. -/
def word (w : UInt64) : Term := nat w.toNat

/-- A plain name. -/
def name (text : String) : Term := .name ⟨text, false⟩

/-- A truth value. -/
def flag (b : Bool) : Term := name (if b then "true" else "false")

/-- A value that may be absent. -/
def option {α : Type} (item : α → Term) : Option α → Term
  | none => .name .absent
  | some a => .group (some .present) [item a]

/-- A list. -/
def list {α : Type} (item : α → Term) (items : List α) : Term := .list (items.map item)

/-- A wrapped word. -/
def identity (w : UInt64) : Term := .group none [word w]

/-- The identity of a method. -/
def methodId (m : MethodId) : Term := identity m.address

/-- The identity of a type. -/
def typeId (t : TypeId) : Term := identity t.address

/-- The address of an object. -/
def objectAddress (o : ObjectAddress) : Term := identity o.address

/-- A record. -/
def record (fields : List (String × Term)) : Term := .record none fields

/-- An alternative with one content. -/
def tagged (tag : String) (content : Term) : Term := .group (some ⟨tag, false⟩) [content]

/-- An alternative with named contents. -/
def taggedRecord (tag : String) (fields : List (String × Term)) : Term :=
  .record (some ⟨tag, false⟩) fields

/-- A kind. -/
def kind (k : Kind) : Term := name k.name

/-- What a constant refers to. -/
def constantObject : ConstantObject → Term
  | .heap object => tagged "Heap" (objectAddress object)
  | .type id => tagged "Type" (typeId id)
  | .remark text => tagged "Annotation" (.text text)

/-- A constant. -/
def constant (c : Constant) : Term :=
  record [("kind", kind c.kind), ("primitive", int c.bits),
    ("object", option constantObject c.object)]

/-- A value. -/
def value : Value → Term
  | .illegal => name "Illegal"
  | .register number k => taggedRecord "Register" [("number", int number), ("kind", kind k)]
  | .stackSlot offset addFrameSize k =>
      taggedRecord "StackSlot"
        [("offset", int offset), ("add_frame_size", flag addFrameSize), ("kind", kind k)]
  | .constant c => tagged "Constant" (constant c)
  | .virtualObject id => taggedRecord "VirtualObject" [("id", int id)]
  | .stackLock owner slot eliminated =>
      tagged "StackLock" (record
        [("owner", value owner), ("slot", value slot), ("eliminated", flag eliminated)])

/-- The description of an object that exists only as its field values. -/
def virtualObject (o : VirtualObject) : Term :=
  record [("id", int o.id), ("object_type", typeId o.type), ("values", list value o.values)]

/-- Reference bits. -/
def refBits (b : RefBits) : Term := record [("words", list word b.words)]

/-- A frame inside of its callers. -/
def frames (f : Frame) : (callers : List Frame) → Term
  | [] => frame f (.name .absent)
  | next :: others => frame f (.group (some .present) [frames next others])
where
  /-- A frame with its written caller. -/
  frame (f : Frame) (caller : Term) : Term :=
    record [("caller", caller), ("method", methodId f.method), ("bci", int f.bci),
      ("values", list value f.values), ("num_locals", nat f.localCount),
      ("num_stack", nat f.stackCount), ("num_locks", nat f.lockCount),
      ("during_call", flag f.duringCall), ("rethrow_exception", flag f.rethrow),
      ("leaf_graph_id", int f.leafGraphId)]

/-- Debug information. -/
def debugInfo (i : DebugInfo) : Term :=
  record [("frame", frames i.frame i.callers),
    ("register_ref_map", option refBits i.registerBits), ("frame_ref_map", refBits i.frameBits),
    ("virtual_objects", list virtualObject i.virtualObjects)]

/-- A reference to a method. -/
def methodRef : MethodRef → Term
  | .resolved m => tagged "Resolved" (methodId m)
  | .unresolved holder method signature =>
      taggedRecord "Unresolved"
        [("holder", .text holder), ("name", .text method), ("signature", .text signature)]

/-- What a call site calls. -/
def callTarget : CallTarget → Term
  | .method m => tagged "Method" (methodRef m)
  | .runtimeStub id => tagged "RuntimeStub" (int id)
  | .installedCode id => tagged "InstalledCode" (.group none [nat id.index])

/-- What the installer has to do at a site. -/
def siteKind : SiteKind → Term
  | .call target info =>
      taggedRecord "Call" [("target", callTarget target), ("debug_info", option debugInfo info)]
  | .safepoint info => taggedRecord "Safepoint" [("debug_info", debugInfo info)]
  | .dataPatch c alignment inlined =>
      taggedRecord "DataPatch"
        [("constant", constant c), ("alignment", nat alignment), ("inlined", flag inlined)]
  | .mark id references =>
      taggedRecord "Mark" [("id", int id), ("references", list int references)]

/-- A site. -/
def site (s : Site) : Term := record [("pc_offset", int s.offset), ("kind", siteKind s.kind)]

/-- An assumption. -/
def assumption : Assumption → Term
  | .methodContents m => taggedRecord "MethodContents" [("method", methodId m)]
  | .concreteSubtype context subtype =>
      taggedRecord "ConcreteSubtype" [("context", typeId context), ("subtype", typeId subtype)]
  | .concreteMethod m context target =>
      taggedRecord "ConcreteMethod"
        [("method", methodId m), ("context", typeId context), ("impl_", methodId target)]
  | .leafType context => taggedRecord "LeafType" [("context", typeId context)]
  | .noFinalizableSubclass receiver =>
      taggedRecord "NoFinalizableSubclass" [("receiver_type", typeId receiver)]
  | .callSiteTarget callSite methodHandle =>
      taggedRecord "CallSiteTargetValue"
        [("call_site", objectAddress callSite), ("method_handle", objectAddress methodHandle)]

/-- An exception handler. -/
def exceptionHandler (h : ExceptionHandler) : Term :=
  record [("pc_offset", int h.offset), ("handler_pos", int h.handler)]

/-- Bytes. -/
def bytes (data : List UInt8) : Term := list (fun b => nat b.toNat) data

/-- A data section. -/
def dataSection (s : DataSection) : Term :=
  record [("data", bytes s.data), ("alignment", nat s.alignment)]

/-- A compiled unit. -/
def compiledUnit (u : CompiledUnit) : Term :=
  record [("name", .text u.name), ("method", option methodId u.method),
    ("entry_bci", int u.entryBci), ("target_code", bytes u.code),
    ("target_code_size", nat u.codeSize), ("frame_size", int u.frameSize),
    ("parameter_count", nat u.parameterCount),
    ("custom_stack_area_offset", int u.customStackAreaOffset), ("sites", list site u.sites),
    ("exception_handlers", list exceptionHandler u.exceptionHandlers),
    ("assumptions", list assumption u.assumptions),
    ("data_section", option dataSection u.dataSection)]

/-- A loaded type. -/
def typeInfo (t : TypeInfo) : Term :=
  record [("id", typeId t.id), ("name", .text t.name), ("super_klass", option typeId t.parent),
    ("is_abstract", flag t.isAbstract), ("has_finalizer", flag t.hasFinalizer),
    ("mirror", objectAddress t.mirror)]

/-- A loaded method. -/
def methodInfo (m : MethodInfo) : Term :=
  record [("id", methodId m.id), ("holder", typeId m.holder), ("name", .text m.name),
    ("is_static", flag m.isStatic), ("parameter_size", nat m.parameterSize),
    ("evolved", flag m.evolved), ("overrides", option methodId m.overrides)]

/-- The description of a runtime. -/
def description (d : Description) : Term :=
  record [("klasses", list typeInfo d.types), ("methods", list methodInfo d.methods),
    ("stubs", list word d.stubs), ("resolve_virtual_call_stub", word d.resolveVirtualCall),
    ("resolve_static_call_stub", word d.resolveStaticCall),
    ("resolve_opt_virtual_call_stub", word d.resolveSpecialCall),
    ("polling_page", word d.pollingPage), ("vm_page_size", nat d.pageSize),
    ("non_oop_word", word d.emptyCacheWord), ("long_array_klass", typeId d.longArrayType),
    ("call_site_targets", list
      (fun (site, target) => .group none [objectAddress site, objectAddress target])
      d.callSiteTargets)]

end ManagedCode.Write
