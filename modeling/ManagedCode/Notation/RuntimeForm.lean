import ManagedCode.Install.Settings
import ManagedCode.Notation.Field
import ManagedCode.World.Description

/-!
# The written form of runtimes and settings

    Reads the description of a runtime, and settings, from a document. Every setting that is left
    out keeps its default.
-/

namespace ManagedCode.Read

variable {δ : Type} [Document δ]

/-- A loaded type. -/
def typeInfo (d : δ) : Option TypeInfo := do
  let fields ← Document.fields? "KlassDescription"
    ["id", "name", "super_klass", "is_abstract", "has_finalizer", "mirror"] d
  return {
    id := ← required fields "id" typeId
    name := ← required fields "name" text
    parent := ← optional fields "super_klass" typeId
    isAbstract := ← defaulted fields "is_abstract" false flag
    hasFinalizer := ← defaulted fields "has_finalizer" false flag
    mirror := ← required fields "mirror" objectAddress }

/-- A loaded method. -/
def methodInfo (d : δ) : Option MethodInfo := do
  let fields ← Document.fields? "MethodDescription"
    ["id", "holder", "name", "is_static", "parameter_size", "evolved", "overrides"] d
  return {
    id := ← required fields "id" methodId
    holder := ← required fields "holder" typeId
    name := ← required fields "name" text
    isStatic := ← defaulted fields "is_static" false flag
    parameterSize := ← defaulted fields "parameter_size" 0 nat32
    evolved := ← defaulted fields "evolved" false flag
    overrides := ← optional fields "overrides" methodId }

/-- A call site with the method handle it is bound to. -/
def callSiteTarget (d : δ) : Option (ObjectAddress × ObjectAddress) := do
  match ← Document.parts? d with
  | [callSite, methodHandle] => return (← objectAddress callSite, ← objectAddress methodHandle)
  | _ => none

/-- The description of a runtime. -/
def description (d : δ) : Option Description := do
  let fields ← Document.fields? "RuntimeDescription" ["klasses", "methods", "stubs",
    "resolve_virtual_call_stub", "resolve_static_call_stub", "resolve_opt_virtual_call_stub",
    "polling_page", "vm_page_size", "non_oop_word", "long_array_klass", "call_site_targets"] d
  return {
    types := ← defaulted fields "klasses" [] (list typeInfo)
    methods := ← defaulted fields "methods" [] (list methodInfo)
    stubs := ← defaulted fields "stubs" [] (list word)
    resolveVirtualCall := ← required fields "resolve_virtual_call_stub" word
    resolveStaticCall := ← required fields "resolve_static_call_stub" word
    resolveSpecialCall := ← required fields "resolve_opt_virtual_call_stub" word
    pollingPage := ← required fields "polling_page" word
    pageSize := ← required fields "vm_page_size" size
    emptyCacheWord := ← required fields "non_oop_word" word
    longArrayType := ← required fields "long_array_klass" typeId
    callSiteTargets := ← defaulted fields "call_site_targets" [] (list callSiteTarget) }

/-- A byte order. -/
def byteOrder (d : δ) : Option ByteOrder := do
  if !Document.isBare d then none
  match ← Document.alternative? d with
  | "LittleEndian" => return .little
  | "BigEndian" => return .big
  | _ => none

/-- Settings. -/
def settings (d : δ) : Option Settings := do
  let fields ← Document.fields? "InstallerConfig" ["byte_order", "constants_alignment",
    "constant_bytes_per_site", "relocations_per_site", "safepoint_poll_offset", "code_cache_base",
    "code_cache_capacity"] d
  let base : Settings := {}
  return {
    byteOrder := ← defaulted fields "byte_order" base.byteOrder byteOrder
    constantsAlignment := ← defaulted fields "constants_alignment" base.constantsAlignment size
    constantBytesPerSite :=
      ← defaulted fields "constant_bytes_per_site" base.constantBytesPerSite size
    relocationsPerSite := ← defaulted fields "relocations_per_site" base.relocationsPerSite size
    pollOffset := ← defaulted fields "safepoint_poll_offset" base.pollOffset size
    codeBase := ← defaulted fields "code_cache_base" base.codeBase word
    codeCapacity := ← defaulted fields "code_cache_capacity" base.codeCapacity size }

end ManagedCode.Read
