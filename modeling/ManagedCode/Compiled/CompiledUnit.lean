import ManagedCode.Compiled.Frame

/-!
# Compiled units

    The producer's description of one compiled unit: its machine code, the sites at which the
    installer has to act, and the assumptions the code depends on. It is read once and never
    changed.
-/

namespace ManagedCode

/-- An optimistic assumption of the compiled code. -/
inductive Assumption where
  /-- The method is not redefined. -/
  | methodContents (method : MethodId)
  /-- `subtype` is the only concrete subtype of `context`. -/
  | concreteSubtype (context subtype : TypeId)
  /-- `target` is the only implementation of `method` reachable from `context`. -/
  | concreteMethod (method : MethodId) (context : TypeId) (target : MethodId)
  /-- `context` has no subclasses. -/
  | leafType (context : TypeId)
  /-- No subclass of `receiver` has a finalizer. -/
  | noFinalizableSubclass (receiver : TypeId)
  /-- The call site is bound to the method handle. -/
  | callSiteTarget (callSite methodHandle : ObjectAddress)
deriving DecidableEq, Repr, Inhabited

/-- The method named by a call, resolved or by its symbolic name. -/
inductive MethodRef where
  | resolved (method : MethodId)
  | unresolved (holder name signature : String)
deriving DecidableEq, Repr, Inhabited

/-- The method of a resolved reference. -/
def MethodRef.resolved? : MethodRef → Option MethodId
  | resolved method => some method
  | unresolved _ _ _ => none

/-- What a call site calls. -/
inductive CallTarget where
  | method (method : MethodRef)
  /-- A runtime stub, by its number in the stub table. -/
  | runtimeStub (id : Int)
  /-- Code that is installed already, entered at its verified entry. -/
  | installedCode (id : CodeId)
deriving DecidableEq, Repr, Inhabited

/-- What the installer has to do at a site. -/
inductive SiteKind where
  | call (target : CallTarget) (debugInfo : Option DebugInfo)
  | safepoint (debugInfo : DebugInfo)
  | dataPatch (constant : Constant) (alignment : Nat) (inlined : Bool)
  /-- A mark, with the offsets of the sites it refers back to. -/
  | mark (id : Int) (references : List Int)
deriving DecidableEq, Repr, Inhabited

namespace SiteKind

/-- The name of a kind of site. -/
def name : SiteKind → String
  | call _ _ => "call"
  | safepoint _ => "safepoint"
  | dataPatch _ _ _ => "datapatch"
  | mark _ _ => "mark"

/-- The debug information of a site, if it has any. -/
def debugInfo? : SiteKind → Option DebugInfo
  | call _ info => info
  | safepoint info => some info
  | dataPatch _ _ _ => none
  | mark _ _ => none

end SiteKind

/-- An offset in the code at which the installer has to act. -/
structure Site where
  offset : Int
  kind : SiteKind
deriving DecidableEq, Repr, Inhabited

/-- An instruction that may throw, and where its handler starts. -/
structure ExceptionHandler where
  offset : Int
  handler : Int
deriving DecidableEq, Repr, Inhabited

/-- Constants the producer laid out itself. They start the constants section. -/
structure DataSection where
  data : List UInt8
  alignment : Nat
deriving DecidableEq, Repr, Inhabited

/-- One compiled unit. -/
structure CompiledUnit where
  name : String
  /-- The method compiled, or none for a runtime stub. -/
  method : Option MethodId := none
  /-- The bytecode index a loop is entered at, or -1 for the normal entry. -/
  entryBci : Int := -1
  code : List UInt8
  /-- How many bytes at the start of `code` count. -/
  codeSize : Nat
  /-- The frame size in bytes, without the return address. -/
  frameSize : Int
  parameterCount : Nat := 0
  customStackAreaOffset : Int := -1
  sites : List Site := []
  exceptionHandlers : List ExceptionHandler := []
  assumptions : List Assumption := []
  dataSection : Option DataSection := none
deriving DecidableEq, Repr, Inhabited

/-- The entry index of code entered at the start of its method. -/
def invocationEntryBci : Int := -1

namespace CompiledUnit

/-- Whether the code is entered in the middle of a loop. -/
def isOsr (u : CompiledUnit) : Bool := u.entryBci != invocationEntryBci

/-- The sites by ascending offset. Sites of one offset keep their order, so that a mark stays in
    front of the call it describes. -/
def sitesInOrder (u : CompiledUnit) : List Site :=
  u.sites.mergeSort fun a b => decide (a.offset ≤ b.offset)

end CompiledUnit

end ManagedCode
