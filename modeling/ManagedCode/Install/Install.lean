import ManagedCode.Install.Sites
import ManagedCode.World.Runtime

/-!
# Installation

    Turns a compiled unit into code registered in a runtime. The unit is assembled where the code
    space starts, so that calls into the runtime reach, while collection is held off; then its
    dependencies are checked once more, and it is moved to its place. A unit that is refused gives
    back the handles made for it.

* **`assemble`** makes the code of a unit.
* **`commit`** checks and registers it.
* **`installMethod`**, **`installStub`** and **`install`** do both.
-/

namespace ManagedCode

/-- Why a unit was not installed. -/
inductive Refusal where
  | overflow (cause : Overflow)
  | brokenDependency (dependency : Dependency)
  | spaceFull (cause : SpaceFull)
deriving DecidableEq, Repr, Inhabited

/-- The wording of a refusal. -/
def Refusal.message : Refusal → String
  | overflow cause => cause.message
  | brokenDependency dependency => dependency.violation
  | spaceFull cause => cause.message

/-- An installed unit, and its number if it is a stub. -/
structure Receipt where
  installed : InstalledCode
  stub : Option Nat := none
deriving DecidableEq, Repr, Inhabited

/-- Bytes that the return address adds to a frame. -/
def returnAddressSize : Nat := 8

namespace CompiledUnit

/-- The reserves of the blob of a unit. -/
def layout (u : CompiledUnit) (settings : Settings) : Checked Layout := do
  let (dataSize, dataAlignment) := match u.dataSection with
    | some part => (part.data.length, part.alignment)
    | none => (0, 0)
  let reserve ← Size.mul u.sites.length settings.constantBytesPerSite
  let constantsCapacity ← Size.add dataSize reserve
  let relocationCapacity ← Size.mul u.sites.length settings.relocationsPerSite
  return {
    codeCapacity := u.codeSize
    constantsCapacity
    constantsAlignment := max settings.constantsAlignment dataAlignment
    relocationCapacity }

/-- The blob of a unit before its sites are applied. -/
def blob (u : CompiledUnit) (settings : Settings) : Checked (Except Overflow Blob) := do
  let empty := Blob.empty (← u.layout settings) settings.codeBase
  match empty.copyCode (u.code.take u.codeSize) with
  | (.error e, _) => return .error e
  | (.ok (), copied) =>
      match u.dataSection with
      | none => return .ok copied
      | some part =>
          let (result, blob) ← copied.appendConstant part.data part.alignment
          return result.map fun _ => blob

/-- The exception handlers of a unit, one subtable with one row each. -/
def handlerTable (u : CompiledUnit) (codeSize : Nat) : Checked HandlerTable :=
  u.exceptionHandlers.foldlM (fun table h => do
    require (0 ≤ h.offset ∧ h.offset.toNat < codeSize) (.unit (.handlerSiteOutside h.offset))
    require (0 ≤ h.handler ∧ h.handler.toNat < codeSize) (.unit (.handlerOutside h.handler))
    table.add h.offset [⟨-1, h.handler, 0⟩]) {}

/-- Checks that a unit is well formed and that collection is held off. -/
def check (u : CompiledUnit) (r : Runtime) : Checked Unit := do
  require (u.codeSize ≤ u.code.length) (.unit (.codeTooShort u.codeSize u.code.length))
  require (0 ≤ u.frameSize) (.unit (.negativeFrame u.frameSize))
  require (!r.allowsSafepoints) (.unit (.safepointsAllowed u.name))

/-- What the sites of a unit are applied with. -/
def siteContext (u : CompiledUnit) (settings : Settings) (parameterCount : Nat) (r : Runtime) :
    SiteContext where
  world := r.world
  stubs := r.stubs
  codes := r.codes
  settings := settings
  frameSize := u.frameSize.toNat + returnAddressSize
  parameterCount := parameterCount

/-- The code of a unit whose sites are applied. -/
def finish (u : CompiledUnit) (dependencies : List Dependency) (d : Draft) : Checked Code := do
  let handlers ← u.handlerTable d.blob.code.length
  let (maps, safepoints) ← d.log.toTables
  return {
    name := u.name
    method := u.method
    entryBci := u.entryBci
    blob := d.blob
    entryPoints := d.entryPoints
    frameSize := u.frameSize.toNat + returnAddressSize
    customStackAreaOffset := u.customStackAreaOffset
    maps
    safepoints
    handlers
    implicitNulls := d.implicitNulls
    dependencies
    references := d.references.recorded }

end CompiledUnit

/-- Makes the code of a unit. Runs with collection held off, since the object addresses of the
    unit are raw. -/
def assemble (settings : Settings) (u : CompiledUnit) (parameterCount : Nat)
    (dependencies : List Dependency) (r : Runtime) :
    Checked (Except Overflow Code × Runtime) := do
  u.check r
  match ← u.blob settings with
  | .error e => return (.error e, r)
  | .ok blob =>
      let ctx := u.siteContext settings parameterCount r
      let draft : Draft := { blob, handles := r.handles }
      match ← (applySites ctx u.sitesInOrder).runOn draft with
      | (.error e, d) =>
          let r ← { r with handles := d.handles }.releaseAll d.references.handles
          return (.error e, r)
      | (.ok (), d) =>
          let code ← u.finish dependencies d
          return (.ok code, { r with handles := d.handles })

/-- Assembles with collection held off for as long as it takes. -/
def assemblePaused (settings : Settings) (u : CompiledUnit) (parameterCount : Nat)
    (dependencies : List Dependency) (r : Runtime) :
    Checked (Except Overflow Code × Runtime) := do
  let (result, r) ← assemble settings u parameterCount dependencies r.pause
  return (result, r.resume)

/-- Registers code whose dependencies hold. -/
def commit (r : Runtime) (code : Code) : Checked (Except Refusal InstalledCode × Runtime) := do
  match Dependency.firstBroken? r.world code.dependencies with
  | some d =>
      let r ← r.releaseAll code.references.handles
      return (.error (.brokenDependency d), r)
  | none =>
      match ← r.codes.register code with
      | .ok (installed, codes) => return (.ok installed, { r with codes })
      | .error full =>
          let r ← r.releaseAll code.references.handles
          return (.error (.spaceFull full), r)

/-- Assembles and registers a unit. -/
def assembleAndCommit (settings : Settings) (u : CompiledUnit) (parameterCount : Nat)
    (dependencies : List Dependency) (r : Runtime) :
    Checked (Except Refusal InstalledCode × Runtime) := do
  match ← assemblePaused settings u parameterCount dependencies r with
  | (.error e, r) => return (.error (.overflow e), r)
  | (.ok code, r) => commit r code

/-- Installs the code of a method. -/
def installMethod (settings : Settings) (u : CompiledUnit) (r : Runtime) :
    Checked (Except Refusal Receipt × Runtime) := do
  match u.method with
  | none => .error (.unit (.noMethod u.name))
  | some method =>
      let dependencies ← Dependency.ofAssumptions r.world u.assumptions
      let (result, r) ←
        assembleAndCommit settings u (r.world.parameterSize method) dependencies r
      return (result.map fun installed => { installed }, r)

/-- Installs code that is not a method, and makes it callable by number. -/
def installStub (settings : Settings) (u : CompiledUnit) (r : Runtime) :
    Checked (Except Refusal Receipt × Runtime) := do
  require (u.method = none) (.unit (.stubWithMethod u.name))
  require (u.assumptions = []) (.unit (.stubWithAssumptions u.name))
  match ← assembleAndCommit settings u u.parameterCount [] r with
  | (.error (.brokenDependency d), _) => .error (.unit (.stubDependencies d.violation))
  | (.error refusal, r) => return (.error refusal, r)
  | (.ok installed, r) =>
      match r.codes.get? installed.id with
      | none => .error (.unit (.stubVanished installed.id))
      | some found =>
          let (stub, r) := r.addStub found.code.address
          return (.ok { installed, stub := some stub }, r)

/-- Installs a unit, as a stub if it has no method. -/
def install (settings : Settings) (u : CompiledUnit) (r : Runtime) :
    Checked (Except Refusal Receipt × Runtime) :=
  if u.method.isSome then installMethod settings u r else installStub settings u r

end ManagedCode
