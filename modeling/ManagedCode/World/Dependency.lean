import ManagedCode.Compiled.CompiledUnit
import ManagedCode.World.Hierarchy

/-!
# Dependencies

    Facts about the loaded types and methods that a unit was compiled against. They are recorded
    from the assumptions of the unit, each once, and checked right before the code is registered.

* **`Dependency.holds`** is the meaning of a dependency in a described runtime.
* **`Dependency.ofAssumptions`** records the dependencies of a unit.
* **`Dependency.firstBroken?`** finds the first that does not hold.
-/

namespace ManagedCode

/-- A fact that installed code depends on. -/
inductive Dependency where
  | unevolved (method : MethodId)
  | leafType (context : TypeId)
  | uniqueConcreteSubtype (context subtype : TypeId)
  | uniqueConcreteMethod (context : TypeId) (method : MethodId)
  | noFinalizableSubclasses (context : TypeId)
  | callSiteTarget (callSite methodHandle : ObjectAddress)
deriving DecidableEq, Repr, Inhabited

namespace Dependency

/-- The name of a kind of dependency. -/
def name : Dependency → String
  | unevolved _ => "evol_method"
  | leafType _ => "leaf_type"
  | uniqueConcreteSubtype _ _ => "abstract_with_unique_concrete_subtype"
  | uniqueConcreteMethod _ _ => "unique_concrete_method"
  | noFinalizableSubclasses _ => "no_finalizable_subclasses"
  | callSiteTarget _ _ => "call_site_target_value"

/-- The arguments of a dependency, as text. -/
def arguments : Dependency → String
  | unevolved method => method.text
  | leafType context => context.text
  | uniqueConcreteSubtype context subtype => s!"{context.text}, {subtype.text}"
  | uniqueConcreteMethod context method => s!"{context.text}, {method.text}"
  | noFinalizableSubclasses context => context.text
  | callSiteTarget callSite methodHandle =>
      s!"{Word.hex callSite.address.toNat}, {Word.hex methodHandle.address.toNat}"

/-- The text of a dependency. -/
def text (d : Dependency) : String := s!"{d.name}({d.arguments})"

/-- The wording of a broken dependency. -/
def violation (d : Dependency) : String := s!"dependency {d.text} no longer holds"

/-- Whether a dependency holds in a runtime. -/
def holds (world : Description) : Dependency → Bool
  | unevolved method => !world.isEvolved method
  | leafType context => (world.subclasses context).isEmpty
  | uniqueConcreteSubtype context subtype =>
      world.isAbstract context && world.uniqueConcreteSubtype context == some subtype
  | uniqueConcreteMethod context method =>
      world.uniqueConcreteMethod context method == some method
  | noFinalizableSubclasses context => !world.hasFinalizableSubclass context
  | callSiteTarget callSite methodHandle =>
      world.callSiteTarget callSite == some methodHandle

/-- The dependencies that one assumption stands for. A type with one concrete subtype other than
    itself has to be abstract. -/
def ofAssumption (world : Description) : Assumption → Checked (List Dependency)
  | .methodContents method => .ok [unevolved method]
  | .concreteSubtype context subtype =>
      if context = subtype then .ok [leafType subtype]
      else do
        require (world.isAbstract context) (.runtime (.concreteContext context))
        return [leafType subtype, uniqueConcreteSubtype context subtype]
  | .concreteMethod _ context target => .ok [uniqueConcreteMethod context target]
  | .leafType context => .ok [leafType context]
  | .noFinalizableSubclass receiver => .ok [noFinalizableSubclasses receiver]
  | .callSiteTarget callSite methodHandle => .ok [callSiteTarget callSite methodHandle]

/-- Adds a dependency that is not recorded yet. -/
def add (recorded : List Dependency) (d : Dependency) : List Dependency :=
  if d ∈ recorded then recorded else recorded ++ [d]

/-- Adds the dependencies of one assumption. -/
def addAssumption (world : Description) (recorded : List Dependency) (a : Assumption) :
    Checked (List Dependency) := do
  return (← ofAssumption world a).foldl add recorded

/-- The dependencies of a list of assumptions, each once, in order of first occurrence. -/
def ofAssumptions (world : Description) (assumptions : List Assumption) :
    Checked (List Dependency) :=
  assumptions.foldlM (addAssumption world) []

/-- The first dependency that does not hold. -/
def firstBroken? (world : Description) (recorded : List Dependency) : Option Dependency :=
  recorded.find? fun d => !d.holds world

end Dependency

end ManagedCode
