import ManagedCode.World.Description

/-!
# Hierarchy queries

    Questions about the loaded types and methods that optimized code depends on. Parent and
    override links are followed as chains; a chain without repetition has at most one element more
    than there are descriptions, so the number of descriptions bounds the walk.
-/

namespace ManagedCode

/-- The chain that starts at `id` and follows at most `fuel` links. -/
def chainFrom {ι : Type} (next : ι → Option ι) : (fuel : Nat) → (id : ι) → List ι
  | 0, id => [id]
  | fuel + 1, id =>
      id :: match next id with
        | some id => chainFrom next fuel id
        | none => []

/-- The only element of a list that has just one. -/
def onlyElement {α : Type} : List α → Option α
  | [a] => some a
  | _ => none

namespace Description

/-- The described parent of a type. -/
def parent? (d : Description) (id : TypeId) : Option TypeId :=
  (d.type? id).bind TypeInfo.parent

/-- A type and its ancestors, nearest first. -/
def ancestors (d : Description) (id : TypeId) : List TypeId :=
  chainFrom d.parent? d.types.length id

/-- Whether a type is `other` or inherits from it. -/
def isSubtypeOf (d : Description) (id other : TypeId) : Bool := (d.ancestors id).contains other

/-- The described types at or below a type, by ascending identity. -/
def subtypes (d : Description) (context : TypeId) : List TypeId :=
  ((d.types.map TypeInfo.id).filter fun id => d.isSubtypeOf id context).mergeSort
    fun a b => decide (a.address ≤ b.address)

/-- Whether a type is described and not abstract. -/
def isConcrete (d : Description) (id : TypeId) : Bool :=
  (d.type? id).any fun t => !t.isAbstract

/-- Whether a type is described as abstract. -/
def isAbstract (d : Description) (id : TypeId) : Bool := (d.type? id).any TypeInfo.isAbstract

/-- The described types strictly below a type, by ascending identity. -/
def subclasses (d : Description) (id : TypeId) : List TypeId :=
  (d.subtypes id).filter fun sub => sub != id

/-- The concrete type at or below `context`, if there is exactly one. -/
def uniqueConcreteSubtype (d : Description) (context : TypeId) : Option TypeId :=
  onlyElement ((d.subtypes context).filter d.isConcrete)

/-- The method that a method is described to override. -/
def overridden? (d : Description) (id : MethodId) : Option MethodId :=
  (d.method? id).bind MethodInfo.overrides

/-- A method and those it overrides, directly or not. -/
def overrideChain (d : Description) (id : MethodId) : List MethodId :=
  chainFrom d.overridden? d.methods.length id

/-- The method at the end of the override links of a method. -/
def overrideRoot (d : Description) (id : MethodId) : MethodId :=
  (d.overrideChain id).getLast?.getD id

/-- Whether `m` may run when a method of the family of `root` is called on a receiver of static
    type `context`: it is of the family, its holder is concrete and related to `context`. -/
def mayImplement (d : Description) (context : TypeId) (root : MethodId) (m : MethodInfo) : Bool :=
  (d.overrideChain m.id).contains root &&
    (d.isSubtypeOf m.holder context || d.isSubtypeOf context m.holder) &&
    d.isConcrete m.holder

/-- The implementation that `context` and its subtypes have for a described method, if there is
    exactly one. -/
def uniqueConcreteMethod (d : Description) (context : TypeId) (method : MethodId) :
    Option MethodId :=
  (d.method? method).bind fun m =>
    onlyElement ((d.methods.filter (d.mayImplement context (d.overrideRoot m.id))).map
      MethodInfo.id)

/-- Whether a type at or below the given one has a finalizer. -/
def hasFinalizableSubclass (d : Description) (id : TypeId) : Bool :=
  (d.subtypes id).any fun sub => (d.type? sub).any TypeInfo.hasFinalizer

/-- The method handle a call site is bound to. -/
def callSiteTarget (d : Description) (callSite : ObjectAddress) : Option ObjectAddress :=
  d.callSiteTargets.lookup callSite

/-- Whether a method was redefined. -/
def isEvolved (d : Description) (id : MethodId) : Bool := (d.method? id).any MethodInfo.evolved

end Description

end ManagedCode
