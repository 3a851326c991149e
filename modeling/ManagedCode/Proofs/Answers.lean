import Mathlib.Data.List.Permutation
import ManagedCode.Proofs.Hierarchy
import ManagedCode.World.Sample

/-! # What a hierarchy is asked

    Dependencies are recorded and checked by asking seven questions about the loaded types and
    methods, and whoever answers them may be asked.  A described runtime is one that answers: it
    searches its types and methods by identity, walks their links, sorts what it finds and counts
    it.  The order in which it has its types and methods is not in any of the answers.

* **`Hierarchy`** — the seven answers, with **`Hierarchy.record`** and
  **`Hierarchy.firstBroken?`** for whoever gives them.
* **`Description.hierarchy`** — the answers of a described runtime, and
  **`Dependency.ofAssumptions_eq`**, **`Dependency.firstBroken?_eq`**, which say that nothing else
  of it is looked at.
* **`find?_key_of_perm`**, **`onlyElement_of_perm`**, **`mergeSort_address_of_perm`** — a search, a
  count and a sort do not see an order.
* **`answers_ignore_description_order`** — two descriptions that differ in the order of their types
  and methods answer alike. -/

namespace ManagedCode

-- ── Seven questions ─────────────────────────────────────────────────────────────

/-- What is answered about the loaded types and methods. -/
structure Hierarchy where
  isAbstract : TypeId → Bool
  subclasses : TypeId → List TypeId
  /-- The concrete type at or below a type, if there is exactly one. -/
  uniqueConcreteSubtype : TypeId → Option TypeId
  /-- The implementation that a type and its subtypes have for a method, if there is exactly one. -/
  uniqueConcreteMethod : TypeId → MethodId → Option MethodId
  hasFinalizableSubclass : TypeId → Bool
  callSiteTarget : ObjectAddress → Option ObjectAddress
  isEvolved : MethodId → Bool

namespace Hierarchy

variable (h : Hierarchy)

/-- Whether a dependency holds by the answers. -/
def holds : Dependency → Bool
  | .unevolved method => !h.isEvolved method
  | .leafType context => (h.subclasses context).isEmpty
  | .uniqueConcreteSubtype context subtype =>
      h.isAbstract context && h.uniqueConcreteSubtype context == some subtype
  | .uniqueConcreteMethod context method => h.uniqueConcreteMethod context method == some method
  | .noFinalizableSubclasses context => !h.hasFinalizableSubclass context
  | .callSiteTarget callSite methodHandle => h.callSiteTarget callSite == some methodHandle

/-- The dependencies that one assumption expands to. -/
def expand : Assumption → Checked (List Dependency)
  | .methodContents method => .ok [.unevolved method]
  | .concreteSubtype context subtype =>
      if context = subtype then .ok [.leafType subtype]
      else do
        require (h.isAbstract context) (.runtime (.concreteContext context))
        return [.leafType subtype, .uniqueConcreteSubtype context subtype]
  | .concreteMethod _ context target => .ok [.uniqueConcreteMethod context target]
  | .leafType context => .ok [.leafType context]
  | .noFinalizableSubclass receiver => .ok [.noFinalizableSubclasses receiver]
  | .callSiteTarget callSite methodHandle => .ok [.callSiteTarget callSite methodHandle]

/-- Records the dependencies of one more assumption. -/
def recordOne (recorded : List Dependency) (a : Assumption) : Checked (List Dependency) := do
  return (← h.expand a).foldl Dependency.add recorded

/-- The dependencies recorded for a list of assumptions. -/
def record (assumptions : List Assumption) : Checked (List Dependency) :=
  assumptions.foldlM h.recordOne []

/-- The first dependency that does not hold by the answers. -/
def firstBroken? (recorded : List Dependency) : Option Dependency :=
  recorded.find? fun d => !h.holds d

end Hierarchy

/-- The answers of a described runtime. -/
def Description.hierarchy (d : Description) : Hierarchy where
  isAbstract := d.isAbstract
  subclasses := d.subclasses
  uniqueConcreteSubtype := d.uniqueConcreteSubtype
  uniqueConcreteMethod := d.uniqueConcreteMethod
  hasFinalizableSubclass := d.hasFinalizableSubclass
  callSiteTarget := d.callSiteTarget
  isEvolved := d.isEvolved

namespace Dependency

variable (world : Description)

theorem holds_eq : holds world = world.hierarchy.holds := by
  funext d
  cases d <;> rfl

theorem ofAssumption_eq : ofAssumption world = world.hierarchy.expand := by
  funext a
  cases a <;> rfl

/-- **Recording looks at the answers only.** -/
theorem ofAssumptions_eq : ofAssumptions world = world.hierarchy.record := by
  funext assumptions
  have hstep : addAssumption world = world.hierarchy.recordOne := by
    funext recorded a
    rw [addAssumption, ofAssumption_eq, Hierarchy.recordOne]
  rw [ofAssumptions, hstep, Hierarchy.record]

/-- **Checking looks at the answers only.** -/
theorem firstBroken?_eq : firstBroken? world = world.hierarchy.firstBroken? := by
  funext recorded
  rw [firstBroken?, holds_eq, Hierarchy.firstBroken?]

end Dependency

-- ── Searches, counts and sorts ──────────────────────────────────────────────────

/-- A search by key does not see the order of a list without repeated keys. -/
theorem find?_key_of_perm {α κ : Type} [DecidableEq κ] {key : α → κ} {l l' : List α}
    (hperm : l'.Perm l) (hnodup : (l.map key).Nodup) (k : κ) :
    l'.find? (fun x => key x == k) = l.find? (fun x => key x == k) := by
  have hnodup' : (l'.map key).Nodup := (hperm.map key).nodup_iff.2 hnodup
  refine Option.ext fun a => ?_
  rw [find?_key_iff hnodup', find?_key_iff hnodup, hperm.mem_iff]

/-- Whether a list has just one element does not depend on its order. -/
theorem onlyElement_of_perm {α : Type} {l l' : List α} (hperm : l'.Perm l) :
    onlyElement l' = onlyElement l := by
  match l with
  | [] => rw [hperm.eq_nil]
  | [a] => rw [List.perm_singleton.1 hperm]
  | a :: b :: rest =>
      have hlength := hperm.length_eq
      match l' with
      | [] => exact nomatch hlength
      | [_] => exact nomatch hlength
      | _ :: _ :: _ => rfl

/-- Types sorted by address are in ascending order. -/
theorem pairwise_mergeSort_address (l : List TypeId) :
    (l.mergeSort fun a b => decide (a.address ≤ b.address)).Pairwise
      fun a b => a.address ≤ b.address := by
  refine (List.pairwise_mergeSort ?_ ?_ l).imp of_decide_eq_true
  · intro a b c hab hbc
    exact decide_eq_true (UInt64.le_trans (of_decide_eq_true hab) (of_decide_eq_true hbc))
  · intro a b
    simp only [Bool.or_eq_true, decide_eq_true_eq]
    exact UInt64.le_total a.address b.address

/-- Types sorted by address are the same list, whatever their order was. -/
theorem mergeSort_address_of_perm {l l' : List TypeId} (hperm : l'.Perm l) :
    (l'.mergeSort fun a b => decide (a.address ≤ b.address)) =
      l.mergeSort fun a b => decide (a.address ≤ b.address) := by
  refine List.Perm.eq_of_pairwise ?_ (pairwise_mergeSort_address l')
    (pairwise_mergeSort_address l) ?_
  · rintro ⟨a⟩ ⟨b⟩ - - hab hba
    exact congrArg TypeId.mk (UInt64.le_antisymm hab hba)
  · exact (List.mergeSort_perm l' _).trans (hperm.trans (List.mergeSort_perm l _).symm)

-- ── Descriptions in another order ───────────────────────────────────────────────

namespace Description

/-- The second description is the first with its types and its methods in another order. -/
structure SameUpToOrder (d d' : Description) : Prop where
  rest : d' = { d with types := d'.types, methods := d'.methods }
  types : d'.types.Perm d.types
  methods : d'.methods.Perm d.methods

variable {d d' : Description}

/-- The subclasses of a type are in strictly ascending order. -/
theorem pairwise_subclasses (hd : d.duplicate? = none) (id : TypeId) :
    (d.subclasses id).Pairwise fun a b => a.address < b.address := by
  have hsorted : (d.subtypes id).Pairwise fun a b => a.address ≤ b.address :=
    pairwise_mergeSort_address _
  refine ((hsorted.and (nodup_subtypes hd id)).imp ?_).filter _
  rintro ⟨a⟩ ⟨b⟩ ⟨hle, hne⟩
  exact UInt64.lt_of_le_of_ne hle fun heq => hne (congrArg TypeId.mk heq)

namespace SameUpToOrder

variable (hd : d.duplicate? = none) (h : d.SameUpToOrder d')
include hd h

theorem type?_eq : d'.type? = d.type? := by
  funext id
  exact find?_key_of_perm h.types (nodup_of_duplicate? hd).1 id

theorem method?_eq : d'.method? = d.method? := by
  funext id
  exact find?_key_of_perm h.methods (nodup_of_duplicate? hd).2 id

/-- The walks along the parents are the same: the links are, and there are as many types. -/
theorem isSubtypeOf_eq : d'.isSubtypeOf = d.isSubtypeOf := by
  have hlinks : d'.parent? = d.parent? := by
    funext id
    rw [parent?, parent?, h.type?_eq hd]
  funext id other
  rw [isSubtypeOf, isSubtypeOf, ancestors, ancestors, hlinks, h.types.length_eq]

theorem subtypes_eq : d'.subtypes = d.subtypes := by
  funext context
  unfold subtypes
  rw [h.isSubtypeOf_eq hd]
  exact mergeSort_address_of_perm ((h.types.map TypeInfo.id).filter _)

theorem isConcrete_eq : d'.isConcrete = d.isConcrete := by
  funext id
  rw [isConcrete, isConcrete, h.type?_eq hd]

/-- The walks along the override links are the same. -/
theorem overrideChain_eq : d'.overrideChain = d.overrideChain := by
  have hlinks : d'.overridden? = d.overridden? := by
    funext id
    rw [overridden?, overridden?, h.method?_eq hd]
  funext id
  rw [overrideChain, overrideChain, hlinks, h.methods.length_eq]

theorem mayImplement_eq : d'.mayImplement = d.mayImplement := by
  funext context root m
  rw [mayImplement, mayImplement, h.overrideChain_eq hd, h.isSubtypeOf_eq hd, h.isConcrete_eq hd]

theorem uniqueConcreteMethod_eq : d'.uniqueConcreteMethod = d.uniqueConcreteMethod := by
  funext context method
  unfold uniqueConcreteMethod overrideRoot
  rw [h.method?_eq hd, h.mayImplement_eq hd, h.overrideChain_eq hd]
  congr 1
  funext m
  exact onlyElement_of_perm ((h.methods.filter _).map MethodInfo.id)

/-- **All seven answers are the same.** -/
theorem hierarchy_eq : d'.hierarchy = d.hierarchy := by
  have htargets : d'.callSiteTargets = d.callSiteTargets := by rw [h.rest]
  have habstract : d'.isAbstract = d.isAbstract := by
    funext id
    rw [isAbstract, isAbstract, h.type?_eq hd]
  have hsubclasses : d'.subclasses = d.subclasses := by
    funext id
    rw [subclasses, subclasses, h.subtypes_eq hd]
  have hsubtype : d'.uniqueConcreteSubtype = d.uniqueConcreteSubtype := by
    funext context
    rw [uniqueConcreteSubtype, uniqueConcreteSubtype, h.subtypes_eq hd, h.isConcrete_eq hd]
  have hfinalizable : d'.hasFinalizableSubclass = d.hasFinalizableSubclass := by
    funext id
    rw [hasFinalizableSubclass, hasFinalizableSubclass, h.subtypes_eq hd, h.type?_eq hd]
  have htarget : d'.callSiteTarget = d.callSiteTarget := by
    funext callSite
    rw [callSiteTarget, callSiteTarget, htargets]
  have hevolved : d'.isEvolved = d.isEvolved := by
    funext id
    rw [isEvolved, isEvolved, h.method?_eq hd]
  simp only [hierarchy, habstract, hsubclasses, hsubtype, h.uniqueConcreteMethod_eq hd,
    hfinalizable, htarget, hevolved]

end SameUpToOrder

end Description

/-- **Answers ignore the order of a description.** Let a description have each type and each method
    once, in any hierarchy, with links to what is not described among them. With its types and
    methods in any other order it gives the same seven answers, the subclasses of a type as one
    list in strictly ascending order; and every list of assumptions is recorded as the same
    dependencies or faults alike, of which the same one is the first to be broken. -/
theorem answers_ignore_description_order {d d' : Description} (hd : d.duplicate? = none)
    (h : d.SameUpToOrder d') :
    d'.hierarchy = d.hierarchy ∧
    (∀ id, (d'.subclasses id).Pairwise fun a b => a.address < b.address) ∧
    (∀ assumptions,
      Dependency.ofAssumptions d' assumptions = Dependency.ofAssumptions d assumptions) ∧
    ∀ recorded, Dependency.firstBroken? d' recorded = Dependency.firstBroken? d recorded := by
  have hanswers := h.hierarchy_eq hd
  have hsubclasses : d'.subclasses = d.subclasses := congrArg Hierarchy.subclasses hanswers
  refine ⟨hanswers, fun id => ?_, fun assumptions => ?_, fun recorded => ?_⟩
  · rw [hsubclasses]
    exact Description.pairwise_subclasses hd id
  · rw [Dependency.ofAssumptions_eq, Dependency.ofAssumptions_eq, hanswers]
  · rw [Dependency.firstBroken?_eq, Dependency.firstBroken?_eq, hanswers]

-- ── Two orders of one description ───────────────────────────────────────────────

/-- The sample with a square described in front of the circle, and with an orphan: a type whose
    parent is not described, with a method that overrides one that is not described. -/
def Description.sampleOrphan : Description :=
  { sample with
    types :=
      [{ id := ⟨0x600⟩, name := "Orphan", parent := some ⟨0x900⟩, mirror := ⟨0x9600⟩ },
       { id := ⟨0x500⟩, name := "Square", parent := some ⟨0x100⟩, mirror := ⟨0x9500⟩ }] ++
        sample.types
    methods :=
      { id := ⟨0x4000⟩, holder := ⟨0x600⟩, name := "area", overrides := some ⟨0x8000⟩ } ::
        sample.methods }

/-- The same types and methods, last ones first. -/
def Description.sampleReversed : Description :=
  { sampleOrphan with
    types := sampleOrphan.types.reverse
    methods := sampleOrphan.methods.reverse }

/-- The assumptions that circles are the only shapes and that nothing is below an orphan. -/
def Assumption.orderSamples : List Assumption :=
  [.leafType ⟨0x600⟩, .concreteSubtype ⟨0x100⟩ ⟨0x200⟩]

/-- In both orders the circle comes before the square, and is found not to be the only shape. -/
theorem answers_ignore_description_order_reversed :
    Description.sampleOrphan.duplicate? = none ∧
    Description.sampleOrphan.SameUpToOrder .sampleReversed ∧
    Description.sampleReversed.types ≠ Description.sampleOrphan.types ∧
    Description.sampleReversed.hierarchy = Description.sampleOrphan.hierarchy ∧
    Description.sampleReversed.subclasses ⟨0x100⟩ = [⟨0x200⟩, ⟨0x500⟩] ∧
    ∃ recorded, Dependency.ofAssumptions .sampleReversed Assumption.orderSamples = .ok recorded ∧
      Dependency.firstBroken? .sampleReversed recorded =
        some (.uniqueConcreteSubtype ⟨0x100⟩ ⟨0x200⟩) := by
  have hd : Description.sampleOrphan.duplicate? = none := by decide
  have hsame : Description.sampleOrphan.SameUpToOrder .sampleReversed :=
    ⟨rfl, List.reverse_perm _, List.reverse_perm _⟩
  obtain ⟨hanswers, -, hrecorded, hbroken⟩ := answers_ignore_description_order hd hsame
  have hsubclasses : Description.sampleOrphan.subclasses ⟨0x100⟩ = [⟨0x200⟩, ⟨0x500⟩] := by cbv
  refine ⟨hd, hsame, by decide, hanswers, ?_, _, (hrecorded _).trans rfl, (hbroken _).trans ?_⟩
  · rw [← hsubclasses]
    exact congrFun (congrArg Hierarchy.subclasses hanswers) _
  · cbv

end ManagedCode
