import Mathlib
import ManagedCode.Proofs.Hierarchy
import ManagedCode.Proofs.Refusal

/-! # Assumptions of registered code

    A unit comes with assumptions about the loaded types and methods.  They are written down as
    dependencies, each once, and every dependency is checked before the unit is registered; so
    what the unit assumes is so when it is registered, and a unit refused for a dependency assumed
    something that is not.

* **`Assumption.Means`** — what an assumption says about a described runtime.
* **`Assumption.Requires`** — the dependencies an assumption is written down as.
* **`registered_assumptions_hold`** — the assumptions of a registered unit hold, and a refusal
  names a dependency whose condition is false. -/

namespace ManagedCode

/-- What an assumption says about a described runtime. -/
def Assumption.Means (world : Description) : Assumption → Prop
  | .methodContents method => world.Unevolved method
  | .concreteSubtype context subtype =>
      (∀ id, world.ConcreteType id → world.AtOrBelow id context → id = subtype) ∧
        world.LeafType subtype
  | .concreteMethod _ context target => ∀ id, world.Implements context target id ↔ id = target
  | .leafType context => world.LeafType context
  | .noFinalizableSubclass receiver => world.NoFinalizers receiver
  | .callSiteTarget callSite methodHandle => world.FirstBound callSite methodHandle

/-- The dependencies that an assumption is written down as. A concrete subtype is a leaf, and the
    only concrete type below a context other than itself. -/
inductive Assumption.Requires : Assumption → Dependency → Prop
  | methodContents {method : MethodId} : Requires (.methodContents method) (.unevolved method)
  | subtypeLeaf {context subtype : TypeId} :
      Requires (.concreteSubtype context subtype) (.leafType subtype)
  | subtypeOnly {context subtype : TypeId} (h : context ≠ subtype) :
      Requires (.concreteSubtype context subtype) (.uniqueConcreteSubtype context subtype)
  | concreteMethod {method target : MethodId} {context : TypeId} :
      Requires (.concreteMethod method context target) (.uniqueConcreteMethod context target)
  | leafType {context : TypeId} : Requires (.leafType context) (.leafType context)
  | noFinalizableSubclass {receiver : TypeId} :
      Requires (.noFinalizableSubclass receiver) (.noFinalizableSubclasses receiver)
  | callSiteTarget {callSite methodHandle : ObjectAddress} :
      Requires (.callSiteTarget callSite methodHandle) (.callSiteTarget callSite methodHandle)

/-- An assumption holds if the conditions it is written down as do. -/
theorem Assumption.means_of_conditions {world : Description} {a : Assumption}
    (h : ∀ d, a.Requires d → d.Condition world) : a.Means world := by
  cases a with
  | methodContents method => exact h _ .methodContents
  | concreteSubtype context subtype =>
      have hleaf : world.LeafType subtype := h _ .subtypeLeaf
      refine ⟨?_, hleaf⟩
      intro id hconcrete hbelow
      by_cases hcontext : context = subtype
      · subst hcontext
        obtain ⟨t, ht, rfl, -⟩ := hconcrete
        exact hleaf t ht hbelow
      · exact ((h _ (.subtypeOnly hcontext)).2 id).1 ⟨hconcrete, hbelow⟩
  | concreteMethod method context target => exact h _ .concreteMethod
  | leafType context => exact h _ .leafType
  | noFinalizableSubclass receiver => exact h _ .noFinalizableSubclass
  | callSiteTarget callSite methodHandle => exact h _ .callSiteTarget

-- ── Written down ────────────────────────────────────────────────────────────────

namespace Dependency

variable {world : Description}

theorem mem_ofAssumption_iff {a : Assumption} {ds : List Dependency}
    (h : ofAssumption world a = .ok ds) (d : Dependency) : d ∈ ds ↔ a.Requires d := by
  cases a with
  | concreteSubtype context subtype =>
      by_cases hcontext : context = subtype
      · rw [ofAssumption, if_pos hcontext] at h
        obtain rfl := Except.ok.inj h
        rw [List.mem_singleton]
        constructor
        · rintro rfl
          exact .subtypeLeaf
        · intro hd
          cases hd with
          | subtypeLeaf => rfl
          | subtypeOnly hne => exact absurd hcontext hne
      · rw [ofAssumption, if_neg hcontext] at h
        obtain ⟨_, -, h⟩ := Checked.bind_ok h
        obtain rfl := Checked.pure_ok h
        rw [List.mem_pair]
        constructor
        · rintro (rfl | rfl)
          · exact .subtypeLeaf
          · exact .subtypeOnly hcontext
        · intro hd
          cases hd with
          | subtypeLeaf => exact Or.inl rfl
          | subtypeOnly _ => exact Or.inr rfl
  | methodContents | concreteMethod | leafType | noFinalizableSubclass | callSiteTarget =>
      obtain rfl := Except.ok.inj h
      rw [List.mem_singleton]
      constructor
      · rintro rfl
        constructor
      · intro hd
        cases hd
        rfl

theorem mem_foldl_add {ds recorded : List Dependency} {d : Dependency} :
    d ∈ ds.foldl add recorded ↔ d ∈ recorded ∨ d ∈ ds := by
  induction ds generalizing recorded with
  | nil => simp
  | cons first rest ih =>
      have hfirst : d ∈ add recorded first ↔ d ∈ recorded ∨ d = first := by
        unfold add
        split
        · next hmem =>
            constructor
            · exact Or.inl
            · rintro (h | rfl)
              · exact h
              · exact hmem
        · rw [List.mem_append, List.mem_singleton]
      rw [List.foldl_cons, ih, hfirst, List.mem_cons, or_assoc]

/-- The dependencies of a unit are those its assumptions require. -/
theorem mem_ofAssumptions_iff {assumptions : List Assumption} {recorded : List Dependency}
    (h : ofAssumptions world assumptions = .ok recorded) (d : Dependency) :
    d ∈ recorded ↔ ∃ a ∈ assumptions, a.Requires d := by
  suffices hacc : ∀ acc, assumptions.foldlM (addAssumption world) acc = .ok recorded →
      (d ∈ recorded ↔ d ∈ acc ∨ ∃ a ∈ assumptions, a.Requires d) by
    simpa using hacc [] h
  clear h
  induction assumptions with
  | nil =>
      intro acc h
      obtain rfl := Checked.pure_ok h
      simp
  | cons a rest ih =>
      intro acc h
      rw [List.foldlM_cons] at h
      obtain ⟨acc', hadd, h⟩ := Checked.bind_ok h
      obtain ⟨ds, hds, hadd⟩ := Checked.bind_ok hadd
      obtain rfl := Checked.pure_ok hadd
      rw [ih _ h, mem_foldl_add, mem_ofAssumption_iff hds, or_assoc]
      simp only [List.mem_cons, exists_eq_or_imp]

theorem firstBroken?_eq_none_iff {recorded : List Dependency} :
    firstBroken? world recorded = none ↔ ∀ d ∈ recorded, d.holds world = true := by
  simp only [firstBroken?, List.find?_eq_none, Bool.not_eq_true', Bool.not_eq_false]

theorem of_firstBroken?_eq_some {recorded : List Dependency} {d : Dependency}
    (h : firstBroken? world recorded = some d) : d ∈ recorded ∧ ¬ d.holds world = true := by
  refine ⟨List.mem_of_find?_eq_some h, ?_⟩
  simpa using List.find?_some h

end Dependency

-- ── Checked before registration ─────────────────────────────────────────────────

section Installing

variable {settings : Settings} {u : CompiledUnit} {r r' : Runtime}

/-- A method is installed after the dependencies of its unit are written down and checked. -/
theorem installMethod_checks {out : Except Refusal Receipt}
    (h : installMethod settings u r = .ok (out, r')) :
    ∃ recorded, Dependency.ofAssumptions r.world u.assumptions = .ok recorded ∧
      (∀ receipt, out = .ok receipt → Dependency.firstBroken? r.world recorded = none) ∧
      (∀ d, out = .error (.brokenDependency d) →
        Dependency.firstBroken? r.world recorded = some d) := by
  unfold installMethod at h
  split at h
  · exact nomatch h
  · obtain ⟨recorded, hrecorded, h⟩ := Checked.bind_ok h
    obtain ⟨⟨result, r₁⟩, hresult, h⟩ := Checked.bind_ok h
    obtain ⟨rfl, rfl⟩ := Prod.mk.inj (Checked.pure_ok h)
    obtain ⟨hregistered, hrefused⟩ := assembleAndCommit_checks hresult
    refine ⟨recorded, hrecorded, ?_, ?_⟩
    · intro receipt hreceipt
      obtain ⟨installed, hinstalled, -⟩ := map_eq_ok hreceipt
      exact hregistered installed hinstalled
    · intro d hd
      cases result with
      | ok installed => exact nomatch hd
      | error refusal => exact hrefused d (congrArg Except.error (Except.error.inj hd))

/-- Whatever the assumptions of a registered method require is so. -/
theorem condition_of_registered {receipt : Receipt} (hworld : r.world.duplicate? = none)
    (h : installMethod settings u r = .ok (.ok receipt, r')) {a : Assumption}
    (ha : a ∈ u.assumptions) {d : Dependency} (hd : a.Requires d) : d.Condition r.world := by
  obtain ⟨recorded, hrecorded, hchecked, -⟩ := installMethod_checks h
  have hmem : d ∈ recorded := (Dependency.mem_ofAssumptions_iff hrecorded d).2 ⟨a, ha, hd⟩
  exact (d.holds_iff hworld).1 (Dependency.firstBroken?_eq_none_iff.1 (hchecked _ rfl) d hmem)

/-- **Only code whose assumptions hold is registered.** Each assumption of a registered unit means
    what it says about the described types and methods; and a unit that is refused for a dependency
    made an assumption that requires it, and its condition is false. -/
theorem registered_assumptions_hold (hworld : r.world.duplicate? = none) :
    (∀ receipt r', installMethod settings u r = .ok (.ok receipt, r') →
      ∀ a ∈ u.assumptions, a.Means r.world) ∧
    (∀ d r', installMethod settings u r = .ok (.error (.brokenDependency d), r') →
      ∃ a ∈ u.assumptions, a.Requires d ∧ ¬ d.Condition r.world) := by
  constructor
  · intro receipt r' h a ha
    exact Assumption.means_of_conditions fun d hd => condition_of_registered hworld h ha hd
  · intro d r' h
    obtain ⟨recorded, hrecorded, -, hbroken⟩ := installMethod_checks h
    obtain ⟨hmem, hfalse⟩ := Dependency.of_firstBroken?_eq_some (hbroken d rfl)
    obtain ⟨a, ha, hrequires⟩ := (Dependency.mem_ofAssumptions_iff hrecorded d).1 hmem
    exact ⟨a, ha, hrequires, fun hcondition => hfalse ((d.holds_iff hworld).2 hcondition)⟩

end Installing

-- ── Units with assumptions ──────────────────────────────────────────────────────

/-- A unit of a method that only returns, with assumptions. -/
def CompiledUnit.sampleAssuming (assumptions : List Assumption) : CompiledUnit where
  name := "area"
  method := some ⟨0x1000⟩
  code := [0xc3]
  codeSize := 1
  frameSize := 8
  assumptions := assumptions

/-- Circles are the only shapes, and no shape has a finalizer. -/
def Assumption.samples : List Assumption :=
  [.methodContents ⟨0x1000⟩, .concreteSubtype ⟨0x100⟩ ⟨0x200⟩,
    .concreteMethod ⟨0x1000⟩ ⟨0x100⟩ ⟨0x2000⟩, .noFinalizableSubclass ⟨0x100⟩]

/-- The dependency that a refused installation names. -/
def brokenBy : Checked (Except Refusal Receipt × Runtime) → Option Dependency
  | .ok (.error (.brokenDependency d), _) => some d
  | _ => none

theorem exists_broken {ended : Checked (Except Refusal Receipt × Runtime)} {d : Dependency}
    (h : brokenBy ended = some d) : ∃ r', ended = .ok (.error (.brokenDependency d), r') := by
  unfold brokenBy at h
  split at h
  · next r' =>
      obtain rfl := Option.some.inj h
      exact ⟨r', rfl⟩
  · exact nomatch h

/-- A unit for circles as the only shapes is registered, and a unit for shapes as a leaf is refused,
    since a circle is a shape. -/
theorem registered_assumptions_hold_sample :
    Description.sample.duplicate? = none ∧
    (∃ receipt r', installMethod {} (.sampleAssuming Assumption.samples) .sample =
      .ok (.ok receipt, r')) ∧
    (∀ a ∈ Assumption.samples, a.Means .sample) ∧
    (∃ r', installMethod {} (.sampleAssuming [.leafType ⟨0x100⟩]) .sample =
      .ok (.error (.brokenDependency (.leafType ⟨0x100⟩)), r')) ∧
    ¬ Description.sample.LeafType ⟨0x100⟩ := by
  have hworld : Description.sample.duplicate? = none := by decide
  obtain ⟨receipt, r', hregistered⟩ :
      ∃ receipt r', installMethod {} (.sampleAssuming Assumption.samples) .sample =
        .ok (.ok receipt, r') := exists_receipt (by cbv)
  obtain ⟨r'', hrefused⟩ :
      ∃ r', installMethod {} (.sampleAssuming [.leafType ⟨0x100⟩]) .sample =
        .ok (.error (.brokenDependency (.leafType ⟨0x100⟩)), r') := exists_broken (by cbv)
  have hmeans := (registered_assumptions_hold hworld).1 receipt r' hregistered
  obtain ⟨_, -, -, hfalse⟩ := (registered_assumptions_hold hworld).2 _ r'' hrefused
  exact ⟨hworld, ⟨receipt, r', hregistered⟩, hmeans, ⟨r'', hrefused⟩, hfalse⟩

end ManagedCode
