import Mathlib.Data.List.Perm.Basic
import Mathlib.Data.List.Nodup
import Mathlib.Logic.Relation
import ManagedCode.World.Dependency

/-! # Hierarchies as relations

    The queries about types and methods walk links a bounded number of times and filter all that is
    described.  What they answer is said here without walks and filters: a type is at or below
    another if parent links lead from the one to the other, two methods are of one family if
    override links lead from both to a common method.  No shape of the links is asked for; that
    each identity is described once is.

* **`mem_chainFrom_iff`** — a walk that is as long as there are nodes finds whatever the links
  lead to.
* **`Description.AtOrBelow`**, **`Description.SameFamily`** — the two relations.
* **`Dependency.Condition`** — what a dependency says about a described runtime, and
  **`Dependency.holds_iff`** — the check decides it. -/

namespace ManagedCode

open Relation (ReflTransGen)

-- ── Chains of links ─────────────────────────────────────────────────────────────

section Chains

variable {ι : Type} {next : ι → Option ι}

theorem mem_chainFrom_self (fuel : Nat) (a : ι) : a ∈ chainFrom next fuel a := by
  cases fuel <;> exact List.mem_cons_self

theorem reflTransGen_of_mem_chainFrom {fuel : Nat} {a b : ι} (h : b ∈ chainFrom next fuel a) :
    ReflTransGen (fun x y => next x = some y) a b := by
  induction fuel generalizing a with
  | zero =>
      obtain rfl := List.mem_singleton.1 h
      exact .refl
  | succ fuel ih =>
      rcases List.mem_cons.1 h with rfl | h
      · exact .refl
      · cases hnext : next a with
        | none =>
            rw [hnext] at h
            exact nomatch h
        | some c =>
            rw [hnext] at h
            exact .head hnext (ih h)

/-- A way to another node need not come back to where it starts. -/
theorem ReflTransGen.eq_or_head_avoiding {r : ι → ι → Prop} {a b : ι} (h : ReflTransGen r a b) :
    a = b ∨ ∃ c, r a c ∧ ReflTransGen (fun x y => x ≠ a ∧ r x y) c b := by
  induction h with
  | refl => exact Or.inl rfl
  | @tail b c _ hbc ih =>
      by_cases hb : b = a
      · subst hb
        exact Or.inr ⟨c, hbc, .refl⟩
      · rcases ih with rfl | ⟨first, hfirst, hway⟩
        · exact absurd rfl hb
        · exact Or.inr ⟨first, hfirst, hway.tail ⟨hb, hbc⟩⟩

/-- The walk finds what can be reached through the listed nodes: each step of a way that does not
    come back uses one of them up. -/
theorem mem_chainFrom_of_reflTransGen [DecidableEq ι] {nodes : List ι} {r : ι → ι → Prop}
    (hr : ∀ x y, r x y → x ∈ nodes ∧ next x = some y) {a b : ι} (h : ReflTransGen r a b) :
    b ∈ chainFrom next nodes.length a := by
  induction hlen : nodes.length generalizing nodes r a with
  | zero =>
      rcases h.cases_head with rfl | ⟨c, hac, -⟩
      · exact mem_chainFrom_self _ _
      · rw [List.eq_nil_of_length_eq_zero hlen] at hr
        exact nomatch (hr a c hac).1
  | succ n ih =>
      rcases ReflTransGen.eq_or_head_avoiding h with rfl | ⟨c, hac, hway⟩
      · exact mem_chainFrom_self _ _
      · obtain ⟨hmem, hnext⟩ := hr a c hac
        have hrest : (nodes.erase a).length = n := by
          rw [List.length_erase_of_mem hmem, hlen, Nat.add_sub_cancel]
        have hfound : b ∈ chainFrom next n c := by
          refine ih (fun x y hxy => ?_) hway hrest
          obtain ⟨hx, hxnext⟩ := hr x y hxy.2
          exact ⟨(List.mem_erase_of_ne hxy.1).2 hx, hxnext⟩
        rw [chainFrom, hnext]
        exact List.mem_cons_of_mem _ hfound

/-- **A walk as long as there are nodes with a link finds whatever the links lead to.** -/
theorem mem_chainFrom_iff [DecidableEq ι] {nodes : List ι}
    (hnodes : ∀ x y, next x = some y → x ∈ nodes) {a b : ι} :
    b ∈ chainFrom next nodes.length a ↔ ReflTransGen (fun x y => next x = some y) a b :=
  ⟨reflTransGen_of_mem_chainFrom,
    mem_chainFrom_of_reflTransGen fun x y hxy => ⟨hnodes x y hxy, hxy⟩⟩

/-- From everything on a walk the links lead on to its end. -/
theorem reflTransGen_getLast {fuel : Nat} {a b last : ι} (hb : b ∈ chainFrom next fuel a)
    (hlast : (chainFrom next fuel a).getLast? = some last) :
    ReflTransGen (fun x y => next x = some y) b last := by
  induction fuel generalizing a b with
  | zero =>
      obtain rfl := List.mem_singleton.1 hb
      obtain rfl := Option.some.inj hlast
      exact .refl
  | succ fuel ih =>
      cases hnext : next a with
      | none =>
          rw [chainFrom, hnext] at hb hlast
          obtain rfl := List.mem_singleton.1 hb
          obtain rfl := Option.some.inj hlast
          exact .refl
      | some c =>
          rw [chainFrom, hnext] at hb hlast
          have hne : chainFrom next fuel c ≠ [] := List.ne_nil_of_mem (mem_chainFrom_self _ _)
          have hlast' : (chainFrom next fuel c).getLast? = some last := by
            rw [← hlast, List.getLast?_cons_of_ne_nil hne]
          rcases List.mem_cons.1 hb with rfl | hb
          · exact .head hnext (ih (mem_chainFrom_self fuel c) hlast')
          · exact ih hb hlast'

end Chains

-- ── Described once ──────────────────────────────────────────────────────────────

/-- In a list without repeated keys, a search by key finds the one entry that has it. -/
theorem find?_key_iff {α κ : Type} [DecidableEq κ] {key : α → κ} {l : List α}
    (hnodup : (l.map key).Nodup) {k : κ} {a : α} :
    l.find? (fun x => key x == k) = some a ↔ a ∈ l ∧ key a = k := by
  constructor
  · intro h
    exact ⟨List.mem_of_find?_eq_some h, by simpa using List.find?_some h⟩
  · rintro ⟨hmem, rfl⟩
    obtain ⟨b, hb⟩ : ∃ b, l.find? (fun x => key x == key a) = some b :=
      Option.isSome_iff_exists.1 (List.find?_isSome.2 ⟨a, hmem, beq_self_eq_true (key a)⟩)
    have hkey : key b = key a := by simpa using List.find?_some hb
    rw [hb, List.inj_on_of_nodup_map hnodup (List.mem_of_find?_eq_some hb) hmem hkey]

/-- A list without repetition has one element if one value is all it has. -/
theorem onlyElement_eq_some_iff {α : Type} {l : List α} (hnodup : l.Nodup) {a : α} :
    onlyElement l = some a ↔ ∀ x, x ∈ l ↔ x = a := by
  constructor
  · intro h x
    match l, h with
    | [b], h =>
        obtain rfl := Option.some.inj h
        exact List.mem_singleton
  · intro h
    have hperm : l.Perm [a] := by
      rw [List.perm_ext_iff_of_nodup hnodup (List.nodup_singleton a)]
      intro x
      rw [h x, List.mem_singleton]
    rw [List.perm_singleton.1 hperm]
    rfl

namespace Description

theorem nodup_of_firstRepeated {α : Type} [DecidableEq α] {seen l : List α}
    (h : firstRepeated seen l = none) : l.Nodup ∧ ∀ a ∈ l, a ∉ seen := by
  induction l generalizing seen with
  | nil => exact ⟨List.nodup_nil, nofun⟩
  | cons a rest ih =>
      unfold firstRepeated at h
      split at h
      · exact nomatch h
      · next hfresh =>
          obtain ⟨hnodup, hrest⟩ := ih h
          refine ⟨List.nodup_cons.2 ⟨fun hmem => hrest a hmem List.mem_cons_self, hnodup⟩, ?_⟩
          intro b hb
          rcases List.mem_cons.1 hb with rfl | hb
          · exact hfresh
          · exact fun hseen => hrest b hb (List.mem_cons_of_mem _ hseen)

theorem firstRepeated_of_nodup {α : Type} [DecidableEq α] {seen l : List α} (h : l.Nodup)
    (hfresh : ∀ a ∈ l, a ∉ seen) : firstRepeated seen l = none := by
  induction l generalizing seen with
  | nil => rfl
  | cons a rest ih =>
      obtain ⟨ha, hrest⟩ := List.nodup_cons.1 h
      obtain ⟨hafresh, hrestFresh⟩ := List.forall_mem_cons.1 hfresh
      rw [firstRepeated, if_neg hafresh]
      refine ih hrest fun b hb hseen => ?_
      rcases List.mem_cons.1 hseen with rfl | hseen
      · exact ha hb
      · exact hrestFresh b hb hseen

variable {d : Description}

/-- A description without duplicates has each type and each method once. -/
theorem nodup_of_duplicate? (h : d.duplicate? = none) :
    (d.types.map TypeInfo.id).Nodup ∧ (d.methods.map MethodInfo.id).Nodup := by
  unfold duplicate? at h
  split at h
  · exact nomatch h
  · next htypes =>
      exact ⟨(nodup_of_firstRepeated htypes).1,
        (nodup_of_firstRepeated (Option.map_eq_none_iff.1 h)).1⟩

theorem type?_eq_some_iff (h : d.duplicate? = none) {id : TypeId} {t : TypeInfo} :
    d.type? id = some t ↔ t ∈ d.types ∧ t.id = id :=
  find?_key_iff (nodup_of_duplicate? h).1

theorem method?_eq_some_iff (h : d.duplicate? = none) {id : MethodId} {m : MethodInfo} :
    d.method? id = some m ↔ m ∈ d.methods ∧ m.id = id :=
  find?_key_iff (nodup_of_duplicate? h).2

-- ── Types ───────────────────────────────────────────────────────────────────────

/-- A type is described with a parent. -/
def Inherits (d : Description) (id parent : TypeId) : Prop :=
  ∃ t ∈ d.types, t.id = id ∧ t.parent = some parent

/-- Parent links lead from one type to the other. -/
def AtOrBelow (d : Description) : TypeId → TypeId → Prop := ReflTransGen d.Inherits

/-- A type is described and not abstract. -/
def ConcreteType (d : Description) (id : TypeId) : Prop :=
  ∃ t ∈ d.types, t.id = id ∧ t.isAbstract = false

/-- A type is described as abstract. -/
def AbstractType (d : Description) (id : TypeId) : Prop :=
  ∃ t ∈ d.types, t.id = id ∧ t.isAbstract = true

/-- No other described type is below a type. -/
def LeafType (d : Description) (id : TypeId) : Prop :=
  ∀ t ∈ d.types, d.AtOrBelow t.id id → t.id = id

/-- No described type at or below a type has a finalizer. -/
def NoFinalizers (d : Description) (id : TypeId) : Prop :=
  ∀ t ∈ d.types, d.AtOrBelow t.id id → t.hasFinalizer = false

theorem parent?_eq_some_iff (h : d.duplicate? = none) {id parent : TypeId} :
    d.parent? id = some parent ↔ d.Inherits id parent := by
  simp only [parent?, Option.bind_eq_some_iff, type?_eq_some_iff h, Inherits, and_assoc]

theorem isSubtypeOf_iff (h : d.duplicate? = none) {id other : TypeId} :
    d.isSubtypeOf id other = true ↔ d.AtOrBelow id other := by
  have hlinks : (fun x y => d.parent? x = some y) = d.Inherits := by
    funext x y
    exact propext (parent?_eq_some_iff h)
  have hnodes : ∀ x y, d.parent? x = some y → x ∈ d.types.map TypeInfo.id := by
    intro x y hxy
    obtain ⟨t, ht, rfl, -⟩ := (parent?_eq_some_iff h).1 hxy
    exact List.mem_map_of_mem ht
  have hwalk := mem_chainFrom_iff hnodes (a := id) (b := other)
  rw [hlinks, List.length_map] at hwalk
  rw [isSubtypeOf, List.contains_iff_mem]
  exact hwalk

theorem mem_subtypes_iff (h : d.duplicate? = none) {id context : TypeId} :
    id ∈ d.subtypes context ↔ (∃ t ∈ d.types, t.id = id) ∧ d.AtOrBelow id context := by
  simp only [subtypes, List.mem_mergeSort, List.mem_filter, List.mem_map, isSubtypeOf_iff h]

theorem nodup_subtypes (h : d.duplicate? = none) (context : TypeId) :
    (d.subtypes context).Nodup :=
  (List.mergeSort_perm _ _).nodup_iff.2 ((nodup_of_duplicate? h).1.filter _)

theorem isConcrete_iff (h : d.duplicate? = none) {id : TypeId} :
    d.isConcrete id = true ↔ d.ConcreteType id := by
  simp only [isConcrete, Option.any_eq_true, type?_eq_some_iff h, Bool.not_eq_true', ConcreteType,
    and_assoc]

theorem isAbstract_iff (h : d.duplicate? = none) {id : TypeId} :
    d.isAbstract id = true ↔ d.AbstractType id := by
  simp only [isAbstract, Option.any_eq_true, type?_eq_some_iff h, AbstractType, and_assoc]

theorem isEmpty_subclasses_iff (h : d.duplicate? = none) {id : TypeId} :
    (d.subclasses id).isEmpty = true ↔ d.LeafType id := by
  simp only [subclasses, List.isEmpty_iff, List.filter_eq_nil_iff, mem_subtypes_iff h, LeafType,
    bne_iff_ne, ne_eq, not_not]
  constructor
  · intro hnone t ht hbelow
    exact hnone t.id ⟨⟨t, ht, rfl⟩, hbelow⟩
  · rintro hleaf _ ⟨⟨t, ht, rfl⟩, hbelow⟩
    exact hleaf t ht hbelow

theorem uniqueConcreteSubtype_eq_some_iff (h : d.duplicate? = none) {context subtype : TypeId} :
    d.uniqueConcreteSubtype context = some subtype ↔
      ∀ id, d.ConcreteType id ∧ d.AtOrBelow id context ↔ id = subtype := by
  rw [uniqueConcreteSubtype, onlyElement_eq_some_iff ((nodup_subtypes h context).filter _)]
  have hmem : ∀ id, id ∈ (d.subtypes context).filter d.isConcrete ↔
      d.ConcreteType id ∧ d.AtOrBelow id context := by
    intro id
    rw [List.mem_filter, mem_subtypes_iff h, isConcrete_iff h]
    constructor
    · rintro ⟨⟨-, hbelow⟩, hconcrete⟩
      exact ⟨hconcrete, hbelow⟩
    · rintro ⟨⟨t, ht, hid, habstract⟩, hbelow⟩
      exact ⟨⟨⟨t, ht, hid⟩, hbelow⟩, t, ht, hid, habstract⟩
  simp only [hmem]

theorem hasFinalizableSubclass_eq_false_iff (h : d.duplicate? = none) {id : TypeId} :
    d.hasFinalizableSubclass id = false ↔ d.NoFinalizers id := by
  rw [hasFinalizableSubclass, List.any_eq_false]
  constructor
  · intro hnone t ht hbelow
    have hfinal := hnone t.id ((mem_subtypes_iff h).2 ⟨⟨t, ht, rfl⟩, hbelow⟩)
    rw [(type?_eq_some_iff h).2 ⟨ht, rfl⟩] at hfinal
    exact Bool.eq_false_iff.2 hfinal
  · intro hnone sub hsub
    obtain ⟨⟨t, ht, rfl⟩, hbelow⟩ := (mem_subtypes_iff h).1 hsub
    rw [(type?_eq_some_iff h).2 ⟨ht, rfl⟩]
    exact Bool.eq_false_iff.1 (hnone t ht hbelow)

-- ── Methods ─────────────────────────────────────────────────────────────────────

/-- A method is described to override another. -/
def Overrides (d : Description) (id overridden : MethodId) : Prop :=
  ∃ m ∈ d.methods, m.id = id ∧ m.overrides = some overridden

/-- Override links lead from both methods to a common one. -/
def SameFamily (d : Description) (m n : MethodId) : Prop :=
  ∃ root, ReflTransGen d.Overrides m root ∧ ReflTransGen d.Overrides n root

/-- A described method of the family of `method` whose holder is concrete and related to
    `context`. -/
def Implements (d : Description) (context : TypeId) (method id : MethodId) : Prop :=
  ∃ m ∈ d.methods, m.id = id ∧ d.SameFamily id method ∧
    (d.AtOrBelow m.holder context ∨ d.AtOrBelow context m.holder) ∧ d.ConcreteType m.holder

/-- A method is not described as redefined. -/
def Unevolved (d : Description) (id : MethodId) : Prop :=
  ∀ m ∈ d.methods, m.id = id → m.evolved = false

/-- The first binding of a call site is to a method handle. -/
def FirstBound (d : Description) (callSite methodHandle : ObjectAddress) : Prop :=
  ∃ before behind, d.callSiteTargets = before ++ (callSite, methodHandle) :: behind ∧
    ∀ bound ∈ before, bound.1 ≠ callSite

theorem overridden?_eq_some_iff (h : d.duplicate? = none) {id overridden : MethodId} :
    d.overridden? id = some overridden ↔ d.Overrides id overridden := by
  simp only [overridden?, Option.bind_eq_some_iff, method?_eq_some_iff h, Overrides, and_assoc]

theorem overridden?_links (h : d.duplicate? = none) :
    (fun x y => d.overridden? x = some y) = d.Overrides := by
  funext x y
  exact propext (overridden?_eq_some_iff h)

theorem mem_overrideChain_iff (h : d.duplicate? = none) {id other : MethodId} :
    other ∈ d.overrideChain id ↔ ReflTransGen d.Overrides id other := by
  have hnodes : ∀ x y, d.overridden? x = some y → x ∈ d.methods.map MethodInfo.id := by
    intro x y hxy
    obtain ⟨m, hm, rfl, -⟩ := (overridden?_eq_some_iff h).1 hxy
    exact List.mem_map_of_mem hm
  have hwalk := mem_chainFrom_iff hnodes (a := id) (b := other)
  rw [overridden?_links h, List.length_map] at hwalk
  exact hwalk

/-- The method at the end of the override links stands for the family. -/
theorem mem_overrideChain_root_iff (h : d.duplicate? = none) {id method : MethodId} :
    d.overrideRoot method ∈ d.overrideChain id ↔ d.SameFamily id method := by
  have hself : method ∈ d.overrideChain method := mem_chainFrom_self _ _
  obtain ⟨root, hroot⟩ : ∃ root, (d.overrideChain method).getLast? = some root :=
    ⟨_, List.getLast?_eq_some_getLast (List.ne_nil_of_mem hself)⟩
  have hend : ∀ c ∈ d.overrideChain method, ReflTransGen d.Overrides c root := by
    intro c hc
    rw [← overridden?_links h]
    exact reflTransGen_getLast hc hroot
  rw [overrideRoot, hroot, Option.getD_some, mem_overrideChain_iff h]
  constructor
  · intro hid
    exact ⟨root, hid, hend method hself⟩
  · rintro ⟨c, hid, hmethod⟩
    exact hid.trans (hend c ((mem_overrideChain_iff h).2 hmethod))

theorem mayImplement_iff (h : d.duplicate? = none) {context : TypeId} {method : MethodId}
    {m : MethodInfo} :
    d.mayImplement context (d.overrideRoot method) m = true ↔
      d.SameFamily m.id method ∧
        (d.AtOrBelow m.holder context ∨ d.AtOrBelow context m.holder) ∧
          d.ConcreteType m.holder := by
  simp only [mayImplement, Bool.and_eq_true, Bool.or_eq_true, List.contains_iff_mem,
    mem_overrideChain_root_iff h, isSubtypeOf_iff h, isConcrete_iff h, and_assoc]

theorem uniqueConcreteMethod_eq_some_iff (h : d.duplicate? = none) {context : TypeId}
    {method target : MethodId} :
    d.uniqueConcreteMethod context method = some target ↔
      (∃ m ∈ d.methods, m.id = method) ∧ ∀ id, d.Implements context method id ↔ id = target := by
  have hmem : ∀ id, id ∈ ((d.methods.filter (d.mayImplement context (d.overrideRoot method))).map
      MethodInfo.id) ↔ d.Implements context method id := by
    intro id
    simp only [List.mem_map, List.mem_filter, mayImplement_iff h]
    constructor
    · rintro ⟨m, ⟨hm, himplements⟩, rfl⟩
      exact ⟨m, hm, rfl, himplements⟩
    · rintro ⟨m, hm, rfl, himplements⟩
      exact ⟨m, ⟨hm, himplements⟩, rfl⟩
  have hnodup : ((d.methods.filter (d.mayImplement context (d.overrideRoot method))).map
      MethodInfo.id).Nodup :=
    (nodup_of_duplicate? h).2.sublist (List.filter_sublist.map _)
  have honly := onlyElement_eq_some_iff hnodup (a := target)
  simp only [hmem] at honly
  rw [uniqueConcreteMethod, Option.bind_eq_some_iff]
  simp only [method?_eq_some_iff h]
  constructor
  · rintro ⟨m, ⟨hm, rfl⟩, hfound⟩
    exact ⟨⟨m, hm, rfl⟩, honly.1 hfound⟩
  · rintro ⟨⟨m, hm, rfl⟩, hall⟩
    exact ⟨m, ⟨hm, rfl⟩, honly.2 hall⟩

theorem isEvolved_eq_false_iff (h : d.duplicate? = none) {id : MethodId} :
    d.isEvolved id = false ↔ d.Unevolved id := by
  rw [Bool.eq_false_iff, Ne, isEvolved, Option.any_eq_true]
  simp only [method?_eq_some_iff h, not_exists, not_and, and_imp, Bool.not_eq_true, Unevolved]

theorem callSiteTarget_eq_some_iff {callSite methodHandle : ObjectAddress} :
    d.callSiteTarget callSite = some methodHandle ↔ d.FirstBound callSite methodHandle := by
  simp only [callSiteTarget, List.lookup_eq_some_iff, bne_iff_ne, FirstBound, ne_comm]

end Description

-- ── Dependencies ────────────────────────────────────────────────────────────────

/-- What a dependency says about a described runtime. -/
def Dependency.Condition (world : Description) : Dependency → Prop
  | unevolved method => world.Unevolved method
  | leafType context => world.LeafType context
  | uniqueConcreteSubtype context subtype =>
      world.AbstractType context ∧
        ∀ id, world.ConcreteType id ∧ world.AtOrBelow id context ↔ id = subtype
  | uniqueConcreteMethod context method =>
      ∀ id, world.Implements context method id ↔ id = method
  | noFinalizableSubclasses context => world.NoFinalizers context
  | callSiteTarget callSite methodHandle => world.FirstBound callSite methodHandle

/-- **The check of a dependency decides its condition.** -/
theorem Dependency.holds_iff {world : Description} (h : world.duplicate? = none)
    (d : Dependency) : d.holds world = true ↔ d.Condition world := by
  cases d with
  | unevolved method =>
      rw [holds, Bool.not_eq_true', Description.isEvolved_eq_false_iff h]
      exact Iff.rfl
  | leafType context => exact Description.isEmpty_subclasses_iff h
  | uniqueConcreteSubtype context subtype =>
      rw [holds, Bool.and_eq_true, Description.isAbstract_iff h, beq_iff_eq,
        Description.uniqueConcreteSubtype_eq_some_iff h]
      exact Iff.rfl
  | uniqueConcreteMethod context method =>
      rw [holds, beq_iff_eq, Description.uniqueConcreteMethod_eq_some_iff h]
      constructor
      · exact And.right
      · intro hall
        obtain ⟨m, hm, hid, -⟩ := (hall method).2 rfl
        exact ⟨⟨m, hm, hid⟩, hall⟩
  | noFinalizableSubclasses context =>
      rw [holds, Bool.not_eq_true', Description.hasFinalizableSubclass_eq_false_iff h]
      exact Iff.rfl
  | callSiteTarget callSite methodHandle =>
      rw [holds, beq_iff_eq, Description.callSiteTarget_eq_some_iff]
      exact Iff.rfl

end ManagedCode
