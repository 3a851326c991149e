import ManagedCode.Proofs.Assumptions

/-! # Devirtualized calls

    A unit may bind a call directly to the only method that its receivers are assumed to run.  A
    receiver runs the nearest declaration of the method's family along its parents, while the
    dependency looks at all described methods of the family whose holders are concrete.  The two
    agree where the nearest declaration has a concrete holder; a declaration that a concrete type
    inherits from an abstract one is not seen by the dependency.

* **`Description.Dispatches`** — the declaration that a receiver runs.
* **`dispatch_of_assumed_method`** — with the assumption registered, a receiver runs the assumed
  method exactly if that is of the family and the declaration's holder is concrete.
* **`dispatch_to_abstract_holder`** — a registered assumption with a receiver that runs another
  method. -/

namespace ManagedCode

open Relation (ReflTransGen TransGen)

namespace Description

/-- A receiver of the given type runs `m` when `method` is called on it: the nearest declaration
    of a method of the family along the parents of the type. -/
inductive Dispatches (d : Description) (method : MethodId) : TypeId → MethodInfo → Prop
  | declared {id : TypeId} {m : MethodInfo} (hm : m ∈ d.methods) (hholder : m.holder = id)
      (hfamily : d.SameFamily m.id method) : Dispatches d method id m
  | inherited {id parent : TypeId} {m : MethodInfo}
      (hnone : ∀ n ∈ d.methods, n.holder = id → ¬ d.SameFamily n.id method)
      (hparent : d.Inherits id parent) (h : Dispatches d method parent m) :
      Dispatches d method id m

/-- Neither parent nor override links lead back to where they start. -/
def Acyclic (d : Description) : Prop :=
  (∀ id, ¬ TransGen d.Inherits id id) ∧ ∀ id, ¬ TransGen d.Overrides id id

variable {d : Description} {method : MethodId}

/-- What a receiver runs is a method of the family, held at or above its type. -/
theorem Dispatches.spec {id : TypeId} {m : MethodInfo} (h : d.Dispatches method id m) :
    m ∈ d.methods ∧ d.SameFamily m.id method ∧ d.AtOrBelow id m.holder := by
  induction h with
  | declared hm hholder hfamily =>
      subst hholder
      exact ⟨hm, hfamily, .refl⟩
  | inherited hnone hparent h ih =>
      obtain ⟨hm, hfamily, habove⟩ := ih
      exact ⟨hm, hfamily, .head hparent habove⟩

/-- A receiver runs something if a method of the family is declared at or above its type. -/
theorem exists_dispatches {id : TypeId} {m : MethodInfo} (hm : m ∈ d.methods)
    (hfamily : d.SameFamily m.id method) (habove : d.AtOrBelow id m.holder) :
    ∃ n, d.Dispatches method id n := by
  induction habove using ReflTransGen.head_induction_on with
  | refl => exact ⟨m, .declared hm rfl hfamily⟩
  | @head id parent hparent _ ih =>
      by_cases hdeclared : ∃ n ∈ d.methods, n.holder = id ∧ d.SameFamily n.id method
      · obtain ⟨n, hn, hholder, hsame⟩ := hdeclared
        exact ⟨n, .declared hn hholder hsame⟩
      · obtain ⟨n, hn⟩ := ih
        refine ⟨n, .inherited ?_ hparent hn⟩
        intro n' hn' hholder hsame
        exact hdeclared ⟨n', hn', hholder, hsame⟩

/-- Types above a common one are related, since a type has one parent. -/
theorem AtOrBelow.related (h : d.duplicate? = none) {id a b : TypeId} (ha : d.AtOrBelow id a)
    (hb : d.AtOrBelow id b) : d.AtOrBelow a b ∨ d.AtOrBelow b a := by
  refine ReflTransGen.total_of_right_unique ?_ ha hb
  intro x y z hxy hxz
  rw [← parent?_eq_some_iff h] at hxy hxz
  exact Option.some.inj (hxy.symm.trans hxz)

theorem SameFamily.symm {m n : MethodId} (hmn : d.SameFamily m n) : d.SameFamily n m := by
  obtain ⟨root, hm, hn⟩ := hmn
  exact ⟨root, hn, hm⟩

theorem SameFamily.trans (h : d.duplicate? = none) {m n p : MethodId} (hmn : d.SameFamily m n)
    (hnp : d.SameFamily n p) : d.SameFamily m p := by
  obtain ⟨a, hma, hna⟩ := hmn
  obtain ⟨b, hnb, hpb⟩ := hnp
  have hunique : Relator.RightUnique d.Overrides := by
    intro x y z hxy hxz
    rw [← overridden?_eq_some_iff h] at hxy hxz
    exact Option.some.inj (hxy.symm.trans hxz)
  rcases ReflTransGen.total_of_right_unique hunique hna hnb with hab | hba
  · exact ⟨b, hma.trans hab, hpb⟩
  · exact ⟨a, hma, hpb.trans hba⟩

end Description

section

variable {settings : Settings} {u : CompiledUnit} {r r' : Runtime} {receipt : Receipt}
  {method target : MethodId} {context id : TypeId}

/-- **What a receiver runs under a registered assumption.** At or below the context, a receiver
    with a declaration of the family above it runs one; and what it runs is the assumed method
    exactly if that is of the family and the holder of what it runs is concrete. -/
theorem dispatch_of_assumed_method (hworld : r.world.duplicate? = none)
    (h : installMethod settings u r = .ok (.ok receipt, r'))
    (ha : .concreteMethod method context target ∈ u.assumptions)
    (hbelow : r.world.AtOrBelow id context) :
    (∀ n ∈ r.world.methods, r.world.SameFamily n.id method → r.world.AtOrBelow id n.holder →
      ∃ m, r.world.Dispatches method id m) ∧
    (∀ m, r.world.Dispatches method id m →
      (m.id = target ↔ r.world.SameFamily target method ∧ r.world.ConcreteType m.holder)) := by
  have honly : ∀ other, r.world.Implements context target other ↔ other = target :=
    condition_of_registered hworld h ha .concreteMethod
  refine ⟨fun n hn hfamily habove => Description.exists_dispatches hn hfamily habove, ?_⟩
  intro m hm
  obtain ⟨hmem, hfamily, habove⟩ := hm.spec
  constructor
  · rintro rfl
    refine ⟨hfamily, ?_⟩
    obtain ⟨m', hm', hid, -, -, hconcrete⟩ := (honly m.id).2 rfl
    have hsame : m' = m :=
      List.inj_on_of_nodup_map (Description.nodup_of_duplicate? hworld).2 hm' hmem hid
    rw [hsame] at hconcrete
    exact hconcrete
  · rintro ⟨htarget, hconcrete⟩
    have hrelated := habove.related hworld hbelow
    exact (honly m.id).1 ⟨m, hmem, rfl, hfamily.trans hworld htarget.symm, hrelated, hconcrete⟩

end

-- ── A circle and a square ───────────────────────────────────────────────────────

/-- The sample with a square, which inherits the area of an abstract shape. -/
def Description.sampleSquare : Description :=
  { Description.sample with
    types := Description.sample.types ++
      [{ id := ⟨0x500⟩, name := "Square", parent := some ⟨0x100⟩, mirror := ⟨0x9500⟩ }] }

/-- Every link of the sample leads to a smaller identity. -/
theorem Description.sampleSquare_acyclic : Description.sampleSquare.Acyclic := by
  have htypes : ∀ t ∈ sampleSquare.types, ∀ parent ∈ t.parent, parent.address < t.id.address := by
    decide
  have hmethods : ∀ m ∈ sampleSquare.methods, ∀ other ∈ m.overrides,
      other.address < m.id.address := by
    decide
  have hdescends : ∀ {ι : Type} {r : ι → ι → Prop} (key : ι → UInt64),
      (∀ x y, r x y → key y < key x) → ∀ x, ¬ TransGen r x x := by
    intro ι r key hr x hx
    have hlt : ∀ y, TransGen r x y → key y < key x := by
      intro y hy
      induction hy with
      | single hxy => exact hr _ _ hxy
      | tail _ hyz ih => exact UInt64.lt_trans (hr _ _ hyz) ih
    exact UInt64.lt_irrefl _ (hlt x hx)
  constructor
  · refine hdescends TypeId.address ?_
    rintro _ parent ⟨t, ht, rfl, hparent⟩
    exact htypes t ht parent hparent
  · refine hdescends MethodId.address ?_
    rintro _ other ⟨m, hm, rfl, hother⟩
    exact hmethods m hm other hother

/-- A unit whose calls of a shape's area are bound to the area of a circle. -/
def CompiledUnit.sampleDevirtualized : CompiledUnit :=
  .sampleAssuming [.concreteMethod ⟨0x1000⟩ ⟨0x100⟩ ⟨0x2000⟩]

/-- The area of a circle overrides that of a shape. -/
theorem Description.sample_sameFamily : Description.sample.SameFamily ⟨0x2000⟩ ⟨0x1000⟩ :=
  ⟨⟨0x1000⟩, .single ⟨_, List.mem_cons_of_mem _ List.mem_cons_self, rfl, rfl⟩, .refl⟩

/-- With the unit registered, a circle runs the area of a circle. -/
theorem dispatch_of_assumed_method_circle :
    Description.sample.duplicate? = none ∧
    (∃ receipt r', installMethod {} .sampleDevirtualized .sample = .ok (.ok receipt, r')) ∧
    Description.sample.AtOrBelow ⟨0x200⟩ ⟨0x100⟩ ∧
    ∃ m, Description.sample.Dispatches ⟨0x1000⟩ ⟨0x200⟩ m ∧ m.id = ⟨0x2000⟩ := by
  have hworld : Description.sample.duplicate? = none := by decide
  obtain ⟨receipt, r', hregistered⟩ :
      ∃ receipt r', installMethod {} .sampleDevirtualized .sample = .ok (.ok receipt, r') :=
    exists_receipt (by cbv)
  have hcircle : Description.sample.Inherits ⟨0x200⟩ ⟨0x100⟩ :=
    ⟨_, List.mem_cons_of_mem _ List.mem_cons_self, rfl, rfl⟩
  have hbelow : Description.sample.AtOrBelow ⟨0x200⟩ ⟨0x100⟩ := .single hcircle
  obtain ⟨-, hruns⟩ := dispatch_of_assumed_method hworld hregistered
    (List.mem_singleton.2 rfl) hbelow
  have harea : Description.sample.Dispatches ⟨0x1000⟩ ⟨0x200⟩ _ :=
    .declared (List.mem_cons_of_mem _ List.mem_cons_self) rfl Description.sample_sameFamily
  have hconcrete : Description.sample.ConcreteType ⟨0x200⟩ :=
    ⟨_, List.mem_cons_of_mem _ List.mem_cons_self, rfl, rfl⟩
  exact ⟨hworld, ⟨receipt, r', hregistered⟩, hbelow, _, harea,
    (hruns _ harea).2 ⟨Description.sample_sameFamily, hconcrete⟩⟩

/-- With a square described, the unit is registered all the same; but the square, a concrete type
    below the context, runs the area that it inherits from the abstract shape. -/
theorem dispatch_to_abstract_holder :
    Description.sampleSquare.duplicate? = none ∧ Description.sampleSquare.Acyclic ∧
    (∃ receipt r', installMethod {} .sampleDevirtualized
      { Runtime.sample with world := .sampleSquare } = .ok (.ok receipt, r')) ∧
    Description.sampleSquare.ConcreteType ⟨0x500⟩ ∧
    Description.sampleSquare.AtOrBelow ⟨0x500⟩ ⟨0x100⟩ ∧
    ∃ m, Description.sampleSquare.Dispatches ⟨0x1000⟩ ⟨0x500⟩ m ∧ m.id ≠ ⟨0x2000⟩ := by
  have hsquare : Description.sampleSquare.Inherits ⟨0x500⟩ ⟨0x100⟩ :=
    ⟨_, List.mem_append_right _ List.mem_cons_self, rfl, rfl⟩
  have hundeclared : ∀ n ∈ Description.sampleSquare.methods, n.holder ≠ ⟨0x500⟩ := by decide
  refine ⟨by decide, Description.sampleSquare_acyclic, exists_receipt (by cbv),
    ⟨_, List.mem_append_right _ List.mem_cons_self, rfl, rfl⟩, .single hsquare, _,
    .inherited ?_ hsquare (.declared List.mem_cons_self rfl ⟨_, .refl, .refl⟩), ?_⟩
  · intro n hn hholder
    exact absurd hholder (hundeclared n hn)
  · decide

end ManagedCode
