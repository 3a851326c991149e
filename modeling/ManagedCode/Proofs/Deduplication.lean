import Mathlib.Data.List.Induction
import ManagedCode.Proofs.Answers
import ManagedCode.Proofs.Steps

/-! # Dependencies recorded once

    The assumptions of a unit expand to dependencies, one or two each, and a dependency that is
    recorded already is not recorded again.  What is recorded is thus the plain list of the
    expansions without its repetitions, and checking it finds the same dependency broken first:
    whatever was left out stands further in front as well.

* **`Assumption.dependencies`**, **`Assumption.Allowed`** — what an assumption expands to, and when
  it does not go through.
* **`Dependency.foldl_add`**, **`Dependency.find?_foldl_add`** — adding a list to what is recorded,
  and searching it.
* **`Hierarchy.record_eq_ok_iff`** — the recorded list is the plain list, each element once.
* **`recorded_like_plain_list`** — recording, checking and recording on. -/

namespace ManagedCode

-- ── What an assumption expands to ───────────────────────────────────────────────

/-- The dependencies an assumption stands for, in order. -/
def Assumption.dependencies : Assumption → List Dependency
  | .methodContents method => [.unevolved method]
  | .concreteSubtype context subtype =>
      if context = subtype then [.leafType subtype]
      else [.leafType subtype, .uniqueConcreteSubtype context subtype]
  | .concreteMethod _ context target => [.uniqueConcreteMethod context target]
  | .leafType context => [.leafType context]
  | .noFinalizableSubclass receiver => [.noFinalizableSubclasses receiver]
  | .callSiteTarget callSite methodHandle => [.callSiteTarget callSite methodHandle]

/-- A type with a single concrete subtype other than itself has to be abstract. -/
def Assumption.Allowed (h : Hierarchy) : Assumption → Prop
  | .concreteSubtype context subtype => context = subtype ∨ h.isAbstract context = true
  | _ => True

/-- The dependencies that a list of assumptions expands to, one after the other. -/
def Assumption.plainList (assumptions : List Assumption) : List Dependency :=
  assumptions.flatMap dependencies

theorem Hierarchy.expand_eq_ok_iff {h : Hierarchy} {a : Assumption} {ds : List Dependency} :
    h.expand a = .ok ds ↔ a.Allowed h ∧ ds = a.dependencies := by
  cases a with
  | concreteSubtype context subtype =>
      rw [expand, Assumption.Allowed, Assumption.dependencies]
      by_cases hsame : context = subtype
      · rw [if_pos hsame, if_pos hsame, Except.ok.injEq, eq_comm]
        exact (and_iff_right (Or.inl hsame)).symm
      · rw [if_neg hsame, if_neg hsame, or_iff_right hsame, require]
        by_cases habstract : h.isAbstract context = true
        · rw [if_pos habstract, and_iff_right habstract]
          constructor
          · intro hok
            exact (Checked.pure_ok hok).symm
          · rintro rfl
            rfl
        · rw [if_neg habstract]
          refine ⟨fun hok => ?_, fun hallowed => absurd hallowed.1 habstract⟩
          obtain ⟨_, hrefused, -⟩ := Checked.bind_ok hok
          cases hrefused
  | methodContents | concreteMethod | leafType | noFinalizableSubclass | callSiteTarget =>
      rw [expand, Assumption.dependencies, Except.ok.injEq, eq_comm]
      exact (and_iff_right trivial).symm

-- ── Lists without repetitions ───────────────────────────────────────────────────

section Lists

variable {α : Type} [DecidableEq α]

/-- Leaving out elements by a test and leaving out repetitions can be done in either order. -/
theorem eraseDups_filter (p : α → Bool) (l : List α) :
    (l.filter p).eraseDups = l.eraseDups.filter p := by
  induction l using List.reverseRecOn with
  | nil => rfl
  | append_singleton l a ih =>
      rw [List.filter_append, List.eraseDups_append, List.eraseDups_append, List.filter_append, ih]
      congr 1
      by_cases ha : p a = true
      · by_cases hmem : a ∈ l
        · simp [ha, hmem, List.removeAll]
        · simp [ha, hmem, List.removeAll, List.eraseDups_cons]
      · simp [ha, List.removeAll, List.filter_cons]

end Lists

namespace Dependency

variable {ds recorded : List Dependency}

/-- **Adding a list to what is recorded** puts behind it what is not in it, each once. -/
theorem foldl_add :
    ds.foldl add recorded = recorded ++ ds.eraseDups.filter fun d => d ∉ recorded := by
  induction ds generalizing recorded with
  | nil => exact (List.append_nil _).symm
  | cons first rest ih =>
      rw [List.foldl_cons, ih, List.eraseDups_cons, List.filter_cons, ← eraseDups_filter,
        ← eraseDups_filter, List.filter_filter, add]
      by_cases hfirst : first ∈ recorded
      · rw [if_pos hfirst, if_neg (by simpa using hfirst)]
        congr 2
        refine List.filter_congr fun d _ => ?_
        by_cases hd : d = first
        · simp [hd, hfirst]
        · simp [hd]
      · rw [if_neg hfirst, if_pos (by simpa using hfirst), List.append_assoc,
          List.singleton_append]
        congr 3
        refine List.filter_congr fun d _ => ?_
        by_cases hd : d = first
        · simp [hd]
        · simp [hd]

/-- Adding a list to nothing leaves out its repetitions. -/
theorem foldl_add_nil : ds.foldl add [] = ds.eraseDups := by
  rw [foldl_add, List.nil_append]
  simp

/-- **A search in what is recorded** finds what a search in the plain list finds. -/
theorem find?_foldl_add (p : Dependency → Bool) :
    (ds.foldl add recorded).find? p = (recorded ++ ds).find? p := by
  induction ds generalizing recorded with
  | nil => rw [List.foldl_nil, List.append_nil]
  | cons first rest ih =>
      rw [List.foldl_cons, ih, add]
      by_cases hfirst : first ∈ recorded
      · rw [if_pos hfirst, List.find?_append, List.find?_append, List.find?_cons]
        cases hfound : recorded.find? p with
        | some d => rfl
        | none =>
            -- nothing recorded is found, so the repetition is not found either
            rw [Bool.eq_false_iff.2 (List.find?_eq_none.1 hfound first hfirst)]
      · rw [if_neg hfirst, List.append_assoc, List.singleton_append]

end Dependency

-- ── Recording and checking ──────────────────────────────────────────────────────

namespace Hierarchy

variable {h : Hierarchy} {assumptions : List Assumption} {recorded : List Dependency}

/-- The expansions go through if every assumption is allowed. -/
theorem mapM_expand_eq_ok_iff {parts : List (List Dependency)} :
    assumptions.mapM h.expand = .ok parts ↔
      (∀ a ∈ assumptions, a.Allowed h) ∧ parts = assumptions.map Assumption.dependencies := by
  induction assumptions generalizing parts with
  | nil =>
      rw [List.mapM_nil, List.map_nil]
      constructor
      · intro hok
        exact ⟨nofun, (Checked.pure_ok hok).symm⟩
      · rintro ⟨-, rfl⟩
        rfl
  | cons a rest ih =>
      rw [List.mapM_cons, List.map_cons, List.forall_mem_cons]
      constructor
      · intro hok
        obtain ⟨ds, hds, hok⟩ := Checked.bind_ok hok
        obtain ⟨parts, hparts, hok⟩ := Checked.bind_ok hok
        obtain rfl := Checked.pure_ok hok
        obtain ⟨hallowed, rfl⟩ := expand_eq_ok_iff.1 hds
        obtain ⟨hrest, rfl⟩ := ih.1 hparts
        exact ⟨⟨hallowed, hrest⟩, rfl⟩
      · rintro ⟨⟨hallowed, hrest⟩, rfl⟩
        rw [expand_eq_ok_iff.2 ⟨hallowed, rfl⟩, ih.2 ⟨hrest, rfl⟩]
        rfl

/-- Recording one assumption after the other adds all their expansions, if these go through. -/
theorem foldlM_recordOne :
    assumptions.foldlM h.recordOne recorded = (assumptions.mapM h.expand).map fun parts =>
      parts.flatten.foldl Dependency.add recorded := by
  induction assumptions generalizing recorded with
  | nil => rfl
  | cons a rest ih =>
      rw [List.foldlM_cons, List.mapM_cons, recordOne]
      cases h.expand a with
      | error fault => rfl
      | ok ds =>
          show rest.foldlM h.recordOne (ds.foldl Dependency.add recorded) = _
          rw [ih]
          cases rest.mapM h.expand with
          | error fault => rfl
          | ok parts => exact congrArg Except.ok (List.foldl_append (l := ds)).symm

/-- **The recorded list is the plain list, each element once.** -/
theorem record_eq : h.record assumptions =
    (assumptions.mapM h.expand).map fun parts => parts.flatten.eraseDups := by
  rw [record, foldlM_recordOne]
  congr 1
  funext parts
  exact Dependency.foldl_add_nil

theorem record_eq_ok_iff : h.record assumptions = .ok recorded ↔
    (∀ a ∈ assumptions, a.Allowed h) ∧
      recorded = (Assumption.plainList assumptions).eraseDups := by
  rw [record_eq, Assumption.plainList, List.flatMap_def]
  constructor
  · intro hok
    obtain ⟨parts, hparts, rfl⟩ := map_eq_ok hok
    obtain ⟨hallowed, rfl⟩ := mapM_expand_eq_ok_iff.1 hparts
    exact ⟨hallowed, rfl⟩
  · rintro ⟨hallowed, rfl⟩
    rw [mapM_expand_eq_ok_iff.2 ⟨hallowed, rfl⟩]
    rfl

/-- **Checking what is recorded is checking the plain list.** -/
theorem firstBroken?_of_record (hrecorded : h.record assumptions = .ok recorded) :
    h.firstBroken? recorded = h.firstBroken? (Assumption.plainList assumptions) := by
  obtain ⟨-, rfl⟩ := record_eq_ok_iff.1 hrecorded
  rw [← Dependency.foldl_add_nil, firstBroken?, Dependency.find?_foldl_add, List.nil_append,
    firstBroken?]

/-- Recording goes on behind what is recorded: what is new is put there. -/
theorem record_append (first more : List Assumption) :
    h.record (first ++ more) = (do
      let recorded ← h.record first
      let added ← h.record more
      return recorded ++ added.filter fun d => d ∉ recorded) := by
  rw [record, List.foldlM_append]
  show h.record first >>= _ = h.record first >>= _
  congr 1
  funext recorded
  rw [foldlM_recordOne, record_eq]
  cases more.mapM h.expand with
  | error fault => rfl
  | ok parts => exact congrArg Except.ok Dependency.foldl_add

end Hierarchy

/-- **Recording each dependency once changes no answer.** By whichever answers, assumptions are
    recorded unless one of them is not allowed, and then as the plain list of their expansions with
    each element at its first occurrence only. Nothing recorded is broken if and only if every
    element of the plain list holds, and what is found broken is the first element of the plain
    list that does not hold. Two lists of assumptions in a row are recorded as the first, with what
    is recorded for the second and new behind it. A described runtime records and checks by its
    answers. -/
theorem recorded_like_plain_list (h : Hierarchy) :
    (∀ assumptions recorded, h.record assumptions = .ok recorded ↔
      (∀ a ∈ assumptions, a.Allowed h) ∧
        recorded = (Assumption.plainList assumptions).eraseDups) ∧
    (∀ assumptions recorded, h.record assumptions = .ok recorded →
      (h.firstBroken? recorded = none ↔
        ∀ d ∈ Assumption.plainList assumptions, h.holds d = true) ∧
      ∀ d, h.firstBroken? recorded = some d ↔ h.holds d = false ∧ ∃ before behind,
        Assumption.plainList assumptions = before ++ d :: behind ∧
          ∀ c ∈ before, h.holds c = true) ∧
    (∀ first more, h.record (first ++ more) = do
      let recorded ← h.record first
      let added ← h.record more
      return recorded ++ added.filter fun d => d ∉ recorded) ∧
    ∀ world : Description, Dependency.ofAssumptions world = world.hierarchy.record ∧
      Dependency.firstBroken? world = world.hierarchy.firstBroken? := by
  refine ⟨fun _ _ => Hierarchy.record_eq_ok_iff, ?_, Hierarchy.record_append, fun world =>
    ⟨Dependency.ofAssumptions_eq world, Dependency.firstBroken?_eq world⟩⟩
  intro assumptions recorded hrecorded
  rw [Hierarchy.firstBroken?_of_record hrecorded]
  constructor
  · simp [Hierarchy.firstBroken?]
  · intro d
    rw [Hierarchy.firstBroken?, List.find?_eq_some_iff_append]
    simp

-- ── Assumptions that repeat each other ──────────────────────────────────────────

/-- A circle is the only concrete shape, and so a leaf; and shapes are no leaf. -/
def Assumption.repeatSamples : List Assumption :=
  [.concreteSubtype ⟨0x100⟩ ⟨0x200⟩, .leafType ⟨0x200⟩, .leafType ⟨0x100⟩,
    .concreteSubtype ⟨0x100⟩ ⟨0x200⟩]

/-- Of the six dependencies three are recorded, and the last of these is the first to be broken. -/
theorem recorded_like_plain_list_sample :
    ∃ recorded, Description.sample.hierarchy.record Assumption.repeatSamples = .ok recorded ∧
      recorded = [.leafType ⟨0x200⟩, .uniqueConcreteSubtype ⟨0x100⟩ ⟨0x200⟩, .leafType ⟨0x100⟩] ∧
      (Assumption.plainList Assumption.repeatSamples).length = 6 ∧
      Description.sample.hierarchy.firstBroken? recorded = some (.leafType ⟨0x100⟩) := by
  obtain ⟨hrecord, hchecked, -, -⟩ := recorded_like_plain_list Description.sample.hierarchy
  have hallowed : ∀ a ∈ Assumption.repeatSamples, a.Allowed Description.sample.hierarchy := by
    have habstract : Description.sample.hierarchy.isAbstract ⟨0x100⟩ = true := by decide
    simp [Assumption.repeatSamples, Assumption.Allowed, habstract]
  have hrecorded := (hrecord _ _).2 ⟨hallowed, rfl⟩
  refine ⟨_, hrecorded, by cbv, rfl, ?_⟩
  refine ((hchecked _ _ hrecorded).2 _).2 ⟨by cbv, [.leafType ⟨0x200⟩,
    .uniqueConcreteSubtype ⟨0x100⟩ ⟨0x200⟩, .leafType ⟨0x200⟩], _, rfl, ?_⟩
  simp only [List.forall_mem_cons]
  exact ⟨by cbv, by cbv, by cbv, List.forall_mem_nil _⟩

end ManagedCode
