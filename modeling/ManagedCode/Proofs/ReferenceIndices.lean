import Mathlib.Data.List.Induction
import Mathlib.Data.List.Nodup
import ManagedCode.Debug.References

/-! # Indices of references

    A unit asks for the index of what it refers to, again and again and in any order, and writes
    the indices down.  They are its only names for metadata and handles, so they have to mean the
    same ever after.  They are handed out by a table in two halves, the values in order and the
    index of each value, and nothing but the way they are filled keeps the one half true to the
    other.

* **`IndexTable.InStep`** — the two halves are inverse to each other, kept by one more request
  (**`InStep.find`**).
* **`IndexTable.InStep.find_eq_search`** — then the second half answers as a search through the
  first would.
* **`IndexTable.Identifies`** — a table against the answers given from it, kept by one more request
  (**`Identifies.find`**).
* **`ReferenceRecorder.answerAll`** — requests for indices, one after the other, with both tables
  kept by all of them (**`answerAll_identifies`**).
* **`ReferenceRecorder.indices_are_identities`** — what indices say, then and later. -/

namespace ManagedCode

/-- What stands at a place of a list that has grown by one. -/
theorem getElem?_concat_eq_some_iff {β : Type} {values : List β} {last a : β} {i : Nat} :
    (values ++ [last])[i]? = some a ↔ values[i]? = some a ∨ i = values.length ∧ last = a := by
  rcases Nat.lt_trichotomy i values.length with hlt | rfl | hgt
  · rw [List.getElem?_append_left hlt]
    simp [Nat.ne_of_lt hlt]
  · simp
  · simp [List.getElem?_append_right (Nat.le_of_lt hgt), Nat.ne_of_gt hgt,
      Nat.ne_of_gt (Nat.sub_pos_of_lt hgt), List.getElem?_eq_none (Nat.le_of_lt hgt)]

namespace IndexTable

variable {α : Type} [DecidableEq α] {t : IndexTable α} {value : α}

-- ── The two halves of a table ───────────────────────────────────────────────────

/-- **The two halves are inverse to each other**: an index is kept for a value exactly if the value
    stands at that place, counted from 1. -/
def InStep (t : IndexTable α) : Prop :=
  ∀ value index, t.indices.lookup value = some index ↔
    1 ≤ index ∧ t.values[index - 1]? = some value

/-- A request is answered with the index that is kept, or the value is put behind the others and
    its index is kept from now on. -/
theorem find_cases (t : IndexTable α) (value : α) :
    (∃ index, t.indices.lookup value = some index ∧ t.find value = (index, t)) ∨
      t.indices.lookup value = none ∧
        t.find value = (t.values.length + 1,
          ⟨t.values ++ [value], (value, t.values.length + 1) :: t.indices⟩) := by
  rw [find]
  cases hlookup : t.indices.lookup value with
  | some index => exact Or.inl ⟨index, rfl, rfl⟩
  | none =>
      refine Or.inr ⟨rfl, ?_⟩
      simp only [List.length_append, List.length_singleton]

/-- The index that is answered is kept. -/
theorem lookup_find (t : IndexTable α) (value : α) :
    (t.find value).2.indices.lookup value = some (t.find value).1 := by
  rcases find_cases t value with ⟨index, hindex, hfind⟩ | ⟨-, hfind⟩
  · rw [hfind]
    exact hindex
  · rw [hfind]
    exact List.lookup_cons_self

/-- No value is taken away by a request. -/
theorem values_prefix_find (t : IndexTable α) (value : α) :
    t.values <+: (t.find value).2.values := by
  rcases find_cases t value with ⟨index, -, hfind⟩ | ⟨-, hfind⟩
  · simp only [hfind, List.prefix_rfl]
  · simp only [hfind, List.prefix_append]

namespace InStep

theorem empty : InStep ({} : IndexTable α) := by
  intro value index
  simp

theorem lookup_eq_none_iff (h : t.InStep) : t.indices.lookup value = none ↔ value ∉ t.values := by
  constructor
  · intro hnone hmem
    obtain ⟨i, hi⟩ := List.mem_iff_getElem?.mp hmem
    have hkept := (h value (i + 1)).mpr ⟨Nat.succ_pos i, hi⟩
    exact nomatch hnone.symm.trans hkept
  · intro hnew
    cases hlookup : t.indices.lookup value with
    | none => rfl
    | some index => exact absurd (List.mem_of_getElem? ((h value index).mp hlookup).2) hnew

/-- **One more request keeps the halves in step.** -/
theorem find (h : t.InStep) (value : α) : (t.find value).2.InStep := by
  rcases find_cases t value with ⟨index, -, hfind⟩ | ⟨hnone, hfind⟩
  · rw [hfind]
    exact h
  · rw [hfind]
    intro other index
    simp only [List.lookup_cons, getElem?_concat_eq_some_iff]
    by_cases hsame : other = value
    · -- the value is new, so its one place is the last
      subst hsame
      have hnowhere : ¬ (1 ≤ index ∧ t.values[index - 1]? = some other) := by
        rw [← h other index, hnone]
        exact nofun
      simp only [beq_self_eq_true, Option.some.injEq, and_true]
      constructor
      · rintro rfl
        exact ⟨Nat.succ_pos _, Or.inr rfl⟩
      · rintro ⟨hpos, hplace | hplace⟩
        · exact absurd ⟨hpos, hplace⟩ hnowhere
        · omega
    · have hdiffers : (other == value) = false := beq_eq_false_iff_ne.mpr hsame
      have hlast : ¬ (index - 1 = t.values.length ∧ value = other) := fun hl => hsame hl.2.symm
      simp only [hdiffers, h other index, hlast, or_false]

/-- **No value is listed twice**: both its places would have the index that is kept for it. -/
theorem nodup (h : t.InStep) : t.values.Nodup := by
  rw [List.nodup_iff_getElem?_ne_getElem?]
  intro i j hij hj heq
  have hvalue := List.getElem?_eq_getElem hj
  have hi := (h _ (i + 1)).mpr ⟨Nat.succ_pos i, heq.trans hvalue⟩
  have hj' := (h _ (j + 1)).mpr ⟨Nat.succ_pos j, hvalue⟩
  have hindex := Option.some.inj (hi.symm.trans hj')
  omega

end InStep

/-- The index of a value in a list, and the list with the value in it, by going through the list. -/
def search (values : List α) (value : α) : Nat × List α :=
  match values.idxOf? value with
  | some i => (i + 1, values)
  | none => (values.length + 1, values ++ [value])

/-- A value is found among those that are there, or it is put behind them. -/
theorem search_cases (values : List α) (value : α) :
    (∃ i, values[i]? = some value ∧ search values value = (i + 1, values)) ∨
      value ∉ values ∧ search values value = (values.length + 1, values ++ [value]) := by
  rw [search]
  cases hindex : values.idxOf? value with
  | some i =>
      obtain ⟨hi, hvalue, -⟩ := List.idxOf?_eq_some_iff.mp hindex
      exact Or.inl ⟨i, List.getElem?_eq_some_iff.mpr ⟨hi, hvalue⟩, rfl⟩
  | none => exact Or.inr ⟨List.idxOf?_eq_none_iff.mp hindex, rfl⟩

/-- **The index that is kept is the one a search would find**, and where none is kept, none would
    be found. -/
theorem InStep.find_eq_search (h : t.InStep) (value : α) :
    ((t.find value).1, (t.find value).2.values) = search t.values value := by
  rcases search_cases t.values value with ⟨i, hi, hsearch⟩ | ⟨hnew, hsearch⟩
  · have hkept := (h value (i + 1)).mpr ⟨Nat.succ_pos i, hi⟩
    rcases find_cases t value with ⟨index, hindex, hfind⟩ | ⟨hnone, -⟩
    · obtain rfl := Option.some.inj (hindex.symm.trans hkept)
      rw [hfind, hsearch]
    · exact nomatch hnone.symm.trans hkept
  · rcases find_cases t value with ⟨index, hindex, -⟩ | ⟨-, hfind⟩
    · exact nomatch hindex.symm.trans (h.lookup_eq_none_iff.mpr hnew)
    · rw [hfind, hsearch]

/-- A value that is not listed is put behind the others. -/
theorem InStep.values_find_of_new (h : t.InStep) (hnew : value ∉ t.values) :
    (t.find value).2.values = t.values ++ [value] := by
  rcases find_cases t value with ⟨index, hindex, -⟩ | ⟨-, hfind⟩
  · exact nomatch hindex.symm.trans (h.lookup_eq_none_iff.mpr hnew)
  · rw [hfind]

-- ── Answers from a table ────────────────────────────────────────────────────────

/-- **The indices given from a table are identities.** The halves of the table are in step, it has
    the values that were asked for, each once and in order of first use, and each index leads to its
    value. -/
structure Identifies (answers : List (α × Nat)) (t : IndexTable α) : Prop where
  inStep : t.InStep
  firstUse : t.values = (answers.map Prod.fst).eraseDups
  distinct : t.values.Nodup
  found : ∀ value index, (value, index) ∈ answers → 1 ≤ index ∧ t.values[index - 1]? = some value

namespace Identifies

variable {answers : List (α × Nat)}

theorem empty : Identifies ([] : List (α × Nat)) {} :=
  ⟨.empty, rfl, .nil, fun _ _ h => nomatch h⟩

/-- Two answers have the same index exactly if they are about the same value. -/
theorem index_eq_iff (h : Identifies answers t) {value value' : α} {index index' : Nat}
    (hmem : (value, index) ∈ answers) (hmem' : (value', index') ∈ answers) :
    index = index' ↔ value = value' := by
  have hplace := h.found value index hmem
  have hplace' := h.found value' index' hmem'
  constructor
  · rintro rfl
    exact Option.some.inj (hplace.2.symm.trans hplace'.2)
  · rintro rfl
    have hkept := (h.inStep value index).mpr hplace
    have hkept' := (h.inStep value index').mpr hplace'
    exact Option.some.inj (hkept.symm.trans hkept')

/-- An index belongs to its value alone, and leads to it from then on. -/
theorem leads {later : List (α × Nat)} {t' : IndexTable α} (h : Identifies answers t)
    (h' : Identifies later t') (hstays : ∀ a ∈ answers, a ∈ later) {value : α} {index : Nat}
    (hmem : (value, index) ∈ answers) :
    1 ≤ index ∧ t'.values[index - 1]? = some value ∧
      ∀ value' index', (value', index') ∈ answers → (index = index' ↔ value = value') := by
  obtain ⟨hpos, hfound⟩ := h'.found value index (hstays _ hmem)
  exact ⟨hpos, hfound, fun value' index' hmem' => h.index_eq_iff hmem hmem'⟩

/-- **One more request** is answered in keeping with the ones before. -/
theorem find (h : Identifies answers t) (value : α) :
    Identifies (answers ++ [(value, (t.find value).1)]) (t.find value).2 := by
  have hinStep := h.inStep.find value
  have hvalues : (t.find value).2.values = (search t.values value).2 :=
    congrArg Prod.snd (h.inStep.find_eq_search value)
  have hmem : value ∈ t.values ↔ value ∈ answers.map Prod.fst := by
    rw [h.firstUse, List.mem_eraseDups]
  have hasked : (answers.map Prod.fst ++ [value]).eraseDups =
      if value ∈ t.values then t.values else t.values ++ [value] := by
    rw [List.eraseDups_append, ← h.firstUse]
    by_cases hin : value ∈ t.values
    · simp [hin, List.removeAll, hmem.mp hin]
    · simp [hin, List.removeAll, mt hmem.mpr hin, List.eraseDups_cons]
  refine ⟨hinStep, ?_, hinStep.nodup, ?_⟩
  · rw [List.map_append, List.map_singleton, hasked, hvalues]
    rcases search_cases t.values value with ⟨i, hi, hsearch⟩ | ⟨hnew, hsearch⟩
    · rw [hsearch, if_pos (List.mem_of_getElem? hi)]
    · rw [hsearch, if_neg hnew]
  · intro v index hanswer
    rcases List.mem_append.mp hanswer with hbefore | hlast
    · obtain ⟨hpos, hplace⟩ := h.found v index hbefore
      refine ⟨hpos, ?_⟩
      obtain ⟨behind, hgrown⟩ := values_prefix_find t value
      rw [← hgrown, List.getElem?_append_left (List.getElem?_eq_some_iff.mp hplace).1]
      exact hplace
    · obtain ⟨rfl, rfl⟩ := Prod.mk.inj (List.mem_singleton.mp hlast)
      exact (hinStep v _).mp (lookup_find t v)

end Identifies

end IndexTable

namespace ReferenceRecorder

open IndexTable

-- ── Requests ────────────────────────────────────────────────────────────────────

/-- A request for the index of something a unit refers to. -/
inductive Request where
  | metadata (m : Metadata)
  | handle (h : Handle)
deriving DecidableEq, Repr

/-- Answers a request with an index. -/
def answer (r : ReferenceRecorder) : Request → Nat × ReferenceRecorder
  | .metadata m => r.addMetadata m
  | .handle h => r.addHandle h

/-- Answers requests in order: each with its index, and the references recorded then. -/
def answerAll (r : ReferenceRecorder) : List Request → List (Request × Nat) × ReferenceRecorder
  | [] => ([], r)
  | q :: rest =>
      let (index, r₁) := r.answer q
      let (answers, r') := r₁.answerAll rest
      ((q, index) :: answers, r')

theorem answerAll_append (r : ReferenceRecorder) (before after : List Request) :
    r.answerAll (before ++ after) =
      ((r.answerAll before).1 ++ ((r.answerAll before).2.answerAll after).1,
        ((r.answerAll before).2.answerAll after).2) := by
  induction before generalizing r with
  | nil => rfl
  | cons q rest ih =>
      simp only [List.cons_append, answerAll]
      rw [ih]

/-- Each request is answered, in its place. -/
theorem map_fst_answerAll (r : ReferenceRecorder) (requests : List Request) :
    (r.answerAll requests).1.map Prod.fst = requests := by
  induction requests generalizing r with
  | nil => rfl
  | cons q rest ih =>
      simp only [answerAll, List.map_cons]
      rw [ih]

/-- The metadata that a request is about. -/
def Request.metadata? : Request → Option Metadata
  | .metadata m => some m
  | .handle _ => none

/-- The handle that a request is about. -/
def Request.handle? : Request → Option Handle
  | .metadata _ => none
  | .handle h => some h

/-- The indices given to the values that requests of one kind are about. -/
def answersTo {α : Type} (about? : Request → Option α) (answers : List (Request × Nat)) :
    List (α × Nat) :=
  answers.filterMap fun a => (about? a.1).map fun value => (value, a.2)

theorem mem_answersTo {α : Type} {about? : Request → Option α} {answers : List (Request × Nat)}
    {q : Request} {value : α} {index : Nat} (hq : about? q = some value)
    (hmem : (q, index) ∈ answers) : (value, index) ∈ answersTo about? answers := by
  refine List.mem_filterMap.mpr ⟨(q, index), hmem, ?_⟩
  rw [hq, Option.map_some]

-- ── Both tables ─────────────────────────────────────────────────────────────────

/-- **Whatever is asked**, both tables stay in step, and the indices given from each are
    identities. -/
theorem answerAll_identifies (requests : List Request) :
    Identifies (answersTo Request.metadata? (answerAll {} requests).1)
        (answerAll {} requests).2.metadataTable ∧
      Identifies (answersTo Request.handle? (answerAll {} requests).1)
        (answerAll {} requests).2.handleTable := by
  induction requests using List.reverseRecOn with
  | nil => exact ⟨.empty, .empty⟩
  | append_singleton requests q ih =>
      obtain ⟨hmetadata, hhandles⟩ := ih
      rw [answerAll_append]
      simp only [answersTo, List.filterMap_append]
      cases q with
      | metadata m =>
          refine ⟨hmetadata.find m, ?_⟩
          show Identifies (_ ++ []) _
          rw [List.append_nil]
          exact hhandles
      | handle h =>
          refine ⟨?_, hhandles.find h⟩
          show Identifies (_ ++ []) _
          rw [List.append_nil]
          exact hmetadata

/-- **The indices of references are identities.** Whatever is asked, and whatever is asked later:
    each request is answered; the index that a table keeps for a value is that of its place, and the
    tables have what was asked for, each once and in order of first use; an index is at least 1,
    belongs to one value of its table, and leads to it from then on. A type and a method have
    different indices, be their addresses the same, and recording in one table leaves the other as
    it was. -/
theorem indices_are_identities (requests later : List Request) :
    (answerAll {} requests).1.map Prod.fst = requests ∧
    Identifies (answersTo Request.metadata? (answerAll {} requests).1)
      (answerAll {} requests).2.metadataTable ∧
    Identifies (answersTo Request.handle? (answerAll {} requests).1)
      (answerAll {} requests).2.handleTable ∧
    (∀ m index, (.metadata m, index) ∈ (answerAll {} requests).1 →
      1 ≤ index ∧ (answerAll {} (requests ++ later)).2.metadata[index - 1]? = some m ∧
      ∀ m' index', (.metadata m', index') ∈ (answerAll {} requests).1 →
        (index = index' ↔ m = m')) ∧
    (∀ h index, (.handle h, index) ∈ (answerAll {} requests).1 →
      1 ≤ index ∧ (answerAll {} (requests ++ later)).2.handles[index - 1]? = some h ∧
      ∀ h' index', (.handle h', index') ∈ (answerAll {} requests).1 →
        (index = index' ↔ h = h')) ∧
    (∀ (t : TypeId) (m : MethodId) (index index' : Nat),
      (.metadata (.type t), index) ∈ (answerAll {} requests).1 →
      (.metadata (.method m), index') ∈ (answerAll {} requests).1 → index ≠ index') ∧
    ∀ (r : ReferenceRecorder) (m : Metadata) (h : Handle),
      (r.addMetadata m).2.handleTable = r.handleTable ∧
      (r.addHandle h).2.metadataTable = r.metadataTable := by
  obtain ⟨hmetadata, hhandles⟩ := answerAll_identifies requests
  obtain ⟨hmetadata', hhandles'⟩ := answerAll_identifies (requests ++ later)
  have hstays : ∀ {α : Type} (about? : Request → Option α),
      ∀ a ∈ answersTo about? (answerAll {} requests).1,
        a ∈ answersTo about? (answerAll {} (requests ++ later)).1 := by
    intro α about? a ha
    rw [answersTo, answerAll_append, List.filterMap_append]
    exact List.mem_append_left _ ha
  have hofMetadata : ∀ {m index}, (.metadata m, index) ∈ (answerAll {} requests).1 →
      (m, index) ∈ answersTo Request.metadata? (answerAll {} requests).1 :=
    fun ha => mem_answersTo rfl ha
  have hofHandle : ∀ {h index}, (.handle h, index) ∈ (answerAll {} requests).1 →
      (h, index) ∈ answersTo Request.handle? (answerAll {} requests).1 :=
    fun ha => mem_answersTo rfl ha
  refine ⟨map_fst_answerAll _ _, hmetadata, hhandles, ?_, ?_, ?_, fun r m h => ⟨rfl, rfl⟩⟩
  · intro m index ha
    obtain ⟨hpos, hfound, hsame⟩ := hmetadata.leads hmetadata' (hstays _) (hofMetadata ha)
    exact ⟨hpos, hfound, fun m' index' ha' => hsame m' index' (hofMetadata ha')⟩
  · intro h index ha
    obtain ⟨hpos, hfound, hsame⟩ := hhandles.leads hhandles' (hstays _) (hofHandle ha)
    exact ⟨hpos, hfound, fun h' index' ha' => hsame h' index' (hofHandle ha')⟩
  · intro t m index index' ha ha' hindex
    have hsame := (hmetadata.index_eq_iff (hofMetadata ha) (hofMetadata ha')).mp hindex
    exact nomatch hsame

-- ── A type and a method of one address ──────────────────────────────────────────

/-- A type and a method of one address, the type once more, and a handle of the same address. -/
def Request.sampleShared : List Request :=
  [.metadata (.type ⟨0x100⟩), .metadata (.method ⟨0x100⟩), .handle ⟨0x100⟩,
    .metadata (.type ⟨0x100⟩)]

/-- The index of the method still leads to it when a second method was recorded. -/
theorem indices_are_identities_shared :
    (.metadata (.method ⟨0x100⟩), 2) ∈ (answerAll {} Request.sampleShared).1 ∧
    (answerAll {} (Request.sampleShared ++ [.metadata (.method ⟨0x200⟩)])).2.metadata[1]? =
      some (.method ⟨0x100⟩) ∧
    (∀ index, (.metadata (.type ⟨0x100⟩), index) ∈ (answerAll {} Request.sampleShared).1 →
      index ≠ 2) ∧
    (.handle ⟨0x100⟩, 1) ∈ (answerAll {} Request.sampleShared).1 ∧
    (answerAll {} (Request.sampleShared ++ [.metadata (.method ⟨0x200⟩)])).2.handles[0]? =
      some ⟨0x100⟩ := by
  have hmethod : (.metadata (.method ⟨0x100⟩), 2) ∈ (answerAll {} Request.sampleShared).1 := by
    decide
  have hhandle : (.handle ⟨0x100⟩, 1) ∈ (answerAll {} Request.sampleShared).1 := by decide
  obtain ⟨-, -, -, hmetadata, hhandles, hapart, -⟩ :=
    indices_are_identities Request.sampleShared [.metadata (.method ⟨0x200⟩)]
  exact ⟨hmethod, (hmetadata _ _ hmethod).2.1, fun index ha => hapart _ _ _ _ ha hmethod, hhandle,
    (hhandles _ _ hhandle).2.1⟩

end ReferenceRecorder

end ManagedCode
