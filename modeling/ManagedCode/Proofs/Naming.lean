import ManagedCode.Proofs.Handles
import ManagedCode.Proofs.Lowering
import ManagedCode.Proofs.ReferenceIndices

/-! # What lowered values refer to

    Lowering makes a handle for every heap object that a value names and for the mirror of every
    object it puts into the pool, and records each of them.  A handle in a scope or in the pool is
    thus one of the unit's own, and refers to what the producer named in its place.

* **`ScopeValue.Names`**, **`Scope.Names`**, **`PoolObject.Names`**, **`Safepoint.Names`** — every
  handle refers to what is named in its place.
* **`ReferenceRecorder.Tracks`** — the handles made so far are the recorded ones.
* **`Lowering.Grows`** — what any part of the lowering does to the tables.
* **`lowerObject_grows`** — the recursion through the objects.
* **`Lowering.naming`** — the account of it, for the frames of a chain.
* **`Site.lowered_gains`** — what the lowering of a site does, and what its scopes refer to. -/

namespace ManagedCode

-- ── Names in the place of handles ───────────────────────────────────────────────

/-- The heap object that a constant names. -/
def Constant.named? (c : Constant) : Option ObjectAddress :=
  match c.kind, c.object with
  | .object, some (.heap object) => some object
  | _, _ => none

/-- The heap object that a value names. A lock names its owner. -/
def Value.named? : Value → Option ObjectAddress
  | constant c => c.named?
  | stackLock owner _ _ => owner.named?
  | _ => none

section Names

variable (refers : Handle → ObjectAddress → Prop)

/-- A reference through a handle is to the object that the value names. -/
def ScopeValue.Names (v : Value) (s : ScopeValue) : Prop :=
  ∀ h, s = .reference (some h) → ∃ object, v.named? = some object ∧ refers h object

/-- Every value of a scope refers to what the frame names in its place. -/
def Scope.Names (frame : Frame) (s : Scope) : Prop :=
  List.Forall₂ (ScopeValue.Names refers) frame.values s.slots

/-- An object of the pool has the mirror of its described type, and fields that refer to what its
    values name, in order. -/
def PoolObject.Names (world : Description) (objects : List VirtualObject) (p : PoolObject) :
    Prop :=
  ∃ object, objects.find? (fun o => o.id == p.id) = some object ∧
    (∃ mirror h, world.mirror object.type = .ok mirror ∧ p.mirror = .reference (some h) ∧
      refers h mirror) ∧
    ∃ parts, p.fields = parts.flatten ∧
      List.Forall₂ (fun v part => ∀ s ∈ part, ScopeValue.Names refers v s) object.values parts

/-- The scopes and objects of a safepoint refer to what its suspension point names. -/
def Safepoint.Names (world : Description) (info : DebugInfo) (s : Safepoint) : Prop :=
  List.Forall₂ (Scope.Names refers) info.chain s.scopes ∧
    ∀ p ∈ s.objects.objects, p.Names refers world info.virtualObjects

end Names

section Mono

variable {refers refers' : Handle → ObjectAddress → Prop}
  (hmono : ∀ h object, refers h object → refers' h object)
include hmono

theorem ScopeValue.Names.mono {v : Value} {s : ScopeValue} (h : s.Names refers v) :
    s.Names refers' v := by
  intro handle hs
  obtain ⟨object, hnamed, hrefers⟩ := h handle hs
  exact ⟨object, hnamed, hmono handle object hrefers⟩

theorem Scope.Names.mono {frame : Frame} {s : Scope} (h : s.Names refers frame) :
    s.Names refers' frame :=
  List.Forall₂.imp (fun _ _ => ScopeValue.Names.mono hmono) h

theorem PoolObject.Names.mono {world : Description} {objects : List VirtualObject}
    {p : PoolObject} (h : p.Names refers world objects) : p.Names refers' world objects := by
  obtain ⟨object, hobject, ⟨mirror, handle, hmirror, hp, hrefers⟩, parts, hfields, hparts⟩ := h
  refine ⟨object, hobject, ⟨mirror, handle, hmirror, hp, hmono handle mirror hrefers⟩, parts,
    hfields, hparts.imp fun _ _ hpart s hs => (hpart s hs).mono hmono⟩

theorem Safepoint.Names.mono {world : Description} {info : DebugInfo} {s : Safepoint}
    (h : s.Names refers world info) : s.Names refers' world info :=
  ⟨h.1.imp fun _ _ => Scope.Names.mono hmono, fun p hp => (h.2 p hp).mono hmono⟩

end Mono

-- ── The tables while values are lowered ─────────────────────────────────────────

/-- The handle is among the recorded ones and refers to the object. -/
def References.Own (references : References) (handles : HandleTable) (h : Handle)
    (object : ObjectAddress) : Prop :=
  h ∈ references.handles ∧ handles.resolve? h = some object

/-- The handle is among those of the lowering and refers to the object. -/
def Lowering.Owns (t : Lowering) : Handle → ObjectAddress → Prop :=
  t.references.recorded.Own t.handles

/-- The recorded handles are those that a table has gained, and their indices are in step. -/
structure ReferenceRecorder.Tracks (r : ReferenceRecorder) (base handles : HandleTable) : Prop where
  gains : base.Gains r.handles handles
  inStep : r.handleTable.InStep

namespace ReferenceRecorder.Tracks

variable {base handles handles' : HandleTable} {r : ReferenceRecorder} {handle : Handle}
  {object : ObjectAddress}

/-- Nothing is recorded, and nothing is made. -/
theorem start (hsound : base.Sound) : ({} : ReferenceRecorder).Tracks base base :=
  ⟨.refl hsound, .empty⟩

/-- A handle made now was not recorded before, so it is recorded behind the others. -/
theorem handles_addHandle (h : r.Tracks base handles)
    (hmake : handles.make object = .ok (handle, handles')) :
    (r.addHandle handle).2.handles = r.handles ++ [handle] := by
  obtain ⟨hmade, -⟩ := HandleTable.make_gains h.gains.sound hmake
  have hnew : handle ∉ r.handles := fun hmem =>
    h.gains.held handle hmem (hmade.fresh handle (List.mem_singleton.mpr rfl))
  exact h.inStep.values_find_of_new hnew

/-- **A made handle is recorded.** -/
theorem addHandle (h : r.Tracks base handles)
    (hmake : handles.make object = .ok (handle, handles')) :
    (r.addHandle handle).2.Tracks base handles' := by
  obtain ⟨hmade, -⟩ := HandleTable.make_gains h.gains.sound hmake
  refine ⟨?_, h.inStep.find handle⟩
  rw [h.handles_addHandle hmake]
  exact h.gains.trans hmade

end ReferenceRecorder.Tracks

/-- **A made handle is recorded**, and everything recorded before stays what it was. -/
theorem makeHandle_gains {base : HandleTable} {object : ObjectAddress} {handle : Handle}
    {t t' : Lowering} (ht : t.references.Tracks base t.handles)
    (h : (makeHandle object).run t = .ok (handle, t')) :
    t'.references.Tracks base t'.handles ∧
      (∀ h object, t.Owns h object → t'.Owns h object) ∧ t'.Owns handle object ∧
      t'.pool = t.pool := by
  obtain ⟨handles, hmake, rfl⟩ := makeHandle_ok h
  obtain ⟨hmade, hobject⟩ := HandleTable.make_gains ht.gains.sound hmake
  have hrecorded := ht.handles_addHandle hmake
  refine ⟨ht.addHandle hmake, fun h object howns => ⟨?_, hmade.keeps howns.2⟩, ⟨?_, hobject⟩, rfl⟩
  · show h ∈ (t.references.addHandle handle).2.handles
    rw [hrecorded]
    exact List.mem_append_left _ howns.1
  · show handle ∈ (t.references.addHandle handle).2.handles
    rw [hrecorded]
    exact List.mem_append_right _ (List.mem_singleton.mpr rfl)

/-- Recording metadata leaves the handles alone. -/
theorem Lowering.gains_of_handles {base : HandleTable} {t : Lowering}
    {references : ReferenceRecorder} (ht : t.references.Tracks base t.handles)
    (hhandles : references.handleTable = t.references.handleTable) :
    references.Tracks base t.handles ∧
      ∀ h object, t.Owns h object → Owns { t with references } h object := by
  have hlist : references.handles = t.references.handles := congrArg IndexTable.values hhandles
  refine ⟨⟨?_, ?_⟩, fun h object howns => ⟨?_, howns.2⟩⟩
  · rw [hlist]
    exact ht.gains
  · rw [hhandles]
    exact ht.inStep
  · show h ∈ references.handles
    rw [hlist]
    exact howns.1

/-- All handles made since `base` are recorded, and the objects of the pool are as described. -/
structure Lowering.Valid (ctx : ValueContext) (base : HandleTable) (t : Lowering) : Prop where
  tracks : t.references.Tracks base t.handles
  pool : ∀ p ∈ t.pool.objects, p.Names t.Owns ctx.world ctx.virtualObjects

/-- What lowering does: it ends valid, keeps what is recorded, and objects keep their places. -/
structure Lowering.Grows (ctx : ValueContext) (base : HandleTable) (t t' : Lowering) : Prop where
  valid : t'.Valid ctx base
  owns : ∀ h object, t.Owns h object → t'.Owns h object
  places : ∀ (i : Nat) p, t.pool.objects[i]? = some p →
    ∃ p', t'.pool.objects[i]? = some p' ∧ p'.id = p.id

section Lowering

variable {ctx : ValueContext} {base : HandleTable} {t t' t₁ : Lowering}

namespace Lowering

theorem Grows.refl (ht : t.Valid ctx base) : t.Grows ctx base t :=
  ⟨ht, fun _ _ h => h, fun _ p hp => ⟨p, hp, rfl⟩⟩

theorem Grows.trans (hfirst : t.Grows ctx base t₁) (hthen : t₁.Grows ctx base t') :
    t.Grows ctx base t' := by
  refine ⟨hthen.valid, fun h object howns => hthen.owns _ _ (hfirst.owns _ _ howns), ?_⟩
  intro i p hp
  obtain ⟨p₁, hp₁, hid₁⟩ := hfirst.places i p hp
  obtain ⟨p', hp', hid'⟩ := hthen.places i p₁ hp₁
  exact ⟨p', hp', hid'.trans hid₁⟩

/-- The records change, the pool does not. -/
theorem Valid.grows_of_pool (ht : t.Valid ctx base)
    (htracks : t'.references.Tracks base t'.handles)
    (howns : ∀ h object, t.Owns h object → t'.Owns h object) (hpool : t'.pool = t.pool) :
    t.Grows ctx base t' := by
  refine ⟨⟨htracks, ?_⟩, howns, ?_⟩
  · rw [hpool]
    exact fun p hp => (ht.pool p hp).mono howns
  · rw [hpool]
    exact fun _ p hp => ⟨p, hp, rfl⟩

theorem Valid.grows_of_handles {references : ReferenceRecorder} (ht : t.Valid ctx base)
    (hhandles : references.handleTable = t.references.handleTable) :
    t.Grows ctx base { t with references } := by
  obtain ⟨htracks, howns⟩ := gains_of_handles ht.tracks hhandles
  exact ht.grows_of_pool htracks howns rfl

end Lowering

theorem makeHandle_grows {object : ObjectAddress} {handle : Handle} (ht : t.Valid ctx base)
    (h : (makeHandle object).run t = .ok (handle, t')) :
    t.Grows ctx base t' ∧ t'.Owns handle object ∧ t'.pool = t.pool := by
  obtain ⟨htracks, howns, hhandle, hpool⟩ := makeHandle_gains ht.tracks h
  exact ⟨ht.grows_of_pool htracks howns hpool, hhandle, hpool⟩

-- ── Values ──────────────────────────────────────────────────────────────────────

/-- A lowered value is a reference only if it takes one slot, and then to what the value names. -/
structure Lowered.Names (refers : Handle → ObjectAddress → Prop) (v : Value) (l : Lowered) :
    Prop where
  primary : ∀ h, l.primary = .reference (some h) →
    l.second = none ∧ ∃ object, v.named? = some object ∧ refers h object
  second : ∀ h, l.second ≠ some (.reference (some h))

namespace Lowered.Names

variable {refers : Handle → ObjectAddress → Prop} {v : Value} {l : Lowered}

theorem slots (hl : l.Names refers v) : ∀ s ∈ l.slots, s.Names refers v := by
  intro s hs h hreference
  subst hreference
  unfold Lowered.slots at hs
  split at hs
  · next second hsecond =>
      rcases List.mem_cons.mp hs with rfl | hs
      · exact absurd hsecond (hl.second h)
      · exact (hl.primary h (List.mem_singleton.mp hs).symm).2
  · exact (hl.primary h (List.mem_singleton.mp hs).symm).2

theorem single {s : ScopeValue} (hs : s.Names refers v) : (Lowered.single s).Names refers v :=
  ⟨fun h hreference => ⟨rfl, hs h hreference⟩, nofun⟩

theorem of_plain (hplain : l.IsPlain) : l.Names refers v := by
  constructor
  · intro h hreference
    have hprimary := hplain.primary
    rw [hreference] at hprimary
    exact hprimary.elim
  · intro h hreference
    exact (hplain.second _ hreference).elim

/-- In every place that a slot stands in, it refers to what is named there. -/
theorem fills (hl : l.Names refers v) :
    List.Forall₂ (ScopeValue.Names refers) (l.places v) l.slots := by
  refine Lowered.forall₂_places (fun _ h hreference => (hl.primary h hreference).2) ?_
  -- a value of two slots has no reference in either
  intro second hsecond
  constructor
  · intro h hreference
    rw [hreference] at hsecond
    exact (hl.second h hsecond).elim
  · intro h hreference
    exact nomatch hsecond.symm.trans (hl.primary h hreference).1

end Lowered.Names

/-- Lowering a value does what finding or making its object does, or makes one handle. -/
theorem lowerWith_grows {object : Int → Lower Nat} {v : Value} {l : Lowered}
    (hobject : ∀ id position t t', t.Valid ctx base → (object id).run t = .ok (position, t') →
      t.Grows ctx base t')
    (ht : t.Valid ctx base) (h : (lowerWith ctx object v).run t = .ok (l, t')) :
    t.Grows ctx base t' ∧ l.Names t'.Owns v := by
  cases lowerWith_ok h with
  | object hposition => exact ⟨hobject _ _ t _ ht hposition, .single nofun⟩
  | @handle c heap handle references _ hkind hheap hhandles hmake =>
      have hgrows : t.Grows ctx base { t with references } := ht.grows_of_handles hhandles
      obtain ⟨hmade, howns, -⟩ := makeHandle_grows hgrows.valid hmake
      refine ⟨hgrows.trans hmade, .single fun made hreference => ?_⟩
      obtain rfl := Option.some.inj (ScopeValue.reference.inj hreference)
      have hnamed : c.named? = some heap := by rw [Constant.named?, hkind, hheap]
      exact ⟨heap, hnamed, howns⟩
  | plain hv hplain hhandles => exact ⟨ht.grows_of_handles hhandles, .of_plain hplain⟩

-- ── Objects ─────────────────────────────────────────────────────────────────────

theorem fieldSlots_names {refers : Handle → ObjectAddress → Prop} {object : VirtualObject}
    {v : Value} {l : Lowered} (hl : l.Names refers v) :
    ∀ s ∈ fieldSlots ctx object l, s.Names refers v := by
  intro s hs
  rcases mem_fieldSlots hs with hs | rfl
  · exact hl.slots s hs
  · exact nofun

/-- An entered object has the mirror of its type, no fields yet, and the place it was given. -/
theorem enterObject_grows {object : VirtualObject} {position : Nat}
    (hdescribed : ctx.describe? object.id = some object) (ht : t.Valid ctx base)
    (h : (enterObject ctx object).run t = .ok (position, t')) :
    t.Grows ctx base t' ∧ ∃ p, t'.pool.objects[position]? = some p ∧ p.id = object.id := by
  obtain ⟨mirror, handle, t₁, hmirror, hmake, rfl, rfl⟩ := enterObject_ok h
  obtain ⟨hgrows, howns, -⟩ := makeHandle_grows ht hmake
  refine ⟨hgrows.trans ⟨⟨hgrows.valid.tracks, fun p hp => ?_⟩, fun _ _ h => h, fun i p hp => ?_⟩,
    ⟨object.id, .reference (some handle), []⟩, List.getElem?_concat_length, rfl⟩
  · rcases List.mem_append.mp hp with hp | hp
    · exact hgrows.valid.pool p hp
    · obtain rfl := List.mem_singleton.mp hp
      refine ⟨object, hdescribed, ⟨mirror, handle, hmirror, rfl, howns⟩,
        object.values.map fun _ => [], ?_, ?_⟩
      · exact (List.flatten_eq_nil_iff.mpr fun part hpart =>
          (List.mem_map.mp hpart).elim fun _ h => h.2.symm).symm
      · rw [List.forall₂_map_right_iff, List.forall₂_same]
        exact fun _ _ _ hs => nomatch hs
  · exact ⟨p, (List.getElem?_append_left (List.getElem?_eq_some_iff.mp hp).1).trans hp, rfl⟩

/-- An object that is as described up to its fields, and gets fields that refer to what its values
    name, is as described. -/
theorem setFields_grows {object : VirtualObject} {position : Nat} {p : PoolObject}
    {pool : ObjectPool} {parts : List (List ScopeValue)} (ht : t.Valid ctx base)
    (hdescribed : ctx.describe? object.id = some object)
    (hp : t.pool.objects[position]? = some p) (hid : p.id = object.id)
    (hparts : List.Forall₂ (fun v part => ∀ s ∈ part, ScopeValue.Names t.Owns v s)
      object.values parts)
    (h : t.pool.setFields position parts.flatten = .ok pool) :
    t.Grows ctx base { t with pool } := by
  obtain ⟨p', hp', rfl⟩ := ObjectPool.setFields_ok h
  obtain rfl := Option.some.inj (hp'.symm.trans hp)
  refine ⟨⟨ht.tracks, fun q hq => ?_⟩, fun _ _ h => h, fun i q hq => ?_⟩
  · rcases List.mem_or_eq_of_mem_set hq with hq | rfl
    · exact ht.pool q hq
    · obtain ⟨object', hobject', hmirror, -⟩ := ht.pool p' (List.mem_of_getElem? hp)
      have hobject : ctx.virtualObjects.find? (fun o => o.id == p'.id) = some object := by
        rw [hid]
        exact hdescribed
      obtain rfl := Option.some.inj (hobject'.symm.trans hobject)
      exact ⟨object', hobject', hmirror, parts, rfl, hparts⟩
  · show ∃ q', (t.pool.objects.set position _)[i]? = some q' ∧ q'.id = q.id
    by_cases hi : position = i
    · subst hi
      obtain rfl := Option.some.inj (hq.symm.trans hp)
      refine ⟨_, List.getElem?_set_self (List.getElem?_eq_some_iff.mp hq).1, rfl⟩
    · exact ⟨q, (List.getElem?_set_ne hi).trans hq, rfl⟩

/-- The rule of naming. -/
def Lowering.namingRule (ctx : ValueContext) (base : HandleTable) : Lowering.Rule where
  Valid := Valid ctx base
  Leads := Grows ctx base
  refl := .refl
  trans := .trans
  valid := Grows.valid

/-- **Finding or making an object** enters every object it meets as described. -/
theorem lowerObject_grows {unopened : Nat} {id : Int} {position : Nat} (ht : t.Valid ctx base)
    (h : (lowerObject ctx unopened id).run t = .ok (position, t')) : t.Grows ctx base t' := by
  induction unopened generalizing id position t t' with
  | zero =>
      obtain ⟨-, rfl⟩ := lowerObject_zero_ok h
      exact .refl ht
  | succ unopened ih =>
      rcases meetObject_ok h with ⟨-, rfl⟩ |
        ⟨object, t₁, parts, t₂, pool, -, hdescribed, rfl, henter, hparts, hpool, rfl⟩
      · exact .refl ht
      · obtain ⟨hentered, p, hp, hpid⟩ := enterObject_grows hdescribed ht henter
        have hfield : ∀ v ∈ object.values, ∀ l t t', t.Valid ctx base →
            (lowerWith ctx (lowerObject ctx unopened) v).run t = .ok (l, t') →
            t.Grows ctx base t' ∧ ∀ s ∈ fieldSlots ctx object l, s.Names t'.Owns v := by
          intro v _ l t t' ht hrun
          obtain ⟨hgrows, hl⟩ := lowerWith_grows (fun _ _ _ _ => ih) ht hrun
          exact ⟨hgrows, fieldSlots_names hl⟩
        obtain ⟨hfilled, hnames⟩ := (Lowering.namingRule ctx base).mapM_ok
          (fun _ _ _ _ hgrows hslots s hs => (hslots s hs).mono hgrows.owns) hfield
          hentered.valid hparts
        -- the object keeps its place while its fields enter others
        obtain ⟨p₂, hp₂, hpid₂⟩ := hfilled.places position p hp
        refine (hentered.trans hfilled).trans
          (setFields_grows hfilled.valid hdescribed hp₂ (hpid₂.trans hpid) ?_ hpool)
        rw [List.forall₂_map_right_iff]
        exact hnames

/-- **The account of naming**: every slot refers to what is named in its place. -/
def Lowering.naming (ctx : ValueContext) (base : HandleTable) : Lowering.Account ctx where
  toRule := namingRule ctx base
  Covers _ := True
  Fills t v s := s.Names t.Owns v
  mono hgrows hnames := hnames.mono hgrows.owns
  metadata ht hhandles := ht.grows_of_handles hhandles
  value _ ht h := by
    obtain ⟨hgrows, hl⟩ := lowerWith_grows (fun _ _ _ _ ht hrun => lowerObject_grows ht hrun) ht h
    exact ⟨hgrows, hl.fills⟩
  owner _ := trivial
  lock h := h

end Lowering

-- ── Sites ───────────────────────────────────────────────────────────────────────

section Sites

variable {ctx : SiteContext} {base : HandleTable} {d : Draft} {t : Lowering}

/-- Describing a suspension point, with an empty pool to start with. -/
theorem DebugInfo.describe_gains {info : DebugInfo} {scopes : List Scope}
    (hd : d.references.Tracks base d.handles)
    (h : (info.describe ctx).run d.lowering = .ok (scopes, t)) :
    t.references.Tracks base t.handles ∧
      (∀ h object, d.lowering.Owns h object → t.Owns h object) ∧
      List.Forall₂ (Scope.Names t.Owns) info.chain.reverse scopes ∧
      ∀ p ∈ t.pool.objects, p.Names t.Owns ctx.world info.virtualObjects := by
  have hvalid : d.lowering.Valid (info.context ctx) base := ⟨hd, nofun⟩
  obtain ⟨hgrows, hscopes⟩ :=
    (Lowering.naming _ base).chain (fun _ _ _ _ => trivial) hvalid (info.describe_ok h).2
  exact ⟨hgrows.valid.tracks, hgrows.owns, hscopes, hgrows.valid.pool⟩

/-- A loaded constant makes a handle exactly if it names an object. -/
theorem Constant.lowered_gains {c : Constant} {u : Unit}
    (hd : d.references.Tracks base d.handles)
    (h : c.lowered.run d.lowering = .ok (u, t)) :
    t.references.Tracks base t.handles ∧
      ∀ h object, d.lowering.Owns h object → t.Owns h object := by
  have hlowered := h
  unfold Constant.lowered at h
  split at h
  · next hkind =>
    split at h
    · next object hobject =>
        obtain ⟨handle, hmake⟩ := c.lowered_heap hkind hobject hlowered
        obtain ⟨hmade, howns, -⟩ := makeHandle_gains hd hmake
        exact ⟨hmade, howns⟩
    · obtain ⟨-, rfl⟩ := Lower.pure_ok h
      exact ⟨hd, fun _ _ h => h⟩
  · obtain ⟨_, _, hget, h⟩ := Lower.bind_ok h
    obtain ⟨rfl, rfl⟩ := Lower.get_ok hget
    obtain ⟨references, _, hlift, h⟩ := Lower.bind_ok h
    obtain ⟨hreferences, rfl⟩ := Lower.lift_ok hlift
    obtain rfl := Lower.set_ok h
    exact Lowering.gains_of_handles hd (ReferenceRecorder.addConstant_handleTable hreferences)

/-- **The lowering of a site** records every handle it makes, and the safepoint made of its scopes
    refers to what its suspension point names. -/
theorem Site.lowered_gains {site : Site} {scopes : Option (List Scope)}
    (hd : d.references.Tracks base d.handles)
    (h : (site.lowered ctx).run d.lowering = .ok (scopes, t)) :
    t.references.Tracks base t.handles ∧
      (∀ h object, d.lowering.Owns h object → t.Owns h object) ∧
      ∀ pc leaf, List.Forall₂ (fun suspension s => Safepoint.Names t.Owns ctx.world suspension.1 s)
        site.suspension?.toList (scopes.map fun s => ⟨pc, leaf, s, t.pool⟩).toList := by
  have hdescribe : ∀ suspension : Option (DebugInfo × Int),
      (DebugInfo.describe? ctx (suspension.map Prod.fst)).run d.lowering = .ok (scopes, t) →
      t.references.Tracks base t.handles ∧
      (∀ h object, d.lowering.Owns h object → t.Owns h object) ∧
      ∀ pc leaf, List.Forall₂ (fun suspension s => Safepoint.Names t.Owns ctx.world suspension.1 s)
        suspension.toList (scopes.map fun s => ⟨pc, leaf, s, t.pool⟩).toList := by
    intro suspension h
    cases suspension with
    | none =>
        obtain ⟨rfl, rfl⟩ := Lower.pure_ok h
        exact ⟨hd, fun _ _ h => h, fun _ _ => .nil⟩
    | some suspension =>
        rw [Option.map_some, DebugInfo.describe?, StateT.run_map] at h
        obtain ⟨⟨described, t₁⟩, hrun, heq⟩ := map_eq_ok h
        obtain ⟨rfl, rfl⟩ := Prod.mk.inj heq
        obtain ⟨ht, howns, hscopes, hpool⟩ := DebugInfo.describe_gains hd hrun
        refine ⟨ht, howns, fun pc leaf => .cons ⟨?_, hpool⟩ .nil⟩
        show List.Forall₂ _ _ described.reverse
        rw [← List.forall₂_reverse_iff, List.reverse_reverse]
        exact hscopes
  obtain ⟨offset, kind⟩ := site
  cases kind with
  | dataPatch c alignment inlined =>
      obtain ⟨_, t₁, hc, h⟩ := Lower.bind_ok h
      obtain ⟨rfl, rfl⟩ := Lower.pure_ok h
      obtain ⟨ht, howns⟩ := c.lowered_gains hd hc
      exact ⟨ht, howns, fun _ _ => .nil⟩
  | call target info => exact hdescribe _ h
  | safepoint info => exact hdescribe _ h
  | mark id references => exact hdescribe _ h

end Sites

end ManagedCode
