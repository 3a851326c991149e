import Mathlib.Data.List.Nodup
import Mathlib.Logic.Function.Iterate
import ManagedCode.Proofs.Refusal

/-! # Graphs of objects

    Objects that exist only as field values refer to each other by identity, in any graph.  The
    pool of a suspension point holds those that its frames reach, once each, and every reference to
    one of them is its position in the pool.  An object gets its position before its fields, so that
    cycles come back to it, and the recursion through the fields ends because each level meets an
    object that was not met before.

* **`iterate_meetObject`** — the recursion is never deeper than there are descriptions.
* **`Lowering.Indexed`** — the objects met are those of the pool, at their positions.
* **`Lowering.Extends`** — lowering leaves the objects of the pool as they are, and puts finished
  ones behind them.
* **`lowerObject_extends`** — the recursion through the objects.
* **`object_graph_translated`** — the objects and scopes of a suspension point. -/

namespace ManagedCode

-- ── The depth of the recursion ──────────────────────────────────────────────────

section Depth

variable {ctx : ValueContext} {t t' : Lowering}

/-- How many objects are described and not met yet. -/
def Lowering.unseen (ctx : ValueContext) (t : Lowering) : Nat :=
  ctx.virtualObjects.countP fun object => (t.seen.lookup object.id).isNone

/-- What is met stays met. -/
def Lowering.meeting : Lowering.Rule where
  Valid _ := True
  Leads t t' := ∀ id, t'.seen.lookup id = none → t.seen.lookup id = none
  refl _ _ hnone := hnone
  trans hfirst hthen id hnone := hfirst id (hthen id hnone)
  valid _ := trivial

theorem countP_unmet_le (h : Lowering.meeting.Leads t t') (objects : List VirtualObject) :
    objects.countP (fun object => (t'.seen.lookup object.id).isNone) ≤
      objects.countP fun object => (t.seen.lookup object.id).isNone := by
  refine List.countP_mono_left fun object _ hnone => ?_
  rw [Option.isNone_iff_eq_none] at hnone ⊢
  exact h object.id hnone

/-- A described object that is met for the first time is one less to be met. -/
theorem unseen_lt (h : Lowering.meeting.Leads t t') {object : VirtualObject}
    (hobject : object ∈ ctx.virtualObjects) (hnew : t.seen.lookup object.id = none)
    (hmet : t'.seen.lookup object.id ≠ none) : t'.unseen ctx < t.unseen ctx := by
  obtain ⟨before, behind, hsplit⟩ := List.append_of_mem hobject
  have hbefore := countP_unmet_le h before
  have hbehind := countP_unmet_le h behind
  unfold Lowering.unseen
  rw [hsplit, List.countP_append, List.countP_append, List.countP_cons, List.countP_cons]
  simp only [hnew, Option.isNone_none, if_true, Option.isNone_iff_eq_none, hmet, if_false]
  omega

/-- An entered object is the last of the pool, and met at its position there. -/
theorem enterObject_entered {object : VirtualObject} {position : Nat}
    (h : (enterObject ctx object).run t = .ok (position, t')) :
    ∃ mirror, position = t.pool.objects.length ∧
      t'.pool.objects = t.pool.objects ++ [⟨object.id, mirror, []⟩] ∧
      t'.seen = (object.id, position) :: t.seen := by
  obtain ⟨mirror, handle, t₁, -, hmake, rfl, rfl⟩ := enterObject_ok h
  obtain ⟨handles, -, rfl⟩ := makeHandle_ok hmake
  exact ⟨.reference (some handle), rfl, rfl, rfl⟩

theorem enterObject_meets {object : VirtualObject} {position : Nat}
    (h : (enterObject ctx object).run t = .ok (position, t')) : Lowering.meeting.Leads t t' := by
  obtain ⟨mirror, -, -, hseen⟩ := enterObject_entered h
  intro id hnone
  rw [hseen, List.lookup_cons] at hnone
  split at hnone
  · exact nomatch hnone
  · exact hnone

theorem lowerWith_meets {object : Int → Lower Nat} {v : Value} {l : Lowered}
    (hobject : ∀ id position t t', (object id).run t = .ok (position, t') →
      Lowering.meeting.Leads t t')
    (h : (lowerWith ctx object v).run t = .ok (l, t')) : Lowering.meeting.Leads t t' := by
  cases lowerWith_ok h with
  | object hposition => exact hobject _ _ t _ hposition
  | handle hkind hheap hhandles hmake =>
      obtain ⟨handles, -, rfl⟩ := makeHandle_ok hmake
      exact fun _ hnone => hnone
  | plain hv hplain hhandles => exact fun _ hnone => hnone

theorem lowerObject_meets {unopened : Nat} {id : Int} {position : Nat}
    (h : (lowerObject ctx unopened id).run t = .ok (position, t')) :
    Lowering.meeting.Leads t t' := by
  induction unopened generalizing id position t t' with
  | zero =>
      obtain ⟨-, rfl⟩ := lowerObject_zero_ok h
      exact Lowering.meeting.refl trivial
  | succ unopened ih =>
      rcases meetObject_ok h with ⟨-, rfl⟩ |
        ⟨object, t₁, parts, t₂, pool, -, -, -, henter, hparts, -, rfl⟩
      · exact Lowering.meeting.refl trivial
      · obtain ⟨hfields, -⟩ := Lowering.meeting.mapM_ok (P := fun _ _ _ => True)
          (fun _ _ _ _ _ _ => trivial)
          (fun v _ l t t' _ hrun => ⟨lowerWith_meets (fun _ _ _ _ => ih) hrun, trivial⟩)
          trivial hparts
        exact Lowering.meeting.trans (enterObject_meets henter) hfields

/-- Two ways to find or make objects that agree give the same lowering of a value. -/
theorem lowerWith_congr {f g : Int → Lower Nat} {v : Value}
    (h : ∀ id, v = .virtualObject id → (f id).run t = (g id).run t) :
    (lowerWith ctx f v).run t = (lowerWith ctx g v).run t := by
  cases v with
  | virtualObject id =>
      show (f id).run t >>= _ = (g id).run t >>= _
      rw [h id rfl]
  | illegal => rfl
  | register number kind => rfl
  | stackSlot offset addFrameSize kind => rfl
  | constant c => rfl
  | stackLock owner slot eliminated => rfl

theorem Lower.mapM_congr {α β : Type} {f g : α → Lower β} {xs : List α} {V : Lowering → Prop}
    (hg : ∀ a b t t', V t → (g a).run t = .ok (b, t') → V t')
    (h : ∀ a t, V t → (f a).run t = (g a).run t) (ht : V t) :
    (xs.mapM f).run t = (xs.mapM g).run t := by
  induction xs generalizing t with
  | nil => rfl
  | cons x rest ih =>
      rw [List.mapM_cons, List.mapM_cons]
      show (f x).run t >>= _ = (g x).run t >>= _
      rw [h x t ht]
      cases hx : (g x).run t with
      | error e => rfl
      | ok out =>
          obtain ⟨y, t₁⟩ := out
          show (List.mapM f rest).run t₁ >>= _ = (List.mapM g rest).run t₁ >>= _
          rw [ih (hg x y t t₁ ht hx)]

/-- Entering an object for the first time leaves fewer to be met. -/
theorem enterObject_unseen {object : VirtualObject} {id : Int} {position : Nat}
    (hdescribed : ctx.describe? id = some object) (hnew : t.seen.lookup id = none)
    (h : (enterObject ctx object).run t = .ok (position, t')) : t'.unseen ctx < t.unseen ctx := by
  obtain ⟨hobject, rfl⟩ := ValueContext.describe?_ok hdescribed
  obtain ⟨mirror, -, -, hseen⟩ := enterObject_entered h
  refine unseen_lt (enterObject_meets h) hobject hnew ?_
  rw [hseen, List.lookup_cons_self]
  exact nofun

section Agreement

variable {f g : Int → Lower Nat} {n : Nat}
  (hg : ∀ id position t t', (g id).run t = .ok (position, t') → Lowering.meeting.Leads t t')
  (h : ∀ id t, t.unseen ctx < n → (f id).run t = (g id).run t)
include hg h

theorem lowerFields_congr {object : VirtualObject} {values : List Value}
    (ht : t.unseen ctx < n) :
    (values.mapM fun v => do
      return fieldSlots ctx object (← lowerWith ctx f v) : Lower _).run t =
    (values.mapM fun v => do
      return fieldSlots ctx object (← lowerWith ctx g v) : Lower _).run t := by
  refine Lower.mapM_congr (V := fun t => t.unseen ctx < n) ?_ ?_ ht
  · intro v part t t' ht hrun
    obtain ⟨l, t₁, hl, hrun⟩ := Lower.bind_ok hrun
    obtain ⟨-, rfl⟩ := Lower.pure_ok hrun
    exact Nat.lt_of_le_of_lt (countP_unmet_le (lowerWith_meets hg hl) _) ht
  · intro v t ht
    show (lowerWith ctx f v).run t >>= _ = (lowerWith ctx g v).run t >>= _
    rw [lowerWith_congr fun id _ => h id t ht]

/-- Two ways that agree while few objects are unmet agree one level further up, where one more may
    be unmet: the level meets it. -/
theorem meetObject_congr (id : Int) (ht : t.unseen ctx < n + 1) :
    (meetObject ctx f id).run t = (meetObject ctx g id).run t := by
  unfold meetObject
  rw [Lower.run_get_bind, Lower.run_get_bind]
  cases hseen : t.seen.lookup id with
  | some position => rfl
  | none =>
      cases hdescribed : ctx.describe? id with
      | none => rfl
      | some object =>
          show (enterObject ctx object).run t >>= _ = (enterObject ctx object).run t >>= _
          cases henter : (enterObject ctx object).run t with
          | error e => rfl
          | ok entered =>
              obtain ⟨position, t₁⟩ := entered
              have hunseen := enterObject_unseen hdescribed hseen henter
              show (List.mapM _ object.values : Lower _).run t₁ >>= _ = _
              rw [lowerFields_congr hg h (by omega)]
              rfl

end Agreement

theorem iterate_meetObject_run (bottom : Int → Lower Nat) {n : Nat} (id : Int)
    (ht : t.unseen ctx < n + 1) :
    ((meetObject ctx)^[n + 1] bottom id).run t = (lowerObject ctx n id).run t := by
  induction n generalizing id t with
  | zero =>
      show (meetObject ctx bottom id).run t = _
      rw [meetObject, lowerObject, Lower.run_get_bind, Lower.run_get_bind]
      cases hseen : t.seen.lookup id with
      | some position => rfl
      | none =>
          -- all described objects are met, and this one is not
          cases hdescribed : ctx.describe? id with
          | none => rfl
          | some object =>
              obtain ⟨hobject, hid⟩ := ValueContext.describe?_ok hdescribed
              have hpos : 0 < t.unseen ctx :=
                List.countP_pos_iff.mpr ⟨object, hobject, by rw [hid, hseen]; rfl⟩
              omega
  | succ n ih =>
      rw [Function.iterate_succ_apply']
      exact meetObject_congr (fun _ _ _ _ => lowerObject_meets) (fun id t ht => ih id ht) id ht

/-- **The recursion ends.** Whatever stands one level below as many levels as there are
    descriptions is never reached. -/
theorem iterate_meetObject (ctx : ValueContext) (bottom : Int → Lower Nat) :
    (meetObject ctx)^[ctx.virtualObjects.length + 1] bottom =
      lowerObject ctx ctx.virtualObjects.length := by
  funext id
  funext t
  exact iterate_meetObject_run bottom id (Nat.lt_succ_of_le List.countP_le_length)

end Depth

-- ── What stands for the objects ─────────────────────────────────────────────────

/-- The identities of the objects of a pool, by position. -/
def ObjectPool.ids (pool : ObjectPool) : List Int := pool.objects.map PoolObject.id

/-- A scope value shows the object that a value names: it is the position of that object in the
    pool, and it is no position if the value names none. -/
def ScopeValue.Shows (ids : List Int) (v : Value) (s : ScopeValue) : Prop :=
  match v.object? with
  | some id => ∃ r, s = .object r ∧ ids[r]? = some id
  | none => ∀ r, s ≠ .object r

/-- The slots of a value, given the places of the objects: an object is where its identity is in the
    pool, and anything else is lowered as it is. -/
def Value.Lowers (ctx : ValueContext) (ids : List Int) (v : Value) (l : Lowered) : Prop :=
  ∃ place : Int → Nat, (∀ id, v = .virtualObject id → ids[place id]? = some id) ∧
    ∃ t t', (lowerWith ctx (fun id => pure (place id)) v).run t = .ok (l, t')

/-- An object of the pool has the slots of its described values as fields, in order, and a position
    among them is that of the object which the value names. -/
def PoolObject.Rebuilds (ctx : ValueContext) (ids : List Int) (p : PoolObject) : Prop :=
  ∃ object ∈ ctx.virtualObjects, object.id = p.id ∧ ∃ parts,
    p.fields = (parts.map (fieldSlots ctx object)).flatten ∧
    List.Forall₂ (fun v l => v.Lowers ctx ids l ∧ ∀ r, .object r ∈ fieldSlots ctx object l →
      ∃ id, v.object? = some id ∧ ids[r]? = some id) object.values parts

/-- The identities that the frames of a suspension point reach: those of their values and of the
    owners of their locks, and those that a reached object names in its fields. -/
inductive DebugInfo.Reaches (info : DebugInfo) : Int → Prop
  | root {frame : Frame} {v : Value} {id : Int} (hframe : frame ∈ info.chain)
      (hv : v ∈ frame.values) (hid : v.object? = some id) : Reaches info id
  | field {object : VirtualObject} {v : Value} {id : Int} (hreached : Reaches info object.id)
      (hobject : object ∈ info.virtualObjects) (hv : v ∈ object.values)
      (hid : v.object? = some id) : Reaches info id

section Shows

variable {ctx : ValueContext} {ids ids' : List Int} {v : Value} {l : Lowered}

section Mono

variable (hids : ∀ (r : Nat) id, ids[r]? = some id → ids'[r]? = some id)
include hids

theorem ScopeValue.Shows.mono {s : ScopeValue} (h : s.Shows ids v) : s.Shows ids' v := by
  unfold ScopeValue.Shows at h ⊢
  cases hobject : v.object? with
  | none =>
      rw [hobject] at h
      exact h
  | some id =>
      rw [hobject] at h
      obtain ⟨r, hs, hr⟩ := h
      exact ⟨r, hs, hids r id hr⟩

theorem Value.Lowers.mono (h : v.Lowers ctx ids l) : v.Lowers ctx ids' l := by
  obtain ⟨place, hplace, hrun⟩ := h
  exact ⟨place, fun id hid => hids _ _ (hplace id hid), hrun⟩

theorem PoolObject.Rebuilds.mono {p : PoolObject} (h : p.Rebuilds ctx ids) :
    p.Rebuilds ctx ids' := by
  obtain ⟨object, hobject, hid, parts, hfields, hparts⟩ := h
  refine ⟨object, hobject, hid, parts, hfields, hparts.imp ?_⟩
  rintro v l ⟨hlowers, hshows⟩
  refine ⟨hlowers.mono hids, fun r hr => ?_⟩
  obtain ⟨id, hv, hr⟩ := hshows r hr
  exact ⟨id, hv, hids r id hr⟩

end Mono

/-- A value is an object at its place, or has no slot that is one. -/
theorem Value.Lowers.object_or_none (h : v.Lowers ctx ids l) :
    (∃ id r, v = .virtualObject id ∧ l = .single (.object r) ∧ ids[r]? = some id) ∨
    (v.object? = none ∧ ∀ s ∈ l.slots, ∀ r, s ≠ .object r) := by
  obtain ⟨place, hplace, t, t', hrun⟩ := h
  cases lowerWith_ok hrun with
  | @object id position _ hobject =>
      obtain ⟨rfl, -⟩ := Lower.pure_ok hobject
      exact Or.inl ⟨id, place id, rfl, rfl, hplace id rfl⟩
  | handle hkind hheap hhandles hmake =>
      refine Or.inr ⟨rfl, fun s hs r => ?_⟩
      rw [List.mem_singleton.mp hs]
      exact nofun
  | plain hv hplain hhandles =>
      refine Or.inr ⟨hv, fun s hs r hobject => ?_⟩
      have hs := hplain.slots s hs
      rw [hobject] at hs
      exact hs

/-- The slots of a value show what is named in their places. -/
theorem Value.Lowers.fills (h : v.Lowers ctx ids l) :
    List.Forall₂ (ScopeValue.Shows ids) (l.places v) l.slots := by
  rcases h.object_or_none with ⟨id, r, rfl, rfl, hr⟩ | ⟨hnone, hslots⟩
  · exact .cons ⟨r, rfl, hr⟩ .nil
  · have hshows : ∀ s ∈ l.slots, ∀ w : Value, w.object? = none → s.Shows ids w := by
      intro s hs w hw
      unfold ScopeValue.Shows
      rw [hw]
      exact hslots s hs
    refine Lowered.forall₂_places (fun hsecond => hshows _ ?_ v hnone) fun second hsecond =>
      ⟨hshows _ ?_ v hnone, hshows _ ?_ .illegal rfl⟩
    all_goals
      rw [Lowered.slots, hsecond]
      simp

/-- A position among the slots of a field is that of the object which the value names. -/
theorem Value.Lowers.field (h : v.Lowers ctx ids l) (object : VirtualObject) {r : Nat}
    (hr : .object r ∈ fieldSlots ctx object l) :
    ∃ id, v.object? = some id ∧ ids[r]? = some id := by
  rcases mem_fieldSlots hr with hr | hr
  · rcases h.object_or_none with ⟨id, place, rfl, rfl, hplace⟩ | ⟨-, hslots⟩
    · obtain rfl := ScopeValue.object.inj (List.mem_singleton.mp hr)
      exact ⟨id, rfl, hplace⟩
    · exact (hslots _ hr r rfl).elim
  · exact nomatch hr

end Shows

-- ── The pool while objects are met ──────────────────────────────────────────────

/-- The objects met are those of the pool, each at its position. -/
def Lowering.Indexed (t : Lowering) : Prop :=
  ∀ id r, t.seen.lookup id = some r ↔ t.pool.ids[r]? = some id

/-- What lowering does to the pool: finished objects with identities in `R` come behind those that
    were there. -/
structure Lowering.Extends (ctx : ValueContext) (R : Int → Prop) (t t' : Lowering) : Prop where
  indexed : t'.Indexed
  adds : ∃ new, t'.pool.objects = t.pool.objects ++ new ∧
    ∀ p ∈ new, R p.id ∧ p.Rebuilds ctx t'.pool.ids

section Graph

variable {ctx : ValueContext} {R : Int → Prop} {t t₁ t' : Lowering}

namespace Lowering

theorem Indexed.nodup (ht : t.Indexed) : t.pool.ids.Nodup := by
  rw [List.Nodup, List.pairwise_iff_getElem]
  intro i j hi hj hij heq
  have hfirst := (ht t.pool.ids[i] i).mpr (List.getElem?_eq_getElem hi)
  have hsecond := (ht t.pool.ids[i] j).mpr (by rw [heq]; exact List.getElem?_eq_getElem hj)
  have := Option.some.inj (hfirst.symm.trans hsecond)
  omega

/-- An object is entered that was not met before. -/
theorem Indexed.enter (ht : t.Indexed) {p : PoolObject} (hnew : t.seen.lookup p.id = none)
    (hpool : t'.pool.objects = t.pool.objects ++ [p])
    (hseen : t'.seen = (p.id, t.pool.objects.length) :: t.seen) : t'.Indexed := by
  have hids : t'.pool.ids = t.pool.ids ++ [p.id] := by
    rw [ObjectPool.ids, hpool, List.map_append]
    rfl
  have hlength : t.pool.ids.length = t.pool.objects.length := List.length_map ..
  intro id r
  rw [hseen, hids, List.lookup_cons, ← hlength]
  by_cases hid : id = p.id
  · subst hid
    rw [beq_self_eq_true]
    constructor
    · intro hr
      rw [← Option.some.inj hr]
      exact List.getElem?_concat_length
    · intro hr
      by_cases hlt : r < t.pool.ids.length
      · rw [List.getElem?_append_left hlt, ← ht, hnew] at hr
        exact nomatch hr
      · have hbound := (List.getElem?_eq_some_iff.mp hr).1
        rw [List.length_append, List.length_singleton] at hbound
        rw [show r = t.pool.ids.length by omega]
  · rw [beq_false_of_ne hid]
    constructor
    · intro hr
      have hr := (ht id r).mp hr
      rw [List.getElem?_append_left (List.getElem?_eq_some_iff.mp hr).1]
      exact hr
    · intro hr
      by_cases hlt : r < t.pool.ids.length
      · rw [List.getElem?_append_left hlt] at hr
        exact (ht id r).mpr hr
      · rw [List.getElem?_append_right (by omega)] at hr
        exact (hid (List.mem_singleton.mp (List.mem_of_getElem? hr))).elim

theorem Extends.ids (h : t.Extends ctx R t') (r : Nat) (id : Int)
    (hr : t.pool.ids[r]? = some id) : t'.pool.ids[r]? = some id := by
  obtain ⟨new, hnew, -⟩ := h.adds
  unfold ObjectPool.ids at hr ⊢
  rw [hnew, List.map_append, List.getElem?_append_left (List.getElem?_eq_some_iff.mp hr).1]
  exact hr

theorem Extends.of_pool (ht : t.Indexed) (hpool : t'.pool = t.pool) (hseen : t'.seen = t.seen) :
    t.Extends ctx R t' := by
  refine ⟨?_, [], by rw [hpool, List.append_nil], nofun⟩
  unfold Indexed
  rw [hpool, hseen]
  exact ht

theorem Extends.trans (hfirst : t.Extends ctx R t₁) (hthen : t₁.Extends ctx R t') :
    t.Extends ctx R t' := by
  obtain ⟨new₁, hpool₁, hnew₁⟩ := hfirst.adds
  obtain ⟨new₂, hpool₂, hnew₂⟩ := hthen.adds
  refine ⟨hthen.indexed, new₁ ++ new₂, by rw [hpool₂, hpool₁, List.append_assoc], fun p hp => ?_⟩
  rcases List.mem_append.mp hp with hp | hp
  · exact ⟨(hnew₁ p hp).1, (hnew₁ p hp).2.mono hthen.ids⟩
  · exact hnew₂ p hp

/-- The rule of the pool. -/
def graphRule (ctx : ValueContext) (R : Int → Prop) : Lowering.Rule where
  Valid := Indexed
  Leads := Extends ctx R
  refl ht := .of_pool ht rfl rfl
  trans := .trans
  valid := Extends.indexed

end Lowering

/-- An object in the pool gets its fields and keeps its identity. -/
theorem ObjectPool.setFields_append {pool pool' : ObjectPool} {before behind : List PoolObject}
    {p : PoolObject} {fields : List ScopeValue} (hpool : pool.objects = before ++ p :: behind)
    (h : pool.setFields before.length fields = .ok pool') :
    pool'.objects = before ++ { p with fields } :: behind ∧ pool'.ids = pool.ids := by
  obtain ⟨q, hq, rfl⟩ := ObjectPool.setFields_ok h
  rw [hpool, List.getElem?_append_right (Nat.le_refl _), Nat.sub_self] at hq
  obtain rfl : p = q := Option.some.inj hq
  have hset : pool.objects.set before.length { p with fields } =
      before ++ { p with fields } :: behind := by
    rw [hpool, List.set_append_right _ _ (Nat.le_refl _), Nat.sub_self, List.set_cons_zero]
  refine ⟨hset, ?_⟩
  unfold ObjectPool.ids
  rw [hset, hpool]
  simp

/-- Lowering a value extends the pool as finding or making its object does. -/
theorem lowerWith_extends {object : Int → Lower Nat} {v : Value} {l : Lowered}
    (hobject : ∀ id, R id → ∀ position t t', t.Indexed →
      (object id).run t = .ok (position, t') →
      t.Extends ctx R t' ∧ t'.pool.ids[position]? = some id)
    (hv : ∀ id, v.object? = some id → R id) (ht : t.Indexed)
    (h : (lowerWith ctx object v).run t = .ok (l, t')) :
    t.Extends ctx R t' ∧ v.Lowers ctx t'.pool.ids l := by
  have hplain : (∀ id, v ≠ .virtualObject id) → v.Lowers ctx t'.pool.ids l := by
    intro hne
    refine ⟨fun _ => 0, fun id hid => (hne id hid).elim, t, t', ?_⟩
    rw [← h]
    exact lowerWith_congr fun id hid => (hne id hid).elim
  cases lowerWith_ok h with
  | @object id position _ hposition =>
      obtain ⟨hextends, hplace⟩ := hobject id (hv id rfl) position t t' ht hposition
      refine ⟨hextends, fun _ => position, ?_, t', t', rfl⟩
      intro other hother
      rw [← Value.virtualObject.inj hother]
      exact hplace
  | handle hkind hheap hhandles hmake =>
      obtain ⟨handles, -, rfl⟩ := makeHandle_ok hmake
      exact ⟨.of_pool ht rfl rfl, hplain nofun⟩
  | plain hnone hslots hhandles =>
      refine ⟨.of_pool ht rfl rfl, hplain ?_⟩
      rintro id rfl
      exact nomatch hnone

/-- **Finding or making an object** puts it and the objects it refers to behind those of the pool,
    finished, and gives its position. -/
theorem lowerObject_extends {unopened : Nat} {id : Int} {position : Nat}
    (hclosed : ∀ object ∈ ctx.virtualObjects, R object.id → ∀ v ∈ object.values, ∀ id,
      v.object? = some id → R id)
    (hid : R id) (ht : t.Indexed) (h : (lowerObject ctx unopened id).run t = .ok (position, t')) :
    t.Extends ctx R t' ∧ t'.pool.ids[position]? = some id := by
  induction unopened generalizing id position t t' with
  | zero =>
      obtain ⟨hmet, rfl⟩ := lowerObject_zero_ok h
      exact ⟨.of_pool ht rfl rfl, (ht id position).mp hmet⟩
  | succ unopened ih =>
      rcases meetObject_ok h with ⟨hmet, rfl⟩ |
        ⟨object, t₁, parts, t₂, pool, hnew, hdescribed, rfl, henter, hparts, hpool, rfl⟩
      · exact ⟨.of_pool ht rfl rfl, (ht id position).mp hmet⟩
      · obtain ⟨hobject, -⟩ := ValueContext.describe?_ok hdescribed
        obtain ⟨mirror, rfl, hentered, hseen⟩ := enterObject_entered henter
        have hindexed : t₁.Indexed := ht.enter hnew hentered hseen
        have hfield : ∀ v ∈ object.values, ∀ l t t', t.Indexed →
            (lowerWith ctx (lowerObject ctx unopened) v).run t = .ok (l, t') →
            t.Extends ctx R t' ∧ v.Lowers ctx t'.pool.ids l := by
          intro v hv l t t' ht hrun
          have hv := hclosed object hobject hid v hv
          exact lowerWith_extends (fun _ hid _ _ _ => ih hid) hv ht hrun
        obtain ⟨hextends, hlowers⟩ := (Lowering.graphRule ctx R).mapM_ok
          (fun _ _ _ _ hextends hlowers => hlowers.mono hextends.ids) hfield hindexed hparts
        obtain ⟨new, hadds, hrebuilds⟩ := hextends.adds
        rw [hentered, List.append_assoc, List.singleton_append] at hadds
        -- the fields make the entered object a finished one and leave the identities alone
        obtain ⟨hfinished, hids⟩ := ObjectPool.setFields_append hadds hpool
        refine ⟨⟨?_, _, hfinished, ?_⟩, ?_⟩
        · intro id r
          show t₂.seen.lookup id = some r ↔ pool.ids[r]? = some id
          rw [hids]
          exact hextends.indexed id r
        · show ∀ p ∈ (_ : List PoolObject), R p.id ∧ p.Rebuilds ctx pool.ids
          rw [hids]
          refine List.forall_mem_cons.mpr ⟨⟨hid, object, hobject, rfl, parts, rfl, ?_⟩, hrebuilds⟩
          exact hlowers.imp fun v l hl => ⟨hl, fun r hr => hl.field object hr⟩
        · show pool.ids[t.pool.objects.length]? = some object.id
          rw [hids]
          refine hextends.ids _ _ ((hindexed _ _).mp ?_)
          rw [hseen, List.lookup_cons_self]

/-- **The account of the graph**: the pool is extended by objects with identities in `R`, and every
    slot shows the object that is named in its place. -/
def Lowering.graph (ctx : ValueContext) (R : Int → Prop)
    (hclosed : ∀ object ∈ ctx.virtualObjects, R object.id → ∀ v ∈ object.values, ∀ id,
      v.object? = some id → R id) : Lowering.Account ctx where
  toRule := graphRule ctx R
  Covers v := ∀ id, v.object? = some id → R id
  Fills t v s := s.Shows t.pool.ids v
  mono hextends hshows := hshows.mono hextends.ids
  metadata ht _ := .of_pool ht rfl rfl
  value hv ht h := by
    obtain ⟨hextends, hlowers⟩ :=
      lowerWith_extends (fun _ hid _ _ _ ht hrun => lowerObject_extends hclosed hid ht hrun) hv ht h
    exact ⟨hextends, hlowers.fills⟩
  owner hv := hv
  lock hshows := hshows

end Graph

-- ── Suspension points ───────────────────────────────────────────────────────────

theorem exists_of_forall₂ {α β : Type} {P : α → β → Prop} {xs : List α} {ys : List β}
    (h : List.Forall₂ P xs ys) {x : α} (hx : x ∈ xs) : ∃ y ∈ ys, P x y := by
  induction h with
  | nil => exact nomatch hx
  | cons hP _ ih =>
      rcases List.mem_cons.mp hx with rfl | hx
      · exact ⟨_, List.mem_cons_self .., hP⟩
      · obtain ⟨y, hy, hP⟩ := ih hx
        exact ⟨y, List.mem_cons_of_mem _ hy, hP⟩

/-- Frames are described only at an open safepoint. -/
theorem exists_open_of_describeFrames {ctx : ValueContext} {pc : Nat} {frames : List Frame}
    {log log' : SafepointLog} {t t' : Lowering} (hframes : frames ≠ [])
    (h : (describeFrames ctx pc log frames).run t = .ok (log', t')) :
    ∃ s, log.current = some s := by
  cases frames with
  | nil => exact (hframes rfl).elim
  | cons frame rest =>
      unfold describeFrames at h
      rw [List.foldlM_cons] at h
      obtain ⟨log₁, t₁, hstep, -⟩ := Lower.bind_ok h
      obtain ⟨scope, t₂, -, hstep⟩ := Lower.bind_ok hstep
      obtain ⟨hdescribe, -⟩ := Lower.lift_ok hstep
      obtain ⟨s, hs, -⟩ := Checked.bind_ok hdescribe
      exact ⟨s, (SafepointLog.currentAt_ok hs).1⟩

/-- A set of identities that has those of the frames and is closed under the fields of its objects
    has all that are reached. -/
theorem DebugInfo.Reaches.mem_ids {info : DebugInfo} {ctx : ValueContext} {pool : ObjectPool}
    {scopes : List Scope} (hctx : ctx.virtualObjects = info.virtualObjects)
    (hdistinct : (info.virtualObjects.map VirtualObject.id).Nodup)
    (hscopes : List.Forall₂ (fun frame scope =>
      List.Forall₂ (ScopeValue.Shows pool.ids) frame.values scope.slots) info.chain scopes)
    (hpool : ∀ p ∈ pool.objects, p.Rebuilds ctx pool.ids) {id : Int} (h : info.Reaches id) :
    id ∈ pool.ids := by
  have hmem : ∀ {v : Value} {s : ScopeValue} {id : Int}, s.Shows pool.ids v →
      v.object? = some id → id ∈ pool.ids := by
    intro v s id hshows hv
    unfold ScopeValue.Shows at hshows
    rw [hv] at hshows
    obtain ⟨r, -, hr⟩ := hshows
    exact List.mem_of_getElem? hr
  induction h with
  | root hframe hv hid =>
      obtain ⟨scope, -, hslots⟩ := exists_of_forall₂ hscopes hframe
      obtain ⟨s, -, hshows⟩ := exists_of_forall₂ hslots hv
      exact hmem hshows hid
  | @field object v id hreached hobject hv hid ih =>
      obtain ⟨p, hp, hpid⟩ := List.mem_map.mp ih
      obtain ⟨described, hdescribed, hid', parts, -, hparts⟩ := hpool p hp
      -- the description that the object was made from is the one with its identity
      rw [hctx] at hdescribed
      obtain rfl : described = object :=
        List.inj_on_of_nodup_map hdistinct hdescribed hobject (hid'.trans hpid)
      obtain ⟨l, -, hlowers, -⟩ := exists_of_forall₂ hparts hv
      rcases hlowers.object_or_none with ⟨other, r, rfl, -, hr⟩ | ⟨hnone, -⟩
      · obtain rfl := Option.some.inj hid
        exact List.mem_of_getElem? hr
      · exact nomatch hnone.symm.trans hid

/-- **Graphs of objects are translated faithfully.** Let the objects of a suspension point be
    described once each, and refer to each other in any way. Lowering a value unfolds the recursion
    through the objects no deeper than there are descriptions: what stands below is never reached.
    And whenever the frames of the suspension point are described, the objects of its pool are those
    that the frames reach, once each; every slot of a scope shows the object named in its place; and
    every object has the slots of its described values as fields. -/
theorem object_graph_translated {info : DebugInfo} {ctx : ValueContext}
    (hctx : ctx.virtualObjects = info.virtualObjects)
    (hdistinct : (info.virtualObjects.map VirtualObject.id).Nodup) :
    (∀ bottom v, lower ctx v =
      lowerWith ctx ((meetObject ctx)^[info.virtualObjects.length + 1] bottom) v) ∧
    ∀ pc log log' references handles t',
      (describeSafepoint ctx pc log info).run { references, handles } = .ok (log', t') →
      ∃ s scopes pool, log.current = some s ∧
        log'.current = some { s with described := s.described ++ scopes, objects := pool } ∧
        pool.ids.Nodup ∧ (∀ id, id ∈ pool.ids ↔ info.Reaches id) ∧
        List.Forall₂ (fun frame scope =>
          List.Forall₂ (ScopeValue.Shows pool.ids) frame.values scope.slots)
          info.chain scopes.reverse ∧
        ∀ p ∈ pool.objects, p.Rebuilds ctx pool.ids := by
  constructor
  · intro bottom v
    rw [← hctx, iterate_meetObject]
    rfl
  · intro pc log log' references handles t' h
    obtain ⟨log₁, t₁, hframes, -⟩ := Lower.bind_ok h
    obtain ⟨s, hs⟩ := exists_open_of_describeFrames (by simp [DebugInfo.chain]) hframes
    obtain ⟨scopes, hscopes, rfl⟩ := describeSafepoint_ok hs h
    have hclosed : ∀ object ∈ ctx.virtualObjects, info.Reaches object.id → ∀ v ∈ object.values,
        ∀ id, v.object? = some id → info.Reaches id := by
      intro object hobject hreached v hv id hid
      rw [hctx] at hobject
      exact .field hreached hobject hv hid
    have hroots : ∀ frame ∈ info.chain.reverse, ∀ v ∈ frame.values, ∀ id,
        v.object? = some id → info.Reaches id := by
      intro frame hframe v hv id hid
      exact .root (List.mem_reverse.mp hframe) hv hid
    have hempty : Lowering.Indexed { references, handles } := by
      intro id r
      constructor <;> exact nofun
    obtain ⟨hextends, hshows⟩ :=
      (Lowering.graph ctx info.Reaches hclosed).chain hroots hempty hscopes
    obtain ⟨new, hadds, hnew⟩ := hextends.adds
    have hall : ∀ p ∈ t'.pool.objects, info.Reaches p.id ∧ p.Rebuilds ctx t'.pool.ids := by
      rw [hadds]
      exact hnew
    have hslots := List.forall₂_reverse_iff.mpr hshows
    rw [List.reverse_reverse] at hslots
    refine ⟨s, scopes, t'.pool, hs, rfl, hextends.indexed.nodup, fun id => ⟨?_, ?_⟩, hslots,
      fun p hp => (hall p hp).2⟩
    · intro hid
      obtain ⟨p, hp, rfl⟩ := List.mem_map.mp hid
      exact (hall p hp).1
    · exact fun hreached =>
        hreached.mem_ids hctx hdistinct hslots fun p hp => (hall p hp).2

-- ── Two objects in a cycle ──────────────────────────────────────────────────────

/-- Two objects that refer to each other, the first also to itself, and one that nothing refers to.
    The caller holds the lock of the first, and the second is a local of the callee. -/
def DebugInfo.sampleGraph : DebugInfo where
  frame := {
    method := ⟨0x2000⟩, bci := 3, values := [.virtualObject 2]
    localCount := 1, stackCount := 0, lockCount := 0 }
  callers := [{
    method := ⟨0x1000⟩, bci := 5
    values := [.stackLock (.virtualObject 1) (.stackSlot 0 false .long) false]
    localCount := 0, stackCount := 0, lockCount := 1 }]
  frameBits := ⟨[]⟩
  virtualObjects :=
    [⟨1, ⟨0x400⟩, [.virtualObject 1, .virtualObject 2]⟩,
     ⟨2, ⟨0x400⟩, [.virtualObject 1, .constant (.long 7)]⟩,
     ⟨3, ⟨0x400⟩, []⟩]

/-- The context of the sample graph. -/
def ValueContext.sampleGraph : ValueContext where
  world := .sample
  byteOrder := .little
  frameSize := 16
  virtualObjects := DebugInfo.sampleGraph.virtualObjects

/-- A log with a safepoint open at 6. -/
def SafepointLog.sampleOpen : SafepointLog where
  current := some { pc := 6, leafGraphId := 7 }

/-- The objects of the open safepoint after a finished run: identities and fields. -/
def describedObjects? : Checked (SafepointLog × Lowering) → Option (List (Int × List ScopeValue))
  | .ok (log, _) => log.current.map fun s => s.objects.objects.map fun p => (p.id, p.fields)
  | .error _ => none

/-- The two objects in the cycle are the pool, and the third is not reached. -/
theorem object_graph_translated_sample :
    (DebugInfo.sampleGraph.virtualObjects.map VirtualObject.id).Nodup ∧
    ∃ log' t', (describeSafepoint .sampleGraph 6 .sampleOpen .sampleGraph).run {} =
        .ok (log', t') ∧
      (∃ s, log'.current = some s ∧ s.objects.objects.map (fun p => (p.id, p.fields)) =
        [(1, [.object 0, .object 1]), (2, [.object 0, .int 0, .long 7])]) ∧
      (∀ id, DebugInfo.sampleGraph.Reaches id ↔ id = 1 ∨ id = 2) := by
  have hdescribed : describedObjects?
      ((describeSafepoint .sampleGraph 6 .sampleOpen .sampleGraph).run {}) =
        some [(1, [.object 0, .object 1]), (2, [.object 0, .int 0, .long 7])] := by
    decide +kernel
  cases hrun : (describeSafepoint .sampleGraph 6 .sampleOpen .sampleGraph).run {} with
  | error fault =>
      rw [hrun] at hdescribed
      exact nomatch hdescribed
  | ok ended =>
      obtain ⟨log', t'⟩ := ended
      rw [hrun] at hdescribed
      obtain ⟨s, hs, hobjects⟩ := Option.map_eq_some_iff.mp hdescribed
      have hdistinct : (DebugInfo.sampleGraph.virtualObjects.map VirtualObject.id).Nodup := by
        decide
      have hctx : ValueContext.sampleGraph.virtualObjects =
          DebugInfo.sampleGraph.virtualObjects := rfl
      obtain ⟨_, scopes, pool, -, hcurrent, -, hreaches, -, -⟩ :=
        (object_graph_translated hctx hdistinct).2 6 _ log' {} {} t' hrun
      refine ⟨hdistinct, log', t', rfl, ⟨s, hs, hobjects⟩, fun id => ?_⟩
      obtain rfl := Option.some.inj (hs.symm.trans hcurrent)
      have hids : pool.ids = [1, 2] := by
        have hfirst := congrArg (List.map Prod.fst) hobjects
        rw [List.map_map] at hfirst
        exact hfirst
      rw [← hreaches, hids]
      simp

end ManagedCode
