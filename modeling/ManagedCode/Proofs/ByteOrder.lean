import ManagedCode.Proofs.CallerSlots
import ManagedCode.Proofs.Lockstep

/-! # Byte orders

    The byte order is asked for in one place, where a narrow value becomes an element of a long
    array and one half of the element stays zero.  Long arrays may be anywhere in the graph, and
    hold any other object or themselves.  Two runs in two orders still go in step: they meet the
    same objects at the same positions and make the same handles, and only the fields of long arrays
    come out in another order.

* **`PoolObject.Twins`**, **`Lowering.Twins`** — the same objects and tables in two orders.
* **`meetObject_twins`** — one level of the recursion keeps them, **`lowerObject_twins`** all of it.
* **`PoolObject.SwapsHalves`** — what the byte order does to an object.
* **`byte_order_swaps_halves`** — and to a suspension point. -/

namespace ManagedCode

/-- The same context in a byte order. -/
def ValueContext.inOrder (ctx : ValueContext) (order : ByteOrder) : ValueContext :=
  { ctx with byteOrder := order }

-- ── The same objects in two orders ──────────────────────────────────────────────

/-- The same object in two orders: its fields are made from the same parts, if it has them yet. -/
structure PoolObject.Twins (ctx : ValueContext) (order : ByteOrder) (ids : List Int)
    (p q : PoolObject) : Prop where
  id : q.id = p.id
  mirror : q.mirror = p.mirror
  fields : p.fields = [] ∧ q.fields = [] ∨
    ∃ object ∈ ctx.virtualObjects, object.id = p.id ∧ ∃ parts,
      List.Forall₂ (Value.Lowers ctx ids) object.values parts ∧
      p.fields = (parts.map (fieldSlots ctx object)).flatten ∧
      q.fields = (parts.map (fieldSlots (ctx.inOrder order) object)).flatten

/-- The tables of two runs in two orders. -/
structure Lowering.Twins (ctx : ValueContext) (order : ByteOrder) (t u : Lowering) : Prop where
  references : u.references = t.references
  handles : u.handles = t.handles
  seen : u.seen = t.seen
  indexed : t.Indexed
  objects : List.Forall₂ (PoolObject.Twins ctx order t.pool.ids) t.pool.objects u.pool.objects

/-- Two runs in two orders, with the same faults. -/
def Lowering.Likeness.orders (ctx : ValueContext) (order : ByteOrder) : Lowering.Likeness where
  Tables := Lowering.Twins ctx order
  Faults := Eq
  references h := h.references
  handles h := h.handles
  record h _ _ := ⟨rfl, rfl, h.seen, h.indexed, h.objects⟩
  fault _ := rfl

section Twins

variable {ctx : ValueContext} {order : ByteOrder} {ids ids' : List Int} {p q : PoolObject}
  {t u : Lowering}

theorem flatten_fieldSlots_eq_nil {object : VirtualObject} {parts : List Lowered} :
    (parts.map (fieldSlots ctx object)).flatten = [] ↔ parts = [] := by
  constructor
  · intro h
    rw [List.flatten_eq_nil_iff] at h
    refine List.eq_nil_iff_forall_not_mem.mpr fun l hl => ?_
    have hmem := primary_mem_fieldSlots ctx object l
    rw [h _ (List.mem_map_of_mem hl)] at hmem
    exact nomatch hmem
  · rintro rfl
    rfl

theorem PoolObject.Twins.fields_eq_nil (h : p.Twins ctx order ids q) :
    q.fields = [] ↔ p.fields = [] := by
  rcases h.fields with ⟨hp, hq⟩ | ⟨object, -, -, parts, -, hp, hq⟩
  · rw [hp, hq]
  · rw [hp, hq, flatten_fieldSlots_eq_nil, flatten_fieldSlots_eq_nil]

theorem PoolObject.Twins.mono (hids : ∀ (r : Nat) id, ids[r]? = some id → ids'[r]? = some id)
    (h : p.Twins ctx order ids q) : p.Twins ctx order ids' q := by
  refine ⟨h.id, h.mirror, h.fields.imp_right ?_⟩
  rintro ⟨object, hobject, hid, parts, hparts, hp, hq⟩
  exact ⟨object, hobject, hid, parts, hparts.imp fun _ _ hlowers => hlowers.mono hids, hp, hq⟩

/-- An object that is rebuilt has its fields in both orders. -/
theorem PoolObject.Twins.rebuilt (h : p.Twins ctx order ids q) (hp : p.Rebuilds ctx ids) :
    ∃ object ∈ ctx.virtualObjects, object.id = p.id ∧ ∃ parts,
      List.Forall₂ (Value.Lowers ctx ids) object.values parts ∧
      p.fields = (parts.map (fieldSlots ctx object)).flatten ∧
      q.fields = (parts.map (fieldSlots (ctx.inOrder order) object)).flatten := by
  rcases h.fields with ⟨hnone, hnone'⟩ | hfields
  · obtain ⟨object, hobject, hid, parts, hparts, hlowers⟩ := hp
    rw [hnone] at hparts
    obtain rfl := flatten_fieldSlots_eq_nil.mp hparts.symm
    exact ⟨object, hobject, hid, [], hlowers.imp fun _ _ hl => hl.1, hnone, hnone'⟩
  · exact hfields

-- ── The steps of the recursion ──────────────────────────────────────────────────

/-- Gives an object of the pool its fields. -/
def giveFields (position : Nat) (fields : List ScopeValue) : Lower Nat := do
  let t ← get
  let pool ← t.pool.setFields position fields
  set { t with pool }
  return position

theorem Lower.mapM_map {α β γ : Type} (f : α → Lower β) (g : β → γ) (xs : List α) :
    xs.mapM (fun a => do return g (← f a)) = do return (← xs.mapM f).map g := by
  induction xs with
  | nil => rfl
  | cons x rest ih =>
      rw [List.mapM_cons, List.mapM_cons, ih]
      simp only [bind_assoc, pure_bind, List.map_cons]

/-- The fields of an object are made from the values as they are lowered. -/
theorem meetObject_eq (ctx : ValueContext) (object : Int → Lower Nat) (id : Int) :
    meetObject ctx object id = (do
      match (← get).seen.lookup id with
      | some position => return position
      | none =>
          match ctx.describe? id with
          | none => throw (.value (.notDescribed id))
          | some described =>
              let position ← enterObject ctx described
              let parts ← described.values.mapM (lowerWith ctx object)
              giveFields position (parts.map (fieldSlots ctx described)).flatten) := by
  unfold meetObject giveFields
  congr 1
  funext t
  cases t.seen.lookup id with
  | some position => rfl
  | none =>
      cases ctx.describe? id with
      | none => rfl
      | some described => simp only [Lower.mapM_map, bind_assoc, pure_bind]

/-- An object is entered at the same position in both orders. -/
theorem enterObject_twins {object : VirtualObject} (hnew : t.seen.lookup object.id = none)
    (h : t.Twins ctx order u) :
    (Lowering.Likeness.orders ctx order).Ends ((enterObject ctx object).run t)
      ((enterObject (ctx.inOrder order) object).run u) := by
  refine (Lowering.Likeness.InStep.lift (ctx.world.mirror object.type) t u h).bind
    fun mirror t₁ u₁ hmirror h₁ => ?_
  obtain ⟨-, rfl⟩ := Lower.lift_ok hmirror
  refine (Lowering.Likeness.InStep.makeHandle mirror t u₁ h₁).bind fun handle t₂ u₂ hmake h₂ => ?_
  obtain ⟨handles, -, rfl⟩ := makeHandle_ok hmake
  have hsize : u₂.pool.size = t.pool.size := h₂.objects.length_eq.symm
  show (Lowering.Likeness.orders ctx order).Ends (.ok (t.pool.size, _)) (.ok (u₂.pool.size, _))
  rw [hsize]
  refine .ok ⟨h₂.references, h₂.handles, ?_, h₂.indexed.enter hnew rfl rfl, ?_⟩
  · show (object.id, t.pool.size) :: u₂.seen = (object.id, t.pool.size) :: t.seen
    rw [show u₂.seen = t.seen from h₂.seen]
  · have hids : ∀ (r : Nat) id, t.pool.ids[r]? = some id →
        (t.pool.allocate object.id (.reference (some handle))).ids[r]? = some id := by
      intro r id hr
      unfold ObjectPool.ids at hr ⊢
      rw [ObjectPool.allocate, List.map_append,
        List.getElem?_append_left (List.getElem?_eq_some_iff.mp hr).1]
      exact hr
    refine List.rel_append (h₂.objects.imp fun _ _ htwins => htwins.mono hids) (.cons ?_ .nil)
    exact ⟨rfl, rfl, .inl ⟨rfl, rfl⟩⟩

section Positions

variable {object : VirtualObject} {position : Nat} {parts : List Lowered}

theorem ObjectPool.setFields_eq {pool : ObjectPool} (hp : pool.objects[position]? = some p)
    (fields : List ScopeValue) :
    pool.setFields position fields =
      if p.fields = [] then .ok ⟨pool.objects.set position { p with fields }⟩
      else .error (.table (.fieldsSetTwice p.id)) := by
  unfold setFields get
  rw [hp]
  show require (p.fields = []) _ >>= _ = _
  unfold require
  split <;> rfl

/-- An object keeps its identity when it gets its fields. -/
theorem ObjectPool.ids_set {pool : ObjectPool} (hp : pool.objects[position]? = some p)
    (fields : List ScopeValue) :
    (⟨pool.objects.set position { p with fields }⟩ : ObjectPool).ids = pool.ids := by
  obtain ⟨hposition, rfl⟩ := List.getElem?_eq_some_iff.mp hp
  have hlength : position < pool.ids.length := by
    rw [ids, List.length_map]
    exact hposition
  have hid : pool.ids[position] = pool.objects[position].id := List.getElem_map ..
  unfold ids
  rw [List.map_set]
  show pool.ids.set position pool.objects[position].id = pool.ids
  rw [← hid, List.set_getElem_self]

theorem giveFields_run (position : Nat) (fields : List ScopeValue) (t : Lowering) :
    (giveFields position fields).run t =
      t.pool.setFields position fields >>= fun pool => .ok (position, { t with pool }) := by
  unfold giveFields
  rw [Lower.run_get_bind]
  cases t.pool.setFields position fields <;> rfl

theorem forall₂_set {α β : Type} {R : α → β → Prop} {xs : List α} {ys : List β} {x : α} {y : β}
    (h : List.Forall₂ R xs ys) (i : Nat) (hxy : R x y) :
    List.Forall₂ R (xs.set i x) (ys.set i y) := by
  induction h generalizing i with
  | nil => exact .nil
  | cons hfirst hrest ih =>
      cases i with
      | zero => exact .cons hxy hrest
      | succ i => exact .cons hfirst (ih i)

/-- An object gets the fields of the same parts in both orders. -/
theorem giveFields_twins (h : t.Twins ctx order u) (hobject : object ∈ ctx.virtualObjects)
    (hid : t.pool.ids[position]? = some object.id)
    (hparts : List.Forall₂ (Value.Lowers ctx t.pool.ids) object.values parts) :
    (Lowering.Likeness.orders ctx order).Ends
      ((giveFields position (parts.map (fieldSlots ctx object)).flatten).run t)
      ((giveFields position
        (parts.map (fieldSlots (ctx.inOrder order) object)).flatten).run u) := by
  rw [ObjectPool.ids, List.getElem?_map] at hid
  obtain ⟨p, hp, hpid⟩ := Option.map_eq_some_iff.mp hid
  obtain ⟨q, hq, hpq⟩ := exists_getElem?_of_forall₂ h.objects hp
  rw [giveFields_run, giveFields_run, ObjectPool.setFields_eq hp, ObjectPool.setFields_eq hq,
    hpq.id]
  simp only [hpq.fields_eq_nil]
  split
  · have hids := ObjectPool.ids_set hp (parts.map (fieldSlots ctx object)).flatten
    refine .ok ⟨h.references, h.handles, h.seen, ?_, ?_⟩
    · show Lowering.Indexed _
      unfold Lowering.Indexed
      dsimp only
      rw [hids]
      exact h.indexed
    · dsimp only
      rw [hids]
      exact forall₂_set h.objects position
        ⟨rfl, hpq.mirror, .inr ⟨object, hobject, hpid.symm, parts, hparts, rfl, rfl⟩⟩
  · exact .fault rfl

end Positions

section Level

variable {f g : Int → Lower Nat}
  (hf : ∀ id position t t', t.Indexed → (f id).run t = .ok (position, t') →
    t.Extends ctx (fun _ => True) t' ∧ t'.pool.ids[position]? = some id)
include hf

/-- The parts of an object are lowered behind what is in the pool. -/
theorem lowerParts_extends {values : List Value} {parts : List Lowered} {t' : Lowering}
    (ht : t.Indexed) (h : (values.mapM (lowerWith ctx f)).run t = .ok (parts, t')) :
    t.Extends ctx (fun _ => True) t' ∧
      List.Forall₂ (Value.Lowers ctx t'.pool.ids) values parts :=
  (Lowering.graphRule ctx fun _ => True).mapM_ok (P := fun t => Value.Lowers ctx t.pool.ids)
    (fun _ _ _ _ hextends hlowers => hlowers.mono hextends.ids)
    (fun _ _ _ _ _ ht hrun => lowerWith_extends (R := fun _ => True) (fun _ _ => hf _)
      (fun _ _ => trivial) ht hrun) ht h

/-- **One level of the recursion** keeps two runs in step, if the levels below do. -/
theorem meetObject_twins
    (hfg : ∀ id, (Lowering.Likeness.orders ctx order).InStep (f id) (g id)) (id : Int) :
    (Lowering.Likeness.orders ctx order).InStep (meetObject ctx f id)
      (meetObject (ctx.inOrder order) g id) := by
  intro t u h
  rw [meetObject_eq, meetObject_eq, Lower.run_get_bind, Lower.run_get_bind, h.seen]
  cases hseen : t.seen.lookup id with
  | some position => exact .ok h
  | none =>
      rw [show (ctx.inOrder order).describe? id = ctx.describe? id from rfl]
      cases hdescribed : ctx.describe? id with
      | none => exact .fault rfl
      | some object =>
          obtain ⟨hobject, rfl⟩ := ValueContext.describe?_ok hdescribed
          have hvalues : (Lowering.Likeness.orders ctx order).InStep
              (object.values.mapM (lowerWith ctx f))
              (object.values.mapM (lowerWith (ctx.inOrder order) g)) :=
            .mapM fun v _ => .lowerWith rfl fun id _ => hfg id
          refine (enterObject_twins hseen h).bind fun position t₁ u₁ henter h₁ => ?_
          refine (hvalues t₁ u₁ h₁).bind fun parts t₂ u₂ hparts h₂ => ?_
          obtain ⟨hextends, hlowers⟩ := lowerParts_extends hf h₁.indexed hparts
          -- the object is still where it was entered when it gets its fields
          have hid : t₁.pool.ids[position]? = some object.id := by
            obtain ⟨mirror, rfl, -, hmet⟩ := enterObject_entered henter
            refine (h₁.indexed _ _).mp ?_
            rw [hmet, List.lookup_cons_self]
          exact giveFields_twins h₂ hobject (hextends.ids _ _ hid) hlowers

end Level

theorem lowerObject_twins (unopened : Nat) (id : Int) :
    (Lowering.Likeness.orders ctx order).InStep (lowerObject ctx unopened id)
      (lowerObject (ctx.inOrder order) unopened id) := by
  induction unopened generalizing id with
  | zero =>
      intro t u h
      rw [lowerObject, lowerObject, Lower.run_get_bind, Lower.run_get_bind, h.seen]
      cases t.seen.lookup id with
      | some position => exact .ok h
      | none => exact .fault rfl
  | succ unopened ih =>
      have hfinds : ∀ id position t t', t.Indexed →
          (lowerObject ctx unopened id).run t = .ok (position, t') →
          t.Extends ctx (fun _ => True) t' ∧ t'.pool.ids[position]? = some id :=
        fun _ _ _ _ => lowerObject_extends (fun _ _ _ _ _ _ _ => trivial) trivial
      exact meetObject_twins hfinds ih id

theorem lower_twins (v : Value) :
    (Lowering.Likeness.orders ctx order).InStep (lower ctx v) (lower (ctx.inOrder order) v) :=
  .lowerWith rfl fun id _ => lowerObject_twins _ id

-- ── Suspension points ───────────────────────────────────────────────────────────

theorem describeFrames_twins (ctx : ValueContext) (order : ByteOrder) (pc : Nat)
    (log : SafepointLog) (frames : List Frame) :
    (Lowering.Likeness.orders ctx order).InStep (describeFrames ctx pc log frames)
      (describeFrames (ctx.inOrder order) pc log frames) :=
  .describeFrames (fun _ _ v _ => lower_twins v) fun _ _ _ _ =>
    .monitor fun owner slot _ _ => ⟨lower_twins owner, .lockRecord (lower_twins slot)⟩

end Twins

-- ── Elements of long arrays ─────────────────────────────────────────────────────

/-- The pair of slots that the element of a long array at `j` takes. -/
def PoolObject.pair? (p : PoolObject) (j : Nat) : Option (ScopeValue × ScopeValue) := do
  return (← p.fields[2 * j]?, ← p.fields[2 * j + 1]?)

/-- The two slots of a value as an element of a long array. -/
def Lowered.element (order : ByteOrder) (l : Lowered) : ScopeValue × ScopeValue :=
  match l.second, order with
  | some second, _ => (second, l.primary)
  | none, .little => (.int 0, l.primary)
  | none, .big => (l.primary, .int 0)

theorem Lowered.asLongElement_eq (order : ByteOrder) (l : Lowered) :
    (l.asLongElement order).slots = [(l.element order).1, (l.element order).2] := by
  obtain ⟨primary, second⟩ := l
  cases second <;> cases order <;> rfl

theorem length_flatten_pairs {α β : Type} (f : α → β × β) (xs : List α) :
    (xs.map fun x => [(f x).1, (f x).2]).flatten.length = 2 * xs.length := by
  induction xs with
  | nil => rfl
  | cons x rest ih =>
      rw [List.map_cons, List.flatten_cons, List.length_append, ih]
      simp only [List.length_cons, List.length_nil]
      omega

/-- The pair of an element is found at twice its index. -/
theorem getElem?_flatten_pairs {α β : Type} {f : α → β × β} {xs : List α} {x : α} {j : Nat}
    (hx : xs[j]? = some x) :
    (xs.map fun x => [(f x).1, (f x).2]).flatten[2 * j]? = some (f x).1 ∧
      (xs.map fun x => [(f x).1, (f x).2]).flatten[2 * j + 1]? = some (f x).2 := by
  induction xs generalizing j with
  | nil => exact nomatch hx
  | cons first rest ih =>
      cases j with
      | zero =>
          obtain rfl := Option.some.inj hx
          exact ⟨rfl, rfl⟩
      | succ j => exact ih hx

/-- The slots of a value as an element of a long array, in little and in big endian order: those of
    a wide value are the same, and a narrow one leaves the first or the last zero. -/
inductive Value.Halves (ctx : ValueContext) (ids : List Int) (v : Value) :
    Option (ScopeValue × ScopeValue) → Option (ScopeValue × ScopeValue) → Prop
  | wide {first last : ScopeValue} (hwide : v.kind.isWide = true)
      (h : v.Lowers ctx ids ⟨last, some first⟩) : Halves ctx ids v (some (first, last))
        (some (first, last))
  | narrow {slot : ScopeValue} (hnarrow : v.kind.isWide = false)
      (h : v.Lowers ctx ids (.single slot)) : Halves ctx ids v (some (.int 0, slot))
        (some (slot, .int 0))

/-- What the byte order does to an object: in big endian order it is as in little endian order, and
    only the halves of the elements of a long array are in another order. -/
structure PoolObject.SwapsHalves (ctx : ValueContext) (ids : List Int) (p q : PoolObject) :
    Prop where
  id : q.id = p.id
  mirror : q.mirror = p.mirror
  fields : ∃ object, ctx.describe? p.id = some object ∧
    (object.type ≠ ctx.world.longArrayType → q.fields = p.fields) ∧
    (object.type = ctx.world.longArrayType →
      p.fields.length = 2 * object.values.length ∧ q.fields.length = 2 * object.values.length ∧
      ∀ j (v : Value), object.values[j]? = some v → v.Halves ctx ids (p.pair? j) (q.pair? j))

section Halves

variable {ctx : ValueContext} {ids : List Int} {p q : PoolObject} {object : VirtualObject}
  {parts : List Lowered}

theorem Value.Lowers.halves {v : Value} {l : Lowered} (h : v.Lowers ctx ids l) :
    v.Halves ctx ids (some (l.element .little)) (some (l.element .big)) := by
  obtain ⟨place, -, t, t', hrun⟩ := id h
  have hsecond := lowerWith_second hrun
  obtain ⟨primary, second⟩ := l
  cases second with
  | none => exact .narrow hsecond.symm h
  | some second => exact .wide hsecond.symm h

theorem pair?_eq {f : Lowered → ScopeValue × ScopeValue} {j : Nat} {l : Lowered}
    (hp : p.fields = (parts.map fun l => [(f l).1, (f l).2]).flatten) (hl : parts[j]? = some l) :
    p.pair? j = some (f l) := by
  obtain ⟨hfirst, hlast⟩ := getElem?_flatten_pairs (f := f) hl
  rw [PoolObject.pair?, hp, hfirst, hlast]
  rfl

theorem fieldSlots_longArray (htype : object.type = ctx.world.longArrayType) :
    parts.map (fieldSlots ctx object) =
      parts.map fun l => [(l.element ctx.byteOrder).1, (l.element ctx.byteOrder).2] := by
  refine List.map_congr_left fun l _ => ?_
  rw [fieldSlots, if_pos htype, Lowered.asLongElement_eq]

theorem PoolObject.Twins.swapsHalves (h : p.Twins ctx .big ids q) (hp : p.Rebuilds ctx ids)
    (horder : ctx.byteOrder = .little)
    (hdistinct : (ctx.virtualObjects.map VirtualObject.id).Nodup) :
    p.SwapsHalves ctx ids q := by
  obtain ⟨object, hobject, hid, parts, hparts, hlittle, hbig⟩ := h.rebuilt hp
  refine ⟨h.id, h.mirror, object, (find?_key_iff hdistinct).mpr ⟨hobject, hid⟩, ?_, ?_⟩
  · intro htype
    rw [hlittle, hbig]
    congr 2
    funext l
    rw [fieldSlots, fieldSlots, if_neg htype]
    exact if_neg htype
  · intro htype
    rw [fieldSlots_longArray htype, horder] at hlittle
    have hslots : parts.map (fieldSlots (ctx.inOrder .big) object) = _ := fieldSlots_longArray htype
    rw [hslots] at hbig
    have hlength := hparts.length_eq
    refine ⟨?_, ?_, fun j v hv => ?_⟩
    · rw [hlittle, length_flatten_pairs, hlength]
    · rw [hbig, length_flatten_pairs, hlength]
    · obtain ⟨l, hl, hlowers⟩ := exists_getElem?_of_forall₂ hparts hv
      rw [pair?_eq hlittle hl, pair?_eq hbig hl]
      exact hlowers.halves

end Halves

-- ── The two runs ────────────────────────────────────────────────────────────────

theorem Lowering.indexed_empty {references : ReferenceRecorder} {handles : HandleTable} :
    Lowering.Indexed { references, handles } := by
  intro id r
  constructor <;> exact nofun

/-- All objects are rebuilt once the frames are described. -/
theorem describeFrames_rebuilds {ctx : ValueContext} {pc : Nat} {log log' : SafepointLog}
    {frames : List Frame} {references : ReferenceRecorder} {handles : HandleTable} {t : Lowering}
    (hframes : frames ≠ [])
    (h : (describeFrames ctx pc log frames).run { references, handles } = .ok (log', t)) :
    ∀ p ∈ t.pool.objects, p.Rebuilds ctx t.pool.ids := by
  obtain ⟨s, hs⟩ := exists_open_of_describeFrames hframes h
  obtain ⟨scopes, hscopes, -⟩ := describeFrames_ok hs h
  obtain ⟨hextends, -⟩ := (Lowering.graph ctx (fun _ => True) fun _ _ _ _ _ _ _ => trivial).chain
    (fun _ _ _ _ _ _ => trivial) Lowering.indexed_empty hscopes
  obtain ⟨new, hadds, hnew⟩ := hextends.adds
  rw [hadds]
  exact fun p hp => (hnew p hp).2

/-- What the byte order does to a recording: in big endian order it stops with the same fault, or
    goes through with the same scopes, references and handles, and with the same objects but for the
    halves of their elements. -/
inductive SafepointLog.SwapsHalves (ctx : ValueContext) :
    Checked (SafepointLog × Lowering) → Checked (SafepointLog × Lowering) → Prop
  | fault (e : Fault) : SwapsHalves ctx (.error e) (.error e)
  | recorded {log : SafepointLog} {s : Safepoint} {pool : ObjectPool} {t u : Lowering}
      (hcurrent : log.current = some s) (hreferences : u.references = t.references)
      (hhandles : u.handles = t.handles)
      (hobjects : List.Forall₂ (PoolObject.SwapsHalves ctx s.objects.ids) s.objects.objects
        pool.objects) :
      SwapsHalves ctx (.ok (log, t))
        (.ok ({ log with current := some { s with objects := pool } }, u))

theorem Lowering.Twins.withObjects {ctx : ValueContext} {pc : Nat} {log : SafepointLog}
    {t u : Lowering} (h : t.Twins ctx .big u) (horder : ctx.byteOrder = .little)
    (hdistinct : (ctx.virtualObjects.map VirtualObject.id).Nodup)
    (hrebuilds : ∀ p ∈ t.pool.objects, p.Rebuilds ctx t.pool.ids) :
    SafepointLog.SwapsHalves ctx (withObjects pc (log, t)) (withObjects pc (log, u)) := by
  unfold ManagedCode.withObjects
  cases log.currentAt pc with
  | error e => exact .fault e
  | ok s =>
      have hobjects := (List.forall₂_and_left _ _).mpr ⟨hrebuilds, h.objects⟩
      exact .recorded (s := { s with objects := t.pool }) rfl h.references h.handles
        (hobjects.imp fun p q hpq => hpq.2.swapsHalves hpq.1 horder hdistinct)

/-- **The byte order swaps halves.** The scopes of a suspension point are recorded in both byte
    orders or in none, with the same fault. In big endian order they are the same scopes, with the
    same references and handles, and the pool has the same objects at the same positions: the fields
    of an object differ only if it is a long array, and there only where a narrow value leaves one
    half of an element zero. -/
theorem byte_order_swaps_halves (world : Description) (frameSize : Int) (info : DebugInfo)
    (pc : Nat) (log : SafepointLog) (references : ReferenceRecorder) (handles : HandleTable) :
    SafepointLog.SwapsHalves (info.contextIn world .little frameSize)
      ((info.recordScopes world .little frameSize pc log).run { references, handles })
      ((info.recordScopes world .big frameSize pc log).run { references, handles }) := by
  cases hrepeated : Description.firstRepeated [] (info.virtualObjects.map VirtualObject.id) with
  | some id =>
      rw [DebugInfo.recordScopes_of_repeated hrepeated,
        DebugInfo.recordScopes_of_repeated hrepeated]
      exact .fault _
  | none =>
      rw [DebugInfo.recordScopes_of_distinct hrepeated,
        DebugInfo.recordScopes_of_distinct hrepeated]
      have hframes := describeFrames_twins (info.contextIn world .little frameSize) .big pc log
        info.chain.reverse { references, handles } { references, handles }
        ⟨rfl, rfl, rfl, Lowering.indexed_empty, .nil⟩
      rw [show (info.contextIn world .little frameSize).inOrder .big =
        info.contextIn world .big frameSize from rfl] at hframes
      generalize hlittle : (describeFrames (info.contextIn world .little frameSize) pc log
        info.chain.reverse).run { references, handles } = little at hframes ⊢
      generalize (describeFrames (info.contextIn world .big frameSize) pc log
        info.chain.reverse).run { references, handles } = big at hframes ⊢
      cases hframes with
      | fault he =>
          obtain rfl := he
          exact .fault _
      | ok htwins =>
          exact htwins.withObjects rfl (Description.nodup_of_firstRepeated hrepeated).1
            (describeFrames_rebuilds (by simp [DebugInfo.chain]) hlittle)

-- ── A long array in a cycle ─────────────────────────────────────────────────────

/-- A long array that holds itself, a long and an int, and a node that holds the array. -/
def DebugInfo.sampleLongs : DebugInfo :=
  { DebugInfo.sampleGraph with
    virtualObjects :=
      [⟨1, ⟨0x300⟩, [.virtualObject 1, .constant (.long 7), .constant (.int 5)]⟩,
       ⟨2, ⟨0x400⟩, [.virtualObject 1, .constant (.int 5)]⟩] }

/-- The narrow elements of the array change halves, and nothing else does. -/
theorem byte_order_swaps_halves_longs :
    let run order :=
      (DebugInfo.sampleLongs.recordScopes .sample order 16 6 .sampleOpen).run {}
    describedObjects? (run .little) = some
      [(1, [.int 0, .object 0, .int 0, .long 7, .int 0, .int 5]), (2, [.object 0, .int 5])] ∧
    describedObjects? (run .big) = some
      [(1, [.object 0, .int 0, .int 0, .long 7, .int 5, .int 0]), (2, [.object 0, .int 5])] ∧
    SafepointLog.SwapsHalves (DebugInfo.sampleLongs.contextIn .sample .little 16) (run .little)
      (run .big) :=
  ⟨by decide +kernel, by decide +kernel,
    byte_order_swaps_halves .sample 16 .sampleLongs 6 .sampleOpen {} {}⟩

end ManagedCode
