import Mathlib.Data.List.SplitLengths
import ManagedCode.Proofs.Hierarchy
import ManagedCode.Proofs.ObjectGraph
import ManagedCode.Proofs.Slots
import ManagedCode.Proofs.Suspension

/-! # Slots of the caller

    A stack slot may be counted from the caller's end of the frame.  What is recorded for it counts
    from the stack pointer, so it is the whole frame further away.  Such slots stand among the
    values of the frames, as owners and records of locks, and as fields of the objects that the
    frames reach.  The whole frame comes to all of them as a 32 bit number, which wraps around when
    the frame with its return address is as long as 2 ^ 31 bytes.

* **`DebugInfo.Mentions`**, **`Safepoint.recorded`** — the values that a suspension point mentions,
  and the slots recorded for each of them.
* **`Safepoint.PlacedBy`** — every slot of the caller is recorded at a distance.
* **`Safepoint.MadeBy`**, **`Safepoint.MadeBy.placed`** — a described suspension point places them
  by the whole frame, with **`applySites_made`** for the run of the sites.
* **`caller_slots_placed_iff`** — the units whose slots of the caller are placed by their frame. -/

namespace ManagedCode

-- ── What is mentioned and what is recorded ──────────────────────────────────────

/-- The owner and the record of a lock. -/
def Value.lock? : Value → Option (Value × Value)
  | stackLock owner record _ => some (owner, record)
  | _ => none

/-- The number of slots that a value takes. -/
def Value.width (v : Value) : Nat := if v.kind.isWide then 2 else 1

theorem Value.width_stackSlot (offset : Int) (addFrameSize : Bool) (kind : Kind) :
    (stackSlot offset addFrameSize kind).width = if kind.isWide then 2 else 1 := rfl

/-- The number of slots that a value takes as a field. An element of a long array is always wide. -/
def VirtualObject.fieldWidth (world : Description) (object : VirtualObject) (v : Value) : Nat :=
  if object.type = world.longArrayType then 2 else v.width

/-- The locks of a frame, in order. -/
def Frame.locks (frame : Frame) : List (Value × Value) := frame.values.filterMap Value.lock?

/-- The locals and expressions of a scope, in order. -/
def Scope.cells (s : Scope) : List ScopeValue := s.locals ++ s.expressions

/-- Where a suspension point mentions a value. Frames count from the innermost one. -/
inductive Mention where
  | slot (depth index : Nat)
  | owner (depth lock : Nat)
  | record (depth lock : Nat)
  | field (id : Int) (index : Nat)
deriving DecidableEq, Repr

/-- The values that a suspension point mentions: those of its frames, the owners and records of
    their locks, and the fields of the objects that are reached from there. -/
inductive DebugInfo.Mentions (info : DebugInfo) : Mention → Value → Prop
  | slot {depth i : Nat} {frame : Frame} {v : Value} (hframe : info.chain[depth]? = some frame)
      (hv : frame.values[i]? = some v) : Mentions info (.slot depth i) v
  | owner {depth i : Nat} {frame : Frame} {owner record : Value}
      (hframe : info.chain[depth]? = some frame)
      (hlock : frame.locks[i]? = some (owner, record)) : Mentions info (.owner depth i) owner
  | record {depth i : Nat} {frame : Frame} {owner record : Value}
      (hframe : info.chain[depth]? = some frame)
      (hlock : frame.locks[i]? = some (owner, record)) : Mentions info (.record depth i) record
  | field {object : VirtualObject} {i : Nat} {v : Value} (hreached : info.Reaches object.id)
      (hobject : object ∈ info.virtualObjects) (hv : object.values[i]? = some v) :
      Mentions info (.field object.id i) v

/-- A suspension point mentions a slot of the caller. -/
def DebugInfo.MentionsCaller (info : DebugInfo) : Prop :=
  ∃ m offset kind, info.Mentions m (.stackSlot offset true kind)

/-- The scope of the frame at a depth. -/
def Safepoint.scopeAt (s : Safepoint) (depth : Nat) : Scope := s.scopes.getD depth default

/-- The slots of a safepoint for a value that is mentioned at its suspension point. The fields of an
    object are cut out of its slots by their widths. -/
def Safepoint.recorded (world : Description) (info : DebugInfo) (s : Safepoint) (v : Value) :
    Mention → List ScopeValue
  | .slot depth i => ((s.scopeAt depth).cells.drop i).take v.width
  | .owner depth i => ((s.scopeAt depth).monitors[i]?.map Monitor.owner).toList
  | .record depth i => ((s.scopeAt depth).monitors[i]?.map fun m => .location m.lock).toList
  | .field id i =>
      match info.virtualObjects.find? (fun object => object.id == id),
        s.objects.objects.find? (fun p => p.id == id) with
      | some object, some p =>
          ((object.values.map (object.fieldWidth world)).splitLengths p.fields)[i]?.getD []
      | _, _ => []

theorem Safepoint.recorded_field {world : Description} {info : DebugInfo} {s : Safepoint}
    {v : Value} {id : Int} {i : Nat} {object : VirtualObject} {p : PoolObject}
    (hobject : info.virtualObjects.find? (fun object => object.id == id) = some object)
    (hp : s.objects.objects.find? (fun p => p.id == id) = some p) :
    s.recorded world info v (.field id i) =
      ((object.values.map (object.fieldWidth world)).splitLengths p.fields)[i]?.getD [] := by
  simp only [recorded, hobject, hp]

/-- A location stands among some slots, and no other location does. -/
structure LocatedAt (place : Location) (slots : List ScopeValue) : Prop where
  mem : .location place ∈ slots
  only : ∀ other, .location other ∈ slots → other = place

/-- The place of a slot of the caller that is a distance further away than it says. -/
def callerPlace (distance offset : Int) (kind : Kind) : Location :=
  ⟨.stack (offset + distance), stackReading kind⟩

/-- Every slot of the caller is recorded a distance further away than it says. -/
def Safepoint.PlacedBy (world : Description) (distance : Int) (info : DebugInfo) (s : Safepoint) :
    Prop :=
  ∀ m offset kind, info.Mentions m (.stackSlot offset true kind) →
    LocatedAt (callerPlace distance offset kind)
      (s.recorded world info (.stackSlot offset true kind) m)

theorem LocatedAt.unique {place other : Location} {slots : List ScopeValue}
    (h : LocatedAt place slots) (hother : LocatedAt other slots) : place = other :=
  hother.only place h.mem

theorem LocatedAt.singleton (place : Location) : LocatedAt place [.location place] where
  mem := List.mem_singleton_self _
  only _ hother := ScopeValue.location.inj (List.mem_singleton.mp hother)

/-- Where a slot of the caller is mentioned, the distance can be read off. -/
theorem Safepoint.PlacedBy.unique {world : Description} {a b : Int} {info : DebugInfo}
    {s : Safepoint} (ha : s.PlacedBy world a info) (hb : s.PlacedBy world b info)
    (hmentions : info.MentionsCaller) : a = b := by
  obtain ⟨m, offset, kind, hm⟩ := hmentions
  have hplace : callerPlace a offset kind = callerPlace b offset kind :=
    (ha m offset kind hm).unique (hb m offset kind hm)
  have hspot : offset + a = offset + b := Spot.stack.inj (congrArg Location.spot hplace)
  omega

-- ── One slot ────────────────────────────────────────────────────────────────────

section Lowered

variable {ctx : ValueContext} {object : Int → Lower Nat} {t t' : Lowering} {l : Lowered}
  {offset : Int} {kind : Kind} {place : Location}

/-- The slots of a lowered value are one and the same location. -/
def Lowered.AllAt (place : Location) (l : Lowered) : Prop := ∀ s ∈ l.slots, s = .location place

theorem Lowered.primary_mem_slots (l : Lowered) : l.primary ∈ l.slots := by
  rw [Lowered.slots]
  split
  · exact List.mem_cons_of_mem _ (List.mem_singleton_self _)
  · exact List.mem_singleton_self _

theorem Lowered.AllAt.primary (h : l.AllAt place) : l.primary = .location place :=
  h _ l.primary_mem_slots

theorem Lowered.AllAt.located (h : l.AllAt place) : LocatedAt place l.slots := by
  refine ⟨h.primary ▸ l.primary_mem_slots, fun other hother => ?_⟩
  exact ScopeValue.location.inj (h _ hother)

/-- An element of a long array takes two slots, and its primary one is among them. -/
theorem Lowered.asLongElement_slots (order : ByteOrder) (l : Lowered) :
    (l.asLongElement order).slots.length = 2 ∧ l.primary ∈ (l.asLongElement order).slots := by
  obtain ⟨primary, second⟩ := l
  cases second with
  | some second => exact ⟨rfl, List.mem_cons_of_mem _ (List.mem_singleton_self _)⟩
  | none =>
      cases order with
      | little => exact ⟨rfl, List.mem_cons_of_mem _ (List.mem_singleton_self _)⟩
      | big => exact ⟨rfl, List.mem_cons_self⟩

theorem primary_mem_fieldSlots (ctx : ValueContext) (described : VirtualObject) (l : Lowered) :
    l.primary ∈ fieldSlots ctx described l := by
  rw [fieldSlots]
  split
  · exact (l.asLongElement_slots ctx.byteOrder).2
  · exact l.primary_mem_slots

/-- As a field it is at its location as well: the other half of an element is a number. -/
theorem Lowered.AllAt.field (h : l.AllAt place) (described : VirtualObject) :
    LocatedAt place (fieldSlots ctx described l) := by
  refine ⟨h.primary ▸ primary_mem_fieldSlots ctx described l, fun other hother => ?_⟩
  rcases mem_fieldSlots hother with hslot | hzero
  · exact ScopeValue.location.inj (h _ hslot)
  · exact nomatch hzero

/-- **A slot of the caller** is the frame further away than it says, as a sum without wrapping. -/
theorem lowerStackSlot_caller (h : lowerStackSlot ctx offset true kind = .ok l) :
    l.AllAt (callerPlace ctx.frameSize offset kind) := by
  obtain ⟨sum, hsum, h⟩ := Checked.bind_ok h
  obtain ⟨_, -, hsum⟩ := Checked.bind_ok hsum
  obtain rfl := Checked.pure_ok hsum
  intro s hs
  dsimp only at h
  split at h
  · rw [← Checked.pure_ok h] at hs
    rcases List.mem_cons.mp hs with rfl | hs
    · rfl
    · exact List.mem_singleton.mp hs
  · rw [← Checked.pure_ok h] at hs
    exact List.mem_singleton.mp hs

theorem lowerWith_caller
    (h : (lowerWith ctx object (.stackSlot offset true kind)).run t = .ok (l, t')) :
    l.AllAt (callerPlace ctx.frameSize offset kind) :=
  lowerStackSlot_caller (Lower.lift_ok h).1

theorem fieldSlots_length {described : VirtualObject} {v : Value}
    (h : (lowerWith ctx object v).run t = .ok (l, t')) :
    (fieldSlots ctx described l).length = described.fieldWidth ctx.world v := by
  rw [fieldSlots, VirtualObject.fieldWidth]
  split
  · exact (l.asLongElement_slots ctx.byteOrder).1
  · exact lowerWith_slots_length h

end Lowered

-- ── The scope of a frame ────────────────────────────────────────────────────────

section Scopes

variable {ctx : ValueContext} {frame : Frame} {t t' : Lowering} {scope : Scope}
  {tables : Nat → Lowering} {offset : Int} {kind : Kind} {i : Nat}

/-- A lock has the slots of its owner and of its record. -/
structure Monitor.Lowers (ctx : ValueContext) (lock : Value × Value) (m : Monitor) : Prop where
  owner : ∃ t t' l, (lower ctx lock.1).run t = .ok (l, t') ∧ l.primary = m.owner
  record : ∃ t t' l, (lower ctx lock.2).run t = .ok (l, t') ∧ l.primary = .location m.lock

theorem lowerMonitor_lowers {v : Value} {m : Monitor}
    (h : (lowerMonitor ctx v).run t = .ok (m, t')) :
    ∃ lock, v.lock? = some lock ∧ m.Lowers ctx lock := by
  cases v with
  | stackLock owner record eliminated =>
      obtain ⟨l, t₁, howner, h⟩ := Lower.bind_ok h
      obtain ⟨_, _, -, h⟩ := Lower.bind_ok h
      obtain ⟨lock, t₂, hrecord, h⟩ := Lower.bind_ok h
      obtain ⟨_, _, -, h⟩ := Lower.bind_ok h
      split at h
      · next location hlocation =>
          obtain ⟨rfl, -⟩ := Lower.pure_ok h
          refine ⟨(owner, record), rfl, ⟨_, _, l, howner, rfl⟩, ⟨_, _, lock, hrecord, ?_⟩⟩
          cases hprimary : lock.primary with
          | location place =>
              rw [hprimary] at hlocation
              rw [Option.some.inj hlocation]
          | _ =>
              rw [hprimary] at hlocation
              exact nomatch hlocation
      · obtain ⟨_, _, -, h⟩ := Lower.bind_ok h
        exact (Lower.throw_ok h).elim
  | _ => exact (Lower.throw_ok h).elim

theorem lower_lock? {v : Value} {l : Lowered} (h : (lower ctx v).run t = .ok (l, t')) :
    v.lock? = none := by
  cases v with
  | stackLock owner record eliminated => exact (Lower.throw_ok h).elim
  | _ => rfl

/-- The locks of a scope are those among the values of the frame. -/
theorem lowerSlots_locks {values : List Value} {f : FrameSlots}
    (h : (lowerSlots ctx frame i values).run t = .ok (f, t')) :
    List.Forall₂ (Monitor.Lowers ctx) (values.filterMap Value.lock?) f.monitors := by
  induction i, values using lowerSlots.induct frame generalizing t t' f with
  | case1 i =>
      obtain ⟨rfl, -⟩ := Lower.pure_ok h
      exact .nil
  | case2 i v rest hslot ih ihWide =>
      rw [lowerSlots, if_pos hslot] at h
      obtain ⟨l, t₁, hl, h⟩ := Lower.bind_ok h
      rw [List.filterMap_cons_none (lower_lock? hl)]
      cases hsecond : l.second with
      | none =>
          rw [hsecond] at h
          obtain ⟨f', t₂, hslots, h⟩ := Lower.bind_ok h
          obtain ⟨rfl, -⟩ := Lower.pure_ok h
          rw [FrameSlots.push_monitors]
          exact ih hslots
      | some second =>
          rw [hsecond] at h
          rcases rest with _ | ⟨_ | _ | _ | _ | _ | _, rest⟩
          case cons.illegal =>
            obtain ⟨f', t₂, hslots, h⟩ := Lower.bind_ok h
            obtain ⟨rfl, -⟩ := Lower.pure_ok h
            rw [FrameSlots.push_monitors]
            exact ihWide hslots
          all_goals exact (Lower.throw_ok h).elim
  | case3 i v rest hlock ih =>
      rw [lowerSlots, if_neg hlock] at h
      obtain ⟨m, t₁, hm, h⟩ := Lower.bind_ok h
      obtain ⟨f', t₂, hslots, h⟩ := Lower.bind_ok h
      obtain ⟨rfl, -⟩ := Lower.pure_ok h
      obtain ⟨lock, hv, hlowers⟩ := lowerMonitor_lowers hm
      rw [List.filterMap_cons_some hv]
      exact .cons hlowers (ih hslots)

theorem lowerFrame_locks (h : (lowerFrame ctx frame).run t = .ok (scope, t')) :
    List.Forall₂ (Monitor.Lowers ctx) frame.locks scope.monitors := by
  obtain ⟨_, _, -, h⟩ := Lower.bind_ok h
  obtain ⟨_, _, -, h⟩ := Lower.bind_ok h
  obtain ⟨slots, _, hslots, h⟩ := Lower.bind_ok h
  obtain ⟨rfl, -⟩ := Lower.pure_ok h
  exact lowerSlots_locks hslots

/-- A stack slot among the values of a frame is no placeholder and no lock. -/
theorem Scope.AlignedWith.stackSlot (haligned : scope.AlignedWith ctx frame tables)
    {addFrameSize : Bool} (hv : frame.values[i]? = some (.stackSlot offset addFrameSize kind)) :
    frame.isPlaceholder i = false ∧ i < frame.localCount + frame.stackCount := by
  have hplace : frame.isPlaceholder i = false := by
    by_contra hplace
    obtain ⟨hillegal, -⟩ := haligned.placeholder i (Bool.eq_true_of_not_eq_false hplace)
    exact nomatch hv.symm.trans hillegal
  refine ⟨hplace, ?_⟩
  by_contra hlock
  have hend : i < frame.values.length := (List.getElem?_eq_some_iff.mp hv).1
  obtain ⟨m, -, v, hlocked, hm⟩ := exists_of_forall₂ haligned.monitors
    (List.mem_filter.mpr ⟨List.mem_range.mpr hend, by
      rw [hplace, decide_eq_true (Nat.le_of_not_lt hlock)]
      rfl⟩)
  obtain rfl := Option.some.inj (hv.symm.trans hlocked)
  exact (Lower.throw_ok hm).elim

theorem take_drop_pair {α : Type} {xs : List α} {x y : α} (hx : xs[i]? = some x)
    (hy : xs[i + 1]? = some y) : (xs.drop i).take 2 = [x, y] := by
  obtain ⟨hi, rfl⟩ := List.getElem?_eq_some_iff.mp hx
  obtain ⟨hi', rfl⟩ := List.getElem?_eq_some_iff.mp hy
  rw [List.drop_eq_getElem_cons hi, List.drop_eq_getElem_cons hi']
  rfl

/-- The slots of a scope at the index of a slot of the caller are its slots. -/
theorem Scope.AlignedWith.located (haligned : scope.AlignedWith ctx frame tables)
    (hv : frame.values[i]? = some (.stackSlot offset true kind)) :
    LocatedAt (callerPlace ctx.frameSize offset kind)
      ((scope.cells.drop i).take (Value.stackSlot offset true kind).width) := by
  obtain ⟨hplace, hslot⟩ := haligned.stackSlot hv
  by_cases hwide : kind.isWide = true
  · obtain ⟨-, primary, second, hrun, hsecond, hprimary⟩ :=
      haligned.wide i _ hslot hplace hv hwide
    rw [Value.width_stackSlot, if_pos hwide, Scope.cells, take_drop_pair hsecond hprimary]
    exact (lowerWith_caller hrun).located
  · obtain ⟨slot, hrun, hcell⟩ :=
      haligned.narrow i _ hslot hplace hv (Bool.eq_false_iff.mpr hwide)
    rw [Value.width_stackSlot, if_neg hwide, Scope.cells, List.take_one, List.head?_drop, hcell]
    exact (lowerWith_caller hrun).located

end Scopes

-- ── The fields of an object ─────────────────────────────────────────────────────

theorem exists_getElem?_of_forall₂ {α β : Type} {R : α → β → Prop} {xs : List α} {ys : List β}
    {x : α} {i : Nat} (h : List.Forall₂ R xs ys) (hx : xs[i]? = some x) :
    ∃ y, ys[i]? = some y ∧ R x y := by
  obtain ⟨hi, rfl⟩ := List.getElem?_eq_some_iff.mp hx
  have hi' : i < ys.length := h.length_eq ▸ hi
  exact ⟨ys[i], List.getElem?_eq_getElem hi', h.get hi hi'⟩

/-- Parts put behind one another are got back by their lengths. -/
theorem splitLengths_flatten {α β : Type} {width : α → Nat} {xs : List α} {parts : List (List β)}
    (h : List.Forall₂ (fun x part => part.length = width x) xs parts) :
    (xs.map width).splitLengths parts.flatten = parts := by
  induction h with
  | nil => rfl
  | cons hlength _ ih =>
      rw [List.map_cons, List.splitLengths_cons, List.flatten_cons, List.take_left' hlength,
        List.drop_left' hlength, ih]

/-- The slots of a field are found by the widths of the fields in front. -/
theorem PoolObject.Rebuilds.field {ctx : ValueContext} {ids : List Int} {p : PoolObject}
    {object : VirtualObject} {i : Nat} {v : Value} (h : p.Rebuilds ctx ids)
    (hdistinct : (ctx.virtualObjects.map VirtualObject.id).Nodup)
    (hobject : object ∈ ctx.virtualObjects) (hid : object.id = p.id)
    (hv : object.values[i]? = some v) :
    ∃ l, v.Lowers ctx ids l ∧
      ((object.values.map (object.fieldWidth ctx.world)).splitLengths p.fields)[i]? =
        some (fieldSlots ctx object l) := by
  obtain ⟨described, hdescribed, hid', parts, hfields, hparts⟩ := h
  obtain rfl : described = object :=
    List.inj_on_of_nodup_map hdistinct hdescribed hobject (hid'.trans hid.symm)
  have hlengths : List.Forall₂
      (fun v part => part.length = described.fieldWidth ctx.world v) described.values
      (parts.map (fieldSlots ctx described)) := by
    rw [List.forall₂_map_right_iff]
    refine hparts.imp ?_
    rintro v l ⟨⟨place, -, t, t', hrun⟩, -⟩
    exact fieldSlots_length hrun
  obtain ⟨l, hl, hlowers, -⟩ := exists_getElem?_of_forall₂ hparts hv
  refine ⟨l, hlowers, ?_⟩
  rw [hfields, splitLengths_flatten hlengths, List.getElem?_map, hl]
  rfl

-- ── Suspension points ───────────────────────────────────────────────────────────

/-- A safepoint is made by describing a suspension point, with no objects to start with. -/
def Safepoint.MadeBy (ctx : SiteContext) (info : DebugInfo) (s : Safepoint) : Prop :=
  ∃ (d : Draft) (t : Lowering), (info.describe ctx).run d.lowering = .ok (s.described, t) ∧
    s.objects = t.pool

section Made

variable {ctx : SiteContext} {info : DebugInfo} {s : Safepoint} {d d' : Draft}

theorem Safepoint.MadeBy.nodup (h : s.MadeBy ctx info) :
    (info.virtualObjects.map VirtualObject.id).Nodup := by
  obtain ⟨d, t, hrun, -⟩ := h
  exact (Description.nodup_of_firstRepeated (info.describe_ok hrun).1).1

theorem Safepoint.MadeBy.scopes (h : s.MadeBy ctx info) :
    List.Forall₂ (fun frame scope =>
      (∃ tables, scope.AlignedWith (info.context ctx) frame tables) ∧
        List.Forall₂ (Monitor.Lowers (info.context ctx)) frame.locks scope.monitors)
      info.chain s.scopes := by
  obtain ⟨d, t, hrun, -⟩ := h
  rw [← List.forall₂_reverse_iff, Safepoint.scopes, List.reverse_reverse]
  refine Lower.mapM_forall₂ (fun frame scope t t' hframe => ?_) (info.describe_ok hrun).2
  obtain ⟨tables, -, -, haligned⟩ := lowerFrame_aligned hframe
  exact ⟨⟨tables, haligned⟩, lowerFrame_locks hframe⟩

/-- The pool has every object that is reached, and its objects are as described. -/
theorem Safepoint.MadeBy.objects (h : s.MadeBy ctx info) :
    (∀ id, info.Reaches id → id ∈ s.objects.ids) ∧
      ∀ p ∈ s.objects.objects, p.Rebuilds (info.context ctx) s.objects.ids := by
  have hdistinct := h.nodup
  obtain ⟨d, t, hrun, hpool⟩ := h
  obtain ⟨-, hscopes⟩ := info.describe_ok hrun
  have hclosed : ∀ object ∈ (info.context ctx).virtualObjects, info.Reaches object.id →
      ∀ v ∈ object.values, ∀ id, v.object? = some id → info.Reaches id :=
    fun object hobject hreached v hv id hid => .field hreached hobject hv hid
  have hroots : ∀ frame ∈ info.chain.reverse, ∀ v ∈ frame.values, ∀ id,
      v.object? = some id → info.Reaches id :=
    fun frame hframe v hv id hid => .root (List.mem_reverse.mp hframe) hv hid
  have hempty : d.lowering.Indexed := by
    intro id r
    constructor <;> exact nofun
  obtain ⟨hextends, hshows⟩ :=
    (Lowering.graph (info.context ctx) info.Reaches hclosed).chain hroots hempty hscopes
  obtain ⟨new, hadds, hnew⟩ := hextends.adds
  have hrebuilds : ∀ p ∈ t.pool.objects, p.Rebuilds (info.context ctx) t.pool.ids := by
    intro p hp
    rw [hadds] at hp
    exact (hnew p hp).2
  have hslots := List.forall₂_reverse_iff.mpr hshows
  rw [List.reverse_reverse] at hslots
  rw [hpool]
  exact ⟨fun id hreached => hreached.mem_ids rfl hdistinct hslots hrebuilds, hrebuilds⟩

/-- A described object is the only one with its identity, and found in the pool if it is there. -/
theorem Safepoint.MadeBy.find? (h : s.MadeBy ctx info) {object : VirtualObject}
    (hobject : object ∈ info.virtualObjects) (hid : object.id ∈ s.objects.ids) :
    info.virtualObjects.find? (fun other => other.id == object.id) = some object ∧
      ∃ p, s.objects.objects.find? (fun p => p.id == object.id) = some p ∧ object.id = p.id := by
  refine ⟨(find?_key_iff h.nodup).mpr ⟨hobject, rfl⟩, ?_⟩
  obtain ⟨q, hq, hqid⟩ := List.mem_map.mp hid
  obtain ⟨p, hp⟩ : ∃ p, s.objects.objects.find? (fun p => p.id == object.id) = some p :=
    Option.isSome_iff_exists.mp (List.find?_isSome.mpr ⟨q, hq, beq_iff_eq.mpr hqid⟩)
  have hpid : p.id = object.id := by simpa using List.find?_some hp
  exact ⟨p, hp, hpid.symm⟩

theorem Safepoint.MadeBy.scopeAt (h : s.MadeBy ctx info) {depth : Nat} {frame : Frame}
    (hframe : info.chain[depth]? = some frame) :
    (∃ tables, (s.scopeAt depth).AlignedWith (info.context ctx) frame tables) ∧
      List.Forall₂ (Monitor.Lowers (info.context ctx)) frame.locks (s.scopeAt depth).monitors := by
  obtain ⟨scope, hscope, hframe⟩ := exists_getElem?_of_forall₂ h.scopes hframe
  rw [Safepoint.scopeAt, List.getD_eq_getElem?_getD, hscope]
  exact hframe

/-- **A described suspension point** has its slots of the caller the whole frame further away, read
    as a 32 bit number. -/
theorem Safepoint.MadeBy.placed (h : s.MadeBy ctx info) :
    s.PlacedBy ctx.world (Word.signed32 ctx.frameSize) info := by
  intro m offset kind hmentions
  rw [← DebugInfo.context_frameSize ctx info]
  cases hmentions with
  | slot hframe hv =>
      obtain ⟨⟨tables, haligned⟩, -⟩ := h.scopeAt hframe
      exact haligned.located hv
  | @owner depth i frame _ record hframe hlock =>
      obtain ⟨-, hlocks⟩ := h.scopeAt hframe
      obtain ⟨m, hm, ⟨t, t', l, hrun, hprimary⟩, -⟩ := exists_getElem?_of_forall₂ hlocks hlock
      rw [Safepoint.recorded, hm, Option.map_some, Option.toList_some, ← hprimary,
        (lowerWith_caller hrun).primary]
      exact .singleton _
  | @record depth i frame owner _ hframe hlock =>
      obtain ⟨-, hlocks⟩ := h.scopeAt hframe
      obtain ⟨m, hm, -, ⟨t, t', l, hrun, hprimary⟩⟩ := exists_getElem?_of_forall₂ hlocks hlock
      rw [Safepoint.recorded, hm, Option.map_some, Option.toList_some, ← hprimary,
        (lowerWith_caller hrun).primary]
      exact .singleton _
  | @field object i _ hreached hobject hv =>
      obtain ⟨hreaches, hrebuilds⟩ := h.objects
      obtain ⟨hdescribed, p, hp, hid⟩ := h.find? hobject (hreaches object.id hreached)
      obtain ⟨l, ⟨place, -, t, t', hrun⟩, hpart⟩ :=
        (hrebuilds p (List.mem_of_find?_eq_some hp)).field h.nodup hobject hid hv
      have hslots : ((object.values.map (object.fieldWidth ctx.world)).splitLengths
          p.fields)[i]? = some (fieldSlots (info.context ctx) object l) := hpart
      rw [Safepoint.recorded_field hdescribed hp, hslots]
      exact (lowerWith_caller hrun).field object

-- ── Sites ───────────────────────────────────────────────────────────────────────

/-- One site closes the safepoint of its suspension point, if it has one. -/
theorem applySite_made {site : Site} (h : (applySite ctx site).runOn d = .ok (.ok (), d')) :
    ∃ new, d'.log.closed = d.log.closed ++ new ∧
      List.Forall₂ (fun suspension s => s.MadeBy ctx suspension.1) site.suspension?.toList new := by
  obtain ⟨scopes, t, hlowered, -, hdone⟩ := applySite_records h
  obtain ⟨pc, -, hrecords⟩ := hdone rfl
  refine ⟨_, hrecords.closed, ?_⟩
  cases hsuspension : site.suspension? with
  | none =>
      rw [hsuspension] at hrecords
      cases scopes with
      | none => exact .nil
      | some scopes => exact hrecords.elim
  | some suspension =>
      obtain ⟨described, rfl, hdescribe⟩ := site.lowered_of_suspension hsuspension hlowered
      exact .cons ⟨d, t, hdescribe, rfl⟩ .nil

/-- **The run of the sites** closes one safepoint per suspension point, in order. -/
theorem applySites_made {sites : List Site}
    (h : (applySites ctx sites).runOn d = .ok (.ok (), d')) :
    ∃ new, d'.log.closed = d.log.closed ++ new ∧
      List.Forall₂ (fun suspension s => s.MadeBy ctx suspension.1)
        (sites.filterMap Site.suspension?) new := by
  induction sites generalizing d with
  | nil =>
      obtain ⟨-, rfl⟩ := Prod.mk.inj (Except.ok.inj h)
      exact ⟨[], (List.append_nil _).symm, .nil⟩
  | cons site rest ih =>
      obtain ⟨_, d₁, hsite, hrest⟩ := Patch.bind_ok h
      obtain ⟨first, hclosed, hfirst⟩ := applySite_made hsite
      obtain ⟨new, hclosed', hnew⟩ := ih hrest
      refine ⟨first ++ new, ?_, ?_⟩
      · rw [hclosed', hclosed, List.append_assoc]
      · rw [Site.suspensions_cons]
        exact List.rel_append hfirst hnew

end Made

-- ── Installed units ─────────────────────────────────────────────────────────────

/-- The safepoints of a unit have every slot of the caller a distance further away than it says. -/
def CompiledUnit.PlacedBy (u : CompiledUnit) (world : Description) (distance : Int)
    (safepoints : List Safepoint) : Prop :=
  List.Forall₂ (fun suspension s => s.PlacedBy world distance suspension.1)
    (u.sitesInOrder.filterMap Site.suspension?) safepoints

section Units

variable {settings : Settings} {u : CompiledUnit} {r r' : Runtime}

/-- Slots that are placed by one distance are placed by another one only if there are none. -/
theorem CompiledUnit.PlacedBy.placedBy_iff {world : Description} {a b : Int}
    {safepoints : List Safepoint} (ha : u.PlacedBy world a safepoints) :
    u.PlacedBy world b safepoints ↔ a = b ∨
      ∀ suspension ∈ u.sitesInOrder.filterMap Site.suspension?, ¬ suspension.1.MentionsCaller := by
  constructor
  · intro hb
    by_contra hneither
    obtain ⟨hne, hsome⟩ := not_or.mp hneither
    refine hsome fun suspension hsuspension hmentions => hne ?_
    have hboth := List.Forall₂.mp (fun _ _ ha hb => And.intro ha hb) ha hb
    obtain ⟨s, -, hs⟩ := exists_of_forall₂ hboth hsuspension
    exact hs.1.unique hs.2 hmentions
  · rintro (rfl | hnone)
    · exact ha
    · refine ((List.forall₂_and_left _ _).mpr ⟨hnone, ha⟩).imp ?_
      rintro suspension s ⟨hsuspension, -⟩ m offset kind hmentions
      exact (hsuspension ⟨m, offset, kind, hmentions⟩).elim

theorem assembleAndCommit_frame {parameterCount : Nat} {dependencies : List Dependency}
    {result : Except Refusal InstalledCode}
    (h : assembleAndCommit settings u parameterCount dependencies r = .ok (result, r')) :
    0 ≤ u.frameSize := by
  obtain ⟨_, hpaused, -⟩ := Checked.bind_ok h
  obtain ⟨_, hassemble, -⟩ := Checked.bind_ok hpaused
  obtain ⟨_, hcheck, -⟩ := Checked.bind_ok hassemble
  obtain ⟨_, -, hcheck⟩ := Checked.bind_ok hcheck
  obtain ⟨_, hframe, -⟩ := Checked.bind_ok hcheck
  exact require_ok hframe

/-- An installation only ends if the frame is not negative. -/
theorem Ends.frame_nonneg {out : Except Refusal Receipt} (h : Ends settings u r out r') :
    0 ≤ u.frameSize := by
  rcases h with h | h
  · rw [installMethod] at h
    split at h
    · exact nomatch h
    · obtain ⟨dependencies, -, h⟩ := Checked.bind_ok h
      obtain ⟨_, hcommit, -⟩ := Checked.bind_ok h
      exact assembleAndCommit_frame hcommit
  · obtain ⟨-, result, r₁, hcommit, -⟩ := installStub_done h
    exact assembleAndCommit_frame hcommit

/-- **Slots of the caller are placed by the frame of the unit**, as far as it fits 32 bits. Whenever
    a unit is registered, its frame is the declared one and the return address, and every slot of
    the caller that a suspension point mentions is recorded the 32 bit reading of the frame further
    away than it says. That is the frame itself for every unit with a frame of less than 2 ^ 31
    bytes, and for the others only if they mention no slot of the caller. -/
theorem caller_slots_placed_iff {receipt : Receipt} (h : Ends settings u r (.ok receipt) r') :
    0 ≤ u.frameSize ∧ (receipt.installed.code.frameSize : Int) = u.frameSize + 8 ∧
    u.PlacedBy r.world (Word.signed32 receipt.installed.code.frameSize)
      receipt.installed.code.safepoints ∧
    (u.PlacedBy r.world receipt.installed.code.frameSize receipt.installed.code.safepoints ↔
      u.frameSize + 8 < 0x80000000 ∨
        ∀ suspension ∈ u.sitesInOrder.filterMap Site.suspension?,
          ¬ suspension.1.MentionsCaller) := by
  have hframe := h.frame_nonneg
  cases h.installation with
  | registered hrun hfinish hregister =>
      obtain ⟨parameterCount, blob, -, hrun⟩ := hrun
      obtain ⟨new, hclosed, hmade⟩ := applySites_made hrun
      obtain ⟨-, handlers, rfl⟩ := CompiledUnit.finish_eq hfinish
      obtain ⟨address, moved, -, hinstalled, -⟩ := CodeTable.register_ok hregister
      have hplaced : u.PlacedBy r.world (Word.signed32 receipt.installed.code.frameSize)
          receipt.installed.code.safepoints := by
        rw [hinstalled]
        show List.Forall₂ _ _ _
        rw [hclosed]
        exact hmade.imp fun suspension s hs => hs.placed
      have hsize : (receipt.installed.code.frameSize : Int) = u.frameSize + 8 := by
        rw [hinstalled]
        show ((u.frameSize.toNat + returnAddressSize : Nat) : Int) = u.frameSize + 8
        rw [Int.natCast_add, Int.toNat_of_nonneg hframe]
        rfl
      refine ⟨hframe, hsize, hplaced, ?_⟩
      rw [hplaced.placedBy_iff, Word.signed32_eq_self_iff (Int.natCast_nonneg _), hsize]

end Units

-- ── A frame that fits and one that does not ─────────────────────────────────────

/-- Slots of the caller in every place: a wide local, the owner and the record of a lock, and a
    field of the object that is the last local. -/
def DebugInfo.sampleCaller : DebugInfo where
  frame := {
    method := ⟨0x1000⟩, bci := 3
    values :=
      [.stackSlot 16 true .long, .illegal, .virtualObject 1,
       .stackLock (.stackSlot 0 true .object) (.stackSlot 8 true .long) false]
    localCount := 3, stackCount := 0, lockCount := 1 }
  frameBits := ⟨[]⟩
  virtualObjects := [⟨1, ⟨0x400⟩, [.constant (.int 7), .stackSlot 24 true .int]⟩]

/-- A unit that is suspended there, in a frame of 8 bytes and the return address. -/
def CompiledUnit.sampleCaller : CompiledUnit where
  name := "caller"
  code := [0xc3]
  codeSize := 1
  frameSize := 8
  sites := [⟨0, .safepoint .sampleCaller⟩]

theorem CompiledUnit.sitesInOrder_sampleCaller :
    CompiledUnit.sampleCaller.sitesInOrder = CompiledUnit.sampleCaller.sites :=
  List.mergeSort_singleton ..

theorem caller_slots_placed_iff_sample :
    ∃ receipt r', Ends {} .sampleCaller .sample (.ok receipt) r' ∧
      receipt.installed.code.frameSize = 16 ∧ DebugInfo.sampleCaller.MentionsCaller ∧
      CompiledUnit.sampleCaller.PlacedBy .sample 16 receipt.installed.code.safepoints := by
  have hended : endsRegistered true (installStub {} .sampleCaller .sample) = true := by
    rw [installStub, assembleAndCommit, assemblePaused, assemble,
      CompiledUnit.sitesInOrder_sampleCaller]
    decide +kernel
  obtain ⟨receipt, r', hinstall⟩ := exists_receipt hended
  obtain ⟨-, hsize, -, hiff⟩ := caller_slots_placed_iff (.inr hinstall)
  have hsize : (receipt.installed.code.frameSize : Int) = 16 := hsize
  have hmentions : DebugInfo.sampleCaller.MentionsCaller := ⟨.slot 0 0, 16, .long, .slot rfl rfl⟩
  refine ⟨receipt, r', .inr hinstall, Int.ofNat_inj.mp hsize, hmentions, ?_⟩
  rw [hsize] at hiff
  exact hiff.mpr (.inl (by decide))

/-- A local that is a slot of the caller. -/
def DebugInfo.sampleCallerLocal : DebugInfo where
  frame := {
    method := ⟨0x1000⟩, bci := 0, values := [.stackSlot 0 true .int]
    localCount := 1, stackCount := 0, lockCount := 0 }
  frameBits := ⟨[]⟩

/-- A unit that is suspended there, in the shortest frame that has no 32 bit reading of its own. -/
def CompiledUnit.sampleLongFrame : CompiledUnit where
  name := "long frame"
  code := [0xc3]
  codeSize := 1
  frameSize := 2147483640
  sites := [⟨0, .safepoint .sampleCallerLocal⟩]

theorem CompiledUnit.sitesInOrder_sampleLongFrame :
    CompiledUnit.sampleLongFrame.sitesInOrder = CompiledUnit.sampleLongFrame.sites :=
  List.mergeSort_singleton ..

/-- The safepoint of the long frame: its local is recorded below the stack pointer. -/
def Safepoint.sampleLongFrame : Safepoint where
  pc := 0
  leafGraphId := -1
  described :=
    [{ method := ⟨0x1000⟩, bci := 0, reexecute := true
       locals := [.location ⟨.stack (-2147483648), .normal⟩] }]

/-- A registered unit may have a slot of the caller in another place than the frame says. -/
theorem caller_slot_wraps :
    ∃ receipt r', Ends {} .sampleLongFrame .sample (.ok receipt) r' ∧
      0 ≤ CompiledUnit.sampleLongFrame.frameSize ∧
      receipt.installed.code.frameSize = 2147483648 ∧
      receipt.installed.code.safepoints = [.sampleLongFrame] ∧
      ¬ CompiledUnit.sampleLongFrame.PlacedBy .sample receipt.installed.code.frameSize
        receipt.installed.code.safepoints := by
  have hinstalled : (receipt? (installStub {} .sampleLongFrame .sample)).map (fun receipt =>
      (receipt.installed.code.frameSize, receipt.installed.code.safepoints)) =
        some (2147483648, [.sampleLongFrame]) := by
    rw [installStub, assembleAndCommit, assemblePaused, assemble,
      CompiledUnit.sitesInOrder_sampleLongFrame]
    decide +kernel
  obtain ⟨receipt, hreceipt, hcode⟩ := Option.map_eq_some_iff.mp hinstalled
  obtain ⟨r', hends⟩ := exists_of_receipt? hreceipt
  obtain ⟨hsize, hsafepoints⟩ := Prod.mk.inj hcode
  refine ⟨receipt, r', .inr hends, by decide, hsize, hsafepoints, fun hplaced => ?_⟩
  rw [hsize, hsafepoints, CompiledUnit.PlacedBy, CompiledUnit.sitesInOrder_sampleLongFrame]
    at hplaced
  obtain ⟨hlocal, -⟩ := List.forall₂_cons.mp hplaced
  have hlocated := hlocal (.slot 0 0) 0 .int (.slot rfl rfl)
  have hplace := hlocated.only ⟨.stack (-2147483648), .normal⟩ (List.mem_singleton_self _)
  exact absurd (Spot.stack.inj (congrArg Location.spot hplace)) (by decide)

end ManagedCode
