import ManagedCode.Proofs.ObjectGraph

/-! # Two lowerings side by side

    The values of a suspension point are lowered twice, in contexts that differ in what is asked
    for: in the byte order, or in the descriptions of the objects.  A likeness says which tables
    and which faults of the two runs correspond.  Two steps are in step if from corresponding
    tables both fault alike, or both go through with the same result and corresponding tables.
    Whoever shows it for finding or making an object gets it for values, locks, frames and chains
    from here.

* **`Lowering.Likeness`**, **`Lowering.Likeness.InStep`** — corresponding tables, and two steps that
  keep them so.
* **`InStep.bind`**, **`InStep.mapM`** — sequences and lists of steps.
* **`InStep.lowerWith`** — values, given it for the objects they name.
* **`lockRecord`**, **`InStep.monitor`** — locks, given it for their owners and records.
* **`InStep.describeFrames`** — the frames of a chain, given it for their values and locks.
* **`DebugInfo.recordScopes`**, **`openSafepoint_records`** — what is run twice, as a part of
  opening a safepoint. -/

namespace ManagedCode

/-- What corresponds in two runs: tables, with the same references and handles, and faults. -/
structure Lowering.Likeness where
  Tables : Lowering → Lowering → Prop
  Faults : Fault → Fault → Prop
  references : ∀ {t u}, Tables t u → u.references = t.references
  handles : ∀ {t u}, Tables t u → u.handles = t.handles
  /-- Both may be given other references and handles. -/
  record : ∀ {t u}, Tables t u → ∀ references handles,
    Tables { t with references, handles } { u with references, handles }
  /-- A fault corresponds to itself. -/
  fault : ∀ e, Faults e e

namespace Lowering.Likeness

/-- Two runs end alike. -/
inductive Ends (like : Likeness) {α : Type} :
    Checked (α × Lowering) → Checked (α × Lowering) → Prop
  | ok {a : α} {t u : Lowering} (h : like.Tables t u) : Ends like (.ok (a, t)) (.ok (a, u))
  | fault {e e' : Fault} (h : like.Faults e e') : Ends like (.error e) (.error e')

/-- From corresponding tables, two steps end alike. -/
def InStep (like : Likeness) {α : Type} (x y : Lower α) : Prop :=
  ∀ t u, like.Tables t u → like.Ends (x.run t) (y.run u)

variable {like : Likeness} {α β : Type}

theorem references_recorded {t u : Lowering} (h : like.Tables t u)
    (references : ReferenceRecorder) :
    like.Tables { t with references } { u with references } := by
  have hrecord := like.record h references t.handles
  have hhandles : { u with references, handles := t.handles } = { u with references } := by
    rw [← like.handles h]
  rw [hhandles] at hrecord
  exact hrecord

theorem Ends.bind {left right : Checked (α × Lowering)}
    {f g : α × Lowering → Checked (β × Lowering)} (h : like.Ends left right)
    (hf : ∀ a t u, left = .ok (a, t) → like.Tables t u → like.Ends (f (a, t)) (g (a, u))) :
    like.Ends (left >>= f) (right >>= g) := by
  cases h with
  | ok htables => exact hf _ _ _ rfl htables
  | fault he => exact .fault he

namespace InStep

-- ── Steps in general ────────────────────────────────────────────────────────────

theorem pure (a : α) : like.InStep (Pure.pure a) (Pure.pure a) := fun _ _ h => .ok h

theorem throw (e : Fault) : like.InStep (MonadExcept.throw e : Lower α) (MonadExcept.throw e) :=
  fun _ _ _ => .fault (like.fault e)

theorem lift (x : Checked α) : like.InStep (liftM x) (liftM x) := by
  intro t u h
  cases x with
  | error e => exact .fault (like.fault e)
  | ok a => exact .ok h

theorem bind {x y : Lower α} {f g : α → Lower β} (hx : like.InStep x y)
    (hf : ∀ a, like.InStep (f a) (g a)) : like.InStep (x >>= f) (y >>= g) :=
  fun t u h => (hx t u h).bind fun a t u _ => hf a t u

theorem mapM {f g : α → Lower β} {xs : List α} (h : ∀ x ∈ xs, like.InStep (f x) (g x)) :
    like.InStep (xs.mapM f) (xs.mapM g) := by
  induction xs with
  | nil => exact .pure []
  | cons x rest ih =>
      rw [List.mapM_cons, List.mapM_cons]
      obtain ⟨hfirst, hrest⟩ := List.forall_mem_cons.mp h
      exact .bind hfirst fun _ => .bind (ih hrest) fun _ => .pure _

-- ── Values ──────────────────────────────────────────────────────────────────────

theorem makeHandle (object : ObjectAddress) :
    like.InStep (ManagedCode.makeHandle object) (ManagedCode.makeHandle object) := by
  intro t u h
  show like.Ends ((liftM (t.handles.make object) : Lower _).run t >>= _)
    ((liftM (u.handles.make object) : Lower _).run u >>= _)
  rw [like.handles h, like.references h]
  cases t.handles.make object with
  | error e => exact .fault (like.fault e)
  | ok out => exact .ok (like.record h _ _)

theorem lowerConstant (c : Constant) :
    like.InStep (ManagedCode.lowerConstant c) (ManagedCode.lowerConstant c) := by
  intro t u h
  unfold ManagedCode.lowerConstant
  rw [Lower.run_get_bind, Lower.run_get_bind, like.references h]
  refine (lift _ t u h).bind fun references _ _ _ _ => ?_
  have hrecorded := like.references_recorded h references
  obtain ⟨kind, bits, object⟩ := c
  cases kind with
  | object =>
      rcases object with _ | object
      · exact pure _ _ _ hrecorded
      · cases object with
        | heap object =>
            exact bind (makeHandle object)
              (fun handle => pure (Lowered.single (.reference (some handle)))) _ _ hrecorded
        | type id => exact throw _ _ _ hrecorded
        | remark text => exact throw _ _ _ hrecorded
  | illegal => exact throw _ _ _ hrecorded
  | _ => exact pure _ _ _ hrecorded

section Contexts

variable {ctx ctx' : ValueContext}

/-- Values are in step if the objects they name are. -/
theorem lowerWith (hframe : ctx'.frameSize = ctx.frameSize) {f g : Int → Lower Nat} {v : Value}
    (hobject : ∀ id, v = .virtualObject id → like.InStep (f id) (g id)) :
    like.InStep (ManagedCode.lowerWith ctx f v) (ManagedCode.lowerWith ctx' g v) := by
  cases v with
  | illegal => exact pure _
  | register number kind => exact bind (lift _) fun _ => lift _
  | stackSlot offset addFrameSize kind =>
      have hslot : lowerStackSlot ctx' offset addFrameSize kind =
          lowerStackSlot ctx offset addFrameSize kind := by
        unfold lowerStackSlot stackOffset
        rw [hframe]
      show like.InStep (liftM (lowerStackSlot ctx offset addFrameSize kind) : Lower Lowered)
        (liftM (lowerStackSlot ctx' offset addFrameSize kind))
      rw [hslot]
      exact lift _
  | constant c => exact lowerConstant c
  | virtualObject id => exact bind (hobject id rfl) fun _ => pure _
  | stackLock owner slot eliminated => exact throw _

end Contexts

end InStep

end Lowering.Likeness

-- ── Locks ───────────────────────────────────────────────────────────────────────

/-- The record of a lock, a location of two slots. -/
def lockRecord (ctx : ValueContext) (slot : Value) : Lower Location := do
  let lock ← lower ctx slot
  require (lock.second = some lock.primary) (.value .narrowLock)
  match lock.primary.location? with
  | some location => return location
  | none => throw (.value (.lockNotLocated (← lock.primary.text)))

theorem lowerMonitor_eq (ctx : ValueContext) (owner slot : Value) (eliminated : Bool) :
    lowerMonitor ctx (.stackLock owner slot eliminated) = do
      let owner ← lower ctx owner
      require (owner.second = none) (.value .wideOwner)
      return ⟨owner.primary, ← lockRecord ctx slot, eliminated⟩ := by
  unfold lowerMonitor lockRecord
  simp only [bind_assoc]
  congr 1
  funext owner
  congr 1
  funext _
  congr 1
  funext lock
  congr 1
  funext _
  cases lock.primary.location? with
  | some location => rfl
  | none =>
      simp only [bind_assoc]
      rfl

namespace Lowering.Likeness

variable {like : Likeness} {ctx ctx' : ValueContext}

namespace InStep

theorem lockRecord {slot : Value} (h : like.InStep (lower ctx slot) (lower ctx' slot)) :
    like.InStep (ManagedCode.lockRecord ctx slot) (ManagedCode.lockRecord ctx' slot) := by
  refine bind h fun lock => bind (lift _) fun _ => ?_
  cases lock.primary.location? with
  | some location => exact pure _
  | none => exact bind (lift _) fun _ => throw _

/-- Locks are in step if their owners and records are. -/
theorem monitor {v : Value}
    (hlock : ∀ owner slot eliminated, v = .stackLock owner slot eliminated →
      like.InStep (lower ctx owner) (lower ctx' owner) ∧
        like.InStep (ManagedCode.lockRecord ctx slot) (ManagedCode.lockRecord ctx' slot)) :
    like.InStep (lowerMonitor ctx v) (lowerMonitor ctx' v) := by
  cases v with
  | stackLock owner slot eliminated =>
      obtain ⟨howner, hrecord⟩ := hlock owner slot eliminated rfl
      rw [lowerMonitor_eq, lowerMonitor_eq]
      exact bind howner fun _ => bind (lift _) fun _ => bind hrecord fun _ => pure _
  | _ => exact throw _

-- ── Frames ──────────────────────────────────────────────────────────────────────

/-- The slots of a frame are in step if its values are, in their places. -/
theorem slots {frame : Frame} {i : Nat} {values : List Value}
    (hvalue : ∀ v ∈ values, like.InStep (lower ctx v) (lower ctx' v))
    (hlock : ∀ v ∈ values, like.InStep (lowerMonitor ctx v) (lowerMonitor ctx' v)) :
    like.InStep (lowerSlots ctx frame i values) (lowerSlots ctx' frame i values) := by
  induction i, values using lowerSlots.induct frame with
  | case1 i => exact pure _
  | case2 i v rest hi ih ihWide =>
      rw [lowerSlots, lowerSlots, if_pos hi, if_pos hi]
      obtain ⟨hv, hrest⟩ := List.forall_mem_cons.mp hvalue
      obtain ⟨-, hlocks⟩ := List.forall_mem_cons.mp hlock
      refine bind hv fun l => ?_
      cases l.second with
      | none => exact bind (ih hrest hlocks) fun _ => pure _
      | some second =>
          rcases rest with _ | ⟨_ | _ | _ | _ | _ | _, rest⟩
          case cons.illegal =>
            exact bind (ihWide (List.forall_mem_cons.mp hrest).2
              (List.forall_mem_cons.mp hlocks).2) fun _ => pure _
          all_goals exact throw _
  | case3 i v rest hi ih =>
      rw [lowerSlots, lowerSlots, if_neg hi, if_neg hi]
      obtain ⟨-, hrest⟩ := List.forall_mem_cons.mp hvalue
      obtain ⟨hv, hlocks⟩ := List.forall_mem_cons.mp hlock
      exact bind hv fun _ => bind (ih hrest hlocks) fun _ => pure _

theorem frame {frame : Frame}
    (hvalue : ∀ v ∈ frame.values, like.InStep (lower ctx v) (lower ctx' v))
    (hlock : ∀ v ∈ frame.values, like.InStep (lowerMonitor ctx v) (lowerMonitor ctx' v)) :
    like.InStep (lowerFrame ctx frame) (lowerFrame ctx' frame) := by
  refine bind ?_ fun _ => bind (lift _) fun _ => bind (slots hvalue hlock) fun _ => pure _
  intro t u h
  show like.Ends (.ok ((), { t with references := _ }))
    (.ok ((), { u with references := (u.references.addMetadata (.method frame.method)).2 }))
  rw [like.references h]
  exact .ok (like.references_recorded h _)

/-- **The frames of a chain** are in step if their values and locks are. -/
theorem describeFrames {pc : Nat} {log : SafepointLog} {frames : List Frame}
    (hvalue : ∀ frame ∈ frames, ∀ v ∈ frame.values, like.InStep (lower ctx v) (lower ctx' v))
    (hlock : ∀ frame ∈ frames, ∀ v ∈ frame.values,
      like.InStep (lowerMonitor ctx v) (lowerMonitor ctx' v)) :
    like.InStep (ManagedCode.describeFrames ctx pc log frames)
      (ManagedCode.describeFrames ctx' pc log frames) := by
  unfold ManagedCode.describeFrames
  induction frames generalizing log with
  | nil => exact pure _
  | cons first rest ih =>
      rw [List.foldlM_cons, List.foldlM_cons]
      obtain ⟨hfirst, hrest⟩ := List.forall_mem_cons.mp hvalue
      obtain ⟨hlocks, hrestLocks⟩ := List.forall_mem_cons.mp hlock
      refine bind (bind (frame hfirst hlocks) fun _ => lift _) fun log' => ih hrest hrestLocks

end InStep

end Lowering.Likeness

-- ── Suspension points ───────────────────────────────────────────────────────────

/-- Records the scopes of a suspension point and its objects at the open safepoint `pc`. The objects
    must be described once each. -/
def DebugInfo.recordScopes (world : Description) (byteOrder : ByteOrder) (frameSize : Int)
    (pc : Nat) (log : SafepointLog) (info : DebugInfo) : Lower SafepointLog := do
  let values ← ValueContext.create world byteOrder frameSize info.virtualObjects
  describeSafepoint values pc log info

/-- What the values of a suspension point are lowered with, in a byte order. -/
def DebugInfo.contextIn (world : Description) (byteOrder : ByteOrder) (frameSize : Int)
    (info : DebugInfo) : ValueContext where
  world := world
  byteOrder := byteOrder
  frameSize := frameSize
  virtualObjects := info.virtualObjects

/-- Gives the open safepoint the objects that its frames have left in the pool. -/
def withObjects (pc : Nat) (described : SafepointLog × Lowering) :
    Checked (SafepointLog × Lowering) := do
  let s ← described.1.currentAt pc
  return ({ described.1 with current := some { s with objects := described.2.pool } }, described.2)

theorem describeSafepoint_run (ctx : ValueContext) (pc : Nat) (log : SafepointLog)
    (info : DebugInfo) (t : Lowering) :
    (describeSafepoint ctx pc log info).run t =
      (describeFrames ctx pc log info.chain.reverse).run t >>= withObjects pc := by
  show (describeFrames ctx pc log info.chain.reverse).run t >>= _ = _
  congr 1
  funext described
  obtain ⟨log, t⟩ := described
  show (liftM (log.setObjects pc t.pool) : Lower _).run t = _
  unfold SafepointLog.setObjects withObjects
  cases log.currentAt pc <;> rfl

section Suspended

variable {world : Description} {byteOrder : ByteOrder} {frameSize : Int} {pc : Nat}
  {log : SafepointLog} {info : DebugInfo}

/-- The frames are described first, if the objects are described once each. -/
theorem DebugInfo.recordScopes_of_distinct
    (h : Description.firstRepeated [] (info.virtualObjects.map VirtualObject.id) = none)
    (t : Lowering) :
    (info.recordScopes world byteOrder frameSize pc log).run t =
      (describeFrames (info.contextIn world byteOrder frameSize) pc log info.chain.reverse).run t
        >>= withObjects pc := by
  unfold recordScopes ValueContext.create
  rw [h, ← describeSafepoint_run]
  rfl

theorem DebugInfo.recordScopes_of_repeated {id : Int}
    (h : Description.firstRepeated [] (info.virtualObjects.map VirtualObject.id) = some id)
    (t : Lowering) : (info.recordScopes world byteOrder frameSize pc log).run t =
      .error (.value (.describedTwice id)) := by
  unfold recordScopes ValueContext.create
  rw [h]
  rfl

end Suspended

/-- A safepoint is opened by recording its scopes behind its reference map. -/
theorem openSafepoint_records (ctx : SiteContext) (pc : Nat) (info : DebugInfo) (leaf : Int)
    (d : Draft) :
    (Patch.openSafepoint ctx pc info leaf).runOn d = do
      let map ← RefMap.ofBits ctx.frameSize ctx.parameterCount info.registerBits info.frameBits
      let log ← d.log.start pc leaf map
      let (log, t) ← (info.recordScopes ctx.world ctx.settings.byteOrder
        (Word.signed32 ctx.frameSize) pc log).run d.lowering
      return (.ok (), { d with log, references := t.references, handles := t.handles }) := by
  unfold Patch.openSafepoint DebugInfo.recordScopes
  rw [Patch.runOn_lift_bind]
  congr 1
  funext map
  rw [Patch.runOn_bind, Patch.runOn_modifyLog]
  cases d.log.start pc leaf map with
  | error e => rfl
  | ok log =>
      show (liftM (ValueContext.create _ _ _ _) >>= _ : Patch Unit).runOn { d with log } = _
      rw [Patch.runOn_lift_bind]
      simp only [Patch.runOn_bind, Patch.runOn_lowering]
      cases ValueContext.create ctx.world ctx.settings.byteOrder (Word.signed32 ctx.frameSize)
        info.virtualObjects with
      | error e => rfl
      | ok values =>
          show ((describeSafepoint values pc log info).run d.lowering >>= _) >>= _ =
            (describeSafepoint values pc log info).run d.lowering >>= _
          cases (describeSafepoint values pc log info).run d.lowering with
          | error e => rfl
          | ok out => rfl

end ManagedCode
