import ManagedCode.Proofs.Clean
import ManagedCode.Proofs.ObjectGraph

/-! # Lowering without internal faults

    Three things could go wrong while values are lowered that no unit is to blame for: a handle made
    in a slot that does not exist, an object that gets its fields twice or where none is, a lock
    that is taken for a location.  The first two are kept out by the books of the lowering, which
    every value keeps; the third because only locations have the same value in both of their slots.

* **`Lowering.bookkeeping`** — the handles made are recorded, and the objects met are those of the
  pool.
* **`lowerObject_clean`** — the recursion through the objects.
* **`lowerWith_doubled`** — a value that is the same in both of its slots is a location.
* **`describeSafepoint_clean`** — all frames of a suspension point. -/

namespace ManagedCode

open Checked (Clean)

-- ── Values ──────────────────────────────────────────────────────────────────────

theorem HandleTable.Sound.make_clean {t : HandleTable} (ht : t.Sound) (object : ObjectAddress) :
    Clean (t.make object) := by
  have hhandle : ∀ slot, Clean (handleOf slot) := fun slot =>
    .bind (Size.add_clean ..) fun _ _ => .ok _
  unfold make
  split
  · next slot free hfree =>
      have hempty := ht.empty slot (by rw [hfree]; exact List.mem_cons_self ..)
      have hin := (List.getElem?_eq_some_iff.mp hempty).1
      exact .bind (.met hin) fun _ _ => .bind (hhandle slot) fun _ _ => .ok _
  · exact .bind (hhandle _) fun _ _ => .ok _

theorem ReferenceRecorder.addConstant_clean (r : ReferenceRecorder) (c : Constant) :
    Clean (r.addConstant c) := by
  refine .ite (fun _ => ?_) fun _ => .ok _
  split
  · exact .bind (.require rfl) fun _ _ => .ok _
  · exact .error rfl
  · exact .ok _
  · exact .ok _

section Values

variable {ctx : ValueContext} {base : HandleTable} {t t' : Lowering} {l : Lowered}

theorem makeHandle_clean (ht : t.handles.Sound) (object : ObjectAddress) :
    Clean ((makeHandle object).run t) :=
  Lower.clean_get_bind (Lower.clean_bind (Lower.clean_lift (ht.make_clean object))
    fun _ _ _ => .ok _)

theorem lowerRegister_clean (r : Register) (kind : Kind) : Clean (lowerRegister r kind) := by
  refine .ite (fun _ => ?_) fun _ => ?_
  · cases kind with
    | double | illegal => exact .bind r.text_clean fun _ _ => .error rfl
    | _ => exact .ok _
  · cases kind with
    | float | double => exact .ok _
    | _ => exact .bind r.text_clean fun _ _ => .error rfl

theorem lowerStackSlot_clean (ctx : ValueContext) (offset : Int) (addFrameSize : Bool)
    (kind : Kind) : Clean (lowerStackSlot ctx offset addFrameSize kind) := by
  have hoffset : Clean (stackOffset ctx offset addFrameSize) :=
    .ite (fun _ => .bind (.require rfl) fun _ _ => .ok _) fun _ => .ok _
  exact .bind hoffset fun _ _ => .ite (fun _ => .ok _) fun _ => .ok _

theorem lowerConstant_clean (ht : t.handles.Sound) (c : Constant) :
    Clean ((lowerConstant c).run t) := by
  refine Lower.clean_get_bind ?_
  refine Lower.clean_bind (Lower.clean_lift (t.references.addConstant_clean c))
    fun references t₁ hadd => ?_
  obtain ⟨-, rfl⟩ := Lower.lift_ok hadd
  have hmake : ∀ object, Clean ((makeHandle object).run { t with references }) :=
    makeHandle_clean ht
  refine Lower.clean_set_bind ?_
  obtain ⟨kind, bits, object⟩ := c
  cases kind with
  | object =>
      rcases object with _ | object
      · exact .ok _
      · cases object with
        | heap object => exact Lower.clean_bind (hmake object) fun _ _ _ => .ok _
        | type id => exact Lower.clean_throw rfl
        | remark text => exact Lower.clean_throw rfl
  | illegal => exact Lower.clean_throw rfl
  | _ => exact .ok _

/-- Lowering a value is as clean as finding or making its object. -/
theorem lowerWith_clean {object : Int → Lower Nat} (ht : t.handles.Sound)
    (hobject : ∀ id, Clean ((object id).run t)) (v : Value) :
    Clean ((lowerWith ctx object v).run t) := by
  cases v with
  | illegal => exact .ok _
  | register number kind =>
      exact Lower.clean_bind (Lower.clean_lift (.bind (.require rfl) fun _ _ => .ok _))
        fun r _ _ => Lower.clean_lift (lowerRegister_clean r kind)
  | stackSlot offset addFrameSize kind =>
      exact Lower.clean_lift (lowerStackSlot_clean ctx offset addFrameSize kind)
  | constant c => exact lowerConstant_clean ht c
  | virtualObject id => exact Lower.clean_bind (hobject id) fun _ _ _ => .ok _
  | stackLock owner slot eliminated => exact Lower.clean_throw rfl

-- ── Objects ─────────────────────────────────────────────────────────────────────

/-- Two accounts of the tables, kept at the same time. -/
def Lowering.Account.both (first second : Account ctx) : Account ctx where
  Valid t := first.Valid t ∧ second.Valid t
  Leads t t' := first.Leads t t' ∧ second.Leads t t'
  refl ht := ⟨first.refl ht.1, second.refl ht.2⟩
  trans h h' := ⟨first.trans h.1 h'.1, second.trans h.2 h'.2⟩
  valid h := ⟨first.valid h.1, second.valid h.2⟩
  Covers v := first.Covers v ∧ second.Covers v
  Fills _ _ _ := True
  mono _ _ := trivial
  metadata ht hhandles := ⟨first.metadata ht.1 hhandles, second.metadata ht.2 hhandles⟩
  value hv ht h := by
    obtain ⟨hleads, hfills⟩ := first.value hv.1 ht.1 h
    exact ⟨⟨hleads, (second.value hv.2 ht.2 h).1⟩, hfills.imp fun _ _ _ => trivial⟩
  owner hv := ⟨first.owner hv.1, second.owner hv.2⟩
  lock _ := trivial

/-- The handles made are recorded, and the objects met are those of the pool. -/
def Lowering.bookkeeping (ctx : ValueContext) (base : HandleTable) : Lowering.Account ctx :=
  (Lowering.naming ctx base).both
    (Lowering.graph ctx (fun _ => True) fun _ _ _ _ _ _ _ => trivial)

/-- Every value is covered by the bookkeeping. -/
theorem Lowering.bookkeeping_covers (v : Value) : (bookkeeping ctx base).Covers v :=
  ⟨trivial, fun _ _ => trivial⟩

theorem Lowering.bookkeeping_sound (ht : (bookkeeping ctx base).Valid t) : t.handles.Sound :=
  ht.1.tracks.gains.sound

theorem lowerField_leads {unopened : Nat} {v : Value}
    (ht : (Lowering.bookkeeping ctx base).Valid t)
    (h : (lowerWith ctx (lowerObject ctx unopened) v).run t = .ok (l, t')) :
    (Lowering.bookkeeping ctx base).Leads t t' :=
  ⟨(lowerWith_grows (fun _ _ _ _ ht hrun => lowerObject_grows ht hrun) ht.1 h).1,
    (lowerWith_extends (fun _ hid _ _ _ ht hrun =>
      lowerObject_extends (fun _ _ _ _ _ _ _ => trivial) hid ht hrun) (fun _ _ => trivial)
      ht.2 h).1⟩

theorem ObjectPool.setFields_clean {pool : ObjectPool} {position : Nat} {p : PoolObject}
    (hp : pool.objects[position]? = some p) (hempty : p.fields = []) (fields : List ScopeValue) :
    Clean (pool.setFields position fields) := by
  have hget : pool.get position = .ok p := by
    unfold ObjectPool.get
    rw [hp]
  refine .bind (.of_ok hget) fun q hq => ?_
  obtain rfl := Except.ok.inj (hget.symm.trans hq)
  exact .bind (.met hempty) fun _ _ => .ok _

/-- Entering an object that was not met yet keeps the books. -/
theorem enterObject_bookkeeping {object : VirtualObject} {position : Nat}
    (ht : (Lowering.bookkeeping ctx base).Valid t) (hnew : t.seen.lookup object.id = none)
    (hdescribed : ctx.describe? object.id = some object)
    (h : (enterObject ctx object).run t = .ok (position, t')) :
    (Lowering.bookkeeping ctx base).Valid t' := by
  obtain ⟨mirror, rfl, hpool, hseen⟩ := enterObject_entered h
  exact ⟨(enterObject_grows hdescribed ht.1 h).1.valid, ht.2.enter hnew hpool hseen⟩

theorem enterObject_clean (ht : t.handles.Sound) (object : VirtualObject) :
    Clean ((enterObject ctx object).run t) := by
  have hmirror : Clean (ctx.world.mirror object.type) := by
    unfold Description.mirror
    split
    · exact .ok _
    · exact .error rfl
  refine Lower.clean_bind (Lower.clean_lift hmirror) fun mirror t₁ hlift => ?_
  obtain ⟨-, rfl⟩ := Lower.lift_ok hlift
  exact Lower.clean_bind (makeHandle_clean ht mirror) fun _ _ _ => .ok _

/-- The fields of an object are lowered one after the other, each with the books in order. -/
theorem lowerFields_clean {unopened : Nat} (object : VirtualObject)
    (hobject : ∀ id t, (Lowering.bookkeeping ctx base).Valid t →
      Clean ((lowerObject ctx unopened id).run t))
    (ht : (Lowering.bookkeeping ctx base).Valid t) :
    Clean ((object.values.mapM fun v => do
      return fieldSlots ctx object (← lowerWith ctx (lowerObject ctx unopened) v)).run t) := by
  refine Lower.clean_mapM (P := (Lowering.bookkeeping ctx base).Valid) ?_ ?_ ht
  · intro v _ t ht
    have hv : Clean ((lowerWith ctx (lowerObject ctx unopened) v).run t) :=
      lowerWith_clean (Lowering.bookkeeping_sound ht) (fun id => hobject id t ht) v
    exact Lower.clean_bind hv fun _ _ _ => .ok _
  · intro v _ t slots t' ht hrun
    obtain ⟨l, _, hlower, hrun⟩ := Lower.bind_ok hrun
    obtain ⟨-, rfl⟩ := Lower.pure_ok hrun
    exact (Lowering.bookkeeping ctx base).valid (lowerField_leads ht hlower)

/-- While its fields are lowered, an entered object stays where it is, without fields: others are
    put behind it. -/
theorem lowerFields_place {unopened position : Nat} {object : VirtualObject}
    {parts : List (List ScopeValue)} {t₁ : Lowering}
    (henter : (enterObject ctx object).run t = .ok (position, t₁))
    (ht₁ : (Lowering.bookkeeping ctx base).Valid t₁)
    (hparts : (object.values.mapM fun v => do
      return fieldSlots ctx object (← lowerWith ctx (lowerObject ctx unopened) v)).run t₁ =
        .ok (parts, t')) :
    ∃ p, t'.pool.objects[position]? = some p ∧ p.fields = [] := by
  obtain ⟨lowered, hlowered, -⟩ := Lower.mapM_map_ok hparts
  obtain ⟨hleads, -⟩ := (Lowering.bookkeeping ctx base).mapM_ok
    (P := fun _ _ _ => True) (fun _ _ _ _ _ _ => trivial)
    (fun v _ l t t' ht hrun => ⟨lowerField_leads ht hrun, trivial⟩) ht₁ hlowered
  obtain ⟨mirror, rfl, hentered, -⟩ := enterObject_entered henter
  obtain ⟨new, hadds, -⟩ := hleads.2.adds
  refine ⟨⟨object.id, mirror, []⟩, ?_, rfl⟩
  rw [hadds, hentered, List.append_assoc, List.singleton_append,
    List.getElem?_append_right (Nat.le_refl _), Nat.sub_self]
  rfl

/-- **Finding or making an object is clean**: an object gets its fields where it was entered, and
    once. -/
theorem lowerObject_clean {unopened : Nat} {id : Int}
    (ht : (Lowering.bookkeeping ctx base).Valid t) :
    Clean ((lowerObject ctx unopened id).run t) := by
  induction unopened generalizing id t with
  | zero =>
      refine Lower.clean_get_bind ?_
      split
      · exact .ok _
      · exact Lower.clean_throw rfl
  | succ unopened ih =>
      refine Lower.clean_get_bind ?_
      split
      · exact .ok _
      · next hnew =>
        split
        · exact Lower.clean_throw rfl
        · next object hdescribed =>
            obtain ⟨-, rfl⟩ := ValueContext.describe?_ok hdescribed
            refine Lower.clean_bind (enterObject_clean (Lowering.bookkeeping_sound ht) object)
              fun position t₁ henter => ?_
            have ht₁ := enterObject_bookkeeping ht hnew hdescribed henter
            refine Lower.clean_bind (lowerFields_clean object (fun _ _ => ih) ht₁)
              fun parts t₂ hparts => Lower.clean_get_bind ?_
            obtain ⟨p, hp, hempty⟩ := lowerFields_place henter ht₁ hparts
            exact Lower.clean_bind
              (Lower.clean_lift (ObjectPool.setFields_clean hp hempty _)) fun _ _ _ => .ok _

theorem lower_clean (ht : (Lowering.bookkeeping ctx base).Valid t) (v : Value) :
    Clean ((lower ctx v).run t) :=
  lowerWith_clean (Lowering.bookkeeping_sound ht) (fun _ => lowerObject_clean ht) v

theorem lower_valid {v : Value} (ht : (Lowering.bookkeeping ctx base).Valid t)
    (h : (lower ctx v).run t = .ok (l, t')) : (Lowering.bookkeeping ctx base).Valid t' :=
  (Lowering.bookkeeping ctx base).valid
    ((Lowering.bookkeeping ctx base).value (Lowering.bookkeeping_covers v) ht h).1

-- ── Locks and frames ────────────────────────────────────────────────────────────

/-- A lowered value that has the same value in both of its slots is a location. -/
def Lowered.LocatedIfDoubled (l : Lowered) : Prop :=
  l.second = some l.primary → ∃ location, l.primary.location? = some location

theorem Lowered.LocatedIfDoubled.single (v : ScopeValue) : (Lowered.single v).LocatedIfDoubled :=
  nofun

theorem Lowered.LocatedIfDoubled.wide (location : Location) :
    (Lowered.wide (.location location)).LocatedIfDoubled := fun _ => ⟨location, rfl⟩

/-- Only locations are doubled: the other half of a constant of two slots is an int, while the
    constant itself is a long. -/
theorem lowerWith_doubled {object : Int → Lower Nat} {v : Value}
    (h : (lowerWith ctx object v).run t = .ok (l, t')) : l.LocatedIfDoubled := by
  cases v with
  | illegal =>
      obtain ⟨rfl, -⟩ := Lower.pure_ok h
      exact .single _
  | register number kind =>
      obtain ⟨r, _, -, h⟩ := Lower.bind_ok h
      obtain ⟨h, -⟩ := Lower.lift_ok h
      unfold lowerRegister at h
      dsimp only at h
      split at h <;> cases kind <;> first
        | (obtain rfl := Checked.pure_ok h; first | exact .wide _ | exact .single _)
        | (obtain ⟨_, -, h⟩ := Checked.bind_ok h; exact nomatch h)
  | stackSlot offset addFrameSize kind =>
      obtain ⟨h, -⟩ := Lower.lift_ok h
      obtain ⟨place, -, h⟩ := Checked.bind_ok h
      dsimp only at h
      split at h
      · obtain rfl := Checked.pure_ok h
        exact .wide _
      · obtain rfl := Checked.pure_ok h
        exact .single _
  | constant c =>
      obtain ⟨_, _, -, h⟩ := Lower.bind_ok h
      obtain ⟨_, _, -, h⟩ := Lower.bind_ok h
      obtain ⟨_, _, -, h⟩ := Lower.bind_ok h
      obtain ⟨kind, bits, object⟩ := c
      cases kind with
      | long | double =>
          obtain ⟨rfl, -⟩ := Lower.pure_ok h
          exact fun hdoubled => nomatch Option.some.inj hdoubled
      | object =>
          rcases object with _ | object
          · obtain ⟨rfl, -⟩ := Lower.pure_ok h
            exact .single _
          · cases object with
            | heap object =>
                obtain ⟨handle, _, -, h⟩ := Lower.bind_ok h
                obtain ⟨rfl, -⟩ := Lower.pure_ok h
                exact .single _
            | type id => exact (Lower.throw_ok h).elim
            | remark text => exact (Lower.throw_ok h).elim
      | illegal => exact (Lower.throw_ok h).elim
      | _ =>
          obtain ⟨rfl, -⟩ := Lower.pure_ok h
          exact .single _
  | virtualObject id =>
      obtain ⟨position, _, -, h⟩ := Lower.bind_ok h
      obtain ⟨rfl, -⟩ := Lower.pure_ok h
      exact .single _
  | stackLock owner slot eliminated => exact (Lower.throw_ok h).elim

theorem lowerMonitor_clean (ht : (Lowering.bookkeeping ctx base).Valid t) (v : Value) :
    Clean ((lowerMonitor ctx v).run t) := by
  cases v with
  | stackLock owner slot eliminated =>
      refine Lower.clean_bind (lower_clean ht owner) fun lowered t₁ howner => ?_
      refine Lower.clean_bind (Lower.clean_lift (.require rfl)) fun _ t₂ hnarrow => ?_
      obtain ⟨-, rfl⟩ := Lower.lift_ok hnarrow
      refine Lower.clean_bind (lower_clean (lower_valid ht howner) slot) fun lock t₃ hlock => ?_
      refine Lower.clean_bind (Lower.clean_lift (.require rfl)) fun _ t₄ hlift => ?_
      obtain ⟨hwide, rfl⟩ := Lower.lift_ok hlift
      obtain ⟨location, hlocation⟩ := lowerWith_doubled hlock (require_ok hwide)
      rw [hlocation]
      exact .ok _
  | _ => exact Lower.clean_throw rfl

theorem lowerSlots_clean {frame : Frame} {i : Nat} {values : List Value}
    (ht : (Lowering.bookkeeping ctx base).Valid t) :
    Clean ((lowerSlots ctx frame i values).run t) := by
  induction i, values using lowerSlots.induct frame generalizing t with
  | case1 i => exact .ok _
  | case2 i v rest hi ih ihWide =>
      rw [lowerSlots, if_pos hi]
      refine Lower.clean_bind (lower_clean ht v) fun l t₁ hl => ?_
      have ht₁ := lower_valid ht hl
      cases l.second with
      | none => exact Lower.clean_bind (ih ht₁) fun _ _ _ => .ok _
      | some second =>
          rcases rest with _ | ⟨_ | _ | _ | _ | _ | _, rest⟩
          case cons.illegal => exact Lower.clean_bind (ihWide ht₁) fun _ _ _ => .ok _
          all_goals exact Lower.clean_throw rfl
  | case3 i v rest hi ih =>
      rw [lowerSlots, if_neg hi]
      refine Lower.clean_bind (lowerMonitor_clean ht v) fun m t₁ hm => ?_
      have hleads := ((Lowering.bookkeeping ctx base).monitor
        (Lowering.bookkeeping_covers v) ht hm).1
      exact Lower.clean_bind (ih ((Lowering.bookkeeping ctx base).valid hleads))
        fun _ _ _ => .ok _

theorem lowerFrame_clean (ht : (Lowering.bookkeeping ctx base).Valid t) (frame : Frame) :
    Clean ((lowerFrame ctx frame).run t) := by
  have hcounts : Clean frame.checkCounts :=
    .bind (Size.add_clean ..) fun _ _ => .bind (Size.add_clean ..) fun _ _ => .require rfl
  refine Lower.clean_bind (.ok _) fun _ t₁ hmethod => ?_
  obtain ⟨-, rfl⟩ := Prod.mk.inj (Except.ok.inj hmethod)
  refine Lower.clean_bind (Lower.clean_lift hcounts) fun _ t₂ hlift => ?_
  obtain ⟨-, rfl⟩ := Lower.lift_ok hlift
  have hhandles : (t.references.addMetadata (.method frame.method)).2.handleTable =
      t.references.handleTable := rfl
  have ht₁ := (Lowering.bookkeeping ctx base).valid
    ((Lowering.bookkeeping ctx base).metadata ht hhandles)
  exact Lower.clean_bind (lowerSlots_clean ht₁) fun _ _ _ => .ok _

theorem SafepointLog.currentAt_clean {log : SafepointLog} {pc : Nat} {s : Safepoint}
    (hlog : log.current = some s) (hpc : s.pc = pc) : Clean (log.currentAt pc) := by
  unfold SafepointLog.currentAt
  rw [hlog]
  exact .bind (.met hpc) fun _ _ => .ok _

theorem describeFrames_clean {pc : Nat} {log : SafepointLog} {s : Safepoint} {frames : List Frame}
    (hlog : log.current = some s) (hpc : s.pc = pc)
    (ht : (Lowering.bookkeeping ctx base).Valid t) :
    Clean ((describeFrames ctx pc log frames).run t) := by
  induction frames generalizing log s t with
  | nil => exact .ok _
  | cons frame rest ih =>
      unfold describeFrames
      rw [List.foldlM_cons]
      refine Lower.clean_bind ?_ fun log₁ t₁ hstep => ?_
      · refine Lower.clean_bind (lowerFrame_clean ht frame) fun scope _ _ => ?_
        exact Lower.clean_lift (.bind (SafepointLog.currentAt_clean hlog hpc) fun _ _ => .ok _)
      · obtain ⟨scope, t₂, hframe, hstep⟩ := Lower.bind_ok hstep
        obtain ⟨hdescribe, rfl⟩ := Lower.lift_ok hstep
        obtain ⟨s', hs', hdescribe⟩ := Checked.bind_ok hdescribe
        obtain rfl := Checked.pure_ok hdescribe
        have hleads := ((Lowering.bookkeeping ctx base).frame
          (fun v _ => Lowering.bookkeeping_covers v) ht hframe).1
        have hs : s'.pc = pc := by
          rw [SafepointLog.currentAt, hlog] at hs'
          obtain ⟨_, -, hs'⟩ := Checked.bind_ok hs'
          rw [← Checked.pure_ok hs']
          exact hpc
        exact ih rfl hs ((Lowering.bookkeeping ctx base).valid hleads)

/-- **Describing a suspension point is clean** at the open safepoint. -/
theorem describeSafepoint_clean {pc : Nat} {log : SafepointLog} {s : Safepoint} {info : DebugInfo}
    (hlog : log.current = some s) (hpc : s.pc = pc)
    (ht : (Lowering.bookkeeping ctx base).Valid t) :
    Clean ((describeSafepoint ctx pc log info).run t) := by
  refine Lower.clean_bind (describeFrames_clean hlog hpc ht) fun log₁ t₁ hframes => ?_
  obtain ⟨scopes, -, rfl⟩ := describeFrames_ok hlog hframes
  exact Lower.clean_get_bind
    (Lower.clean_lift (.bind (SafepointLog.currentAt_clean rfl hpc) fun _ _ => .ok _))

end Values

end ManagedCode
