import ManagedCode.Proofs.Hierarchy
import ManagedCode.Proofs.Lockstep

/-! # The descriptions that matter

    The objects of a suspension point are described in a list, and found in it by identity.  Only
    the descriptions of those that the frames reach are ever looked up, and the pool is numbered as
    objects are met.  So the order of the list is of no matter, and neither are descriptions of
    objects that are not reached.

* **`lowerObject_agrees`** — finding or making an object, given the same descriptions of those that
  are reached from it, with **`lowerObject_deep`** for lists of other lengths.
* **`DebugInfo.AgreesWith`** — the same frames and the same descriptions of some objects.
* **`lockRecord_object`** — an object in place of the record of a lock, which stops the recording.
* **`DebugInfo.Touches`** — what is looked up, on the way to such a fault as well.
* **`recorded_scopes_depend_on_reached`** — the scopes of two suspension points. -/

namespace ManagedCode

/-- The same context with other descriptions. -/
def ValueContext.describing (ctx : ValueContext) (objects : List VirtualObject) : ValueContext :=
  { ctx with virtualObjects := objects }

section Objects

variable {ctx : ValueContext} {objects : List VirtualObject} {R : Int → Prop} {id : Int}

-- ── Depth ───────────────────────────────────────────────────────────────────────

theorem iterate_lowerObject (ctx : ValueContext) (n : Nat) :
    (meetObject ctx)^[n] (lowerObject ctx 0) = lowerObject ctx n := by
  induction n with
  | zero => rfl
  | succ n ih =>
      rw [Function.iterate_succ_apply', ih]
      rfl

/-- More levels than there are descriptions make no difference. -/
theorem lowerObject_deep {n : Nat} (hn : ctx.virtualObjects.length ≤ n) :
    lowerObject ctx n = lowerObject ctx ctx.virtualObjects.length := by
  induction hn with
  | refl => rfl
  | @step n hn ih =>
      rw [← ih]
      funext id t
      have hunseen : t.unseen ctx < n + 1 :=
        Nat.lt_succ_of_le (Nat.le_trans List.countP_le_length hn)
      have hrun := iterate_meetObject_run (lowerObject ctx 0) id hunseen
      rw [iterate_lowerObject] at hrun
      exact hrun

-- ── Agreement on what is reached ────────────────────────────────────────────────

theorem mapM_congr_left {α β : Type} {f g : α → Lower β} {xs : List α}
    (h : ∀ x ∈ xs, f x = g x) : xs.mapM f = xs.mapM g := by
  induction xs with
  | nil => rfl
  | cons x rest ih =>
      obtain ⟨hx, hrest⟩ := List.forall_mem_cons.mp h
      rw [List.mapM_cons, List.mapM_cons, hx, ih hrest]

section Agree

variable
  (hclosed : ∀ object ∈ ctx.virtualObjects, R object.id → ∀ v ∈ object.values, ∀ id,
    v.object? = some id → R id)
  (hsame : ∀ id, R id → (ctx.describing objects).describe? id = ctx.describe? id)

/-- A value is lowered alike if the object it names is found or made alike. -/
theorem lowerWith_agrees {f g : Int → Lower Nat} {v : Value}
    (h : ∀ id, v = .virtualObject id → f id = g id) :
    lowerWith ctx f v = lowerWith (ctx.describing objects) g v := by
  cases v with
  | virtualObject id =>
      show (do return .single (.object (← f id)) : Lower Lowered) = _
      rw [h id rfl]
      rfl
  | illegal => rfl
  | register number kind => rfl
  | stackSlot offset addFrameSize kind => rfl
  | constant c => rfl
  | stackLock owner slot eliminated => rfl

include hclosed hsame

/-- One level of the recursion looks up an object that is reached, and goes on to others. -/
theorem meetObject_agrees {f g : Int → Lower Nat} (hfg : ∀ id, R id → f id = g id) (hid : R id) :
    meetObject ctx f id = meetObject (ctx.describing objects) g id := by
  unfold meetObject
  rw [hsame id hid]
  congr 1
  funext t
  cases t.seen.lookup id with
  | some position => rfl
  | none =>
      cases hdescribed : ctx.describe? id with
      | none => rfl
      | some object =>
          obtain ⟨hobject, rfl⟩ := ValueContext.describe?_ok hdescribed
          have hfields : object.values.mapM (fun v => do
                return fieldSlots ctx object (← lowerWith ctx f v)) =
              object.values.mapM fun v => do
                return fieldSlots (ctx.describing objects) object
                  (← lowerWith (ctx.describing objects) g v) := by
            refine mapM_congr_left fun v hv => ?_
            have hlower : lowerWith ctx f v = lowerWith (ctx.describing objects) g v := by
              refine lowerWith_agrees ?_
              rintro id rfl
              exact hfg id (hclosed object hobject hid _ hv id rfl)
            rw [hlower]
            rfl
          show (enterObject ctx object >>= fun position => _) = _
          rw [hfields]
          rfl

theorem lowerObject_agrees (unopened : Nat) (hid : R id) :
    lowerObject ctx unopened id = lowerObject (ctx.describing objects) unopened id := by
  induction unopened generalizing id with
  | zero => rfl
  | succ unopened ih => exact meetObject_agrees hclosed hsame (fun id hid => ih hid) hid

/-- **Values are lowered alike** if the objects they name are among those that are reached. -/
theorem lower_agrees {v : Value} (hv : ∀ id, v = .virtualObject id → R id) :
    lower ctx v = lower (ctx.describing objects) v := by
  refine lowerWith_agrees fun id hid => ?_
  have hdeep := lowerObject_deep (Nat.le_max_left ctx.virtualObjects.length objects.length)
  have hdeep' : lowerObject (ctx.describing objects) (max _ _) = _ :=
    lowerObject_deep (Nat.le_max_right ctx.virtualObjects.length objects.length)
  rw [← hdeep, ← hdeep']
  exact lowerObject_agrees hclosed hsame _ (hv id hid)

end Agree

end Objects

-- ── Two runs from the same tables ───────────────────────────────────────────────

/-- Two runs with the same tables, and with faults that correspond. -/
def Lowering.Likeness.same (Faults : Fault → Fault → Prop) (fault : ∀ e, Faults e e) :
    Lowering.Likeness where
  Tables := Eq
  Faults := Faults
  references h := by rw [h]
  handles h := by rw [h]
  record h _ _ := by rw [h]
  fault := fault

/-- Two runs with the same tables and the same faults. -/
abbrev Lowering.Likeness.equal : Lowering.Likeness := .same Eq fun _ => rfl

/-- Two runs with the same tables, which may stop with different faults. -/
abbrev Lowering.Likeness.equalOrFault : Lowering.Likeness :=
  .same (fun _ _ => True) fun _ => trivial

namespace Lowering.Likeness

variable {Faults : Fault → Fault → Prop} {fault : ∀ e, Faults e e} {α : Type}
  {left right : Checked (α × Lowering)}

theorem Ends.refl (left : Checked (α × Lowering)) : (same Faults fault).Ends left left := by
  cases left with
  | error e => exact .fault (fault e)
  | ok ended => exact .ok rfl

theorem InStep.of_eq {x y : Lower α} (h : x = y) : (same Faults fault).InStep x y := by
  rintro t u rfl
  rw [h]
  exact .refl _

theorem Ends.eq (h : equal.Ends left right) : left = right := by
  cases h with
  | @ok a t u htables =>
      obtain rfl : t = u := htables
      rfl
  | @fault e e' he =>
      obtain rfl : e = e' := he
      rfl

theorem Ends.ok_iff (h : (same Faults fault).Ends left right) (ended : α × Lowering) :
    right = .ok ended ↔ left = .ok ended := by
  cases h with
  | @ok a t u htables =>
      obtain rfl : t = u := htables
      rfl
  | fault he => exact ⟨nofun, nofun⟩

end Lowering.Likeness

-- ── Locks on objects ────────────────────────────────────────────────────────────

/-- An object takes one slot, and is no record of a lock. -/
theorem lockRecord_object (ctx : ValueContext) (id : Int) (t : Lowering) :
    ∃ e, (lockRecord ctx (.virtualObject id)).run t = .error e := by
  cases h : (lockRecord ctx (.virtualObject id)).run t with
  | error e => exact ⟨e, rfl⟩
  | ok out =>
      obtain ⟨lock, t₁, hlock, h⟩ := Lower.bind_ok h
      obtain ⟨position, t₂, -, hlock⟩ := Lower.bind_ok hlock
      obtain ⟨rfl, rfl⟩ := Lower.pure_ok hlock
      obtain ⟨_, _, hlift, -⟩ := Lower.bind_ok h
      exact nomatch require_ok (Lower.lift_ok hlift).1

section Frames

variable {ctx : ValueContext} {objects : List VirtualObject} {R : Int → Prop}

/-- Whatever is described, the record of a lock is located alike or not at all. -/
theorem lockRecord_agrees (slot : Value) :
    Lowering.Likeness.equalOrFault.InStep (lockRecord ctx slot)
      (lockRecord (ctx.describing objects) slot) := by
  by_cases hobject : ∃ id, slot = .virtualObject id
  · obtain ⟨id, rfl⟩ := hobject
    intro t u _
    obtain ⟨e, he⟩ := lockRecord_object ctx id t
    obtain ⟨e', he'⟩ := lockRecord_object (ctx.describing objects) id u
    rw [he, he']
    exact .fault trivial
  · have hslot : lower ctx slot = lower (ctx.describing objects) slot :=
      lowerWith_agrees fun id hid => (hobject ⟨id, hid⟩).elim
    exact .lockRecord (.of_eq hslot)

/-- **The frames of two suspension points** are described alike if their objects are, and end alike
    if the records of their locks do. -/
theorem describeFrames_agrees {Faults : Fault → Fault → Prop} {fault : ∀ e, Faults e e} {pc : Nat}
    {log : SafepointLog} {frames : List Frame}
    (hclosed : ∀ object ∈ ctx.virtualObjects, R object.id → ∀ v ∈ object.values, ∀ id,
      v.object? = some id → R id)
    (hsame : ∀ id, R id → (ctx.describing objects).describe? id = ctx.describe? id)
    (hroots : ∀ frame ∈ frames, ∀ v ∈ frame.values, ∀ id, v.object? = some id → R id)
    (hrecords : ∀ frame ∈ frames, ∀ owner slot eliminated,
      .stackLock owner slot eliminated ∈ frame.values →
      (Lowering.Likeness.same Faults fault).InStep (lockRecord ctx slot)
        (lockRecord (ctx.describing objects) slot)) :
    (Lowering.Likeness.same Faults fault).InStep (describeFrames ctx pc log frames)
      (describeFrames (ctx.describing objects) pc log frames) := by
  have hlower : ∀ v : Value, (∀ id, v.object? = some id → R id) →
      lower ctx v = lower (ctx.describing objects) v := by
    refine fun v hv => lower_agrees hclosed hsame ?_
    rintro id rfl
    exact hv id rfl
  refine .describeFrames (fun frame hframe v hv => .of_eq (hlower v (hroots frame hframe v hv)))
    fun frame hframe v hv => .monitor ?_
  rintro owner slot eliminated rfl
  exact ⟨.of_eq (hlower owner fun id hid => hroots frame hframe _ hv id hid),
    hrecords frame hframe owner slot eliminated hv⟩

end Frames

-- ── Suspension points ───────────────────────────────────────────────────────────

namespace DebugInfo

/-- The identities that are looked up: those that the frames reach, those that stand in place of the
    records of their locks, and those that a described object names in its fields. -/
inductive Touches (info : DebugInfo) : Int → Prop
  | reached {id : Int} (hreached : info.Reaches id) : Touches info id
  | record {frame : Frame} {owner slot : Value} {eliminated : Bool} {id : Int}
      (hframe : frame ∈ info.chain) (hv : .stackLock owner slot eliminated ∈ frame.values)
      (hid : slot = .virtualObject id) : Touches info id
  | field {object : VirtualObject} {v : Value} {id : Int} (htouched : Touches info object.id)
      (hobject : object ∈ info.virtualObjects) (hv : v ∈ object.values)
      (hid : v.object? = some id) : Touches info id

/-- Two suspension points have the same frames, describe objects once each, and describe those of a
    set alike or not at all. -/
structure AgreesWith (info info' : DebugInfo) (R : Int → Prop) : Prop where
  chain : info'.chain = info.chain
  distinct : (info.virtualObjects.map VirtualObject.id).Nodup
  distinct' : (info'.virtualObjects.map VirtualObject.id).Nodup
  objects : ∀ object, R object.id → (object ∈ info'.virtualObjects ↔ object ∈ info.virtualObjects)

section Agreement

variable {info info' : DebugInfo} {R : Int → Prop} {world : Description} {byteOrder : ByteOrder}
  {frameSize : Int} {pc : Nat} {log : SafepointLog}

theorem AgreesWith.describe? (h : info.AgreesWith info' R) {id : Int} (hid : R id) :
    (info'.contextIn world byteOrder frameSize).describe? id =
      (info.contextIn world byteOrder frameSize).describe? id := by
  refine Option.ext fun object => ?_
  have hfound := find?_key_iff h.distinct (k := id) (a := object)
  have hfound' := find?_key_iff h.distinct' (k := id) (a := object)
  refine hfound'.trans (Iff.trans (and_congr_left ?_) hfound.symm)
  rintro rfl
  exact h.objects object hid

/-- Two recordings end alike if the descriptions agree on a closed set with all that is named by the
    frames, and if the records of locks end alike. -/
theorem AgreesWith.ends {Faults : Fault → Fault → Prop} {fault : ∀ e, Faults e e}
    (h : info.AgreesWith info' R)
    (hclosed : ∀ object ∈ info.virtualObjects, R object.id → ∀ v ∈ object.values, ∀ id,
      v.object? = some id → R id)
    (hreached : ∀ id, info.Reaches id → R id)
    (hrecords : ∀ frame ∈ info.chain, ∀ owner slot eliminated,
      .stackLock owner slot eliminated ∈ frame.values →
      (Lowering.Likeness.same Faults fault).InStep
        (lockRecord (info.contextIn world byteOrder frameSize) slot)
        (lockRecord (info'.contextIn world byteOrder frameSize) slot)) (t : Lowering) :
    (Lowering.Likeness.same Faults fault).Ends
      ((info.recordScopes world byteOrder frameSize pc log).run t)
      ((info'.recordScopes world byteOrder frameSize pc log).run t) := by
  have hfresh := Description.firstRepeated_of_nodup h.distinct (fun _ _ => List.not_mem_nil)
  have hfresh' := Description.firstRepeated_of_nodup h.distinct' (fun _ _ => List.not_mem_nil)
  rw [recordScopes_of_distinct hfresh, recordScopes_of_distinct hfresh', h.chain]
  have hframes : (Lowering.Likeness.same Faults fault).InStep
      (describeFrames (info.contextIn world byteOrder frameSize) pc log info.chain.reverse)
      (describeFrames (info'.contextIn world byteOrder frameSize) pc log info.chain.reverse) := by
    refine describeFrames_agrees hclosed (fun id hid => h.describe? hid) ?_ ?_
    · intro frame hframe v hv id hid
      exact hreached id (.root (List.mem_reverse.mp hframe) hv hid)
    · intro frame hframe
      exact hrecords frame (List.mem_reverse.mp hframe)
  refine (hframes t t rfl).bind fun described t₁ t₂ _ htables => ?_
  obtain rfl := htables
  exact .refl _

/-- Given the same descriptions of what is reached, both are recorded alike or neither is. -/
theorem AgreesWith.recorded_iff (h : info.AgreesWith info' info.Reaches) (t : Lowering)
    (recorded : SafepointLog × Lowering) :
    (info'.recordScopes world byteOrder frameSize pc log).run t = .ok recorded ↔
      (info.recordScopes world byteOrder frameSize pc log).run t = .ok recorded := by
  have hends : Lowering.Likeness.equalOrFault.Ends
      ((info.recordScopes world byteOrder frameSize pc log).run t)
      ((info'.recordScopes world byteOrder frameSize pc log).run t) :=
    h.ends (fun _ hobject hid v hv id => .field hid hobject hv) (fun _ hid => hid)
      (fun _ _ _ slot _ _ => lockRecord_agrees slot) t
  exact hends.ok_iff recorded

/-- Given the same descriptions of what is looked up, both end in the same way. -/
theorem AgreesWith.run_eq (h : info.AgreesWith info' info.Touches) (t : Lowering) :
    (info'.recordScopes world byteOrder frameSize pc log).run t =
      (info.recordScopes world byteOrder frameSize pc log).run t := by
  have hclosed : ∀ object ∈ info.virtualObjects, info.Touches object.id → ∀ v ∈ object.values,
      ∀ id, v.object? = some id → info.Touches id :=
    fun _ hobject hid v hv id => .field hid hobject hv
  have hrecords : ∀ frame ∈ info.chain, ∀ owner slot eliminated,
      .stackLock owner slot eliminated ∈ frame.values →
      lower (info.contextIn world byteOrder frameSize) slot =
        lower (info'.contextIn world byteOrder frameSize) slot := by
    intro frame hframe owner slot eliminated hv
    refine lower_agrees hclosed ?_ fun id hid => .record hframe hv hid
    exact fun id hid => h.describe? hid
  have hends : Lowering.Likeness.equal.Ends
      ((info.recordScopes world byteOrder frameSize pc log).run t)
      ((info'.recordScopes world byteOrder frameSize pc log).run t) :=
    h.ends hclosed (fun _ => .reached) (fun frame hframe owner slot eliminated hv =>
      .lockRecord (.of_eq (hrecords frame hframe owner slot eliminated hv))) t
  exact hends.eq.symm

/-- Other objects may be described as well, and all of them in another order. -/
theorem AgreesWith.of_perm {objects extra : List VirtualObject}
    (hperm : objects.Perm (info.virtualObjects ++ extra))
    (hdistinct : (objects.map VirtualObject.id).Nodup)
    (hextra : ∀ object ∈ extra, ¬ R object.id) :
    info.AgreesWith { info with virtualObjects := objects } R := by
  refine ⟨rfl, ?_, hdistinct, fun object hobject => ?_⟩
  · have hall := (hperm.map VirtualObject.id).nodup_iff.mp hdistinct
    rw [List.map_append] at hall
    exact hall.of_append_left
  · rw [hperm.mem_iff, List.mem_append]
    exact or_iff_left fun hmem => hextra object hmem hobject

end Agreement

end DebugInfo

/-- **Scopes depend on what is reached.** Let two suspension points have the same frames, and let
    their objects be described once each. If the objects that the frames reach are described alike,
    or not at all in both, then whenever one is recorded so is the other, with the same scopes,
    pool, references and handles. If the objects that stand in place of records of locks are
    described alike as well, then both also stop with the same fault. In particular the order of the
    descriptions does not matter, and neither do further objects that are not reached. -/
theorem recorded_scopes_depend_on_reached (info : DebugInfo) (world : Description)
    (byteOrder : ByteOrder) (frameSize : Int) (pc : Nat) (log : SafepointLog) (t : Lowering) :
    let run (info : DebugInfo) := (info.recordScopes world byteOrder frameSize pc log).run t
    (∀ info', info.AgreesWith info' info.Reaches →
      ∀ recorded, run info' = .ok recorded ↔ run info = .ok recorded) ∧
    (∀ info', info.AgreesWith info' info.Touches → run info' = run info) ∧
    ∀ objects extra, objects.Perm (info.virtualObjects ++ extra) →
      (objects.map VirtualObject.id).Nodup →
      ((∀ object ∈ extra, ¬ info.Reaches object.id) →
        ∀ recorded, run { info with virtualObjects := objects } = .ok recorded ↔
          run info = .ok recorded) ∧
      ((∀ object ∈ extra, ¬ info.Touches object.id) →
        run { info with virtualObjects := objects } = run info) := by
  intro run
  refine ⟨fun info' h => h.recorded_iff t, fun info' h => h.run_eq t,
    fun objects extra hperm hdistinct => ⟨fun hextra => ?_, fun hextra => ?_⟩⟩
  · exact (DebugInfo.AgreesWith.of_perm hperm hdistinct hextra).recorded_iff t
  · exact (DebugInfo.AgreesWith.of_perm hperm hdistinct hextra).run_eq t

-- ── Another order ───────────────────────────────────────────────────────────────

/-- One more object than in the sample graph, which refers to itself only. -/
def VirtualObject.sampleAlone : VirtualObject := ⟨4, ⟨0x400⟩, [.virtualObject 4]⟩

/-- The objects of the sample graph and one more, in another order. -/
def VirtualObject.sampleShuffled : List VirtualObject :=
  (DebugInfo.sampleGraph.virtualObjects ++ [sampleAlone]).reverse

theorem DebugInfo.sampleGraph_reaches {id : Int} (h : DebugInfo.sampleGraph.Reaches id) :
    id = 1 ∨ id = 2 := by
  cases h with
  | root hframe hv hid =>
      have hnamed : ∀ frame ∈ DebugInfo.sampleGraph.chain, ∀ v ∈ frame.values, ∀ id ∈ v.object?,
          id = 1 ∨ id = 2 := by
        decide
      exact hnamed _ hframe _ hv _ hid
  | field hreached hobject hv hid =>
      have hnamed : ∀ object ∈ DebugInfo.sampleGraph.virtualObjects, ∀ v ∈ object.values,
          ∀ id ∈ v.object?, id = 1 ∨ id = 2 := by
        decide
      exact hnamed _ hobject _ hv _ hid

/-- The shuffled objects are recorded as those of the sample graph are. -/
theorem recorded_scopes_depend_on_reached_shuffled :
    let run info := (DebugInfo.recordScopes .sample .little 16 6 .sampleOpen info).run {}
    (∀ recorded, run { DebugInfo.sampleGraph with
      virtualObjects := VirtualObject.sampleShuffled } = .ok recorded ↔
        run .sampleGraph = .ok recorded) ∧
    describedObjects? (run .sampleGraph) =
      some [(1, [.object 0, .object 1]), (2, [.object 0, .int 0, .long 7])] := by
  refine ⟨?_, by decide +kernel⟩
  obtain ⟨-, -, hordered⟩ :=
    recorded_scopes_depend_on_reached .sampleGraph .sample .little 16 6 .sampleOpen {}
  refine (hordered VirtualObject.sampleShuffled [.sampleAlone] (List.reverse_perm _) (by decide)).1
    fun object hobject hreached => ?_
  obtain rfl := List.mem_singleton.mp hobject
  exact absurd (DebugInfo.sampleGraph_reaches hreached) (by decide)

end ManagedCode
