import Mathlib.Algebra.Order.Ring.Nat
import ManagedCode.Proofs.Application

/-! # Room for relocations

    The table of relocations is given its room before the sites are applied: so many records for
    each site.  What a site takes is fixed by its kind and not by its path: the mark of a static
    call stub two records, any other site one at most.  A step is refused for want of relocations
    only where the records in front of it and its own are more than the room.

* **`Patch.TakesRecords`** — a step that adds at most so many records, and is refused only for want
  of room for them.
* **`Site.recordLimit`** — what a site takes at most.
* **`applySites_takes`** — what the run of the sites takes at most. -/

namespace ManagedCode

-- ── What a change of the blob leaves ────────────────────────────────────────────

/-- The two blobs have the same reserves and equally many relocations. -/
structure Blob.SameRoom (b b' : Blob) : Prop where
  layout : b'.layout = b.layout
  records : b'.relocations.length = b.relocations.length

namespace Blob

variable {b b' : Blob}

theorem SameRoom.refl (b : Blob) : b.SameRoom b := ⟨rfl, rfl⟩

theorem write64_room {o : Operand} {value : UInt64} (h : b.write64 o value = .ok b') :
    b.SameRoom b' := by
  obtain ⟨-, rfl⟩ := write64_ok h
  exact ⟨rfl, rfl⟩

theorem write32_room {o : Operand} {value : Int} (h : b.write32 o value = .ok b') :
    b.SameRoom b' := by
  obtain ⟨_, -, h⟩ := Checked.bind_ok h
  obtain ⟨-, -, rfl⟩ := writeBytes_ok h
  exact ⟨rfl, rfl⟩

/-- A relocation of another kind stays where it is. -/
theorem offsets_rekindFirst {offset : Nat} {old new : RelocationKind} {records : List Relocation} :
    ∀ {changed}, rekindFirst offset old new records = some changed →
      changed.map Relocation.offset = records.map Relocation.offset := by
  induction records with
  | nil => exact nofun
  | cons r rest ih =>
      intro changed h
      rw [rekindFirst] at h
      split at h
      · rw [← Option.some.inj h]
        rfl
      · obtain ⟨changed', hrest, rfl⟩ := Option.map_eq_some_iff.mp h
        rw [List.map_cons, List.map_cons, ih hrest]

theorem changeKind_offsets {offset : Nat} {old new : RelocationKind}
    (h : b.changeKind offset old new = .ok b') :
    b' = { b with relocations := b'.relocations } ∧
      b'.relocations.map Relocation.offset = b.relocations.map Relocation.offset := by
  rw [changeKind] at h
  split at h
  · next changed hchanged =>
      obtain rfl := Except.ok.inj h
      refine ⟨rfl, ?_⟩
      rw [List.map_reverse, offsets_rekindFirst hchanged, List.map_reverse, List.reverse_reverse]
  · exact nomatch h

theorem changeKind_room {offset : Nat} {old new : RelocationKind}
    (h : b.changeKind offset old new = .ok b') : b.SameRoom b' := by
  obtain ⟨hframe, hoffsets⟩ := changeKind_offsets h
  refine ⟨by rw [hframe], ?_⟩
  have hlength := congrArg List.length hoffsets
  rwa [List.length_map, List.length_map] at hlength

end Blob

-- ── Steps that take records ─────────────────────────────────────────────────────

/-- **At most `n` records are taken** on the way from `b` to `b'`: the reserves stay, and the end
    is a refusal for want of relocations only if there was no room for so many. -/
structure Blob.Takes {α : Type} (n : Nat) (b : Blob) (out : Except Overflow α) (b' : Blob) :
    Prop where
  layout : b'.layout = b.layout
  grows : b'.relocations.length ≤ b.relocations.length + n
  exhausted : ∀ capacity, out = .error (.relocations capacity) →
    b.layout.relocationCapacity < b.relocations.length + n

namespace Blob.Takes

variable {α β : Type} {m n : Nat} {b b₁ b' : Blob}

/-- Where the room stays as it is, no records are taken. -/
theorem none {a : α} (h : b.SameRoom b') : b.Takes 0 (.ok a) b' :=
  ⟨h.layout, Nat.le_of_eq h.records, nofun⟩

theorem mono {out : Except Overflow α} (h : b.Takes m out b') (hle : m ≤ n) : b.Takes n out b' :=
  ⟨h.layout, Nat.le_trans h.grows (Nat.add_le_add_left hle _), fun capacity hout =>
    Nat.lt_of_lt_of_le (h.exhausted capacity hout) (Nat.add_le_add_left hle _)⟩

/-- What is refused in the middle has taken no more than the whole would have. -/
theorem refused {e : Overflow} (h : b.Takes m (.error e : Except Overflow α) b') :
    b.Takes m (.error e : Except Overflow β) b' :=
  ⟨h.layout, h.grows, fun capacity he => h.exhausted capacity (congrArg _ (Except.error.inj he))⟩

theorem trans {a : α} {out : Except Overflow β} (h : b.Takes m (.ok a) b₁)
    (h' : b₁.Takes n out b') : b.Takes (m + n) out b' := by
  refine ⟨h'.layout.trans h.layout, ?_, fun capacity hout => ?_⟩
  · have hfirst := h.grows
    have hthen := h'.grows
    omega
  · have hfirst := h.grows
    have hfull := h'.exhausted capacity hout
    rw [h.layout] at hfull
    omega

end Blob.Takes

namespace Patch

variable {α β : Type} {m n : Nat}

/-- The step is refused only for want of relocations. -/
structure RefusesRecords (step : Patch α) : Prop where
  refused : ∀ (d d' : Draft) (e : Overflow), step.runOn d = .ok (.error e, d') →
    ∃ capacity, e = .relocations capacity

/-- **The step takes at most `n` records**, and is refused only for want of room for them. -/
structure TakesRecords (n : Nat) (step : Patch α) : Prop extends RefusesRecords step where
  takes : ∀ (d d' : Draft) (out : Except Overflow α), step.runOn d = .ok (out, d') →
    d.blob.Takes n out d'.blob

namespace TakesRecords

/-- A step that always goes through and leaves the room alone. -/
theorem of_sameRoom {x : Patch α}
    (h : ∀ (d d' : Draft) (out : Except Overflow α), x.runOn d = .ok (out, d') →
      ∃ a, out = .ok a ∧ d.blob.SameRoom d'.blob) : TakesRecords 0 x where
  refused d d' _ hx := by
    obtain ⟨a, hout, -⟩ := h d d' _ hx
    exact nomatch hout
  takes d d' out hx := by
    obtain ⟨a, rfl, hroom⟩ := h d d' out hx
    exact .none hroom

theorem mono {x : Patch α} (h : TakesRecords m x) (hle : m ≤ n) : TakesRecords n x where
  refused := h.refused
  takes d d' out hx := (h.takes d d' out hx).mono hle

/-- **One step after the other** takes the records of both. -/
theorem bind {x : Patch α} {f : α → Patch β} (hx : TakesRecords m x)
    (hf : ∀ a, TakesRecords n (f a)) : TakesRecords (m + n) (x >>= f) where
  refused d d' e h := by
    rcases bind_done h with ⟨e', he, hx'⟩ | ⟨a, d₁, -, hf'⟩
    · obtain rfl := Except.error.inj he
      exact hx.refused _ _ _ hx'
    · exact (hf a).refused _ _ _ hf'
  takes d d' out h := by
    rcases bind_done h with ⟨e, rfl, hx'⟩ | ⟨a, d₁, hx', hf'⟩
    · exact ((hx.takes _ _ _ hx').mono (Nat.le_add_right m n)).refused
    · exact (hx.takes _ _ _ hx').trans ((hf a).takes _ _ _ hf')

/-- Behind a step that takes none. -/
theorem after {x : Patch α} {f : α → Patch β} (hx : TakesRecords 0 x)
    (hf : ∀ a, TakesRecords n (f a)) : TakesRecords n (x >>= f) :=
  Nat.zero_add n ▸ bind hx hf

/-- In front of steps that take none. -/
theorem before {x : Patch α} {f : α → Patch β} (hx : TakesRecords n x)
    (hf : ∀ a, TakesRecords 0 (f a)) : TakesRecords n (x >>= f) := bind hx hf

theorem pure (a : α) : TakesRecords 0 (Pure.pure a : Patch α) := by
  refine of_sameRoom fun d d' out h => ?_
  obtain ⟨rfl, rfl⟩ := Prod.mk.inj (Except.ok.inj h)
  exact ⟨a, rfl, .refl _⟩

theorem lift (x : Checked α) : TakesRecords 0 (liftM x : Patch α) := by
  refine of_sameRoom fun d d' out h => ?_
  rw [runOn_lift] at h
  obtain ⟨a, -, h⟩ := Checked.bind_ok h
  obtain ⟨rfl, rfl⟩ := Prod.mk.inj (Except.ok.inj h)
  exact ⟨a, rfl, .refl _⟩

theorem get : TakesRecords 0 (MonadState.get : Patch Draft) := by
  refine of_sameRoom fun d d' out h => ?_
  obtain ⟨rfl, rfl⟩ := Prod.mk.inj (Except.ok.inj h)
  exact ⟨_, rfl, .refl _⟩

theorem blob : TakesRecords 0 Patch.blob := after get fun _ => pure _

theorem modified {g : Draft → Draft} (hg : ∀ d, (g d).blob = d.blob) :
    TakesRecords 0 (modify g : Patch PUnit) := by
  refine of_sameRoom fun d d' out h => ?_
  obtain ⟨rfl, rfl⟩ := Prod.mk.inj (Except.ok.inj h)
  exact ⟨_, rfl, hg d ▸ .refl _⟩

theorem modifyBlob {g : ManagedCode.Blob → Checked ManagedCode.Blob}
    (hg : ∀ b b', g b = .ok b' → b.SameRoom b') : TakesRecords 0 (Patch.modifyBlob g) := by
  refine of_sameRoom fun d d' out h => ?_
  rw [runOn_modifyBlob] at h
  obtain ⟨b, hb, h⟩ := Checked.bind_ok h
  obtain ⟨rfl, rfl⟩ := Prod.mk.inj (Except.ok.inj h)
  exact ⟨_, rfl, hg _ _ hb⟩

theorem modifyLog (g : SafepointLog → Checked SafepointLog) :
    TakesRecords 0 (Patch.modifyLog g) := by
  refine of_sameRoom fun d d' out h => ?_
  rw [runOn_modifyLog] at h
  obtain ⟨log, -, h⟩ := Checked.bind_ok h
  obtain ⟨rfl, rfl⟩ := Prod.mk.inj (Except.ok.inj h)
  exact ⟨_, rfl, .refl _⟩

theorem lowering (step : Lower α) : TakesRecords 0 (Patch.lowering step) := by
  refine of_sameRoom fun d d' out h => ?_
  rw [runOn_lowering] at h
  obtain ⟨t, -, h⟩ := Checked.bind_ok h
  obtain ⟨rfl, rfl⟩ := Prod.mk.inj (Except.ok.inj h)
  exact ⟨_, rfl, .refl _⟩

/-- **A recorded relocation** takes one record, and is refused where there is no room for it. -/
theorem relocate (offset : Nat) (kind : RelocationKind) (format : OperandFormat) :
    TakesRecords 1 (Patch.relocate offset kind format) := by
  have hdone : ∀ (d d' : Draft) (out : Except Overflow Unit),
      (Patch.relocate offset kind format).runOn d = .ok (out, d') →
      d.blob.Takes 1 out d'.blob ∧ ∀ e, out = .error e → ∃ capacity, e = .relocations capacity := by
    intro d d' out h
    rw [runOn_relocate] at h
    obtain ⟨⟨result, b⟩, hresult, h⟩ := Checked.bind_ok h
    obtain ⟨rfl, rfl⟩ := Prod.mk.inj (Except.ok.inj h)
    rcases Blob.relocate_done hresult with ⟨-, ⟨rfl, -, rfl⟩ | ⟨rfl, hfull, rfl⟩⟩
    · exact ⟨⟨rfl, Nat.le_of_eq List.length_append, nofun⟩, nofun⟩
    · exact ⟨⟨rfl, Nat.le_add_right _ _, fun _ _ => Nat.lt_succ_of_le hfull⟩,
        fun e he => ⟨_, (Except.error.inj he).symm⟩⟩
  exact ⟨⟨fun d d' e h => (hdone d d' _ h).2 e rfl⟩, fun d d' out h => (hdone d d' out h).1⟩

end TakesRecords

end Patch

-- ── Steps of a site ─────────────────────────────────────────────────────────────

section Steps

open Patch

theorem takes_setBranchTarget (i : Instruction) (target : UInt64) :
    TakesRecords 0 (setBranchTarget i target) := by
  refine .modifyBlob fun b b' h => ?_
  obtain ⟨_, -, h⟩ := Checked.bind_ok h
  obtain ⟨_, -, h⟩ := Checked.bind_ok h
  obtain ⟨_, -, h⟩ := Checked.bind_ok h
  exact Blob.write32_room h

theorem takes_setRelativeOperand (i : Instruction) (o : Operand) (target : UInt64) :
    TakesRecords 0 (setRelativeOperand i o target) := by
  refine .modifyBlob fun b b' h => ?_
  obtain ⟨_, -, h⟩ := Checked.bind_ok h
  obtain ⟨_, -, h⟩ := Checked.bind_ok h
  exact Blob.write32_room h

theorem takes_writeImmediate (i : Instruction) (bits : UInt64) :
    TakesRecords 0 (modifyBlob fun b => do b.write64 (← i.immediate64) bits) := by
  refine .modifyBlob fun b b' h => ?_
  obtain ⟨_, -, h⟩ := Checked.bind_ok h
  exact Blob.write64_room h

theorem takes_bindWord (i : Instruction) (bits : UInt64) (offset : Nat) (kind : RelocationKind)
    (format : OperandFormat) : TakesRecords 1 (do
      modifyBlob fun b => do b.write64 (← i.immediate64) bits
      relocate offset kind format) :=
  .after (takes_writeImmediate i bits) fun _ => .relocate ..

theorem takes_bindCall (i : Instruction) (target : UInt64) (kind : RelocationKind) :
    TakesRecords 1 (bindCall i target kind) :=
  .after (.lift _) fun _ => .after (takes_setBranchTarget i target) fun _ => .relocate ..

theorem takes_bindInstalledCode (ctx : SiteContext) (i : Instruction) (id : CodeId) :
    TakesRecords 1 (bindInstalledCode ctx i id) := by
  refine .after (.lift _) fun _ => .after (.lift _) fun entry => ?_
  cases entry with
  | none => exact (TakesRecords.lift _).mono (Nat.zero_le 1)
  | some entry => exact .after (takes_setBranchTarget i entry) fun _ => .relocate ..

theorem takes_bindStub (ctx : SiteContext) (i : Instruction) (id : Int) :
    TakesRecords 1 (bindStub ctx i id) := by
  rw [bindStub]
  cases stubAddress? ctx.stubs id with
  | none => exact (TakesRecords.lift _).mono (Nat.zero_le 1)
  | some target =>
      dsimp only
      split
      · exact takes_bindWord ..
      · exact .after (takes_setBranchTarget i target) fun _ => .relocate ..

theorem takes_bindMethod (ctx : SiteContext) (i : Instruction) (method : Option MethodId) :
    TakesRecords 1 (bindMethod ctx i method) := by
  refine .after .get fun d => ?_
  dsimp only
  cases d.announced.mark with
  | inlineInvokeVirtual => exact (TakesRecords.pure _).mono (Nat.zero_le 1)
  | invokeVirtual | invokeInterface =>
      refine .after (.lift _) fun _ => ?_
      cases d.announced.offset with
      | none => exact (TakesRecords.lift _).mono (Nat.zero_le 1)
      | some cache => exact takes_bindCall ..
  | invokeStatic | invokeSpecial => exact .after (.lift _) fun _ => takes_bindCall ..
  | _ => exact (TakesRecords.lift _).mono (Nat.zero_le 1)

theorem takes_openSafepoint (ctx : SiteContext) (pc : Nat) (info : DebugInfo)
    (leafGraphId : Int) : TakesRecords 0 (openSafepoint ctx pc info leafGraphId) :=
  .after (.lift _) fun _ => .after (.modifyLog _) fun _ => .after (.lift _) fun _ =>
    .after .get fun _ => .after (.lowering _) fun _ => .modified fun _ => rfl

theorem takes_closeSafepoint (pc : Nat) : TakesRecords 0 (closeSafepoint pc) := .modifyLog _

theorem takes_applySafepoint (ctx : SiteContext) (offset : Nat) (info : DebugInfo) :
    TakesRecords 0 (applySafepoint ctx offset info) :=
  .after (takes_openSafepoint ..) fun _ => takes_closeSafepoint _

theorem takes_applyCall (ctx : SiteContext) (offset : Nat) (target : CallTarget)
    (info : Option DebugInfo) : TakesRecords 1 (applyCall ctx offset target info) := by
  have hcall : ∀ pc (step : Patch Unit), TakesRecords 1 step →
      TakesRecords 1 (withCallSafepoint ctx pc info step) := by
    intro pc step hstep
    cases info with
    | none =>
        exact .before hstep fun _ => .after (.modified fun _ => rfl) fun _ => .pure _
    | some info =>
        exact .after (takes_openSafepoint ..) fun _ => .before hstep fun _ =>
          .after (.modified fun _ => rfl) fun _ => takes_closeSafepoint pc
  refine .after .blob fun b => .after (.lift _) fun i => .after (.lift _) fun pc => ?_
  cases target with
  | installedCode id => exact takes_bindInstalledCode ..
  | runtimeStub id => exact hcall pc _ (takes_bindStub ..)
  | method ref => exact hcall pc _ (.after (.lift _) fun _ => takes_bindMethod ..)

theorem takes_markNearPoll (ctx : SiteContext) (offset : Nat) (kind : RelocationKind) :
    TakesRecords 1 (markNearPoll ctx offset kind) :=
  .after .blob fun _ => .after (.lift _) fun i => .after (.lift _) fun _ =>
    .after (.lift _) fun o => .after (.lift _) fun _ => .after (.lift _) fun target =>
    .after (takes_setRelativeOperand i o target) fun _ => .relocate ..

theorem takes_markInlineCache (ctx : SiteContext) (mark : Mark) (offset : Nat) :
    TakesRecords 0 (markInlineCache ctx mark offset) := by
  refine .after (.modifyBlob fun b b' h => ?_) fun _ => .modified fun _ => rfl
  obtain ⟨_, -, h⟩ := Checked.bind_ok h
  obtain ⟨_, -, h⟩ := Checked.bind_ok h
  obtain ⟨_, -, h⟩ := Checked.bind_ok h
  obtain ⟨_, -, h⟩ := Checked.bind_ok h
  obtain ⟨_, -, h⟩ := Checked.bind_ok h
  exact Blob.write64_room h

theorem takes_markStaticStub (offset : Nat) (references : List Int) :
    TakesRecords 2 (markStaticStub offset references) := by
  simp only [markStaticStub]
  split
  · exact .after .blob fun _ => .after (.lift _) fun _ => .bind (.relocate ..) fun _ =>
      .relocate ..
  · exact (TakesRecords.lift _).mono (Nat.zero_le 2)

end Steps

-- ── Sites ───────────────────────────────────────────────────────────────────────

/-- The records that a mark may take. -/
def Mark.recordLimit : Mark → Nat
  | staticCallStub => 2
  | _ => 1

/-- The records that a site may take: two for a static call stub, which is tied to its metadata
    and to the call it serves, and one for anything else. -/
def Site.recordLimit (site : Site) : Nat :=
  match site.kind with
  | .mark id _ => ((Mark.ofNumber? id).map Mark.recordLimit).getD 1
  | _ => 1

section Sites

open Patch

variable {ctx : SiteContext} {d d' : Draft} {out : Except Overflow Unit}

theorem takes_applyMark (ctx : SiteContext) (offset : Nat) (id : Int) (references : List Int) :
    TakesRecords (((Mark.ofNumber? id).map Mark.recordLimit).getD 1)
      (applyMark ctx offset id references) := by
  have hnone : ∀ {step : Patch Unit}, TakesRecords 0 step → TakesRecords 1 step :=
    fun h => h.mono (Nat.zero_le 1)
  rw [applyMark]
  cases Mark.ofNumber? id with
  | none => exact hnone (.lift _)
  | some mark =>
      cases mark with
      | verifiedEntry | unverifiedEntry | osrEntry | unwindEntry | exceptionHandlerEntry
      | deoptHandlerEntry => exact hnone (.modified fun _ => rfl)
      | invokeInvalid | invokeStatic | invokeSpecial | inlineInvokeVirtual =>
          exact hnone (.modified fun _ => rfl)
      | invokeVirtual | invokeInterface => exact hnone (takes_markInlineCache ..)
      | pollNear | pollReturnNear => exact takes_markNearPoll ..
      | pollFar | pollReturnFar => exact .relocate ..
      | typePatching =>
          refine hnone (.modifyBlob fun b b' h => ?_)
          obtain ⟨⟨_, b₁⟩, hfill, h⟩ := Checked.bind_ok h
          obtain rfl := Checked.pure_ok h
          obtain ⟨_, _, -, -, -, rfl⟩ := fillPatchingHeader_ok hfill
          exact ⟨rfl, rfl⟩
      | accessFieldPatching =>
          refine hnone (.modifyBlob fun b b' h => ?_)
          obtain ⟨⟨_, b₁⟩, hfill, h⟩ := Checked.bind_ok h
          obtain ⟨_, _, -, -, -, rfl⟩ := fillPatchingHeader_ok hfill
          obtain ⟨_, _, -, -, -, rfl⟩ := clearFieldOffset_ok h
          exact ⟨rfl, rfl⟩
      | dummyReference =>
          exact .before (.relocate ..) fun _ => .modifyBlob fun _ _ h => Blob.changeKind_room h
      | implicitNull =>
          refine hnone (.of_sameRoom fun d d' out h => ?_)
          obtain ⟨_, -, h⟩ := Checked.bind_ok ((runOn_lift_bind _ _ d).symm.trans h)
          obtain ⟨rfl, rfl⟩ := Prod.mk.inj (Except.ok.inj h)
          exact ⟨_, rfl, .refl _⟩
      | staticCallStub => exact takes_markStaticStub ..

theorem takes_appendConstant {bytes : List UInt8} {alignment : Nat} {out : Except Overflow Nat}
    (h : (appendConstant bytes alignment).runOn d = .ok (out, d')) :
    d.blob.Takes 0 out d'.blob := by
  rw [runOn_appendConstant] at h
  obtain ⟨⟨result, b⟩, hresult, h⟩ := Checked.bind_ok h
  obtain ⟨rfl, rfl⟩ := Prod.mk.inj (Except.ok.inj h)
  obtain ⟨_, -, ⟨rfl, -, rfl⟩ | ⟨rfl, -, rfl⟩⟩ := Blob.appendConstant_done hresult
  · exact .none ⟨rfl, rfl⟩
  · exact ⟨rfl, Nat.le_refl _, nofun⟩

/-- The constant itself is not in the table, the load that refers to it is. -/
theorem takes_placeConstant {i : Instruction} {bits : UInt64} {alignment : Nat}
    (h : (placeConstant i bits alignment).runOn d = .ok (out, d')) :
    d.blob.Takes 1 out d'.blob := by
  rw [placeConstant] at h
  rw [runOn_lift_bind] at h
  obtain ⟨_, -, h⟩ := Checked.bind_ok h
  rw [runOn_lift_bind] at h
  obtain ⟨o, -, h⟩ := Checked.bind_ok h
  rcases bind_done h with ⟨e, rfl, happend⟩ | ⟨offset, d₁, happend, h⟩
  · exact ((takes_appendConstant happend).mono (Nat.zero_le 1)).refused
  · have hrest : TakesRecords 1 (do
        let target ← (← blob).constantAddress offset
        setRelativeOperand i o target
        Patch.relocate i.offset (.sectionWord .constants offset) .displacement32) :=
      .after .blob fun _ => .after (.lift _) fun target =>
        .after (takes_setRelativeOperand i o target) fun _ => .relocate ..
    exact (takes_appendConstant happend).trans (hrest.takes _ _ _ h)

/-- **One site** takes no more records than its limit. -/
theorem applySite_takes {site : Site} (h : (applySite ctx site).runOn d = .ok (out, d')) :
    d.blob.Takes site.recordLimit out d'.blob := by
  obtain ⟨-, -, h⟩ := applySite_done h
  obtain ⟨offset, kind⟩ := site
  cases kind with
  | call target info => exact (takes_applyCall ..).takes _ _ _ h
  | safepoint info => exact ((takes_applySafepoint ..).takes _ _ _ h).mono (Nat.zero_le 1)
  | mark id references => exact (takes_applyMark ..).takes _ _ _ h
  | dataPatch c alignment inlined =>
      obtain ⟨i, t, -, -, ⟨-, handle, -, hrun⟩ | ⟨-, hrun⟩⟩ := applyDataPatch_done h
      · exact (takes_bindWord ..).takes
          { d with references := t.references, handles := t.handles } _ _ hrun
      · cases inlined with
        | true =>
            exact ((takes_writeImmediate i (Word.ofInt c.bits)).takes
              { d with references := t.references, handles := t.handles } _ _ hrun).mono
              (Nat.zero_le 1)
        | false =>
            exact takes_placeConstant
              (d := { d with references := t.references, handles := t.handles }) hrun

/-- **The run of the sites** takes no more records than their limits together. -/
theorem applySites_takes {sites : List Site} (h : (applySites ctx sites).runOn d = .ok (out, d')) :
    d.blob.Takes (sites.map Site.recordLimit).sum out d'.blob := by
  induction sites generalizing d with
  | nil =>
      obtain ⟨rfl, rfl⟩ := Prod.mk.inj (Except.ok.inj h)
      exact .none (.refl _)
  | cons site rest ih =>
      rw [List.map_cons, List.sum_cons]
      rcases bind_done h with ⟨e, rfl, hsite⟩ | ⟨_, d₁, hsite, hrest⟩
      · exact ((applySite_takes hsite).mono (Nat.le_add_right _ _)).refused
      · exact (applySite_takes hsite).trans (ih hrest)

end Sites

end ManagedCode
