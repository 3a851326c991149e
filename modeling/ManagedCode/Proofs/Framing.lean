import ManagedCode.Proofs.Overlay
import ManagedCode.Proofs.Refusal

/-! # What a site leaves alone

    A site that goes through fills operands of its own, and adds to the tables of the draft at
    their ends.  Everything else stays: all other bytes of the code, where the code stands and what
    is reserved for it, and every constant, relocation, reference and safepoint that was there.

* **`Site.ownOperands`** — the operands that a site fills, told from the code before it.
* **`Lower.Appends`** — a lowering that only adds to the recorded references.
* **`Draft.Frame`** — what is left alone when only certain bytes are touched.
* **`sites_touch_own_operands`** — the frame of one site and of a run of sites. -/

namespace ManagedCode

-- ── The operands of a site ──────────────────────────────────────────────────────

/-- The operand that `find` picks in the instruction at an offset, if there is one. -/
def pickOperand (find : Instruction → Checked Operand) (code : List UInt8) (offset : Nat) :
    List Operand :=
  match Instruction.at? code offset with
  | some i => (find i).toOption.toList
  | none => []

theorem mem_pickOperand {find : Instruction → Checked Operand} {code : List UInt8} {offset : Nat}
    {i : Instruction} {o : Operand} (hi : Instruction.at? code offset = some i)
    (ho : find i = .ok o) : o ∈ pickOperand find code offset := by
  rw [pickOperand, hi]
  show o ∈ (find i).toOption.toList
  rw [ho]
  exact List.mem_singleton.2 rfl

namespace Site

/-- A call fills the immediate of the load of a stub's address, or the relative target of a call
    or jump. A method call that is bound in the code itself fills nothing. -/
def callOperands (code : List UInt8) (pending : PendingCall) (offset : Nat) :
    CallTarget → List Operand
  | .runtimeStub _ =>
      if (Instruction.at? code offset).any fun i => i.shape = .movLiteral then
        pickOperand Instruction.immediate64 code offset
      else pickOperand Instruction.branchOperand code offset
  | .installedCode _ => pickOperand Instruction.branchOperand code offset
  | .method _ =>
      if pending = .inlined then [] else pickOperand Instruction.branchOperand code offset

/-- A constant fills the immediate it is written to, or the displacement of the load that refers to
    it. Objects are written as handles. -/
def patchOperands (code : List UInt8) (offset : Nat) (c : Constant) (inlined : Bool) :
    List Operand :=
  if c.kind = .object ∨ inlined = true then pickOperand Instruction.immediate64 code offset
  else pickOperand Instruction.displacement32 code offset

/-- The bytes in front of a patching stub that are filled, as operands. -/
def headerOperands (offset : Nat) : List Operand := [⟨offset - 1, 1⟩, ⟨offset - 3, 1⟩]

/-- A mark fills the immediate of the load of an inline cache, the displacement of a poll, or the
    header of a patching stub. The field access that a stub patches is decoded behind its header. -/
def markOperands (code : List UInt8) (offset : Nat) (id : Int) (references : List Int) :
    List Operand :=
  match Mark.ofNumber? id, references with
  | some .invokeVirtual, _ => pickOperand Instruction.immediate64 code offset
  | some .invokeInterface, _ => pickOperand Instruction.immediate64 code offset
  | some .pollNear, _ => pickOperand Instruction.displacement32 code offset
  | some .pollReturnNear, _ => pickOperand Instruction.displacement32 code offset
  | some .typePatching, _ => headerOperands offset
  | some .accessFieldPatching, [first, second] =>
      headerOperands offset ++ pickOperand Instruction.displacement32
        (patchedHeader offset first second code) first.toNat
  | some .accessFieldPatching, _ => headerOperands offset
  | _, _ => []

/-- The operands that a site fills in the given code, behind a site that announced `pending`. -/
def ownOperands (code : List UInt8) (pending : PendingCall) (site : Site) : List Operand :=
  match site.kind with
  | .call target _ => callOperands code pending site.offset.toNat target
  | .safepoint _ => []
  | .dataPatch c _ inlined => patchOperands code site.offset.toNat c inlined
  | .mark id references => markOperands code site.offset.toNat id references

/-- A byte is in an operand that a site fills. -/
def Touches (code : List UInt8) (pending : PendingCall) (site : Site) (p : Nat) : Prop :=
  ∃ o ∈ site.ownOperands code pending, o.offset ≤ p ∧ p < o.offset + o.size

end Site

/-- Whether a mark fills bytes of the code. -/
def Mark.fillsCode : Mark → Bool
  | invokeVirtual | invokeInterface | pollNear | pollReturnNear | typePatching
  | accessFieldPatching => true
  | unverifiedEntry | verifiedEntry | osrEntry | unwindEntry | exceptionHandlerEntry
  | deoptHandlerEntry | staticCallStub | invokeInvalid | invokeStatic | invokeSpecial
  | inlineInvokeVirtual | implicitNull | pollFar | pollReturnFar | dummyReference => false

/-- Whether a site may fill bytes of the code. -/
def Site.fillsCode (site : Site) : Bool :=
  match site.kind with
  | .call _ _ => true
  | .safepoint _ => false
  | .dataPatch _ _ _ => true
  | .mark id _ => (Mark.ofNumber? id).any Mark.fillsCode

theorem Site.ownOperands_of_not_fillsCode {site : Site} (h : site.fillsCode = false)
    (code : List UInt8) (pending : PendingCall) : site.ownOperands code pending = [] := by
  obtain ⟨offset, kind⟩ := site
  cases kind with
  | call target info => exact nomatch h
  | safepoint info => rfl
  | dataPatch c alignment inlined => exact nomatch h
  | mark id references =>
      show markOperands code offset.toNat id references = []
      change (Mark.ofNumber? id).any Mark.fillsCode = false at h
      unfold markOperands
      cases hmark : Mark.ofNumber? id with
      | none => rfl
      | some mark =>
          rw [hmark] at h
          cases mark with
          | invokeVirtual | invokeInterface | pollNear | pollReturnNear | typePatching
          | accessFieldPatching => exact nomatch h
          | unverifiedEntry | verifiedEntry | osrEntry | unwindEntry | exceptionHandlerEntry
          | deoptHandlerEntry | staticCallStub | invokeInvalid | invokeStatic | invokeSpecial
          | inlineInvokeVirtual | implicitNull | pollFar | pollReturnFar | dummyReference => rfl

-- ── An imprint is within the operands of its site ───────────────────────────────

/-- Every operand that an imprint fills is among the given ones. -/
def Imprint.Within (operands : List Operand) (imprint : Imprint) : Prop :=
  ∀ e ∈ imprint.edits, e.operand ∈ operands

section Within

variable {ctx : SiteContext} {b : Blob} {code : List UInt8} {offset : Nat} {i : Instruction}
  {imprint : Imprint}

theorem Imprint.within_of_no_edits {operands : List Operand} (h : imprint.edits = []) :
    imprint.Within operands := by
  intro e he
  rw [h] at he
  exact nomatch he

theorem Imprint.within_single {o : Operand} {filling : Filling} {constants : List UInt8}
    {records : List Relocation} {operands : List Operand} (ho : o ∈ operands) :
    Imprint.Within operands { edits := [⟨o, filling⟩], constants, records } := by
  intro e he
  obtain rfl := List.mem_singleton.1 he
  exact ho

theorem Imprint.word?_within {bits : UInt64} {records : List Relocation}
    (hi : Instruction.at? code offset = some i) (h : Imprint.word? i bits records = some imprint) :
    imprint.Within (pickOperand Instruction.immediate64 code offset) := by
  unfold Imprint.word? at h
  split at h
  · next o ho =>
      obtain rfl := Option.some.inj h
      exact within_single (mem_pickOperand hi ho)
  · exact nomatch h

theorem Imprint.anchor?_within {target : UInt64} {kind : RelocationKind}
    {format : OperandFormat} (hi : Instruction.at? code offset = some i)
    (h : Imprint.anchor? i target kind format = some imprint) :
    imprint.Within
      (pickOperand (Blob.positionalOperand ⟨i.offset, kind, format⟩) code offset) := by
  unfold Imprint.anchor? at h
  split at h
  · next o ho =>
      obtain rfl := Option.some.inj h
      exact within_single (mem_pickOperand hi ho)
  · exact nomatch h

theorem Imprint.constant?_within {bits : UInt64} {alignment : Nat}
    (hi : Instruction.at? code offset = some i)
    (h : Imprint.constant? b i bits alignment = some imprint) :
    imprint.Within (pickOperand Instruction.displacement32 code offset) := by
  unfold Imprint.constant? at h
  split at h
  · next o start place ho _ _ =>
      obtain rfl := Option.some.inj h
      exact within_single (mem_pickOperand hi ho)
  · exact nomatch h

namespace Site

variable {pending : PendingCall} {handles : HandleTable}

theorem callImprint?_within {target : CallTarget}
    (h : callImprint? ctx b pending offset target = some imprint) :
    imprint.Within (callOperands b.code pending offset target) := by
  unfold callImprint? at h
  split at h
  · obtain rfl := Option.some.inj h
    exact Imprint.within_of_no_edits rfl
  · next hinlined =>
      obtain ⟨⟨address, kind⟩, -, hbind⟩ := Option.bind_eq_some_iff.1 h
      obtain ⟨i, hi, hbound⟩ := Option.bind_eq_some_iff.1 hbind
      cases target with
      | runtimeStub id =>
          unfold callOperands
          rw [hi, Option.any_some]
          cases hshape : i.shape with
          | movLiteral =>
              rw [hshape] at hbound
              exact Imprint.word?_within hi hbound
          | call | jump | callRegister | other =>
              rw [hshape] at hbound
              exact Imprint.anchor?_within hi hbound
      | installedCode id => exact Imprint.anchor?_within hi hbound
      | method method =>
          unfold callOperands
          dsimp only
          rw [if_neg fun hpending => hinlined method rfl hpending]
          exact Imprint.anchor?_within hi hbound

theorem patchImprint?_within {c : Constant} {alignment : Nat} {inlined : Bool}
    (h : patchImprint? b handles offset c alignment inlined = some imprint) :
    imprint.Within (patchOperands b.code offset c inlined) := by
  obtain ⟨i, hi, h⟩ := Option.bind_eq_some_iff.1 h
  unfold patchOperands
  split at h
  · next object hkind hobject =>
      rw [if_pos (Or.inl hkind)]
      split at h
      · exact Imprint.word?_within hi h
      · exact nomatch h
  · next hkind _ =>
      rw [if_pos (Or.inl hkind)]
      exact Imprint.word?_within hi h
  · next hkind _ =>
      cases inlined with
      | true =>
          rw [if_pos (Or.inr rfl)]
          exact Imprint.word?_within hi h
      | false =>
          rw [if_neg (by simpa using hkind)]
          rw [if_neg (by simp)] at h
          split at h
          · exact Imprint.constant?_within hi h
          · exact nomatch h

theorem headerEdits_within (first second : Int) :
    ∀ e ∈ Imprint.headerEdits offset first second, e.operand ∈ headerOperands offset := by
  intro e he
  rcases List.mem_cons.1 he with rfl | he
  · exact List.mem_cons_self
  · obtain rfl := List.mem_singleton.1 he
    exact List.mem_cons_of_mem _ List.mem_cons_self

theorem fieldImprint?_within {first second : Int}
    (h : fieldImprint? b offset first second = some imprint) :
    imprint.Within (headerOperands offset ++ pickOperand Instruction.displacement32
      (patchedHeader offset first second b.code) first.toNat) := by
  obtain ⟨i, hi, h⟩ := Option.bind_eq_some_iff.1 h
  split at h
  · next o ho =>
      obtain rfl := Option.some.inj h
      intro e he
      rcases List.mem_append.1 he with he | he
      · exact List.mem_append_left _ (headerEdits_within first second e he)
      · obtain rfl := List.mem_singleton.1 he
        exact List.mem_append_right _ (mem_pickOperand hi ho)
  · exact nomatch h

theorem markImprint?_within {id : Int} {references : List Int}
    (h : markImprint? ctx b offset id references = some imprint) :
    imprint.Within (markOperands b.code offset id references) := by
  have hcache : cacheImprint? ctx b offset = some imprint →
      imprint.Within (pickOperand Instruction.immediate64 b.code offset) := by
    intro h
    obtain ⟨i, hi, h⟩ := Option.bind_eq_some_iff.1 h
    split at h
    · exact Imprint.word?_within hi h
    · exact nomatch h
  have hpoll : ∀ kind, pollImprint? ctx b offset kind = some imprint →
      imprint.Within (pickOperand Instruction.displacement32 b.code offset) := by
    intro kind h
    obtain ⟨i, hi, h⟩ := Option.bind_eq_some_iff.1 h
    split at h
    · exact Imprint.anchor?_within hi h
    · exact nomatch h
  have hnothing : imprint.edits = [] → imprint.Within [] := Imprint.within_of_no_edits
  unfold markImprint? at h
  unfold markOperands
  cases hmark : Mark.ofNumber? id with
  | none =>
      rw [hmark] at h
      obtain rfl := Option.some.inj h
      exact hnothing rfl
  | some mark =>
      rw [hmark] at h
      cases mark with
      | verifiedEntry | unverifiedEntry | osrEntry | unwindEntry | exceptionHandlerEntry
      | deoptHandlerEntry | invokeInvalid | invokeStatic | invokeSpecial
      | inlineInvokeVirtual | implicitNull | pollFar | pollReturnFar | dummyReference =>
          obtain rfl := Option.some.inj h
          exact hnothing rfl
      | staticCallStub =>
          rcases references with _ | ⟨call, _ | ⟨second, rest⟩⟩ <;>
            (obtain rfl := Option.some.inj h; exact hnothing rfl)
      | invokeVirtual | invokeInterface => exact hcache h
      | pollNear | pollReturnNear => exact hpoll _ h
      | typePatching =>
          rcases references with _ | ⟨first, _ | ⟨second, _ | ⟨third, rest⟩⟩⟩
          · exact nomatch h
          · exact nomatch h
          · obtain rfl := Option.some.inj h
            exact headerEdits_within first second
          · exact nomatch h
      | accessFieldPatching =>
          rcases references with _ | ⟨first, _ | ⟨second, _ | ⟨third, rest⟩⟩⟩
          · exact nomatch h
          · exact nomatch h
          · exact fieldImprint?_within h
          · exact nomatch h

/-- **An imprint fills operands of its site only.** -/
theorem imprint?_within {site : Site}
    (h : site.imprint? ctx b pending handles = some imprint) :
    imprint.Within (site.ownOperands b.code pending) := by
  obtain ⟨offset, kind⟩ := site
  cases kind with
  | call target info => exact callImprint?_within h
  | safepoint info =>
      obtain rfl := Option.some.inj h
      exact Imprint.within_of_no_edits rfl
  | dataPatch c alignment inlined => exact patchImprint?_within h
  | mark id references => exact markImprint?_within h

end Site

end Within

-- ── References only grow ────────────────────────────────────────────────────────

/-- The references recorded before are the first of those recorded now. -/
structure ReferenceRecorder.Extends (r r' : ReferenceRecorder) : Prop where
  metadata : r.metadata <+: r'.metadata
  handles : r.handles <+: r'.handles

namespace ReferenceRecorder

theorem Extends.refl (r : ReferenceRecorder) : r.Extends r := ⟨List.prefix_rfl, List.prefix_rfl⟩

theorem Extends.trans {r r₁ r' : ReferenceRecorder} (h : r.Extends r₁) (h' : r₁.Extends r') :
    r.Extends r' :=
  ⟨h.metadata.trans h'.metadata, h.handles.trans h'.handles⟩

theorem addMetadata_extends (r : ReferenceRecorder) (m : Metadata) :
    r.Extends (r.addMetadata m).2 :=
  ⟨r.metadataTable.values_prefix_find m, List.prefix_rfl⟩

theorem addHandle_extends (r : ReferenceRecorder) (h : Handle) : r.Extends (r.addHandle h).2 :=
  ⟨List.prefix_rfl, r.handleTable.values_prefix_find h⟩

theorem addConstant_extends {r r' : ReferenceRecorder} {c : Constant}
    (h : r.addConstant c = .ok r') : r.Extends r' := by
  unfold addConstant at h
  split at h
  · split at h
    · obtain ⟨_, -, h⟩ := Checked.bind_ok h
      rw [← Checked.pure_ok h]
      exact addMetadata_extends r _
    · cases h
    · rw [← Except.ok.inj h]
      exact .refl r
    · rw [← Except.ok.inj h]
      exact .refl r
  · rw [← Except.ok.inj h]
    exact .refl r

end ReferenceRecorder

/-- Whatever it gives, a lowering only adds to the recorded references. -/
def Lower.Appends {α : Type} (step : Lower α) : Prop :=
  ∀ t a t', step.run t = .ok (a, t') → t.references.Extends t'.references

namespace Lower.Appends

variable {α β : Type}

theorem bind {x : Lower α} {f : α → Lower β} (hx : Appends x) (hf : ∀ a, Appends (f a)) :
    Appends (x >>= f) := by
  intro t b t' h
  obtain ⟨a, t₁, hrun, h⟩ := Lower.bind_ok h
  exact (hx _ _ _ hrun).trans (hf a _ _ _ h)

theorem pure (a : α) : Appends (Pure.pure a : Lower α) := by
  intro t b t' h
  obtain ⟨-, rfl⟩ := Lower.pure_ok h
  exact .refl _

theorem lift (x : Checked α) : Appends (liftM x : Lower α) := by
  intro t a t' h
  obtain ⟨-, rfl⟩ := Lower.lift_ok h
  exact .refl _

theorem raise (e : Fault) : Appends (throw e : Lower α) := by
  intro t a t' h
  exact (Lower.throw_ok h).elim

theorem mapM {f : α → Lower β} (hf : ∀ a, Appends (f a)) (xs : List α) :
    Appends (xs.mapM f) := by
  induction xs with
  | nil => exact pure []
  | cons x rest ih =>
      rw [List.mapM_cons]
      exact bind (hf x) fun _ => bind ih fun _ => pure _

end Lower.Appends

section Lowering

open Lower (Appends)

variable {ctx : ValueContext}

theorem makeHandle_appends (object : ObjectAddress) : Appends (makeHandle object) := by
  intro t handle t' h
  obtain ⟨handles, -, rfl⟩ := makeHandle_ok h
  exact ReferenceRecorder.addHandle_extends t.references handle

theorem lowerConstant_appends (c : Constant) : Appends (lowerConstant c) := by
  intro t l t' h
  obtain ⟨_, _, hget, h⟩ := Lower.bind_ok h
  obtain ⟨rfl, rfl⟩ := Lower.get_ok hget
  obtain ⟨references, _, hlift, h⟩ := Lower.bind_ok h
  obtain ⟨hreferences, rfl⟩ := Lower.lift_ok hlift
  obtain ⟨_, _, hset, h⟩ := Lower.bind_ok h
  obtain rfl := Lower.set_ok hset
  refine (ReferenceRecorder.addConstant_extends hreferences).trans ?_
  split at h
  · exact Appends.pure _ _ _ _ h
  · exact Appends.pure _ _ _ _ h
  · split at h
    · exact Appends.pure _ _ _ _ h
    · exact Appends.bind (makeHandle_appends _) (fun _ => Appends.pure _) _ _ _ h
    · exact (Lower.throw_ok h).elim
  · exact Appends.pure _ _ _ _ h
  · exact (Lower.throw_ok h).elim
  · exact Appends.pure _ _ _ _ h

theorem lowerWith_appends {object : Int → Lower Nat} (hobject : ∀ id, Appends (object id))
    (v : Value) : Appends (lowerWith ctx object v) := by
  cases v with
  | illegal => exact .pure _
  | register number kind => exact .bind (.lift _) fun _ => .lift _
  | stackSlot offset addFrameSize kind => exact .lift _
  | constant c => exact lowerConstant_appends c
  | virtualObject id => exact .bind (hobject id) fun _ => .pure _
  | stackLock owner slot eliminated => exact .raise _

theorem meetObject_appends {object : Int → Lower Nat} (hobject : ∀ id, Appends (object id))
    (id : Int) : Appends (meetObject ctx object id) := by
  intro t position t' h
  rcases meetObject_ok h with ⟨-, rfl⟩ | ⟨described, t₁, parts, t₂, pool, -, -, -, henter, hparts,
    -, rfl⟩
  · exact .refl _
  · obtain ⟨mirror, handle, t₀, -, hmake, -, rfl⟩ := enterObject_ok henter
    have hfields := Appends.mapM (lowerWith_appends hobject) _ _ _ _ hparts
    exact (makeHandle_appends mirror _ _ _ hmake).trans hfields

theorem lowerObject_appends (unopened : Nat) (id : Int) :
    Appends (lowerObject ctx unopened id) := by
  induction unopened generalizing id with
  | zero =>
      intro t position t' h
      obtain ⟨-, rfl⟩ := lowerObject_zero_ok h
      exact .refl _
  | succ unopened ih => exact meetObject_appends ih id

theorem lower_appends (v : Value) : Appends (lower ctx v) :=
  lowerWith_appends (lowerObject_appends _) v

theorem lowerMonitor_appends (v : Value) : Appends (lowerMonitor ctx v) := by
  cases v with
  | stackLock owner slot eliminated =>
      refine .bind (lower_appends owner) fun _ => .bind (.lift _) fun _ =>
        .bind (lower_appends slot) fun lock => .bind (.lift _) fun _ => ?_
      cases lock.primary.location? with
      | some location => exact .pure _
      | none => exact .bind (.lift _) fun _ => .raise _
  | illegal | register | stackSlot | constant | virtualObject => exact .raise _

theorem lowerSlots_appends (frame : Frame) (i : Nat) (values : List Value) :
    Appends (lowerSlots ctx frame i values) := by
  induction i, values using lowerSlots.induct frame with
  | case1 i => exact .pure _
  | case2 i v rest hi ih ihWide =>
      rw [lowerSlots, if_pos hi]
      refine .bind (lower_appends v) fun l => ?_
      cases l.second with
      | none => exact .bind ih fun _ => .pure _
      | some second =>
          rcases rest with _ | ⟨_ | _ | _ | _ | _ | _, rest⟩
          case cons.illegal => exact .bind ihWide fun _ => .pure _
          all_goals exact .raise _
  | case3 i v rest hi ih =>
      rw [lowerSlots, if_neg hi]
      exact .bind (lowerMonitor_appends v) fun _ => .bind ih fun _ => .pure _

theorem lowerFrame_appends (frame : Frame) : Appends (lowerFrame ctx frame) := by
  refine .bind ?_ fun _ => .bind (.lift _) fun _ =>
    .bind (lowerSlots_appends frame 0 frame.values) fun _ => .pure _
  intro t _ t' h
  obtain ⟨-, rfl⟩ := Prod.mk.inj (Except.ok.inj h)
  exact ReferenceRecorder.addMetadata_extends t.references _

end Lowering

/-- **The lowering of a site only adds to the recorded references.** -/
theorem Site.lowered_appends (ctx : SiteContext) (site : Site) :
    Lower.Appends (site.lowered ctx) := by
  have hdescribe : ∀ info, Lower.Appends (DebugInfo.describe? ctx info) := by
    intro info
    cases info with
    | none => exact .pure _
    | some info =>
        refine .bind (.bind (.lift _) fun values => ?_) fun _ => .pure _
        exact .mapM lowerFrame_appends _
  obtain ⟨offset, kind⟩ := site
  cases kind with
  | call target info => exact hdescribe _
  | safepoint info => exact hdescribe (some info)
  | mark id references => exact hdescribe none
  | dataPatch c alignment inlined =>
      refine .bind ?_ fun _ => .pure _
      intro t _ t' h
      unfold Constant.lowered at h
      split at h
      · split at h
        · exact Lower.Appends.bind (makeHandle_appends _) (fun _ => .pure _) _ _ _ h
        · exact Lower.Appends.pure _ _ _ _ h
      · obtain ⟨_, _, hget, h⟩ := Lower.bind_ok h
        obtain ⟨rfl, rfl⟩ := Lower.get_ok hget
        obtain ⟨references, _, hlift, h⟩ := Lower.bind_ok h
        obtain ⟨hreferences, rfl⟩ := Lower.lift_ok hlift
        obtain rfl := Lower.set_ok h
        exact ReferenceRecorder.addConstant_extends hreferences

-- ── Frames ──────────────────────────────────────────────────────────────────────

/-- What is left of a draft when nothing but bytes of `touched` is rewritten: where the code stands
    and what is reserved, the size and all other bytes of the code, and whatever is in the tables,
    which only grow at their ends. -/
structure Draft.Frame (touched : Nat → Prop) (d d' : Draft) : Prop where
  base : d'.blob.base = d.blob.base
  layout : d'.blob.layout = d.blob.layout
  size : d'.blob.code.length = d.blob.code.length
  bytes : ∀ p, ¬ touched p → d'.blob.code[p]? = d.blob.code[p]?
  constants : d.blob.constants <+: d'.blob.constants
  relocations : d.blob.relocations <+: d'.blob.relocations
  metadata : d.references.metadata <+: d'.references.metadata
  handles : d.references.handles <+: d'.references.handles
  safepoints : d.log.closed <+: d'.log.closed

namespace Draft

theorem Frame.refl (touched : Nat → Prop) (d : Draft) : d.Frame touched d :=
  ⟨rfl, rfl, rfl, fun _ _ => rfl, List.prefix_rfl, List.prefix_rfl, List.prefix_rfl,
    List.prefix_rfl, List.prefix_rfl⟩

theorem Frame.trans {first second : Nat → Prop} {d d₁ d' : Draft} (h : d.Frame first d₁)
    (h' : d₁.Frame second d') : d.Frame (fun p => first p ∨ second p) d' where
  base := h'.base.trans h.base
  layout := h'.layout.trans h.layout
  size := h'.size.trans h.size
  bytes := by
    intro p hp
    rw [h'.bytes p fun hsecond => hp (Or.inr hsecond), h.bytes p fun hfirst => hp (Or.inl hfirst)]
  constants := h.constants.trans h'.constants
  relocations := h.relocations.trans h'.relocations
  metadata := h.metadata.trans h'.metadata
  handles := h.handles.trans h'.handles
  safepoints := h.safepoints.trans h'.safepoints

theorem Frame.mono {touched more : Nat → Prop} {d d' : Draft} (h : d.Frame touched d')
    (hmore : ∀ p, touched p → more p) : d.Frame more d' :=
  { h with bytes := fun p hp => h.bytes p fun htouched => hp (hmore p htouched) }

/-- A byte is in an operand that one of the sites fills, in the code that the site is applied to. -/
def Touches (ctx : SiteContext) : Draft → List Site → Nat → Prop
  | _, [], _ => False
  | d, site :: rest, p =>
      site.Touches d.blob.code d.pending p ∨
        ∃ d₁, (applySite ctx site).runOn d = .ok (.ok (), d₁) ∧ Touches ctx d₁ rest p

end Draft

section Run

variable {ctx : SiteContext} {d d' : Draft}

/-- One site touches operands of its own. -/
theorem applySite_frame {site : Site} (h : (applySite ctx site).runOn d = .ok (.ok (), d')) :
    d.Frame (site.Touches d.blob.code d.pending) d' := by
  obtain ⟨imprint, himprint, hfits, hblob, -⟩ := applySite_imprint h
  obtain ⟨scopes, t, hlowered, hrecords, hdone⟩ := applySite_records h
  obtain ⟨hreferences, -⟩ := Prod.mk.inj hrecords
  obtain ⟨pc, -, hlog⟩ := hdone rfl
  have hextends : d.references.Extends t.references :=
    site.lowered_appends ctx _ _ _ hlowered
  have hwithin := Site.imprint?_within himprint
  refine ⟨?_, ?_, ?_, ?_, ?_, ?_, ?_, ?_, ?_⟩
  · rw [hblob]
    rfl
  · rw [hblob]
    rfl
  · rw [hblob]
    exact length_render hfits
  · intro p hp
    rw [hblob]
    apply getElem?_render hfits
    intro e he hcovers
    exact hp ⟨e.operand, hwithin e he, hcovers⟩
  · rw [hblob]
    exact List.prefix_append _ _
  · rw [hblob]
    exact List.prefix_append _ _
  · rw [hreferences]
    exact hextends.metadata
  · rw [hreferences]
    exact hextends.handles
  · rw [hlog.closed]
    exact List.prefix_append _ _

/-- A run of sites touches operands of its sites. -/
theorem applySites_frame {sites : List Site}
    (h : (applySites ctx sites).runOn d = .ok (.ok (), d')) :
    d.Frame (d.Touches ctx sites) d' := by
  induction sites generalizing d with
  | nil =>
      obtain ⟨-, rfl⟩ := Prod.mk.inj (Except.ok.inj h)
      exact .refl _ d
  | cons site rest ih =>
      obtain ⟨_, d₁, hsite, hrest⟩ := Patch.bind_ok h
      refine ((applySite_frame hsite).trans (ih hrest)).mono ?_
      rintro p (hfirst | hthen)
      · exact Or.inl hfirst
      · exact Or.inr ⟨d₁, hsite, hthen⟩

end Run

/-- **Sites touch operands of their own.** A site that goes through leaves alone all bytes but those
    of its own operands, and all of the code if it is none of the sites that fill code; the size of
    the code, its address and the reserves stay, and constants, relocations, references and
    safepoints are only added behind those that were there. The same holds of a run of sites, with
    the operands of all of them. -/
theorem sites_touch_own_operands (ctx : SiteContext) (d d' : Draft) :
    (∀ site, (applySite ctx site).runOn d = .ok (.ok (), d') →
      d.Frame (site.Touches d.blob.code d.pending) d' ∧
        (site.fillsCode = false → d'.blob.code = d.blob.code)) ∧
    (∀ sites, (applySites ctx sites).runOn d = .ok (.ok (), d') →
      d.Frame (d.Touches ctx sites) d') := by
  refine ⟨fun site h => ⟨applySite_frame h, fun hquiet => ?_⟩, fun sites h => applySites_frame h⟩
  apply List.ext_getElem?
  intro p
  apply (applySite_frame h).bytes
  rintro ⟨o, ho, -⟩
  rw [Site.ownOperands_of_not_fillsCode hquiet] at ho
  exact nomatch ho

-- ── A load with two relocations ─────────────────────────────────────────────────

/-- The load of an object, relocated already. -/
def Draft.sampleRelocated : Draft where
  blob :=
    { layout := ⟨10, 0, 16, 2⟩
      code := CompiledUnit.sampleLoad.code
      constants := []
      relocations := [⟨0, .reference, .immediate⟩]
      base := 0x7f000000 }

/-- The mark of a relocation at the load that refers to nothing. -/
def Site.sampleDummy : Site := ⟨0, .mark 0x4001 []⟩

/-- The mark adds a relocation at the offset of an earlier one, which keeps its kind. -/
theorem sites_touch_own_operands_sample :
    ∃ d', (applySite (CompiledUnit.sampleLoad.siteContext {} 0 .sample) .sampleDummy).runOn
        .sampleRelocated = .ok (.ok (), d') ∧
      d'.blob.code = CompiledUnit.sampleLoad.code ∧
      [⟨0, .reference, .immediate⟩] <+: d'.blob.relocations ∧ d'.blob.relocations.length = 2 := by
  obtain ⟨d', h, hlength⟩ :
      ∃ d', (applySite (CompiledUnit.sampleLoad.siteContext {} 0 .sample) .sampleDummy).runOn
        .sampleRelocated = .ok (.ok (), d') ∧ d'.blob.relocations.length = 2 := ⟨_, rfl, rfl⟩
  obtain ⟨hframe, hcode⟩ := (sites_touch_own_operands _ _ d').1 _ h
  exact ⟨d', h, hcode rfl, hframe.relocations, hlength⟩

end ManagedCode
