import Mathlib
import ManagedCode.Proofs.CleanLowering
import ManagedCode.Proofs.Suspension

/-! # Internal faults are unreachable

    Each internal fault is kept out by what a table looks like whenever the step that could raise it
    is made: no safepoint is open between two sites, each closed one has its map and no other place
    has one, and a call that is announced to go through a cache comes with the cache.  Together with
    the books of the lowering these hold of a draft before and after every site, so that no run of
    sites, and no installation, ends in an internal fault.

* **`Announcement.Legal`** — what the invoke marks may leave for the next call.
* **`Draft.Ready`** — a draft between two sites.
* **`applySite_clean`**, **`applySite_ready`** — one site; **`applySites_clean`** — a run of them.
* **`installations_avoid_internal_faults`** — installing a method or a stub. -/

namespace ManagedCode

open Checked (Clean)

-- ── Binding calls, constants and marks ──────────────────────────────────────────

/-- What is announced is a kind of call, and any but the invalid one comes with the offset of its
    mark. -/
structure Announcement.Legal (a : Announcement) : Prop where
  invoke : a.mark.isInvoke = true
  offset : a.mark ≠ .invokeInvalid → a.offset ≠ none

section Binding

open Patch

variable {ctx : SiteContext} {d : Draft} {i : Instruction}

theorem bindCall_clean (target : UInt64) (kind : RelocationKind) :
    (bindCall i target kind).CleanOn d :=
  .lift_bind (.require rfl) fun _ _ => .bind (.setBranchTarget i target) fun _ _ _ =>
    .relocate ..

theorem bindInstalledCode_clean (id : CodeId) : (bindInstalledCode ctx i id).CleanOn d := by
  have hentry : Clean (ctx.codes.verifiedEntry? id) := by
    unfold CodeTable.verifiedEntry?
    split
    · exact .map (Address.advance_clean ..) some
    · exact .ok _
  refine .lift_bind (.require rfl) fun _ _ => .lift_bind hentry fun entry _ => ?_
  cases entry with
  | none => exact .lift (.error rfl)
  | some entry => exact .bind (.setBranchTarget i entry) fun _ _ _ => .relocate ..

theorem bindStub_clean (id : Int) : (bindStub ctx i id).CleanOn d := by
  unfold bindStub
  cases stubAddress? ctx.stubs id with
  | none => exact .lift (.error rfl)
  | some target =>
      dsimp only
      split
      · exact .bind (.modifyBlob (.bind i.immediate64_clean fun _ _ => Blob.write64_clean ..))
          fun _ _ _ => .relocate ..
      · exact .bind (.setBranchTarget i target) fun _ _ _ => .relocate ..

/-- **A method call is bound as announced**: there is a kind of call, with a cache if it needs
    one. -/
theorem bindMethod_clean (hlegal : d.announced.Legal) (method : Option MethodId) :
    (bindMethod ctx i method).CleanOn d := by
  obtain ⟨hinvoke, hoffset⟩ := hlegal
  refine .get_bind ?_
  dsimp only
  cases hmark : d.announced.mark with
  | inlineInvokeVirtual => exact .pure _
  | invokeVirtual | invokeInterface =>
      rw [hmark] at hoffset
      obtain ⟨cache, hcache⟩ := Option.ne_none_iff_exists'.mp (hoffset nofun)
      rw [hcache]
      exact .lift_bind (.require rfl) fun _ _ => bindCall_clean ..
  | invokeStatic | invokeSpecial => exact .lift_bind (.require rfl) fun _ _ => bindCall_clean ..
  | invokeInvalid => exact .lift (.error rfl)
  | _ =>
      rw [hmark] at hinvoke
      exact nomatch hinvoke

theorem callEnd_clean (b : Blob) (target : CallTarget) (i : Instruction) :
    Clean (callEnd b target i) := by
  unfold callEnd
  cases i.shape with
  | call | jump => exact .ok _
  | movLiteral =>
      exact .bind (.require rfl) fun _ _ => .bind (Blob.read8_clean ..) fun _ _ =>
        .bind (Blob.read8_clean ..) fun _ _ => .bind (.require rfl) fun _ _ => .ok _
  | callRegister =>
      cases target with
      | method method => exact .ok _
      | _ => exact .error rfl
  | other => exact .error rfl

theorem placeConstant_clean (bits : UInt64) (alignment : Nat) :
    (placeConstant i bits alignment).CleanOn d :=
  .lift_bind (.require rfl) fun _ _ => .lift_bind i.displacement32_clean fun _ _ =>
    .bind (.appendConstant ..) fun _ _ _ => .blob_bind <|
    .lift_bind (Blob.constantAddress_clean ..) fun _ _ =>
    .bind (.setRelativeOperand ..) fun _ _ _ => .relocate ..

theorem applyDataPatch_clean (hsound : d.handles.Sound) (offset : Nat) (c : Constant)
    (alignment : Nat) (inlined : Bool) : (applyDataPatch offset c alignment inlined).CleanOn d := by
  refine .blob_bind (.lift_bind (Blob.instructionAt_clean ..) fun i _ => ?_)
  have hwrite : ∀ (bits : UInt64) (d : Draft),
      (modifyBlob fun b => do b.write64 (← i.immediate64) bits).CleanOn d := fun _ _ =>
    .modifyBlob (.bind i.immediate64_clean fun _ _ => Blob.write64_clean ..)
  obtain ⟨kind, bits, object⟩ := c
  cases kind with
  | object =>
      have hhandle : (constantHandle offset object).CleanOn d := by
        unfold constantHandle
        split
        · exact .pure _
        · next object => exact .lowering (makeHandle_clean hsound object)
        · exact .lift (.error rfl)
      exact .bind hhandle fun _ _ _ => .bind (hwrite ..) fun _ _ _ => .relocate ..
  | float | long | double | word =>
      refine .get_bind (.lift_bind (ReferenceRecorder.addConstant_clean ..) fun _ _ => .set_bind ?_)
      dsimp only
      split
      · exact hwrite ..
      · exact placeConstant_clean ..
  | _ => exact .lift (.error rfl)

theorem checkOffset_clean (b : Blob) (offset : Int) : Clean (checkOffset b offset) :=
  .bind (.require rfl) fun _ _ => .ok _

theorem fillPatchingHeader_clean (offset : Nat) (references : List Int) (b : Blob) :
    Clean (fillPatchingHeader offset references b) := by
  have hreferences : Clean (patchingReferences offset references) := by
    unfold patchingReferences
    split
    · exact .ok _
    · exact .error rfl
  exact .bind (.require rfl) fun _ _ => .bind hreferences fun _ _ =>
    .bind (Blob.read8_clean ..) fun _ _ => .bind (.require rfl) fun _ _ =>
    .bind (checkOffset_clean ..) fun _ _ => .bind (checkOffset_clean ..) fun _ _ =>
    .bind (.require rfl) fun _ _ => .bind (.require rfl) fun _ _ =>
    .bind (Blob.write8_clean ..) fun _ _ => .bind (Blob.write8_clean ..) fun _ _ => .ok _

theorem markInlineCache_clean (mark : Mark) (offset : Nat) :
    (markInlineCache ctx mark offset).CleanOn d :=
  .bind (.modifyBlob (.bind (Blob.instructionAt_clean ..) fun i _ =>
    .bind (.require rfl) fun _ _ => .bind i.immediate64_clean fun _ _ =>
    .bind (Blob.read64_clean ..) fun _ _ => .bind (.require rfl) fun _ _ =>
    Blob.write64_clean ..)) fun _ _ _ => .modified _

theorem markNearPoll_clean (offset : Nat) (kind : RelocationKind) :
    (markNearPoll ctx offset kind).CleanOn d :=
  .blob_bind <| .lift_bind (Blob.instructionAt_clean ..) fun i _ =>
    .lift_bind (.require rfl) fun _ _ => .lift_bind i.displacement32_clean fun _ _ =>
    .lift_bind (.require rfl) fun _ _ => .lift_bind (Address.advance_clean ..) fun _ _ =>
    .bind (.setRelativeOperand ..) fun _ _ _ => .relocate ..

theorem applyMark_clean (offset : Nat) (id : Int) (references : List Int) :
    (applyMark ctx offset id references).CleanOn d := by
  unfold applyMark
  cases Mark.ofNumber? id with
  | none => exact .lift (.error rfl)
  | some mark =>
      cases mark with
      | verifiedEntry | unverifiedEntry | osrEntry | unwindEntry | exceptionHandlerEntry
      | deoptHandlerEntry | invokeInvalid | invokeStatic | invokeSpecial
      | inlineInvokeVirtual => exact .modified _
      | invokeVirtual | invokeInterface => exact markInlineCache_clean ..
      | pollNear | pollReturnNear => exact markNearPoll_clean ..
      | pollFar | pollReturnFar => exact .relocate ..
      | dummyReference =>
          exact .bind (.relocate ..) fun _ _ _ => .modifyBlob (Blob.changeKind_clean ..)
      | typePatching =>
          exact .modifyBlob (.bind (fillPatchingHeader_clean ..) fun _ _ => .ok _)
      | accessFieldPatching =>
          exact .modifyBlob (.bind (fillPatchingHeader_clean ..) fun _ _ =>
            .bind (Blob.instructionAt_clean ..) fun i _ => .bind i.displacement32_clean fun _ _ =>
            .bind (Blob.read32_clean ..) fun _ _ => .bind (.require rfl) fun _ _ =>
            Blob.write32_clean ..)
      | implicitNull =>
          exact .get_bind (.lift_bind (.bind (.require rfl) fun _ _ => .ok _) fun _ _ => .ok _)
      | staticCallStub =>
          show (markStaticStub offset references).CleanOn d
          unfold markStaticStub
          split
          · exact .blob_bind (.lift_bind (checkOffset_clean ..) fun _ _ =>
              .bind (.relocate ..) fun _ _ _ => .relocate ..)
          · exact .lift (.error rfl)

end Binding

-- ── Safepoints ──────────────────────────────────────────────────────────────────

/-- Between two sites: what was made is recorded, the closed safepoints have their maps, none is
    open, and what is announced is a kind of call. -/
structure Draft.Ready (ctx : SiteContext) (base : HandleTable) (d : Draft) : Prop where
  tracks : d.references.Tracks base d.handles
  described : ∃ points, d.log.Describes ctx points
  idle : d.log.current = none
  announced : d.announced.Legal

section Safepoints

open Patch

variable {ctx : SiteContext} {base : HandleTable} {d d' : Draft} {out : Except Overflow Unit}

/-- A safepoint is opened where there is no map yet: the maps are those of the closed safepoints,
    and it is behind these. -/
theorem SafepointLog.start_clean {log : SafepointLog} {points : List SuspensionPoint}
    (hlog : log.Describes ctx points) (hidle : log.current = none) (pc : Nat) (leaf : Int)
    (map : RefMap) : Clean (log.start pc leaf map) := by
  refine ⟨fun fault hfault => ?_⟩
  rcases SafepointLog.start_error hfault with ⟨hbusy, -⟩ | ⟨previous, rfl⟩ | ⟨hlast, -, hadd⟩
  · exact absurd hidle hbusy
  · rfl
  · obtain ⟨maps, hmaps⟩ := SafepointLog.exists_add hlog.keys
      (SafepointLog.lt_of_last hlog.ascending hlast) map
    exact nomatch hmaps.symm.trans hadd

/-- The tables that a suspension point is lowered with are in order. -/
theorem Draft.Ready.bookkeeping (hd : d.Ready ctx base) (values : ValueContext) :
    (Lowering.bookkeeping values base).Valid
      { references := d.references, handles := d.handles } :=
  ⟨⟨hd.tracks, nofun⟩, fun id r => by simp [ObjectPool.ids]⟩

/-- **Opening a safepoint is clean** between two sites, in a frame whose slots have 32 bit
    numbers. -/
theorem openSafepoint_clean (hframe : ctx.frameSize / RefMap.stackWord * 2 ≤ Word.limit32)
    (hd : d.Ready ctx base) (pc : Nat) (info : DebugInfo) (leaf : Int) :
    (openSafepoint ctx pc info leaf).CleanOn d := by
  obtain ⟨points, hlog⟩ := hd.described
  refine .lift_bind (RefMap.ofBits_clean hframe ..) fun map _ => ?_
  refine .bind (.modifyLog (SafepointLog.start_clean hlog hd.idle ..)) fun _ d₁ hstart => ?_
  rw [runOn_modifyLog] at hstart
  obtain ⟨opened, hopened, hstart⟩ := Checked.bind_ok hstart
  obtain ⟨-, rfl⟩ := Prod.mk.inj (Except.ok.inj hstart)
  have hcurrent : opened.current = some { pc, leafGraphId := leaf } := by
    rw [(SafepointLog.start_ok hopened).2.2.2]
  have hcreate : Clean (ValueContext.create ctx.world ctx.settings.byteOrder
      (Word.signed32 ctx.frameSize) info.virtualObjects) := by
    unfold ValueContext.create
    split
    · exact .error rfl
    · exact .ok _
  refine .lift_bind hcreate fun values _ => .get_bind ?_
  exact .bind (.lowering (describeSafepoint_clean hcurrent rfl (hd.bookkeeping values)))
    fun _ _ _ => .modified _

theorem closeSafepoint_clean {pc : Nat} {s : Safepoint} (hlog : d.log.current = some s)
    (hpc : s.pc = pc) : (closeSafepoint pc).CleanOn d :=
  .modifyLog (.bind (SafepointLog.currentAt_clean hlog hpc) fun _ _ => .ok _)

theorem applySafepoint_clean (hframe : ctx.frameSize / RefMap.stackWord * 2 ≤ Word.limit32)
    (hd : d.Ready ctx base) (offset : Nat) (info : DebugInfo) :
    (applySafepoint ctx offset info).CleanOn d := by
  refine .bind (openSafepoint_clean hframe hd offset info (-1)) fun _ d₁ hopen => ?_
  obtain ⟨-, scopes, t, -, -, map, opened, -, -, hlog₁⟩ := openSafepoint_done hopen
  exact closeSafepoint_clean (by rw [hlog₁]) rfl

/-- A call is bound inside of its safepoint, which is then the one to be closed. -/
theorem withCallSafepoint_clean (hframe : ctx.frameSize / RefMap.stackWord * 2 ≤ Word.limit32)
    (hd : d.Ready ctx base) {step : Patch Unit} (hkeeps : step.Keeps Draft.sansBlob)
    (hstep : ∀ d₁, d₁.announced = d.announced → step.CleanOn d₁) (pc : Nat)
    (info : Option DebugInfo) : (withCallSafepoint ctx pc info step).CleanOn d := by
  cases info with
  | none =>
      exact .bind (hstep d rfl) fun _ _ _ => .bind (.modified _) fun _ _ _ => .pure _
  | some info =>
      refine .bind (openSafepoint_clean hframe hd pc info _) fun _ d₁ hopen => ?_
      obtain ⟨-, scopes, t, -, hd₁, map, opened, -, -, hlog₁⟩ := openSafepoint_done hopen
      refine .bind (hstep d₁ (by rw [hd₁])) fun _ d₂ hx => ?_
      refine .bind (.modified _) fun _ d₃ hused => ?_
      obtain ⟨-, rfl⟩ := Prod.mk.inj (Except.ok.inj hused)
      refine closeSafepoint_clean (s := ⟨pc, info.frame.leafGraphId, scopes, t.pool⟩) ?_ rfl
      show d₂.log.current = _
      rw [Draft.eq_of_sansBlob (hkeeps _ _ _ hx), hlog₁]

theorem applyCall_clean (hframe : ctx.frameSize / RefMap.stackWord * 2 ≤ Word.limit32)
    (hd : d.Ready ctx base) (offset : Nat) (target : CallTarget) (info : Option DebugInfo) :
    (applyCall ctx offset target info).CleanOn d := by
  refine .blob_bind (.lift_bind (Blob.instructionAt_clean ..) fun i _ => ?_)
  refine .lift_bind (callEnd_clean ..) fun pc _ => ?_
  cases target with
  | installedCode id => exact bindInstalledCode_clean id
  | runtimeStub id =>
      exact withCallSafepoint_clean hframe hd (keeps_bindStub ctx i id)
        (fun _ _ => bindStub_clean id) pc info
  | method method =>
      refine withCallSafepoint_clean hframe hd (keeps_bindMethodCall i info _ method.resolved?)
        (fun d₁ hd₁ => .lift_bind (.require rfl) fun _ _ => ?_) pc info
      exact bindMethod_clean (hd₁ ▸ hd.announced) method.resolved?

-- ── Sites ───────────────────────────────────────────────────────────────────────

/-- **One site is clean** on a draft between two sites. -/
theorem applySite_clean (hframe : ctx.frameSize / RefMap.stackWord * 2 ≤ Word.limit32)
    (hd : d.Ready ctx base) (site : Site) : (applySite ctx site).CleanOn d := by
  obtain ⟨offset, kind⟩ := site
  refine .blob_bind (.lift_bind (checkOffset_clean ..) fun offset _ => ?_)
  cases kind with
  | call target info => exact applyCall_clean hframe hd offset target info
  | safepoint info => exact applySafepoint_clean hframe hd offset info
  | dataPatch c alignment inlined =>
      exact applyDataPatch_clean hd.tracks.gains.sound offset c alignment inlined
  | mark id references => exact applyMark_clean offset id references

theorem applyMark_legal {offset : Nat} {id : Int} {references : List Int}
    (hd : d.announced.Legal)
    (h : (applyMark ctx offset id references).runOn d = .ok (.ok (), d')) :
    d'.announced.Legal := by
  by_cases hinvoke : ∃ mark, Mark.ofNumber? id = some mark ∧ mark.isInvoke = true
  · obtain ⟨mark, hmark, hinvoke⟩ := hinvoke
    have hlegal : Announcement.Legal ⟨mark, some offset⟩ := ⟨hinvoke, fun _ => nofun⟩
    unfold applyMark at h
    rw [hmark] at h
    cases mark with
    | invokeInvalid | invokeStatic | invokeSpecial | inlineInvokeVirtual =>
        obtain ⟨-, rfl⟩ := Prod.mk.inj (Except.ok.inj h)
        exact hlegal
    | invokeVirtual | invokeInterface =>
        obtain ⟨_, d₁, -, h⟩ := bind_ok h
        obtain ⟨-, rfl⟩ := Prod.mk.inj (Except.ok.inj h)
        exact hlegal
    | _ => exact nomatch hinvoke
  · have hkeeps : Keeps Draft.announced (applyMark ctx offset id references) :=
      .applyMark (fun _ _ => rfl) (fun _ _ _ _ _ _ => rfl) (fun _ _ _ => rfl)
        fun mark hmark hcall => (hinvoke ⟨mark, hmark, hcall⟩).elim
    rw [hkeeps _ _ _ h]
    exact hd

/-- A site leaves a legal announcement: an invoke mark makes one, a call uses it up. -/
theorem applySite_legal {site : Site} (hd : d.announced.Legal)
    (h : (applySite ctx site).runOn d = .ok (.ok (), d')) : d'.announced.Legal := by
  have hused : d'.announced = { d.announced with mark := .invokeInvalid } →
      d'.announced.Legal := by
    intro hannounced
    rw [hannounced]
    exact ⟨rfl, fun hne => (hne rfl).elim⟩
  obtain ⟨offset, kind⟩ := site
  obtain ⟨-, -, h⟩ := applySite_done h
  cases kind with
  | call target info =>
      obtain ⟨i, pc, -, -, h⟩ := applyCall_done h
      cases target with
      | installedCode id =>
          rw [Draft.eq_of_sansBlob (keeps_bindInstalledCode ctx i id _ _ _ h)]
          exact hd
      | runtimeStub id =>
          obtain ⟨_, _, _, _, _, -, -, -, -, hdone⟩ :=
            withCallSafepoint_done (keeps_bindStub ctx i id) h
          exact hused (hdone rfl).2.2.1
      | method method =>
          obtain ⟨_, _, _, _, _, -, -, -, -, hdone⟩ :=
            withCallSafepoint_done (keeps_bindMethodCall i info _ method.resolved?) h
          exact hused (hdone rfl).2.2.1
  | safepoint info =>
      obtain ⟨_, d₁, hopen, h⟩ := bind_ok h
      obtain ⟨-, scopes, t, -, hd₁, map, opened, -, -, hlog₁⟩ := openSafepoint_done hopen
      obtain ⟨-, rfl⟩ := closeSafepoint_done (by rw [hlog₁]) h
      show d₁.announced.Legal
      rw [hd₁]
      exact hd
  | dataPatch c alignment inlined =>
      obtain ⟨t, -, -, -, hannounced⟩ := applyDataPatch_records h
      rw [hannounced]
      exact hd
  | mark id references => exact applyMark_legal hd h

/-- No safepoint is open behind a site that goes through. -/
theorem applySite_idle {site : Site} (hidle : d.log.current = none)
    (h : (applySite ctx site).runOn d = .ok (.ok (), d')) : d'.log.current = none := by
  obtain ⟨scopes, t, -, -, hdone⟩ := applySite_records h
  obtain ⟨pc, -, hrecords⟩ := hdone rfl
  cases hsuspension : site.suspension? <;> cases scopes <;> rw [hsuspension] at hrecords
  · rw [show d'.log = d.log from hrecords]
    exact hidle
  · exact hrecords.elim
  · exact hrecords.elim
  · obtain ⟨map, opened, -, -, hlog⟩ := hrecords
    rw [hlog]

/-- **One site leads from a draft between two sites to the next.** -/
theorem applySite_ready {site : Site} (hd : d.Ready ctx base)
    (h : (applySite ctx site).runOn d = .ok (.ok (), d')) : d'.Ready ctx base := by
  obtain ⟨points, hlog⟩ := hd.described
  refine ⟨(applySite_gains hd.tracks h).1, ?_, applySite_idle hd.idle h,
    applySite_legal hd.announced h⟩
  rcases applySite_walks hlog h with ⟨-, hlog'⟩ | ⟨pc, info, leaf, -, -, hlog'⟩
  · exact ⟨points, hlog'⟩
  · exact ⟨_, hlog'⟩

/-- **A run of sites is clean**, and ends between two sites if it goes through. -/
theorem applySites_clean (hframe : ctx.frameSize / RefMap.stackWord * 2 ≤ Word.limit32)
    {sites : List Site} (hd : d.Ready ctx base) :
    (applySites ctx sites).CleanOn d ∧
      ∀ d', (applySites ctx sites).runOn d = .ok (.ok (), d') → d'.Ready ctx base := by
  induction sites generalizing d with
  | nil =>
      refine ⟨.pure _, fun d' h => ?_⟩
      obtain ⟨-, rfl⟩ := Prod.mk.inj (Except.ok.inj h)
      exact hd
  | cons site rest ih =>
      constructor
      · exact .bind (applySite_clean hframe hd site) fun _ d₁ hsite =>
          (ih (applySite_ready hd hsite)).1
      · intro d' h
        obtain ⟨_, d₁, hsite, hrest⟩ := bind_ok h
        exact (ih (applySite_ready hd hsite)).2 d' hrest

end Safepoints

-- ── Installations ───────────────────────────────────────────────────────────────

section Installing

variable {settings : Settings} {u : CompiledUnit} {r r' : Runtime}

namespace CompiledUnit

/-- A unit is checked while collection is held off. -/
theorem check_clean (u : CompiledUnit) (hpaused : r.allowsSafepoints = false) :
    Clean (u.check r) := by
  refine .bind (.require rfl) fun _ _ => .bind (.require rfl) fun _ _ => .met ?_
  rw [hpaused]
  rfl

theorem blob_clean (u : CompiledUnit) (settings : Settings) : Clean (u.blob settings) := by
  have hlayout : Clean (u.layout settings) :=
    .bind (Size.mul_clean ..) fun _ _ => .bind (Size.add_clean ..) fun _ _ =>
      .bind (Size.mul_clean ..) fun _ _ => .ok _
  refine .bind hlayout fun layout _ => ?_
  dsimp only
  split
  · exact .ok _
  · split
    · exact .ok _
    · exact .bind (Blob.appendConstant_clean ..) fun _ _ => .ok _

/-- Finishing is clean when no safepoint is open. -/
theorem finish_clean {d : Draft} (hidle : d.log.current = none)
    (dependencies : List Dependency) : Clean (u.finish dependencies d) := by
  have hhandlers : Clean (u.handlerTable d.blob.code.length) :=
    .foldlM (fun _ _ => .bind (.require rfl) fun _ _ => .bind (.require rfl) fun _ _ =>
      .bind (.require rfl) fun _ _ => .ok _) ..
  exact .bind hhandlers fun _ _ => .bind (.bind (.met hidle) fun _ _ => .ok _) fun _ _ => .ok _

/-- The slots of a frame whose size is a 32 bit number have different 32 bit numbers. -/
theorem slots_fit (hframe : u.frameSize < 0x80000000) (parameterCount : Nat) :
    (u.siteContext settings parameterCount r).frameSize / RefMap.stackWord * 2 ≤
      Word.limit32 := by
  show (u.frameSize.toNat + returnAddressSize) / RefMap.stackWord * 2 ≤ Word.limit32
  unfold returnAddressSize RefMap.stackWord Word.limit32
  omega

end CompiledUnit

/-- Handles that were gained are given back without a fault. -/
theorem Runtime.releaseAll_clean {before : HandleTable} {handles : List Handle}
    (hgains : before.Gains handles r.handles) : Clean (r.releaseAll handles) := by
  obtain ⟨table, htable, -⟩ := hgains.releaseAll
  exact .bind (.of_ok htable) fun _ _ => .ok _

theorem assemble_clean (hframe : u.frameSize < 0x80000000) (hsound : r.handles.Sound)
    (hpaused : r.allowsSafepoints = false) (parameterCount : Nat)
    (dependencies : List Dependency) :
    Clean (assemble settings u parameterCount dependencies r) := by
  refine .bind (u.check_clean hpaused) fun _ _ => .bind (u.blob_clean settings) fun out _ => ?_
  cases out with
  | error e => exact .ok _
  | ok blob =>
      have hready : Draft.Ready (u.siteContext settings parameterCount r) r.handles
          { blob, handles := r.handles } :=
        ⟨.start hsound, ⟨[], .nil, .nil, .nil⟩, rfl, rfl, fun hne => (hne rfl).elim⟩
      obtain ⟨hclean, hends⟩ :=
        applySites_clean (CompiledUnit.slots_fit hframe parameterCount) hready
      refine .bind hclean fun out hrun => ?_
      obtain ⟨e | _, d⟩ := out
      · -- a refused run has recorded what it made, so that all of it can be given back
        have hgains := (applySites_gains hready.tracks hrun).1.gains
        have hrelease : Clean ({ r with handles := d.handles }.releaseAll
            d.references.handles) := Runtime.releaseAll_clean hgains
        exact .bind hrelease fun _ _ => .ok _
      · exact .bind (CompiledUnit.finish_clean (hends d hrun).idle _) fun _ _ => .ok _

/-- Collection is held off for as long as a unit is assembled. -/
theorem assemblePaused_clean (hframe : u.frameSize < 0x80000000) (hsound : r.handles.Sound)
    (parameterCount : Nat) (dependencies : List Dependency) :
    Clean (assemblePaused settings u parameterCount dependencies r) := by
  have hpaused : r.pause.allowsSafepoints = false := by
    simp [Runtime.allowsSafepoints, Runtime.pause]
  have hheld : r.pause.handles.Sound := hsound
  exact .bind (assemble_clean hframe hheld hpaused ..) fun _ _ => .ok _

theorem commit_clean {before : HandleTable} {code : Code}
    (hgains : before.Gains code.references.handles r.handles) : Clean (commit r code) := by
  have hallocate : ∀ size alignment, Clean (r.codes.space.allocate size alignment) := by
    intro size alignment
    refine .bind (.bind (Size.add_clean ..) fun _ _ => .bind (Size.alignUp_clean ..)
      fun _ _ => .ok _) fun _ _ => .bind (Size.add_clean ..) fun _ _ => ?_
    exact .ite (fun _ => .bind (Address.advance_clean ..) fun _ _ => .ok _) fun _ => .ok _
  have hregister : Clean (r.codes.register code) := by
    refine .bind code.blob.size_clean fun _ _ => .bind (hallocate ..) fun out _ => ?_
    cases out with
    | error full => exact .ok _
    | ok block => exact .bind (Blob.moveTo_clean ..) fun _ _ => .ok _
  unfold commit
  split
  · exact .bind (Runtime.releaseAll_clean hgains) fun _ _ => .ok _
  · refine .bind hregister fun out _ => ?_
    cases out with
    | error full => exact .bind (Runtime.releaseAll_clean hgains) fun _ _ => .ok _
    | ok registered => exact .ok _

theorem assembleAndCommit_clean (hframe : u.frameSize < 0x80000000) (hsound : r.handles.Sound)
    (parameterCount : Nat) (dependencies : List Dependency) :
    Clean (assembleAndCommit settings u parameterCount dependencies r) := by
  refine .bind (assemblePaused_clean hframe hsound ..) fun out hassemble => ?_
  obtain ⟨result, r₁⟩ := out
  rcases assemblePaused_done hassemble with ⟨e, rfl, -⟩ | ⟨e, _, _, _, rfl, -⟩ |
    ⟨d, code, rfl, hruns, hfinish, rfl⟩
  · exact .ok _
  · exact .ok _
  · obtain ⟨-, hreferences, -⟩ := CompiledUnit.finish_ok hfinish
    have hgains : r.handles.Gains code.references.handles d.handles := by
      rw [hreferences]
      exact hruns.gains hsound
    exact commit_clean hgains

theorem installMethod_clean (hframe : u.frameSize < 0x80000000) (hsound : r.handles.Sound) :
    Clean (installMethod settings u r) := by
  have hassumption : ∀ a, Clean (Dependency.ofAssumption r.world a) := by
    intro a
    cases a with
    | concreteSubtype context subtype =>
        exact .ite (fun _ => .ok _) fun _ => .bind (.require rfl) fun _ _ => .ok _
    | _ => exact .ok _
  have hassumptions : Clean (Dependency.ofAssumptions r.world u.assumptions) :=
    .foldlM (fun _ a => .bind (hassumption a) fun _ _ => .ok _) ..
  unfold installMethod
  split
  · exact .error rfl
  · exact .bind hassumptions fun _ _ => .bind (assembleAndCommit_clean hframe hsound ..)
      fun _ _ => .ok _

/-- A stub has no dependencies that could be broken, and is found under the identity it was
    registered with. -/
theorem installStub_clean (hframe : u.frameSize < 0x80000000) (hsound : r.handles.Sound) :
    Clean (installStub settings u r) := by
  refine .bind (.require rfl) fun _ _ => .bind (.require rfl) fun _ _ => ?_
  refine .bind (assembleAndCommit_clean hframe hsound ..) fun out hcommit => ?_
  obtain ⟨result, r₁⟩ := out
  rcases assembleAndCommit_done hcommit with ⟨refusal, rfl, -⟩ | ⟨installed, rfl, -, hget, -⟩
  · cases refusal with
    | overflow cause => exact .ok _
    | spaceFull cause => exact .ok _
    | brokenDependency d => exact nomatch (assembleAndCommit_checks hcommit).2 d rfl
  · dsimp only
    rw [hget]
    exact .ok _

/-- **No installation ends in an internal fault.** In a runtime in use, whatever the settings and
    the unit, a frame size being a 32 bit number, an installation that stops with a fault stops
    with one that the unit or the limits of the machine gave rise to. -/
theorem installations_avoid_internal_faults (settings : Settings) {u : CompiledUnit} {r : Runtime}
    (hr : r.Reachable) (hframe : u.frameSize < 0x80000000) :
    (∀ fault, installMethod settings u r = .error fault → fault.isInternal = false) ∧
    (∀ fault, installStub settings u r = .error fault → fault.isInternal = false) :=
  ⟨(installMethod_clean hframe hr.sound).external, (installStub_clean hframe hr.sound).external⟩

end Installing

-- ── Faults that units give rise to ──────────────────────────────────────────────

/-- A call that suspends a frame of one reference. -/
def DebugInfo.sampleCall : DebugInfo where
  frame := {
    method := ⟨0x1000⟩, bci := 3, values := []
    localCount := 0, stackCount := 0, lockCount := 0, duringCall := true }
  frameBits := ⟨[1]⟩

/-- An inline cache with its mark, the call through it, and a call that no mark announces. -/
def CompiledUnit.sampleUnannounced : CompiledUnit where
  name := "unannounced"
  code := [0x48, 0xb8, 0, 0, 0, 0, 0, 0, 0, 0, 0xe8, 0, 0, 0, 0, 0xe8, 0, 0, 0, 0]
  codeSize := 20
  frameSize := 8
  sites := [
    ⟨0, .mark 0x2004 []⟩,
    ⟨10, .call (.method (.resolved ⟨0x1000⟩)) (some .sampleCall)⟩,
    ⟨15, .call (.method (.resolved ⟨0x1000⟩)) (some .sampleCall)⟩]

/-- The second call stops the installation, since the first one has used up the mark. Sizes beyond
    the range of words and an alignment that is no power of two stop one too, and none of these
    faults is internal. -/
theorem installations_avoid_internal_faults_sample :
    Runtime.sample.Reachable ∧ CompiledUnit.sampleUnannounced.frameSize < 0x80000000 ∧
    (∃ fault, installStub {} .sampleUnannounced .sample = .error fault ∧
      fault.report = .fatal "invalid next call type for call at 15" ∧
      fault.isInternal = false) ∧
    (∃ fault, installStub { constantBytesPerSite := 0xffffffffffffffff } .sampleUnannounced
        .sample = .error fault ∧
      fault.report = .arithmetic ∧ fault.isInternal = false) ∧
    (∃ fault, installStub { constantsAlignment := 3 } .sampleLoad .sample = .error fault ∧
      fault.report = .assertion ∧ fault.isInternal = false) := by
  have hcall : installStub {} .sampleUnannounced .sample = .error (.site (.noCallType 15)) := by
    cbv
  have hsize : installStub { constantBytesPerSite := 0xffffffffffffffff } .sampleUnannounced
      .sample = .error .overflow := by
    cbv
  have halignment : installStub { constantsAlignment := 3 } .sampleLoad .sample =
      .error .badAlignment := by
    cbv
  have hframe : CompiledUnit.sampleUnannounced.frameSize < 0x80000000 := by decide
  have hload : CompiledUnit.sampleLoad.frameSize < 0x80000000 := by decide
  refine ⟨Runtime.sample_reachable, hframe, ⟨_, hcall, by decide, ?_⟩, ⟨_, hsize, rfl, ?_⟩,
    _, halignment, rfl, ?_⟩
  · exact (installations_avoid_internal_faults _ Runtime.sample_reachable hframe).2 _ hcall
  · exact (installations_avoid_internal_faults _ Runtime.sample_reachable hframe).2 _ hsize
  · exact (installations_avoid_internal_faults _ Runtime.sample_reachable hload).2 _ halignment

end ManagedCode
