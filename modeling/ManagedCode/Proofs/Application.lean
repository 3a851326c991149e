import ManagedCode.Proofs.Imprint
import ManagedCode.Proofs.Recording

/-! # Applying a site leaves its imprint

    A site that goes through does to the blob what its imprint says, and to the announced call what
    the site alone says.  The steps that lead there (decoding, checking, writing, recording) are
    not looked at again after this file.

* **`Imprint.Left`** — a step that left an imprint and changed nothing but the blob.
* **`applySite_imprint`** — one theorem for every kind of site. -/

namespace ManagedCode

/-- A step led from `d` to `d'` by leaving an imprint in the blob, and changed nothing else. -/
def Imprint.Left (imprint : Imprint) (d d' : Draft) : Prop :=
  imprint.Fits d.blob ∧ d' = { d with blob := imprint.apply d.blob }

/-- A draft whose code is edited. -/
def Draft.edited (d : Draft) (e : Edit) : Draft :=
  { d with blob := { d.blob with code := e.apply d.blob.base d.blob.code } }

section

open Patch

variable {d d' : Draft} {i : Instruction} {e : Edit} {o : Operand} {target : UInt64}

-- ── Writing and recording ───────────────────────────────────────────────────────

theorem Imprint.left_nil (d : Draft) : Imprint.Left {} d d := by
  refine ⟨fun e he => (List.not_mem_nil he).elim, ?_⟩
  simp only [Imprint.apply, render, List.foldl_nil, List.append_nil]

theorem Imprint.left_edit (he : e.Fits d.blob.base d.blob.code.length) :
    Imprint.Left { edits := [e] } d (d.edited e) := by
  refine ⟨fun e' he' => List.mem_singleton.mp he' ▸ he, ?_⟩
  simp only [Draft.edited, Imprint.apply, render, List.foldl_cons, List.foldl_nil,
    List.append_nil]

theorem relocate_left {offset : Nat} {kind : RelocationKind} {format : OperandFormat}
    (h : (relocate offset kind format).runOn d = .ok (.ok (), d')) :
    Imprint.Left (.recording [⟨offset, kind, format⟩]) d d' := by
  rw [runOn_relocate] at h
  obtain ⟨⟨out, b⟩, hb, h⟩ := Checked.bind_ok h
  obtain ⟨rfl, rfl⟩ := Prod.mk.inj (Except.ok.inj h)
  refine ⟨fun e he => (List.not_mem_nil he).elim, ?_⟩
  simp only [Blob.relocate_ok hb, Imprint.apply, Imprint.recording, render, List.foldl_nil,
    List.append_nil]

/-- An edit and the record that goes with it. -/
theorem edit_relocate_left {offset : Nat} {kind : RelocationKind} {format : OperandFormat}
    (he : e.Fits d.blob.base d.blob.code.length)
    (h : (relocate offset kind format).runOn (d.edited e) = .ok (.ok (), d')) :
    Imprint.Left { edits := [e], records := [⟨offset, kind, format⟩] } d d' := by
  obtain ⟨-, rfl⟩ := relocate_left h
  refine ⟨fun e' he' => List.mem_singleton.mp he' ▸ he, ?_⟩
  simp only [Draft.edited, Imprint.apply, Imprint.recording, render, List.foldl_cons,
    List.foldl_nil, List.append_nil]

theorem setBranchTarget_ok (h : (setBranchTarget i target).runOn d = .ok (.ok (), d')) :
    ∃ o, i.branchOperand = .ok o ∧
      (⟨o, .distance target i.next⟩ : Edit).Fits d.blob.base d.blob.code.length ∧
      d' = d.edited ⟨o, .distance target i.next⟩ := by
  unfold setBranchTarget at h
  rw [runOn_modifyBlob] at h
  obtain ⟨b, hb, h⟩ := Checked.bind_ok h
  obtain ⟨-, rfl⟩ := Prod.mk.inj (Except.ok.inj h)
  obtain ⟨next, hnext, hb⟩ := Checked.bind_ok hb
  obtain ⟨o, ho, hb⟩ := Checked.bind_ok hb
  obtain ⟨distance, hdistance, hb⟩ := Checked.bind_ok hb
  obtain ⟨hfits, rfl⟩ := Blob.write32_distance_ok hnext hdistance hb
  exact ⟨o, ho, hfits, rfl⟩

theorem setRelativeOperand_ok (h : (setRelativeOperand i o target).runOn d = .ok (.ok (), d')) :
    (⟨o, .distance target i.next⟩ : Edit).Fits d.blob.base d.blob.code.length ∧
      d' = d.edited ⟨o, .distance target i.next⟩ := by
  unfold setRelativeOperand at h
  rw [runOn_modifyBlob] at h
  obtain ⟨b, hb, h⟩ := Checked.bind_ok h
  obtain ⟨-, rfl⟩ := Prod.mk.inj (Except.ok.inj h)
  obtain ⟨next, hnext, hb⟩ := Checked.bind_ok hb
  obtain ⟨distance, hdistance, hb⟩ := Checked.bind_ok hb
  obtain ⟨hfits, rfl⟩ := Blob.write32_distance_ok hnext hdistance hb
  exact ⟨hfits, rfl⟩

theorem writeImmediate_ok {bits : UInt64}
    (h : (modifyBlob fun b => do b.write64 (← i.immediate64) bits).runOn d = .ok (.ok (), d')) :
    ∃ o, i.immediate64 = .ok o ∧
      (⟨o, .fixed (Word.toBytes 8 bits.toNat)⟩ : Edit).Fits d.blob.base d.blob.code.length ∧
      d' = d.edited ⟨o, .fixed (Word.toBytes 8 bits.toNat)⟩ := by
  rw [runOn_modifyBlob] at h
  obtain ⟨b, hb, h⟩ := Checked.bind_ok h
  obtain ⟨-, rfl⟩ := Prod.mk.inj (Except.ok.inj h)
  obtain ⟨o, ho, hb⟩ := Checked.bind_ok hb
  obtain ⟨hfits, rfl⟩ := Blob.write64_ok hb
  exact ⟨o, ho, hfits, rfl⟩

-- ── Calls ───────────────────────────────────────────────────────────────────────

theorem bindBranch_imprint {kind : RelocationKind}
    (h : (do setBranchTarget i target; relocate i.offset kind .call32).runOn d =
      .ok (.ok (), d')) :
    ∃ imprint, Imprint.anchor? i target kind .call32 = some imprint ∧ imprint.Left d d' := by
  obtain ⟨_, d₁, htarget, h⟩ := bind_ok h
  obtain ⟨o, ho, hfits, rfl⟩ := setBranchTarget_ok htarget
  refine ⟨_, ?_, edit_relocate_left hfits h⟩
  simp only [Imprint.anchor?, Blob.positionalOperand, ho]

theorem bindWord_imprint {bits : UInt64} {offset : Nat} {kind : RelocationKind}
    {format : OperandFormat}
    (h : (do modifyBlob fun b => do b.write64 (← i.immediate64) bits
             relocate offset kind format : Patch Unit).runOn d = .ok (.ok (), d')) :
    ∃ imprint, Imprint.word? i bits [⟨offset, kind, format⟩] = some imprint ∧
      imprint.Left d d' := by
  obtain ⟨_, d₁, hwrite, h⟩ := bind_ok h
  obtain ⟨o, ho, hfits, rfl⟩ := writeImmediate_ok hwrite
  refine ⟨_, ?_, edit_relocate_left hfits h⟩
  simp only [Imprint.word?, ho]

theorem bindCall_imprint {kind : RelocationKind}
    (h : (bindCall i target kind).runOn d = .ok (.ok (), d')) :
    ∃ imprint, Imprint.anchor? i target kind .call32 = some imprint ∧ imprint.Left d d' := by
  unfold bindCall at h
  rw [runOn_lift_bind] at h
  obtain ⟨_, -, h⟩ := Checked.bind_ok h
  exact bindBranch_imprint h

variable {ctx : SiteContext}

theorem bindInstalledCode_imprint {id : CodeId}
    (h : (bindInstalledCode ctx i id).runOn d = .ok (.ok (), d')) :
    ∃ entry, ctx.codes.verifiedEntry? id = .ok (some entry) ∧
      ∃ imprint, Imprint.anchor? i entry .runtimeCall .call32 = some imprint ∧
        imprint.Left d d' := by
  unfold bindInstalledCode at h
  rw [runOn_lift_bind] at h
  obtain ⟨_, -, h⟩ := Checked.bind_ok h
  rw [runOn_lift_bind] at h
  obtain ⟨_ | entry, hentry, h⟩ := Checked.bind_ok h
  · exact nomatch h
  · exact ⟨entry, hentry, bindBranch_imprint h⟩

theorem bindStub_imprint {id : Int} (h : (bindStub ctx i id).runOn d = .ok (.ok (), d')) :
    ∃ address, stubAddress? ctx.stubs id = some address ∧
      ∃ imprint, imprint.Left d d' ∧
        (if i.shape = .movLiteral then
          Imprint.word? i address [⟨i.offset, .runtimeCall, .immediate⟩]
        else Imprint.anchor? i address .runtimeCall .call32) = some imprint := by
  unfold bindStub at h
  cases hstub : stubAddress? ctx.stubs id with
  | none =>
      rw [hstub] at h
      exact nomatch h
  | some address =>
      rw [hstub] at h
      refine ⟨address, rfl, ?_⟩
      by_cases hmov : i.shape = .movLiteral
      · simp only [if_pos hmov] at h ⊢
        obtain ⟨imprint, himprint, hleft⟩ := bindWord_imprint h
        exact ⟨imprint, hleft, himprint⟩
      · simp only [if_neg hmov] at h ⊢
        obtain ⟨imprint, himprint, hleft⟩ := bindBranch_imprint h
        exact ⟨imprint, hleft, himprint⟩

/-- A method call is bound to the stub that resolves calls of the announced kind. -/
theorem bindMethod_imprint {method : Option MethodId} (ref : MethodRef)
    (h : (bindMethod ctx i method).runOn d = .ok (.ok (), d')) :
    ∃ imprint, imprint.Left d d' ∧
      (match d.pending with
        | .inlined => some {}
        | _ => ((CallTarget.method ref).destination? ctx d.pending).bind fun (address, kind) =>
            Imprint.anchor? i address kind .call32) = some imprint := by
  unfold bindMethod at h
  rw [runOn_get_bind] at h
  unfold CallTarget.destination? Draft.pending Announcement.pending
  dsimp only at h
  cases hmark : d.announced.mark with
  | inlineInvokeVirtual =>
      rw [hmark] at h
      obtain ⟨-, rfl⟩ := Prod.mk.inj (Except.ok.inj h)
      exact ⟨{}, Imprint.left_nil d, rfl⟩
  | invokeVirtual | invokeInterface =>
      rw [hmark] at h
      dsimp only at h
      rw [runOn_lift_bind] at h
      obtain ⟨_, -, h⟩ := Checked.bind_ok h
      cases hoffset : d.announced.offset with
      | none =>
          rw [hoffset] at h
          exact nomatch h
      | some cache =>
          rw [hoffset] at h
          obtain ⟨imprint, himprint, hleft⟩ := bindCall_imprint h
          exact ⟨imprint, hleft, himprint⟩
  | invokeStatic | invokeSpecial =>
      rw [hmark] at h
      dsimp only at h
      rw [runOn_lift_bind] at h
      obtain ⟨_, -, h⟩ := Checked.bind_ok h
      obtain ⟨imprint, himprint, hleft⟩ := bindCall_imprint h
      exact ⟨imprint, hleft, himprint⟩
  | _ =>
      rw [hmark] at h
      exact nomatch h

/-- **A call** leaves its imprint and uses up what was announced. -/
theorem applyCall_imprint {offset : Nat} {target : CallTarget} {info : Option DebugInfo}
    (h : (applyCall ctx offset target info).runOn d = .ok (.ok (), d')) :
    ∃ imprint, Site.callImprint? ctx d.blob d.pending offset target = some imprint ∧
      imprint.Fits d.blob ∧ d'.blob = imprint.apply d.blob ∧
      d'.pending = d.pending.after ⟨offset, .call target info⟩ := by
  obtain ⟨i, pc, hi, -, h⟩ := applyCall_done h
  obtain ⟨hat, -⟩ := Instruction.decodeAt_ok hi
  unfold Site.callImprint?
  cases target with
  | installedCode id =>
      obtain ⟨entry, hentry, imprint, himprint, hfits, rfl⟩ := bindInstalledCode_imprint h
      refine ⟨imprint, ?_, hfits, rfl, rfl⟩
      simp only [CallTarget.destination?, hentry, hat, Option.bind_some, himprint]
  | runtimeStub id =>
      obtain ⟨scopes, t, d₁, d₂, inner, -, hd₁, hx, -, hdone⟩ :=
        withCallSafepoint_done (keeps_bindStub ctx i id) h
      obtain ⟨rfl, hblob, hannounced, -⟩ := hdone rfl
      have hused : d'.pending = .none := by
        rw [Draft.pending, hannounced]
        rfl
      obtain ⟨address, hstub, imprint, ⟨hfits, hd₂⟩, himprint⟩ := bindStub_imprint hx
      rw [hd₁] at hfits hd₂
      rw [hd₂] at hblob
      refine ⟨imprint, ?_, hfits, hblob, hused⟩
      simp only [CallTarget.destination?, hstub, Option.map_some, hat, Option.bind_some]
      split
      · next hmov => rwa [if_pos hmov] at himprint
      · next hmov => rwa [if_neg (hmov id rfl)] at himprint
  | method ref =>
      obtain ⟨scopes, t, d₁, d₂, inner, -, hd₁, hx, -, hdone⟩ :=
        withCallSafepoint_done (keeps_bindMethodCall i info _ ref.resolved?) h
      obtain ⟨rfl, hblob, hannounced, -⟩ := hdone rfl
      have hused : d'.pending = .none := by
        rw [Draft.pending, hannounced]
        rfl
      rw [runOn_lift_bind] at hx
      obtain ⟨_, -, hx⟩ := Checked.bind_ok hx
      obtain ⟨imprint, ⟨hfits, hd₂⟩, himprint⟩ := bindMethod_imprint ref hx
      have hkept : d₁.pending = d.pending := by
        rw [hd₁]
        rfl
      rw [hkept] at himprint
      rw [hd₁] at hfits hd₂
      rw [hd₂] at hblob
      refine ⟨imprint, ?_, hfits, hblob, hused⟩
      rw [hat]
      cases hpending : d.pending <;> rw [hpending] at himprint <;> exact himprint

-- ── Constants ───────────────────────────────────────────────────────────────────

/-- The distance to a constant is the same wherever the blob stands. -/
theorem constantLoad_fits {start offset : Nat} {b : Blob}
    (hstart : b.constantsStart = .ok start) (htarget : b.constantAddress offset = .ok target)
    (hfits : (⟨o, .distance target i.next⟩ : Edit).Fits b.base b.code.length) :
    (⟨o, .within (start + offset) i.next⟩ : Edit).Fits b.base b.code.length ∧
      (⟨o, .within (start + offset) i.next⟩ : Edit).apply b.base b.code =
        (⟨o, .distance target i.next⟩ : Edit).apply b.base b.code := by
  have hdistance : Filling.distanceWithin (start + offset) i.next =
      Filling.distanceAt b.base target i.next := by
    obtain ⟨start', hstart', htarget⟩ := Checked.bind_ok htarget
    rw [hstart] at hstart'
    obtain rfl := Except.ok.inj hstart'
    obtain ⟨place, hplace, htarget⟩ := Checked.bind_ok htarget
    obtain ⟨rfl, -⟩ := Size.add_ok hplace
    obtain ⟨rfl, -⟩ := Address.advance_ok htarget
    have hword : UInt64.ofNat (start + offset) - UInt64.ofNat i.next =
        b.base + UInt64.ofNat (start + offset) - (b.base + UInt64.ofNat i.next) := by
      grind
    rw [Filling.distanceWithin, Filling.distanceAt, hword]
  have hbytes : (Filling.within (start + offset) i.next).bytes b.base =
      (Filling.distance target i.next).bytes b.base := by
    rw [Filling.bytes, Filling.bytes, hdistance]
  refine ⟨⟨?_, hfits.inside, hfits.inRange, ?_⟩, ?_⟩
  · rw [hbytes]
    exact hfits.width
  · rw [Filling.Fits, hdistance]
    exact hfits.filling
  · rw [Edit.apply, Edit.apply, hbytes]

theorem placeConstant_imprint {bits : UInt64} {alignment : Nat}
    (h : (placeConstant i bits alignment).runOn d = .ok (.ok (), d')) :
    i.ipRelative ∧ ∃ imprint, Imprint.constant? d.blob i bits alignment = some imprint ∧
      imprint.Left d d' := by
  unfold placeConstant at h
  rw [runOn_lift_bind] at h
  obtain ⟨_, hrelative, h⟩ := Checked.bind_ok h
  rw [runOn_lift_bind] at h
  obtain ⟨o, ho, h⟩ := Checked.bind_ok h
  obtain ⟨offset, d₁, happend, h⟩ := bind_ok h
  rw [runOn_appendConstant] at happend
  obtain ⟨⟨out, b⟩, hb, happend⟩ := Checked.bind_ok happend
  obtain ⟨rfl, rfl⟩ := Prod.mk.inj (Except.ok.inj happend)
  obtain ⟨hoffset, rfl⟩ := Blob.appendConstant_ok hb
  rw [runOn_blob_bind, runOn_lift_bind] at h
  obtain ⟨target, htarget, h⟩ := Checked.bind_ok h
  obtain ⟨_, d₂, hset, h⟩ := bind_ok h
  obtain ⟨hfits, rfl⟩ := setRelativeOperand_ok hset
  obtain ⟨start, hstart, -⟩ := Checked.bind_ok htarget
  obtain ⟨hload, happly⟩ := constantLoad_fits hstart htarget hfits
  have hstart' : d.blob.constantsStart = .ok start := hstart
  have himprint : Imprint.constant? d.blob i bits alignment = some
      { edits := [⟨o, .within (start + offset) i.next⟩]
        constants := List.replicate (offset - d.blob.constants.length) 0 ++
          Word.toBytes 8 bits.toNat
        records := [⟨i.offset, .sectionWord .constants offset, .displacement32⟩] } := by
    simp only [Imprint.constant?, ho, hstart', hoffset]
  refine ⟨require_ok hrelative, _, himprint, ?_, ?_⟩
  · intro e he
    exact List.mem_singleton.mp he ▸ hload
  · obtain ⟨-, rfl⟩ := relocate_left h
    simp only [Draft.edited, Imprint.apply, Imprint.recording, render, List.foldl_cons,
      List.foldl_nil, List.append_nil]
    rw [← happly]

/-- **A loaded constant** leaves its imprint. -/
theorem applyDataPatch_imprint {offset : Nat} {c : Constant} {alignment : Nat} {inlined : Bool}
    (h : (applyDataPatch offset c alignment inlined).runOn d = .ok (.ok (), d')) :
    ∃ imprint, Site.patchImprint? d.blob d.handles offset c alignment inlined = some imprint ∧
      imprint.Fits d.blob ∧ d'.blob = imprint.apply d.blob ∧ d'.pending = d.pending := by
  obtain ⟨i, t, hi, -, ⟨hkind, handle, hwritten, hrun⟩ | ⟨hkind, hrun⟩⟩ := applyDataPatch_done h
  · obtain ⟨hat, -⟩ := Instruction.decodeAt_ok hi
    obtain ⟨imprint, himprint, hfits, rfl⟩ := bindWord_imprint hrun
    refine ⟨imprint, ?_, hfits, rfl, rfl⟩
    unfold Site.patchImprint?
    rw [hat, Option.bind_some, hkind]
    unfold Constant.IsWritten at hwritten
    split at hwritten
    · next hnull =>
        obtain rfl := hwritten
        rw [hnull]
        exact himprint
    · next object hheap =>
        obtain ⟨handles', hmake⟩ := hwritten
        rw [hheap]
        simp only [hmake]
        exact himprint
    · exact hwritten.elim
  · obtain ⟨hat, -⟩ := Instruction.decodeAt_ok hi
    have himprint? : Site.patchImprint? d.blob d.handles offset c alignment inlined =
        if inlined then Imprint.word? i (Word.ofInt c.bits) []
        else if i.ipRelative then Imprint.constant? d.blob i (Word.ofInt c.bits) alignment
        else none := by
      unfold Site.patchImprint?
      rw [hat, Option.bind_some]
      split
      · next hobject _ => exact (hkind hobject).elim
      · next hobject _ => exact (hkind hobject).elim
      · rfl
    rw [himprint?]
    by_cases hinlined : inlined = true
    · rw [if_pos hinlined] at hrun ⊢
      obtain ⟨o, ho, hfits, rfl⟩ := writeImmediate_ok hrun
      obtain ⟨hfits', happly⟩ := Imprint.left_edit hfits
      refine ⟨_, ?_, hfits', congrArg Draft.blob happly, rfl⟩
      simp only [Imprint.word?, ho]
    · rw [if_neg hinlined] at hrun ⊢
      obtain ⟨hrelative, imprint, himprint, hfits, rfl⟩ := placeConstant_imprint hrun
      rw [if_pos hrelative]
      exact ⟨imprint, himprint, hfits, rfl, rfl⟩

-- ── Marks ───────────────────────────────────────────────────────────────────────

theorem markInlineCache_imprint {mark : Mark} {offset : Nat}
    (h : (markInlineCache ctx mark offset).runOn d = .ok (.ok (), d')) :
    ∃ imprint, Site.cacheImprint? ctx d.blob offset = some imprint ∧ imprint.Fits d.blob ∧
      d'.blob = imprint.apply d.blob ∧
      d'.pending = Announcement.pending ⟨mark, some offset⟩ := by
  obtain ⟨_, d₁, hfill, h⟩ := bind_ok h
  obtain ⟨-, rfl⟩ := Prod.mk.inj (Except.ok.inj h)
  rw [runOn_modifyBlob] at hfill
  obtain ⟨b, hb, hfill⟩ := Checked.bind_ok hfill
  obtain ⟨-, rfl⟩ := Prod.mk.inj (Except.ok.inj hfill)
  obtain ⟨i, hi, hb⟩ := Checked.bind_ok hb
  obtain ⟨_, hmov, hb⟩ := Checked.bind_ok hb
  obtain ⟨o, ho, hb⟩ := Checked.bind_ok hb
  obtain ⟨word, -, hb⟩ := Checked.bind_ok hb
  obtain ⟨_, -, hb⟩ := Checked.bind_ok hb
  obtain ⟨hfits, rfl⟩ := Blob.write64_ok hb
  obtain ⟨hfits', happly⟩ := Imprint.left_edit hfits
  obtain ⟨hat, -⟩ := Instruction.decodeAt_ok hi
  refine ⟨_, ?_, hfits', congrArg Draft.blob happly, rfl⟩
  unfold Site.cacheImprint?
  rw [hat, Option.bind_some, if_pos (require_ok hmov)]
  simp only [Imprint.word?, ho]

theorem markNearPoll_imprint {offset : Nat} {kind : RelocationKind}
    (h : (markNearPoll ctx offset kind).runOn d = .ok (.ok (), d')) :
    ∃ imprint, Site.pollImprint? ctx d.blob offset kind = some imprint ∧ imprint.Left d d' := by
  unfold markNearPoll at h
  rw [runOn_blob_bind, runOn_lift_bind] at h
  obtain ⟨i, hi, h⟩ := Checked.bind_ok h
  rw [runOn_lift_bind] at h
  obtain ⟨_, hrelative, h⟩ := Checked.bind_ok h
  rw [runOn_lift_bind] at h
  obtain ⟨o, ho, h⟩ := Checked.bind_ok h
  rw [runOn_lift_bind] at h
  obtain ⟨_, -, h⟩ := Checked.bind_ok h
  rw [runOn_lift_bind] at h
  obtain ⟨target, htarget, h⟩ := Checked.bind_ok h
  obtain ⟨rfl, -⟩ := Address.advance_ok htarget
  obtain ⟨_, d₁, hset, h⟩ := bind_ok h
  obtain ⟨hfits, rfl⟩ := setRelativeOperand_ok hset
  obtain ⟨hat, -⟩ := Instruction.decodeAt_ok hi
  refine ⟨_, ?_, edit_relocate_left hfits h⟩
  unfold Site.pollImprint?
  rw [hat, Option.bind_some, if_pos (require_ok hrelative)]
  simp only [Imprint.anchor?, Blob.positionalOperand, ho, (Instruction.at?_laws.bounds hat).1]
  rfl

theorem checkOffset_ok {b : Blob} {offset : Int} {place : Nat}
    (h : checkOffset b offset = .ok place) : 0 ≤ offset ∧ place = offset.toNat := by
  obtain ⟨_, hinside, h⟩ := Checked.bind_ok h
  exact ⟨(require_ok hinside).1, (Checked.pure_ok h).symm⟩

theorem length_patchedHeader {offset : Nat} {first second : Int} {base : UInt64}
    {code : List UInt8}
    (h : ∀ e ∈ Imprint.headerEdits offset first second, e.Fits base code.length) :
    (patchedHeader offset first second code).length = code.length := by
  have hcount := (h _ (List.mem_cons_self ..)).inside
  have hentry := (h _ (List.mem_cons_of_mem _ (List.mem_cons_self ..))).inside
  unfold patchedHeader
  rw [Blob.length_overwrite (by rw [Blob.length_overwrite hcount]; exact hentry),
    Blob.length_overwrite hcount]

theorem fillPatchingHeader_ok {offset place : Nat} {references : List Int} {b b' : Blob}
    (h : fillPatchingHeader offset references b = .ok (place, b')) :
    ∃ first second, references = [first, second] ∧ place = first.toNat ∧
      (∀ e ∈ Imprint.headerEdits offset first second, e.Fits b.base b.code.length) ∧
      b' = { b with code := patchedHeader offset first second b.code } := by
  obtain ⟨_, -, h⟩ := Checked.bind_ok h
  obtain ⟨⟨first, second⟩, hreferences, h⟩ := Checked.bind_ok h
  have hreferences : references = [first, second] := by
    unfold patchingReferences at hreferences
    split at hreferences
    · obtain ⟨rfl, rfl⟩ := Prod.mk.inj (Except.ok.inj hreferences)
      rfl
    · exact nomatch hreferences
  obtain ⟨skip, -, h⟩ := Checked.bind_ok h
  obtain ⟨_, hskip, h⟩ := Checked.bind_ok h
  obtain ⟨firstPlace, hfirst, h⟩ := Checked.bind_ok h
  obtain ⟨secondPlace, hsecond, h⟩ := Checked.bind_ok h
  obtain ⟨_, -, h⟩ := Checked.bind_ok h
  obtain ⟨_, -, h⟩ := Checked.bind_ok h
  obtain ⟨b₁, hcount, h⟩ := Checked.bind_ok h
  obtain ⟨b₂, hentry, h⟩ := Checked.bind_ok h
  obtain ⟨rfl, rfl⟩ := Prod.mk.inj (Checked.pure_ok h)
  obtain ⟨hfirst0, rfl⟩ := checkOffset_ok hfirst
  obtain ⟨hsecond0, rfl⟩ := checkOffset_ok hsecond
  obtain rfl : skip = patchingSkip := require_ok hskip
  rw [Int.toNat_of_nonneg hfirst0, Int.toNat_of_nonneg hsecond0] at hcount hentry
  obtain ⟨hfits₁, rfl⟩ := Blob.write8_ok hcount
  obtain ⟨hfits₂, rfl⟩ := Blob.write8_ok hentry
  refine ⟨first, second, hreferences, rfl, ?_, rfl⟩
  intro e he
  rcases List.mem_cons.mp he with rfl | he
  · exact hfits₁
  · obtain rfl := List.mem_singleton.mp he
    have hroom : offset - 1 + [UInt8.ofNat (second - first).toNat].length ≤ b.code.length :=
      hfits₁.inside
    exact ⟨rfl, Blob.length_overwrite hroom ▸ hfits₂.inside, hfits₂.inRange, trivial⟩

/-- Clearing the field behind a filled header is one more edit. -/
theorem clearFieldOffset_ok {place : Nat} {b b' : Blob}
    (h : clearFieldOffset place b = .ok b') :
    ∃ i o, Instruction.at? b.code place = some i ∧ i.displacement32 = .ok o ∧
      (⟨o, .fixed (Word.toBytes 4 0)⟩ : Edit).Fits b.base b.code.length ∧
      b' = { b with code := (⟨o, .fixed (Word.toBytes 4 0)⟩ : Edit).apply b.base b.code } := by
  obtain ⟨i, hi, h⟩ := Checked.bind_ok h
  obtain ⟨o, ho, h⟩ := Checked.bind_ok h
  obtain ⟨value, -, h⟩ := Checked.bind_ok h
  obtain ⟨_, -, h⟩ := Checked.bind_ok h
  obtain ⟨_, hwidth, h⟩ := Checked.bind_ok h
  have hsize : o.size = 4 := require_ok hwidth
  obtain ⟨hle, hlt, rfl⟩ := Blob.writeBytes_ok h
  refine ⟨i, o, (Instruction.decodeAt_ok hi).1, ho, ⟨?_, ?_, ?_, trivial⟩, rfl⟩
  · rw [Filling.bytes, Word.length_toBytes, hsize]
  · rw [hsize]
    exact hle
  · rw [hsize]
    exact hlt

theorem markStaticStub_imprint {offset : Nat} {references : List Int}
    (h : (markStaticStub offset references).runOn d = .ok (.ok (), d')) :
    ∃ call, references = [call] ∧ Imprint.Left (.recording
      [⟨offset, .metadata, .immediate⟩, ⟨offset, .staticStub call.toNat, .none⟩]) d d' := by
  unfold markStaticStub at h
  split at h
  · next call =>
      rw [runOn_blob_bind, runOn_lift_bind] at h
      obtain ⟨place, hplace, h⟩ := Checked.bind_ok h
      obtain ⟨-, rfl⟩ := checkOffset_ok hplace
      obtain ⟨_, d₁, hfirst, h⟩ := bind_ok h
      obtain ⟨-, rfl⟩ := relocate_left hfirst
      obtain ⟨-, rfl⟩ := relocate_left h
      refine ⟨call, rfl, fun e he => (List.not_mem_nil he).elim, ?_⟩
      simp only [Imprint.apply, Imprint.recording, render, List.foldl_nil, List.append_nil,
        List.append_assoc, List.singleton_append]
  · exact nomatch h

theorem markDummyReference_imprint {offset : Nat}
    (h : (markDummyReference offset).runOn d = .ok (.ok (), d')) :
    Imprint.Left (.recording [⟨offset, .none, .immediate⟩]) d d' := by
  obtain ⟨_, d₁, hfirst, h⟩ := bind_ok h
  obtain ⟨-, rfl⟩ := relocate_left hfirst
  rw [runOn_modifyBlob] at h
  obtain ⟨b, hb, h⟩ := Checked.bind_ok h
  obtain ⟨-, rfl⟩ := Prod.mk.inj (Except.ok.inj h)
  refine ⟨fun e he => (List.not_mem_nil he).elim, ?_⟩
  rw [Blob.changeKind_ok rfl hb]
  rfl

/-- **A mark** leaves its imprint, and announces a call if it is an invoke mark. -/
theorem applyMark_imprint {offset : Int} {id : Int} {references : List Int}
    (h : (applyMark ctx offset.toNat id references).runOn d = .ok (.ok (), d')) :
    ∃ imprint, Site.markImprint? ctx d.blob offset.toNat id references = some imprint ∧
      imprint.Fits d.blob ∧ d'.blob = imprint.apply d.blob ∧
      d'.pending = d.pending.after ⟨offset, .mark id references⟩ := by
  unfold applyMark at h
  unfold Site.markImprint? PendingCall.after
  dsimp only
  cases hmark : Mark.ofNumber? id with
  | none =>
      rw [hmark] at h
      exact nomatch h
  | some mark =>
      rw [hmark] at h
      cases mark with
      | verifiedEntry | unverifiedEntry | osrEntry | unwindEntry | exceptionHandlerEntry
      | deoptHandlerEntry | invokeInvalid | invokeStatic | invokeSpecial
      | inlineInvokeVirtual =>
          obtain ⟨-, rfl⟩ := Prod.mk.inj (Except.ok.inj h)
          exact ⟨{}, rfl, (Imprint.left_nil d).1, congrArg Draft.blob (Imprint.left_nil d).2, rfl⟩
      | invokeVirtual | invokeInterface => exact markInlineCache_imprint h
      | implicitNull =>
          obtain ⟨nulls, -, h⟩ := Checked.bind_ok ((runOn_lift_bind _ _ d).symm.trans h)
          obtain ⟨-, rfl⟩ := Prod.mk.inj (Except.ok.inj h)
          exact ⟨{}, rfl, (Imprint.left_nil d).1, congrArg Draft.blob (Imprint.left_nil d).2, rfl⟩
      | pollNear | pollReturnNear =>
          obtain ⟨imprint, himprint, hfits, rfl⟩ := markNearPoll_imprint h
          exact ⟨imprint, himprint, hfits, rfl, rfl⟩
      | pollFar | pollReturnFar =>
          obtain ⟨hfits, rfl⟩ := relocate_left h
          exact ⟨_, rfl, hfits, rfl, rfl⟩
      | dummyReference =>
          obtain ⟨hfits, rfl⟩ := markDummyReference_imprint h
          exact ⟨_, rfl, hfits, rfl, rfl⟩
      | staticCallStub =>
          obtain ⟨call, rfl, hfits, rfl⟩ := markStaticStub_imprint h
          exact ⟨_, rfl, hfits, rfl, rfl⟩
      | typePatching =>
          obtain ⟨b, hb, h⟩ := Checked.bind_ok ((runOn_modifyBlob _ d).symm.trans h)
          obtain ⟨-, rfl⟩ := Prod.mk.inj (Except.ok.inj h)
          obtain ⟨⟨place, b'⟩, hfill, hb⟩ := Checked.bind_ok hb
          obtain rfl := Checked.pure_ok hb
          obtain ⟨first, second, rfl, -, hfits, rfl⟩ := fillPatchingHeader_ok hfill
          refine ⟨_, rfl, hfits, ?_, rfl⟩
          simp only [Imprint.apply, List.append_nil]
          rfl
      | accessFieldPatching =>
          obtain ⟨b, hb, h⟩ := Checked.bind_ok ((runOn_modifyBlob _ d).symm.trans h)
          obtain ⟨-, rfl⟩ := Prod.mk.inj (Except.ok.inj h)
          obtain ⟨⟨place, b'⟩, hfill, hb⟩ := Checked.bind_ok hb
          obtain ⟨first, second, rfl, rfl, hfits, rfl⟩ := fillPatchingHeader_ok hfill
          obtain ⟨i, o, hat, ho, hclear, rfl⟩ := clearFieldOffset_ok hb
          have himprint : Site.fieldImprint? d.blob offset.toNat first second = some
              { edits := Imprint.headerEdits offset.toNat first second ++
                  [⟨o, .fixed (Word.toBytes 4 0)⟩] } := by
            unfold Site.fieldImprint?
            rw [hat, Option.bind_some]
            simp only [ho]
          refine ⟨_, himprint, ?_, ?_, rfl⟩
          · intro e he
            rcases List.mem_append.mp he with he | he
            · exact hfits e he
            · obtain rfl := List.mem_singleton.mp he
              exact ⟨hclear.width, length_patchedHeader hfits ▸ hclear.inside, hclear.inRange,
                trivial⟩
          · simp only [Imprint.apply, List.append_nil]
            rfl

/-- **A site that goes through leaves its imprint**, and announces or uses up a call. -/
theorem applySite_imprint {site : Site} (h : (applySite ctx site).runOn d = .ok (.ok (), d')) :
    ∃ imprint, site.imprint? ctx d.blob d.pending d.handles = some imprint ∧
      imprint.Fits d.blob ∧ d'.blob = imprint.apply d.blob ∧
      d'.pending = d.pending.after site := by
  obtain ⟨offset, kind⟩ := site
  obtain ⟨-, -, h⟩ := applySite_done h
  cases kind with
  | call target info =>
      obtain ⟨imprint, himprint, hfits, hblob, hpending⟩ := applyCall_imprint h
      refine ⟨imprint, himprint, hfits, hblob, ?_⟩
      rw [hpending]
      cases target <;> rfl
  | safepoint info =>
      obtain ⟨_, d₁, hopen, h⟩ := bind_ok h
      obtain ⟨-, scopes, t, -, hd₁, map, opened, -, -, hlog₁⟩ := openSafepoint_done hopen
      obtain ⟨-, rfl⟩ := closeSafepoint_done (by rw [hlog₁]) h
      refine ⟨{}, rfl, (Imprint.left_nil d).1, ?_, ?_⟩
      · show d₁.blob = _
        rw [hd₁]
        exact congrArg Draft.blob (Imprint.left_nil d).2
      · show d₁.pending = _
        rw [hd₁]
        rfl
  | dataPatch c alignment inlined => exact applyDataPatch_imprint h
  | mark id references => exact applyMark_imprint h

end

end ManagedCode
