import ManagedCode.Proofs.Steps

/-! # Internal faults

    A fault is the producer's, who broke the contract, or it is internal: a table asked beyond its
    end, a protocol between two tables broken, a branch taken that nothing leads to.  A computation
    is clean if it does not end in an internal fault.  This file has what is clean by itself, or by
    what was checked right before it: arithmetic, decoding, the blob, and reference maps.

* **`Fault.isInternal`** — the faults that only the installer itself could cause.
* **`Checked.Clean`** — a computation that ends in none of them, with **`Checked.Clean.bind`** for
  two in a row and **`Checked.foldlM_clean`** for a loop with an invariant.
* **`Lower.clean_bind`**, **`Patch.CleanOn.bind`** — the same for lowerings and for steps over a
  draft.
* **`RefMap.ofBits_clean`** — the map of a suspension point records no place twice, as long as the
  slots of its frame are different as 32 bit numbers. -/

namespace ManagedCode

-- ── Internal faults ─────────────────────────────────────────────────────────────

/-- A table was filled against its own protocol. -/
def TableFault.isInternal : TableFault → Bool
  | placeRecordedTwice _ _ => true
  | secondMap _ => true
  | fieldsSetTwice _ => true
  | safepointInProgress _ => true
  | safepointElsewhere _ _ => true
  | noSafepointOpen _ => true
  | safepointLeftOpen => true
  | _ => false

/-- A handle was given back that is not live. -/
def RuntimeFault.isInternal : RuntimeFault → Bool
  | unknownHandle _ => true
  | handleReleasedTwice _ => true
  | _ => false

/-- A lock was taken for a location without being one. -/
def ValueFault.isInternal : ValueFault → Bool
  | lockNotLocated _ => true
  | _ => false

/-- A call was bound in a way that was not announced, or too late. -/
def SiteFault.isInternal : SiteFault → Bool
  | noInlineCache _ => true
  | notCallType _ => true
  | targetBoundBefore => true
  | _ => false

/-- A unit was assembled while collection may run, or a stub was lost behind its registration. -/
def UnitFault.isInternal : UnitFault → Bool
  | safepointsAllowed _ => true
  | stubVanished _ => true
  | stubDependencies _ => true
  | _ => false

/-- Whether a fault is the installer's own. Overflows and alignments come with the unit. -/
def Fault.isInternal : Fault → Bool
  | overflow => false
  | outOfBounds => true
  | badAlignment => false
  | bitOutside => true
  | machine _ => false
  | blob _ => false
  | table cause => cause.isInternal
  | runtime cause => cause.isInternal
  | value cause => cause.isInternal
  | site cause => cause.isInternal
  | unit cause => cause.isInternal

-- ── Clean computations ──────────────────────────────────────────────────────────

namespace Checked

variable {α β : Type}

/-- The computation does not end in an internal fault. -/
structure Clean (x : Checked α) : Prop where
  external : ∀ fault, x = .error fault → fault.isInternal = false

theorem Clean.ok (a : α) : Clean (.ok a) := ⟨fun _ h => nomatch h⟩

theorem Clean.error {fault : Fault} (hfault : fault.isInternal = false) :
    Clean (.error fault : Checked α) := by
  constructor
  intro other h
  rw [← Except.error.inj h]
  exact hfault

theorem Clean.of_ok {x : Checked α} {a : α} (hx : x = .ok a) : Clean x := by
  rw [hx]
  exact .ok a

/-- Two clean computations in a row are clean; the second only on what the first can give. -/
theorem Clean.bind {x : Checked α} {f : α → Checked β} (hx : Clean x)
    (hf : ∀ a, x = .ok a → Clean (f a)) : Clean (x >>= f) := by
  cases x with
  | error e => exact .error (hx.external e rfl)
  | ok a => exact hf a rfl

theorem Clean.map {x : Checked α} (hx : Clean x) (f : α → β) :
    Clean (Except.map f x : Checked β) := by
  cases x with
  | error e => exact .error (hx.external e rfl)
  | ok a => exact .ok (f a)

theorem Clean.ite {p : Prop} [Decidable p] {x y : Checked α} (hx : p → Clean x)
    (hy : ¬p → Clean y) : Clean (if p then x else y) := by
  by_cases hp : p
  · rw [if_pos hp]
    exact hx hp
  · rw [if_neg hp]
    exact hy hp

/-- A requirement whose fault is the producer's. -/
theorem Clean.require {p : Prop} [Decidable p] {fault : Fault}
    (hfault : fault.isInternal = false) : Clean (ManagedCode.require p fault) :=
  .ite (fun _ => .ok ()) fun _ => .error hfault

/-- A requirement that is met. -/
theorem Clean.met {p : Prop} [Decidable p] {fault : Fault} (hp : p) :
    Clean (ManagedCode.require p fault) := .ite (fun _ => .ok ()) fun hnot => (hnot hp).elim

/-- **A loop is clean** if each step is on states of an invariant and leads to such a state. The
    invariant may speak about what is left to do. -/
theorem foldlM_clean {f : β → α → Checked β} (P : List α → β → Prop)
    (hstep : ∀ x rest b, P (x :: rest) b →
      Clean (f b x) ∧ ∀ b', f b x = .ok b' → P rest b') {xs : List α} {b : β} (hb : P xs b) :
    Clean (xs.foldlM f b) ∧ ∀ b', xs.foldlM f b = .ok b' → P [] b' := by
  induction xs generalizing b with
  | nil =>
      refine ⟨.ok b, fun b' hb' => ?_⟩
      rw [← Checked.pure_ok hb']
      exact hb
  | cons x rest ih =>
      obtain ⟨hclean, hkeeps⟩ := hstep x rest b hb
      rw [List.foldlM_cons]
      constructor
      · exact .bind hclean fun b₁ hb₁ => (ih (hkeeps b₁ hb₁)).1
      · intro b' h
        obtain ⟨b₁, hb₁, h⟩ := Checked.bind_ok h
        exact (ih (hkeeps b₁ hb₁)).2 b' h

theorem Clean.foldlM {f : β → α → Checked β} (hf : ∀ b x, Clean (f b x)) (xs : List α) (b : β) :
    Clean (xs.foldlM f b) :=
  (foldlM_clean (fun _ _ => True) (fun x _ b _ => ⟨hf b x, fun _ _ => trivial⟩) trivial).1

theorem Clean.forM {f : α → Checked PUnit} {xs : List α} (hf : ∀ x ∈ xs, Clean (f x)) :
    Clean (xs.forM f) := by
  induction xs with
  | nil => exact .ok _
  | cons x rest ih =>
      exact .bind (hf x (List.mem_cons_self ..)) fun _ _ =>
        ih fun y hy => hf y (List.mem_cons_of_mem _ hy)

end Checked

open Checked (Clean)

-- ── Lowerings and steps over a draft ────────────────────────────────────────────

namespace Lower

variable {α β : Type} {t : Lowering}

theorem clean_bind {x : Lower α} {f : α → Lower β} (hx : Clean (x.run t))
    (hf : ∀ a t₁, x.run t = .ok (a, t₁) → Clean ((f a).run t₁)) : Clean ((x >>= f).run t) :=
  Clean.bind (x := x.run t) hx fun out hout => hf out.1 out.2 hout

theorem clean_pure (a : α) : Clean ((pure a : Lower α).run t) := .ok _

theorem clean_get_bind {f : Lowering → Lower β} (hf : Clean ((f t).run t)) :
    Clean ((get >>= f).run t) := hf

theorem clean_set_bind {s : Lowering} {f : PUnit → Lower β} (hf : Clean ((f ⟨⟩).run s)) :
    Clean ((set s >>= f).run t) := hf

theorem clean_throw {fault : Fault} (hfault : fault.isInternal = false) :
    Clean ((throw fault : Lower α).run t) := .error hfault

theorem clean_lift {x : Checked α} (hx : Clean x) : Clean ((liftM x : Lower α).run t) :=
  Clean.bind hx fun _ _ => .ok _

/-- Lowering the elements of a list is clean if each lowering is on tables in order, and leads to
    such tables. -/
theorem clean_mapM {f : α → Lower β} {P : Lowering → Prop} {xs : List α}
    (hclean : ∀ a ∈ xs, ∀ t, P t → Clean ((f a).run t))
    (hkeeps : ∀ a ∈ xs, ∀ t b t', P t → (f a).run t = .ok (b, t') → P t') (ht : P t) :
    Clean ((xs.mapM f).run t) := by
  induction xs generalizing t with
  | nil => exact clean_pure _
  | cons x rest ih =>
      rw [List.mapM_cons]
      refine clean_bind (hclean x (List.mem_cons_self ..) t ht) fun b t₁ hb => ?_
      refine clean_bind (ih (fun a ha => hclean a (List.mem_cons_of_mem _ ha))
        (fun a ha => hkeeps a (List.mem_cons_of_mem _ ha)) ?_) fun _ _ _ => clean_pure _
      exact hkeeps x (List.mem_cons_self ..) t b t₁ ht hb

end Lower

namespace Patch

variable {α β : Type} {d : Draft}

/-- The step does not end in an internal fault on the draft. -/
def CleanOn (step : Patch α) (d : Draft) : Prop := Clean (step.runOn d)

namespace CleanOn

theorem bind {x : Patch α} {f : α → Patch β} (hx : x.CleanOn d)
    (hf : ∀ a d₁, x.runOn d = .ok (.ok a, d₁) → (f a).CleanOn d₁) : (x >>= f).CleanOn d := by
  unfold CleanOn
  rw [runOn_bind]
  refine .bind hx fun out hout => ?_
  obtain ⟨e | a, d₁⟩ := out
  · exact .ok _
  · exact hf a d₁ hout

theorem pure (a : α) : (Pure.pure a : Patch α).CleanOn d := .ok _

theorem lift {x : Checked α} (hx : Clean x) : (liftM x : Patch α).CleanOn d := by
  unfold CleanOn
  rw [runOn_lift]
  exact .bind hx fun _ _ => .ok _

theorem lift_bind {x : Checked α} {f : α → Patch β} (hx : Clean x)
    (hf : ∀ a, x = .ok a → (f a).CleanOn d) : ((liftM x : Patch α) >>= f).CleanOn d := by
  unfold CleanOn
  rw [runOn_lift_bind]
  exact .bind hx hf

theorem get_bind {f : Draft → Patch β} (hf : (f d).CleanOn d) : (get >>= f).CleanOn d := hf

theorem set_bind {d₁ : Draft} {f : PUnit → Patch β} (hf : (f ⟨⟩).CleanOn d₁) :
    (set d₁ >>= f).CleanOn d := hf

theorem blob_bind {f : Blob → Patch β} (hf : (f d.blob).CleanOn d) : (blob >>= f).CleanOn d := hf

theorem modified (g : Draft → Draft) : (modify g : Patch PUnit).CleanOn d := .ok _

theorem modifyBlob {f : Blob → Checked Blob} (hf : Clean (f d.blob)) :
    (Patch.modifyBlob f).CleanOn d := by
  unfold CleanOn
  rw [runOn_modifyBlob]
  exact .bind hf fun _ _ => .ok _

theorem modifyLog {f : SafepointLog → Checked SafepointLog} (hf : Clean (f d.log)) :
    (Patch.modifyLog f).CleanOn d := by
  unfold CleanOn
  rw [runOn_modifyLog]
  exact .bind hf fun _ _ => .ok _

theorem lowering {step : Lower α}
    (hstep : Clean (step.run { references := d.references, handles := d.handles })) :
    (Patch.lowering step).CleanOn d := by
  unfold CleanOn
  rw [runOn_lowering]
  exact .bind hstep fun _ _ => .ok _

end CleanOn

end Patch

-- ── Sizes, instructions and blobs ───────────────────────────────────────────────

theorem Size.add_clean (a b : Nat) : Clean (Size.add a b) :=
  .ite (fun _ => .ok _) fun _ => .error rfl

theorem Size.mul_clean (a b : Nat) : Clean (Size.mul a b) :=
  .ite (fun _ => .ok _) fun _ => .error rfl

theorem Size.alignUp_clean (value alignment : Nat) : Clean (Size.alignUp value alignment) :=
  .bind (.require rfl) fun _ _ => .bind (Size.add_clean ..) fun _ _ => .ok _

theorem Address.advance_clean (base : UInt64) (offset : Nat) : Clean (Address.advance base offset) :=
  .bind (Size.add_clean ..) fun _ _ => .ok _

theorem Address.distance_clean (target next : UInt64) : Clean (Address.distance target next) :=
  .bind (.require rfl) fun _ _ => .ok _

namespace Instruction

theorem branchOperand_clean (i : Instruction) : Clean i.branchOperand :=
  .bind (.require rfl) fun _ _ => .ok _

theorem immediate64_clean (i : Instruction) : Clean i.immediate64 := by
  unfold immediate64
  split
  · exact .ite (fun _ => .ok _) fun _ => .error rfl
  · exact .error rfl

theorem displacement32_clean (i : Instruction) : Clean i.displacement32 := by
  unfold displacement32
  split
  · exact .ite (fun _ => .ok _) fun _ => .error rfl
  · exact .error rfl

end Instruction

namespace Blob

theorem instructionAt_clean (b : Blob) (offset : Nat) : Clean (b.instructionAt offset) := by
  refine .bind (.require rfl) fun _ _ => .bind (Address.advance_clean ..) fun _ _ => ?_
  split
  · exact .ok _
  · exact .error rfl

theorem checkAccess_clean (b : Blob) (offset size : Nat) : Clean (b.checkAccess offset size) :=
  .bind (Size.add_clean ..) fun _ _ => .require rfl

theorem read8_clean (b : Blob) (offset : Nat) : Clean (b.read8 offset) :=
  .bind (.bind (checkAccess_clean ..) fun _ _ => .ok _) fun _ _ => .ok _

theorem write8_clean (b : Blob) (offset : Nat) (value : UInt8) : Clean (b.write8 offset value) :=
  .bind (checkAccess_clean ..) fun _ _ => .ok _

theorem read32_clean (b : Blob) (o : Operand) : Clean (b.read32 o) :=
  .bind (.require rfl) fun _ _ =>
    .bind (.bind (checkAccess_clean ..) fun _ _ => .ok _) fun _ _ => .ok _

theorem write32_clean (b : Blob) (o : Operand) (value : Int) : Clean (b.write32 o value) :=
  .bind (.require rfl) fun _ _ => .bind (checkAccess_clean ..) fun _ _ => .ok _

theorem read64_clean (b : Blob) (o : Operand) : Clean (b.read64 o) :=
  .bind (.require rfl) fun _ _ =>
    .bind (.bind (checkAccess_clean ..) fun _ _ => .ok _) fun _ _ => .ok _

theorem write64_clean (b : Blob) (o : Operand) (value : UInt64) : Clean (b.write64 o value) :=
  .bind (.require rfl) fun _ _ => .bind (checkAccess_clean ..) fun _ _ => .ok _

theorem relocate_clean (b : Blob) (offset : Nat) (kind : RelocationKind)
    (format : OperandFormat) : Clean (b.relocate offset kind format) :=
  .bind (.require rfl) fun _ _ => .ite (fun _ => .ok _) fun _ => .ok _

theorem appendConstant_clean (b : Blob) (bytes : List UInt8) (alignment : Nat) :
    Clean (b.appendConstant bytes alignment) := by
  have hoffset : Clean (b.constantOffset alignment) :=
    .ite (fun _ => .ok _) fun _ => .bind (.require rfl) fun _ _ => Size.alignUp_clean ..
  exact .bind hoffset fun _ _ => .bind (Size.add_clean ..) fun _ _ =>
    .ite (fun _ => .ok _) fun _ => .ok _

theorem changeKind_clean (b : Blob) (offset : Nat) (old new : RelocationKind) :
    Clean (b.changeKind offset old new) := by
  unfold changeKind
  split
  · exact .ok _
  · exact .error rfl

theorem constantAddress_clean (b : Blob) (offset : Nat) : Clean (b.constantAddress offset) :=
  .bind (Size.alignUp_clean ..) fun _ _ => .bind (Size.add_clean ..) fun _ _ =>
    Address.advance_clean ..

theorem size_clean (b : Blob) : Clean b.size :=
  .bind (Size.alignUp_clean ..) fun _ _ => Size.add_clean ..

theorem positionalOperand_clean (r : Relocation) (i : Instruction) :
    Clean (positionalOperand r i) := by
  unfold positionalOperand
  split
  · exact i.branchOperand_clean
  · exact i.displacement32_clean

theorem moveTo_clean (b : Blob) (newBase : UInt64) : Clean (b.moveTo newBase) := by
  have hretarget : ∀ (b : Blob) (r : Relocation), Clean (retarget newBase b r) := by
    intro b r
    exact .ite (fun _ => .bind (instructionAt_clean ..) fun _ _ =>
      .bind (positionalOperand_clean ..) fun _ _ => .bind (read32_clean ..) fun _ _ =>
      .bind (Address.advance_clean ..) fun _ _ => .bind (Address.advance_clean ..) fun _ _ =>
      .bind (Address.distance_clean ..) fun _ _ => write32_clean ..) fun _ => .ok _
  exact .bind (.foldlM hretarget ..) fun _ _ => .ok _

end Blob

namespace Patch.CleanOn

variable {d : Draft}

theorem relocate (offset : Nat) (kind : RelocationKind) (format : OperandFormat) :
    (Patch.relocate offset kind format).CleanOn d := by
  unfold CleanOn
  rw [runOn_relocate]
  exact .bind (Blob.relocate_clean ..) fun _ _ => .ok _

theorem appendConstant (bytes : List UInt8) (alignment : Nat) :
    (Patch.appendConstant bytes alignment).CleanOn d := by
  unfold CleanOn
  rw [runOn_appendConstant]
  exact .bind (Blob.appendConstant_clean ..) fun _ _ => .ok _

theorem setBranchTarget (i : Instruction) (target : UInt64) :
    (Patch.setBranchTarget i target).CleanOn d :=
  .modifyBlob (.bind (Address.advance_clean ..) fun _ _ =>
    .bind i.branchOperand_clean fun _ _ => .bind (Address.distance_clean ..) fun _ _ =>
    Blob.write32_clean ..)

theorem setRelativeOperand (i : Instruction) (operand : Operand) (target : UInt64) :
    (Patch.setRelativeOperand i operand target).CleanOn d :=
  .modifyBlob (.bind (Address.advance_clean ..) fun _ _ =>
    .bind (Address.distance_clean ..) fun _ _ => Blob.write32_clean ..)

end Patch.CleanOn

-- ── Reference maps ──────────────────────────────────────────────────────────────

theorem RefBits.isSet_clean {bits : RefBits} {i : Nat} (hi : i < bits.size) :
    Clean (bits.isSet i) := by
  have hword : i / wordBits < bits.words.length := Nat.div_lt_of_lt_mul (Nat.mul_comm .. ▸ hi)
  exact .bind (.met hword) fun _ _ => .ok _

theorem Register.text_clean (r : Register) : Clean r.text := by
  unfold Register.text
  split
  · exact .ok _
  · exact .error rfl

namespace RefMap

variable {m m' : RefMap} {place : Place} {content : Content}

theorem lookup_insertEntry_of_ne {other : Place} (hne : other ≠ place)
    (entries : List (Place × Content)) :
    (insertEntry place content entries).lookup other = entries.lookup other := by
  have hother : (other == place) = false := beq_false_of_ne hne
  induction entries with
  | nil => simp [insertEntry, List.lookup_cons, hother]
  | cons entry rest ih =>
      unfold insertEntry
      split
      · rw [List.lookup_cons, hother]
      · rw [List.lookup_cons, List.lookup_cons, ih]

/-- Recording a place leaves all others as they are. -/
theorem record_ok (h : m.record place content = .ok m') :
    m'.frameSize = m.frameSize ∧ ∀ other, other ≠ place → m'.get? other = m.get? other := by
  unfold record at h
  split at h
  · obtain ⟨name, -, h⟩ := Checked.bind_ok h
    exact nomatch h
  · rw [← Except.ok.inj h]
    exact ⟨rfl, fun other hne => lookup_insertEntry_of_ne hne m.entries⟩

/-- A place that is not recorded yet is recorded without a fault. -/
theorem record_clean (hfree : m.get? place = none) : Clean (m.record place content) := by
  unfold record
  rw [hfree]
  exact .ok _

theorem registerAt_inj {i j : Nat} (hi : i < Register.generalCount)
    (hj : j < Register.generalCount) (h : registerAt i = registerAt j) : i = j := by
  have hnumber := congrArg (fun r : Register => r.number.toNat) h
  unfold Register.generalCount at hi hj
  simp only [registerAt, UInt8.toNat_ofNat'] at hnumber
  omega

/-- Frame bits within a frame of fewer than 2 to the 32 slots stand for different slots. -/
theorem slotOfBit_inj {frameSize i j : Nat} (hframe : frameSize / stackWord * 2 ≤ Word.limit32)
    (hi : i < frameSize / stackWord) (hj : j < frameSize / stackWord)
    (h : slotOfBit i = slotOfBit j) : i = j := by
  unfold slotOfBit at h
  rw [Nat.mod_eq_of_lt (by omega), Nat.mod_eq_of_lt (by omega)] at h
  omega

theorem checkRegisters_clean (bits : RefBits) : Clean (checkRegisters bits) := by
  refine .forM fun i hi => ?_
  have hsize : i < bits.size := by
    rw [List.mem_range] at hi
    omega
  refine .bind (RefBits.isSet_clean hsize) fun isSet _ => ?_
  exact .ite (fun _ => .bind (Register.text_clean _) fun _ _ => .error rfl) fun _ => .ok _

theorem registerBit_clean (bits : Option RefBits) (i : Nat) : Clean (registerBit bits i) := by
  cases bits with
  | none => exact .ok _
  | some bits => exact .ite (fun hi => RefBits.isSet_clean hi) fun _ => .ok _

/-- The registers left to record are not recorded yet, and neither is any stack slot. -/
structure BeforeRegisters (frameSize : Nat) (left : List Nat) (m : RefMap) : Prop where
  size : m.frameSize = frameSize
  distinct : left.Nodup
  general : ∀ i ∈ left, i < Register.generalCount
  registers : ∀ i ∈ left, m.get? (.register (registerAt i)) = none
  slots : ∀ slot, m.get? (.stack slot) = none

/-- **Recording the registers** is clean, and leaves the frame to be recorded. -/
theorem recordRegisters_clean (bits : Option RefBits) {frameSize : Nat}
    (hm : m.BeforeRegisters frameSize (List.range Register.generalCount)) :
    Clean (recordRegisters bits m) ∧
      ∀ m', recordRegisters bits m = .ok m' → m'.BeforeRegisters frameSize [] := by
  refine Checked.foldlM_clean (BeforeRegisters frameSize) ?_ hm
  intro i rest m hm
  obtain ⟨hfree, hregisters⟩ := List.forall_mem_cons.mp hm.registers
  obtain ⟨hi, hgeneral⟩ := List.forall_mem_cons.mp hm.general
  obtain ⟨hnew, hdistinct⟩ := List.nodup_cons.mp hm.distinct
  refine ⟨.bind (registerBit_clean bits i) fun _ _ => record_clean hfree, fun m' h => ?_⟩
  obtain ⟨isSet, -, h⟩ := Checked.bind_ok h
  obtain ⟨hsize, hothers⟩ := record_ok h
  refine ⟨hsize.trans hm.size, hdistinct, hgeneral, fun j hj => ?_, fun slot => ?_⟩
  · rw [hothers]
    · exact hregisters j hj
    · intro heq
      have hji := registerAt_inj (hgeneral j hj) hi (Place.register.inj heq)
      exact hnew (hji ▸ hj)
  · rw [hothers (.stack slot) nofun]
    exact hm.slots slot

/-- The frame bits left to record are within the bits, and their slots are not recorded yet. -/
structure BeforeFrame (bits : RefBits) (frameSize : Nat) (left : List Nat) (m : RefMap) :
    Prop where
  size : m.frameSize = frameSize
  distinct : left.Nodup
  within : ∀ i ∈ left, i < bits.size
  slots : ∀ i ∈ left, i < frameSize / stackWord → m.get? (.stack (slotOfBit i)) = none

/-- One frame bit is recorded, or has nothing to record. -/
theorem recordFrameBit_clean {bits : RefBits} {frameSize i : Nat} {rest : List Nat}
    (hframe : frameSize / stackWord * 2 ≤ Word.limit32)
    (hm : m.BeforeFrame bits frameSize (i :: rest)) :
    Clean (recordFrameBit bits m i) ∧
      ∀ m', recordFrameBit bits m i = .ok m' → m'.BeforeFrame bits frameSize rest := by
  obtain ⟨hi, hwithin⟩ := List.forall_mem_cons.mp hm.within
  obtain ⟨hfree, hslots⟩ := List.forall_mem_cons.mp hm.slots
  obtain ⟨hnew, hdistinct⟩ := List.nodup_cons.mp hm.distinct
  unfold recordFrameBit
  rw [hm.size]
  constructor
  · exact .bind (RefBits.isSet_clean hi) fun _ _ =>
      .ite (fun hin => record_clean (hfree hin)) fun _ =>
      .ite (fun _ => .error rfl) fun _ => .ok _
  · intro m' h
    obtain ⟨isSet, -, h⟩ := Checked.bind_ok h
    split at h
    · next hin =>
        obtain ⟨hsize, hothers⟩ := record_ok h
        refine ⟨hsize.trans hm.size, hdistinct, hwithin, fun j hj hjn => ?_⟩
        rw [hothers]
        · exact hslots j hj hjn
        · intro heq
          have hji := slotOfBit_inj hframe hjn hin (Place.stack.inj heq)
          exact hnew (hji ▸ hj)
    · split at h
      · exact nomatch h
      · rw [← Checked.pure_ok h]
        exact ⟨hm.size, hdistinct, hwithin, hslots⟩

/-- **The map of a suspension point is built without an internal fault.** -/
theorem ofBits_clean {frameSize : Nat} (hframe : frameSize / stackWord * 2 ≤ Word.limit32)
    (parameterCount : Nat) (registerBits : Option RefBits) (frameBits : RefBits) :
    Clean (ofBits frameSize parameterCount registerBits frameBits) := by
  have hregisters : BeforeRegisters frameSize (List.range Register.generalCount)
      { frameSize, parameterCount } :=
    ⟨rfl, List.nodup_range, fun i hi => List.mem_range.mp hi, fun _ _ => rfl, fun _ => rfl⟩
  obtain ⟨hclean, hrecorded⟩ := recordRegisters_clean registerBits hregisters
  have hcheck : Clean (registerBits.forM checkRegisters) := by
    cases registerBits with
    | none => exact .ok _
    | some bits => exact checkRegisters_clean bits
  refine .bind hcheck fun _ _ => .bind hclean fun m hm => ?_
  have hm := hrecorded m hm
  exact (Checked.foldlM_clean (BeforeFrame frameBits frameSize)
    (fun i rest m => recordFrameBit_clean hframe)
    ⟨hm.size, List.nodup_range, fun i hi => List.mem_range.mp hi,
      fun i _ _ => hm.slots (slotOfBit i)⟩).1

end RefMap

end ManagedCode
