import ManagedCode.Proofs.Application

/-! # Sites applied one after another

    Sites decode code that earlier sites have patched already.  As long as the patches of two sites
    are of the same instruction or have no byte in common, each site finds what it would find in
    the code as it was before all of them, so the run leaves the imprints that can be read off the
    unpatched code.

* **`Patched`** — code that differs only in operands of given stretches; **`Patched.at?_eq`** says
  that it decodes alike.
* **`Footprint.Matches`** — what a footprint foretells of an imprint.
* **`imprints?`** — the imprints of sites, told from the unpatched code.
* **`applySites_imprints`** — a run that goes through leaves these imprints. -/

namespace ManagedCode

-- ── Filled code, byte by byte ───────────────────────────────────────────────────

section Render

variable {base : UInt64} {code : List UInt8} {e : Edit} {edits : List Edit} {p : Nat}

theorem Edit.length_apply (h : e.Fits base code.length) :
    (e.apply base code).length = code.length :=
  Blob.length_overwrite (by rw [h.width]; exact h.inside)

theorem Edit.getElem?_apply (h : e.Fits base code.length) :
    (e.apply base code)[p]? =
      if e.operand.offset ≤ p ∧ p < e.operand.offset + e.operand.size then
        (e.filling.bytes base)[p - e.operand.offset]?
      else code[p]? := by
  unfold Edit.apply
  rw [Blob.getElem?_overwrite (by rw [h.width]; exact h.inside), h.width]

theorem render_append (first second : List Edit) :
    render base code (first ++ second) = render base (render base code first) second :=
  List.foldl_append ..

theorem length_render (h : ∀ e ∈ edits, e.Fits base code.length) :
    (render base code edits).length = code.length := by
  induction edits generalizing code with
  | nil => rfl
  | cons e rest ih =>
      have hlen := Edit.length_apply (h e (List.mem_cons_self ..))
      show (render base (e.apply base code) rest).length = _
      rw [ih fun e' he' => by rw [hlen]; exact h e' (List.mem_cons_of_mem _ he'), hlen]

/-- A byte that no edit covers stays as it was. -/
theorem getElem?_render (h : ∀ e ∈ edits, e.Fits base code.length)
    (hp : ∀ e ∈ edits, ¬(e.operand.offset ≤ p ∧ p < e.operand.offset + e.operand.size)) :
    (render base code edits)[p]? = code[p]? := by
  induction edits generalizing code with
  | nil => rfl
  | cons e rest ih =>
      have he := h e (List.mem_cons_self ..)
      have hlen := Edit.length_apply he
      show (render base (e.apply base code) rest)[p]? = _
      rw [ih (fun e' he' => by rw [hlen]; exact h e' (List.mem_cons_of_mem _ he'))
        fun e' he' => hp e' (List.mem_cons_of_mem _ he'), Edit.getElem?_apply he,
        if_neg (hp e (List.mem_cons_self ..))]

end Render

-- ── Patched code decodes alike ──────────────────────────────────────────────────

/-- Code that differs from `code` only in operands of the given stretches. -/
structure Patched (past : List Stretch) (code cur : List UInt8) : Prop where
  length : cur.length = code.length
  agree : ∀ p, (∀ s ∈ past, ¬s.Covers p) → cur[p]? = code[p]?

namespace Patched

variable {past : List Stretch} {code cur : List UInt8}

theorem refl (past : List Stretch) (code : List UInt8) : Patched past code code :=
  ⟨rfl, fun _ _ => rfl⟩

theorem of_instruction {offset : Nat} {i : Instruction} (h : Instruction.at? code offset = some i) :
    Stretch.ofInstruction code offset = ⟨offset, i.firstOperand, i.next⟩ := by
  simp only [Stretch.ofInstruction, h]

/-- **Patched code decodes alike** at an instruction that past patches hit exactly or not at all. -/
theorem at?_eq (h : Patched past code cur) (hproper : ∀ t ∈ past, t.Proper) {offset : Nat}
    (hsame : ∀ t ∈ past,
      t = .ofInstruction code offset ∨ t.Apart (.ofInstruction code offset)) :
    Instruction.at? cur offset = Instruction.at? code offset := by
  cases hi : Instruction.at? code offset with
  | some i =>
      obtain ⟨-, hoperand, hnext, -⟩ := Instruction.at?_laws.bounds hi
      apply Instruction.at?_laws.congr hi h.length
      intro p hlo hhi
      apply h.agree
      intro t ht hcovers
      have hproper := hproper t ht
      have hsame := hsame t ht
      rw [of_instruction hi] at hsame
      unfold Stretch.Covers at hcovers
      unfold Stretch.Proper at hproper
      rcases hsame with rfl | hapart
      · dsimp only at hcovers
        omega
      · unfold Stretch.Apart at hapart
        dsimp only at hapart
        omega
  | none =>
      -- nothing behind `offset` can have been patched
      have hdrop : cur.drop offset = code.drop offset := by
        apply List.ext_getElem?
        intro p
        rw [List.getElem?_drop, List.getElem?_drop]
        by_cases hp : offset + p < code.length
        · apply h.agree
          intro t ht hcovers
          have hproper := hproper t ht
          have hsame := hsame t ht
          simp only [Stretch.ofInstruction, hi] at hsame
          unfold Stretch.Covers at hcovers
          unfold Stretch.Proper at hproper
          rcases hsame with rfl | hapart
          · dsimp only at hcovers
            omega
          · unfold Stretch.Apart at hapart
            dsimp only at hapart
            omega
        · rw [List.getElem?_eq_none (by rw [h.length]; omega), List.getElem?_eq_none (by omega)]
      unfold Instruction.at? at hi ⊢
      rw [hdrop, hi]

theorem render {base : UInt64} {edits : List Edit} {more : List Stretch}
    (h : Patched past code cur) (hfits : ∀ e ∈ edits, e.Fits base cur.length)
    (hmore : edits.map Edit.operand = more.map Stretch.operand) :
    Patched (past ++ more) code (render base cur edits) := by
  refine ⟨(length_render hfits).trans h.length, fun p hp => ?_⟩
  rw [getElem?_render hfits, h.agree p fun s hs => hp s (List.mem_append_left _ hs)]
  intro e he
  have hmem : e.operand ∈ more.map Stretch.operand := hmore ▸ List.mem_map_of_mem he
  obtain ⟨s, hs, hoperand⟩ := List.mem_map.mp hmem
  rw [← hoperand]
  exact hp s (List.mem_append_right _ hs)

/-- The header bytes of a patching stub are the same whatever else is patched. -/
theorem patchedHeader {offset : Nat} {first second : Int}
    (h : Patched past code cur) (hinside : offset - 1 < code.length) :
    Patched past (patchedHeader offset first second code)
      (patchedHeader offset first second cur) := by
  have hlen := h.length
  have hcode : offset - 1 + [UInt8.ofNat (second - first).toNat].length ≤ code.length := hinside
  have hcur : offset - 1 + [UInt8.ofNat (second - first).toNat].length ≤ cur.length := by
    rw [hlen]
    exact hinside
  have hentry : ∀ c : List UInt8, c.length = code.length → ∀ byte : UInt8,
      offset - 3 + [byte].length ≤ c.length := by
    intro c hc byte
    simp only [List.length_singleton]
    omega
  unfold ManagedCode.patchedHeader
  constructor
  · rw [Blob.length_overwrite (hentry _ ((Blob.length_overwrite hcur).trans hlen) _),
      Blob.length_overwrite (hentry _ (Blob.length_overwrite hcode) _),
      Blob.length_overwrite hcur, Blob.length_overwrite hcode, hlen]
  · intro p hp
    rw [Blob.getElem?_overwrite (hentry _ ((Blob.length_overwrite hcur).trans hlen) _),
      Blob.getElem?_overwrite (hentry _ (Blob.length_overwrite hcode) _),
      Blob.getElem?_overwrite hcur, Blob.getElem?_overwrite hcode, h.agree p hp]

end Patched

-- ── What a footprint foretells ──────────────────────────────────────────────────

/-- What a footprint foretells of an imprint in the given code: the operands that are filled, and
    whether they are filled with a distance that moving has to keep up to date. -/
structure Footprint.Matches (code : List UInt8) (f : Footprint) (imprint : Imprint) : Prop where
  operands : imprint.edits.map Edit.operand = f.stretches.map Stretch.operand
  proper : ∀ s ∈ f.stretches, s.Proper
  free : f.anchored = false →
    (∀ e ∈ imprint.edits, e.filling.isDistance = false) ∧
      ∀ r ∈ imprint.records, r.isPositional = false
  anchored : f.anchored = true → ∃ i target kind format,
    Instruction.at? code i.offset = some i ∧
    f.stretches = [⟨i.offset, i.firstOperand, i.next⟩] ∧
    imprint.edits = [⟨i.firstOperand, .distance target i.next⟩] ∧
    imprint.records = [⟨i.offset, kind, format⟩] ∧
    (⟨i.offset, kind, format⟩ : Relocation).isPositional = true ∧
    Blob.positionalOperand ⟨i.offset, kind, format⟩ i = .ok i.firstOperand

namespace Imprint

variable {code : List UInt8} {offset : Nat} {i : Instruction} {imprint : Imprint}

theorem proper_ofInstruction (hi : Instruction.at? code offset = some i) :
    ∀ s ∈ [Stretch.ofInstruction code offset], s.Proper := by
  intro s hs
  obtain rfl := List.mem_singleton.mp hs
  obtain ⟨-, hoperand, hnext, -⟩ := Instruction.at?_laws.bounds hi
  rw [Patched.of_instruction hi]
  exact ⟨Nat.le_of_lt hoperand, hnext⟩

theorem proper_headerStretches {s : Stretch} (hs : s ∈ Site.headerStretches offset) :
    s.Proper := by
  rcases List.mem_cons.mp hs with rfl | hs
  · exact ⟨Nat.le_refl _, Nat.le_refl _⟩
  · obtain rfl := List.mem_singleton.mp hs
    exact ⟨Nat.le_refl _, Nat.le_refl _⟩

theorem positionalOperand_eq {r : Relocation} {o : Operand}
    (hi : Instruction.at? code offset = some i) (h : Blob.positionalOperand r i = .ok o) :
    o = i.firstOperand := by
  unfold Blob.positionalOperand at h
  split at h
  · exact (Instruction.at?_laws.branchOperand_eq hi h).1
  · exact (Instruction.displacement32_eq h).1

theorem anchor?_matches {target : UInt64} {kind : RelocationKind} {format : OperandFormat}
    (hi : Instruction.at? code offset = some i)
    (hpositional : (⟨i.offset, kind, format⟩ : Relocation).isPositional = true)
    (h : anchor? i target kind format = some imprint) :
    (Footprint.instruction code offset true).Matches code imprint := by
  have hoffset := (Instruction.at?_laws.bounds hi).1
  unfold anchor? at h
  split at h
  · next o ho =>
      obtain rfl := Option.some.inj h
      obtain rfl := positionalOperand_eq hi ho
      refine ⟨?_, proper_ofInstruction hi, nofun, fun _ => ?_⟩
      · simp only [Footprint.instruction, Patched.of_instruction hi, List.map_cons, List.map_nil]
      · refine ⟨i, target, kind, format, ?_, ?_, rfl, rfl, hpositional, ho⟩
        · rw [hoffset]
          exact hi
        · rw [Footprint.instruction, Patched.of_instruction hi, hoffset]
  · exact nomatch h

/-- An imprint that fills one operand with the same bytes everywhere. -/
theorem matches_of_fixed {o : Operand} {filling : Filling} {constants : List UInt8}
    {records : List Relocation} (hi : Instruction.at? code offset = some i)
    (ho : o = i.firstOperand) (hfilling : filling.isDistance = false)
    (hrecords : ∀ r ∈ records, r.isPositional = false) :
    (Footprint.instruction code offset false).Matches code
      { edits := [⟨o, filling⟩], constants, records } := by
  refine ⟨?_, proper_ofInstruction hi, fun _ => ⟨?_, hrecords⟩, nofun⟩
  · simp only [Footprint.instruction, Patched.of_instruction hi, List.map_cons, List.map_nil, ho]
  · intro e he
    obtain rfl := List.mem_singleton.mp he
    exact hfilling

theorem word?_matches {bits : UInt64} {records : List Relocation}
    (hi : Instruction.at? code offset = some i) (hrecords : ∀ r ∈ records, r.isPositional = false)
    (h : word? i bits records = some imprint) :
    (Footprint.instruction code offset false).Matches code imprint := by
  unfold word? at h
  split at h
  · next o ho =>
      obtain rfl := Option.some.inj h
      exact matches_of_fixed hi (Instruction.at?_laws.immediate64_eq hi ho).1 rfl hrecords
  · exact nomatch h

theorem constant?_matches {b : Blob} {bits : UInt64} {alignment : Nat}
    (hi : Instruction.at? code offset = some i)
    (h : constant? b i bits alignment = some imprint) :
    (Footprint.instruction code offset false).Matches code imprint := by
  unfold constant? at h
  split at h
  · next o start place ho _ _ =>
      obtain rfl := Option.some.inj h
      refine matches_of_fixed hi (Instruction.displacement32_eq ho).1 rfl fun r hr => ?_
      obtain rfl := List.mem_singleton.mp hr
      rfl
  · exact nomatch h

theorem recording_matches {records : List Relocation}
    (hrecords : ∀ r ∈ records, r.isPositional = false) :
    Footprint.Matches code {} (recording records) :=
  ⟨rfl, fun _ hs => (List.not_mem_nil hs).elim,
    fun _ => ⟨fun _ he => (List.not_mem_nil he).elim, hrecords⟩, nofun⟩

theorem header_matches {first second : Int} :
    Footprint.Matches code { stretches := Site.headerStretches offset }
      { edits := headerEdits offset first second } := by
  refine ⟨rfl, fun s hs => proper_headerStretches hs, fun _ => ⟨fun e he => ?_, ?_⟩, nofun⟩
  · rcases List.mem_cons.mp he with rfl | he
    · rfl
    · obtain rfl := List.mem_singleton.mp he
      rfl
  · exact fun r hr => (List.not_mem_nil hr).elim

end Imprint

namespace Site

variable {ctx : SiteContext} {b : Blob} {pending : PendingCall} {handles : HandleTable}
  {imprint : Imprint}

theorem isCall_destination {target : CallTarget} {address : UInt64} {kind : RelocationKind}
    (h : target.destination? ctx pending = some (address, kind)) : kind.isCall = true := by
  unfold CallTarget.destination? at h
  split at h
  · obtain ⟨_, -, h⟩ := Option.map_eq_some_iff.mp h
    obtain ⟨-, rfl⟩ := Prod.mk.inj h
    rfl
  · split at h
    · obtain ⟨-, rfl⟩ := Prod.mk.inj (Option.some.inj h)
      rfl
    · exact nomatch h
  · cases pending with
    | throughCache cache | static | special =>
        obtain ⟨-, rfl⟩ := Prod.mk.inj (Option.some.inj h)
        rfl
    | none | inlined => exact nomatch h

theorem callImprint?_matches {offset : Nat} {target : CallTarget}
    (h : callImprint? ctx b pending offset target = some imprint) :
    (callFootprint b.code pending offset target).Matches b.code imprint := by
  unfold callImprint? at h
  split at h
  · obtain rfl := Option.some.inj h
    exact Imprint.recording_matches fun r hr => (List.not_mem_nil hr).elim
  · next hinlined =>
      obtain ⟨⟨address, kind⟩, hdestination, hbind⟩ := Option.bind_eq_some_iff.mp h
      obtain ⟨i, hi, hbound⟩ := Option.bind_eq_some_iff.mp hbind
      have hcall := isCall_destination hdestination
      have hanchor : Imprint.anchor? i address kind .call32 = some imprint →
          (Footprint.instruction b.code offset true).Matches b.code imprint :=
        Imprint.anchor?_matches hi hcall
      cases target with
      | runtimeStub id =>
          unfold callFootprint
          rw [hi, Option.all_some]
          cases hshape : i.shape with
          | movLiteral =>
              rw [hshape] at hbound
              refine Imprint.word?_matches hi (fun r hr => ?_) hbound
              obtain rfl := List.mem_singleton.mp hr
              rfl
          | call | jump | callRegister | other =>
              rw [hshape] at hbound
              exact hanchor hbound
      | installedCode id => exact hanchor hbound
      | method ref =>
          cases pending with
          | throughCache cache | static | special => exact hanchor hbound
          | none => exact nomatch hdestination
          | inlined => exact (hinlined ref rfl rfl).elim

theorem patchImprint?_matches {offset : Nat} {c : Constant} {alignment : Nat} {inlined : Bool}
    (h : patchImprint? b handles offset c alignment inlined = some imprint) :
    (Footprint.instruction b.code offset false).Matches b.code imprint := by
  obtain ⟨i, hi, h⟩ := Option.bind_eq_some_iff.mp h
  have hreference : ∀ r ∈ [(⟨offset, .reference, .immediate⟩ : Relocation)],
      r.isPositional = false := by
    intro r hr
    obtain rfl := List.mem_singleton.mp hr
    rfl
  split at h
  · split at h
    · exact Imprint.word?_matches hi hreference h
    · exact nomatch h
  · exact Imprint.word?_matches hi hreference h
  · split at h
    · exact Imprint.word?_matches hi (fun r hr => (List.not_mem_nil hr).elim) h
    · split at h
      · exact Imprint.constant?_matches hi h
      · exact nomatch h

theorem cacheImprint?_matches {offset : Nat} (h : cacheImprint? ctx b offset = some imprint) :
    (Footprint.instruction b.code offset false).Matches b.code imprint := by
  obtain ⟨i, hi, h⟩ := Option.bind_eq_some_iff.mp h
  split at h
  · exact Imprint.word?_matches hi (fun r hr => (List.not_mem_nil hr).elim) h
  · exact nomatch h

theorem pollImprint?_matches {offset : Nat} {kind : RelocationKind} (hpoll : kind.isPoll = true)
    (h : pollImprint? ctx b offset kind = some imprint) :
    (Footprint.instruction b.code offset true).Matches b.code imprint := by
  obtain ⟨i, hi, h⟩ := Option.bind_eq_some_iff.mp h
  have hpositional : (⟨i.offset, kind, .displacement32⟩ : Relocation).isPositional = true := hpoll
  split at h
  · exact Imprint.anchor?_matches hi hpositional h
  · exact nomatch h

theorem fieldImprint?_matches {offset : Nat} {first second : Int}
    (h : fieldImprint? b offset first second = some imprint) :
    Footprint.Matches b.code { stretches := headerStretches offset ++
      [.ofInstruction (patchedHeader offset first second b.code) first.toNat] } imprint := by
  obtain ⟨i, hi, h⟩ := Option.bind_eq_some_iff.mp h
  split at h
  · next o ho =>
      obtain rfl := Option.some.inj h
      refine ⟨?_, fun s hs => ?_, fun _ => ⟨fun e he => ?_, ?_⟩, nofun⟩
      · rw [(Instruction.displacement32_eq ho).1, Patched.of_instruction hi]
        rfl
      · rcases List.mem_append.mp hs with hs | hs
        · exact Imprint.proper_headerStretches hs
        · exact Imprint.proper_ofInstruction hi s hs
      · rcases List.mem_append.mp he with he | he
        · have hheader : Footprint.Matches b.code { stretches := headerStretches offset }
              { edits := Imprint.headerEdits offset first second } := Imprint.header_matches
          exact (hheader.free rfl).1 e he
        · obtain rfl := List.mem_singleton.mp he
          rfl
      · exact fun r hr => (List.not_mem_nil hr).elim
  · exact nomatch h

theorem markImprint?_matches {offset : Nat} {id : Int} {references : List Int}
    (h : markImprint? ctx b offset id references = some imprint) :
    (markFootprint b.code offset id references).Matches b.code imprint := by
  unfold markImprint? at h
  unfold markFootprint
  have hsingle : ∀ r : Relocation, r.isPositional = false → some (Imprint.recording [r]) =
      some imprint → Footprint.Matches b.code {} imprint := by
    intro r hr himprint
    obtain rfl := Option.some.inj himprint
    refine Imprint.recording_matches fun r' hr' => ?_
    obtain rfl := List.mem_singleton.mp hr'
    exact hr
  have hnothing : some {} = some imprint → Footprint.Matches b.code {} imprint := by
    intro himprint
    obtain rfl := Option.some.inj himprint
    exact Imprint.recording_matches fun r hr => (List.not_mem_nil hr).elim
  cases hmark : Mark.ofNumber? id with
  | none =>
      rw [hmark] at h
      exact hnothing h
  | some mark =>
      rw [hmark] at h
      cases mark with
      | verifiedEntry | unverifiedEntry | osrEntry | unwindEntry | exceptionHandlerEntry
      | deoptHandlerEntry | invokeInvalid | invokeStatic | invokeSpecial
      | inlineInvokeVirtual | implicitNull => exact hnothing h
      | invokeVirtual | invokeInterface => exact cacheImprint?_matches h
      | pollNear | pollReturnNear => exact pollImprint?_matches rfl h
      | pollFar | pollReturnFar | dummyReference => exact hsingle _ rfl h
      | staticCallStub =>
          rcases references with _ | ⟨call, _ | ⟨second, rest⟩⟩
          · exact hnothing h
          · obtain rfl := Option.some.inj h
            refine Imprint.recording_matches fun r hr => ?_
            rcases List.mem_cons.mp hr with rfl | hr
            · rfl
            · obtain rfl := List.mem_singleton.mp hr
              rfl
          · exact hnothing h
      | typePatching =>
          rcases references with _ | ⟨first, _ | ⟨second, _ | ⟨third, rest⟩⟩⟩
          · exact nomatch h
          · exact nomatch h
          · obtain rfl := Option.some.inj h
            exact Imprint.header_matches
          · exact nomatch h
      | accessFieldPatching =>
          rcases references with _ | ⟨first, _ | ⟨second, _ | ⟨third, rest⟩⟩⟩
          · exact nomatch h
          · exact nomatch h
          · exact fieldImprint?_matches h
          · exact nomatch h

/-- **A footprint foretells the imprint**, whatever the site. -/
theorem imprint?_matches {site : Site} (h : site.imprint? ctx b pending handles = some imprint) :
    (site.footprint b.code pending).Matches b.code imprint := by
  obtain ⟨offset, kind⟩ := site
  cases kind with
  | call target info => exact callImprint?_matches h
  | safepoint info =>
      obtain rfl := Option.some.inj h
      exact Imprint.recording_matches fun r hr => (List.not_mem_nil hr).elim
  | dataPatch c alignment inlined => exact patchImprint?_matches h
  | mark id references => exact markImprint?_matches h

/-- **The imprint is the same in patched code**, as long as past patches hit the instructions of
    the site exactly or not at all. -/
theorem imprint?_patched {site : Site} {past : List Stretch} {cur : List UInt8}
    (hcur : Patched past b.code cur) (hproper : ∀ t ∈ past, t.Proper)
    (hsame : ∀ t ∈ past, ∀ s ∈ (site.footprint b.code pending).stretches, t = s ∨ t.Apart s)
    (hinside : site.offset.toNat < b.code.length) :
    site.imprint? ctx { b with code := cur } pending handles =
      site.imprint? ctx b pending handles := by
  obtain ⟨offset, kind⟩ := site
  have hat : ∀ place, .ofInstruction b.code place ∈
      (footprint b.code pending ⟨offset, kind⟩).stretches →
      Instruction.at? cur place = Instruction.at? b.code place :=
    fun place hplace => hcur.at?_eq hproper fun t ht => hsame t ht _ hplace
  cases kind with
  | call target info =>
      show callImprint? ctx { b with code := cur } pending offset.toNat target =
        callImprint? ctx b pending offset.toNat target
      unfold callImprint?
      cases target with
      | runtimeStub id | installedCode id =>
          rw [hat offset.toNat (List.mem_singleton.mpr rfl)]
      | method ref =>
          cases pending with
          | throughCache cache | static | special =>
              rw [hat offset.toNat (List.mem_singleton.mpr rfl)]
          | none | inlined => rfl
  | safepoint info => rfl
  | dataPatch c alignment inlined =>
      show patchImprint? { b with code := cur } handles offset.toNat c alignment inlined =
        patchImprint? b handles offset.toNat c alignment inlined
      unfold patchImprint?
      rw [hat offset.toNat (List.mem_singleton.mpr rfl)]
      rfl
  | mark id references =>
      show markImprint? ctx { b with code := cur } offset.toNat id references =
        markImprint? ctx b offset.toNat id references
      simp only [footprint, markFootprint] at hat hsame
      unfold markImprint?
      cases hmark : Mark.ofNumber? id with
      | none => rfl
      | some mark =>
          rw [hmark] at hat hsame
          cases mark with
          | verifiedEntry | unverifiedEntry | osrEntry | unwindEntry | exceptionHandlerEntry
          | deoptHandlerEntry | invokeInvalid | invokeStatic | invokeSpecial
          | inlineInvokeVirtual | implicitNull | pollFar | pollReturnFar | dummyReference => rfl
          | staticCallStub | typePatching =>
              rcases references with _ | ⟨first, _ | ⟨second, _ | ⟨third, rest⟩⟩⟩ <;> rfl
          | invokeVirtual | invokeInterface =>
              show cacheImprint? ctx _ _ = cacheImprint? ctx _ _
              unfold cacheImprint?
              rw [hat offset.toNat (List.mem_singleton.mpr rfl)]
          | pollNear | pollReturnNear =>
              show pollImprint? ctx _ _ _ = pollImprint? ctx _ _ _
              unfold pollImprint?
              rw [hat offset.toNat (List.mem_singleton.mpr rfl)]
          | accessFieldPatching =>
              rcases references with _ | ⟨first, _ | ⟨second, _ | ⟨third, rest⟩⟩⟩
              · rfl
              · rfl
              · show fieldImprint? _ _ _ _ = fieldImprint? _ _ _ _
                unfold fieldImprint?
                have hheader : Patched past (patchedHeader offset.toNat first second b.code)
                    (patchedHeader offset.toNat first second cur) :=
                  hcur.patchedHeader (by dsimp only at hinside; omega)
                rw [hheader.at?_eq hproper fun t ht =>
                  hsame t ht _ (List.mem_append_right _ (List.mem_singleton.mpr rfl))]
              · rfl

end Site

-- ── Runs ────────────────────────────────────────────────────────────────────────

/-- The imprints of a list of sites as one. -/
def Imprint.join (imprints : List Imprint) : Imprint where
  edits := imprints.flatMap Imprint.edits
  constants := imprints.flatMap Imprint.constants
  records := imprints.flatMap Imprint.records

/-- The imprints of sites applied in order, told from unpatched code: of what earlier sites leave,
    a site sees the constants, the announced call, the recorded references and the handles. -/
def imprints? (ctx : SiteContext) :
    Blob → PendingCall → ReferenceRecorder × HandleTable → List Site → Option (List Imprint)
  | _, _, _, [] => some []
  | b, pending, records, site :: rest => do
      let imprint ← site.imprint? ctx b pending records.2
      let (_, t) ← ((site.lowered ctx).run
        { references := records.1, handles := records.2 }).toOption
      let later ← imprints? ctx { imprint.apply b with code := b.code } (pending.after site)
        t.records rest
      return imprint :: later

theorem imprints?_cons {ctx : SiteContext} {b : Blob} {pending : PendingCall}
    {records : ReferenceRecorder × HandleTable} {site : Site} {rest : List Site}
    {imprints : List Imprint} :
    imprints? ctx b pending records (site :: rest) = some imprints ↔
      ∃ imprint scopes t later, site.imprint? ctx b pending records.2 = some imprint ∧
        (site.lowered ctx).run { references := records.1, handles := records.2 } =
          .ok (scopes, t) ∧
        imprints? ctx { imprint.apply b with code := b.code } (pending.after site) t.records rest =
          some later ∧
        imprints = imprint :: later := by
  constructor
  · intro h
    obtain ⟨imprint, himprint, h⟩ := Option.bind_eq_some_iff.mp h
    obtain ⟨⟨scopes, t⟩, hlowered, h⟩ := Option.bind_eq_some_iff.mp h
    obtain ⟨later, hlater, h⟩ := Option.bind_eq_some_iff.mp h
    refine ⟨imprint, scopes, t, later, himprint, ?_, hlater, (Option.some.inj h).symm⟩
    cases hrun : (site.lowered ctx).run { references := records.1, handles := records.2 } with
    | error e =>
        rw [hrun] at hlowered
        exact nomatch hlowered
    | ok out =>
        rw [hrun] at hlowered
        exact congrArg Except.ok (Option.some.inj hlowered)
  · rintro ⟨imprint, scopes, t, later, himprint, hlowered, hlater, rfl⟩
    refine Option.bind_eq_some_iff.mpr ⟨imprint, himprint, ?_⟩
    refine Option.bind_eq_some_iff.mpr ⟨(scopes, t), ?_, ?_⟩
    · rw [hlowered]
      rfl
    · exact Option.bind_eq_some_iff.mpr ⟨later, hlater, rfl⟩

theorem Imprint.apply_join_cons (imprint : Imprint) (rest : List Imprint) (b : Blob) :
    (join (imprint :: rest)).apply b = (join rest).apply (imprint.apply b) := by
  simp only [join, apply, List.flatMap_cons, render_append, List.append_assoc]

/-- The imprints of later sites are told from unpatched code with the constants and records of
    the earlier ones. -/
theorem imprints?_append {ctx : SiteContext} {b : Blob} {pending : PendingCall}
    {records : ReferenceRecorder × HandleTable} {first second : List Site} {imprints : List Imprint}
    (h : imprints? ctx b pending records (first ++ second) = some imprints) :
    ∃ earlier later records', imprints = earlier ++ later ∧
      imprints? ctx b pending records first = some earlier ∧
      imprints? ctx { (Imprint.join earlier).apply b with code := b.code }
        (first.foldl PendingCall.after pending) records' second = some later := by
  induction first generalizing b pending records imprints with
  | nil =>
      refine ⟨[], imprints, records, rfl, rfl, ?_⟩
      rw [← h]
      simp only [Imprint.join, Imprint.apply, List.flatMap_nil, List.append_nil]
      rfl
  | cons site rest ih =>
      obtain ⟨imprint, scopes, t, after, himprint, hlowered, hafter, rfl⟩ := imprints?_cons.mp h
      obtain ⟨earlier, later, records', rfl, hearlier, hlater⟩ := ih hafter
      refine ⟨imprint :: earlier, later, records', rfl,
        imprints?_cons.mpr ⟨imprint, scopes, t, earlier, himprint, hlowered, hearlier, rfl⟩, ?_⟩
      rw [Imprint.apply_join_cons]
      exact hlater

/-- The footprints of sites with the imprints that they foretell. -/
theorem imprints?_matches {ctx : SiteContext} {b : Blob} {pending : PendingCall}
    {records : ReferenceRecorder × HandleTable} {sites : List Site} {imprints : List Imprint}
    (h : imprints? ctx b pending records sites = some imprints) :
    ∃ marked : List (Footprint × Imprint), marked.map Prod.fst = footprints b.code pending sites ∧
      marked.map Prod.snd = imprints ∧ ∀ m ∈ marked, m.1.Matches b.code m.2 := by
  induction sites generalizing b pending records imprints with
  | nil =>
      obtain rfl := Option.some.inj h
      exact ⟨[], rfl, rfl, fun m hm => (List.not_mem_nil hm).elim⟩
  | cons site rest ih =>
      obtain ⟨imprint, _, t, later, himprint, -, hlater, rfl⟩ := imprints?_cons.mp h
      obtain ⟨marked, hfirst, hsecond, hmarked⟩ := ih hlater
      refine ⟨(site.footprint b.code pending, imprint) :: marked, ?_, ?_, ?_⟩
      · rw [List.map_cons, hfirst]
        rfl
      · rw [List.map_cons, hsecond]
      · intro m hm
        rcases List.mem_cons.mp hm with rfl | hm
        · exact Site.imprint?_matches himprint
        · exact hmarked m hm

/-- The imprints do not depend on where the code stands. -/
theorem imprints?_base (ctx : SiteContext) (base : UInt64) (b : Blob) (pending : PendingCall)
    (records : ReferenceRecorder × HandleTable) (sites : List Site) :
    imprints? ctx { b with base := base } pending records sites =
      imprints? ctx b pending records sites := by
  induction sites generalizing b pending records with
  | nil => rfl
  | cons site rest ih =>
      have hsite : site.imprint? ctx { b with base := base } pending records.2 =
          site.imprint? ctx b pending records.2 := rfl
      unfold imprints?
      rw [hsite]
      congr 1
      funext imprint
      congr 1
      funext out
      exact congrArg (· >>= _) (ih { imprint.apply b with code := b.code } _ _)

theorem Imprint.fits_join_cons {imprint : Imprint} {rest : List Imprint} {b : Blob}
    (h : imprint.Fits b) (hrest : (join rest).Fits (imprint.apply b)) :
    (join (imprint :: rest)).Fits b := by
  intro e he
  rw [join, List.flatMap_cons] at he
  rcases List.mem_append.mp he with he | he
  · exact h e he
  · have hlen : (imprint.apply b).code.length = b.code.length := length_render h
    have hfits := hrest e he
    rw [hlen] at hfits
    exact hfits

/-- **A run leaves the imprints told from the unpatched code.** By induction on the sites; `past`
    holds the stretches patched so far, which the remaining sites hit exactly or not at all. -/
theorem applySites_imprints {ctx : SiteContext} {code : List UInt8} {sites : List Site}
    {past : List Stretch} {d d' : Draft} (hcur : Patched past code d.blob.code)
    (hproper : ∀ t ∈ past, t.Proper)
    (hpast : ∀ t ∈ past, ∀ f ∈ footprints code d.pending sites, ∀ s ∈ f.stretches,
      t = s ∨ t.Apart s)
    (hsites : (footprints code d.pending sites).Pairwise Footprint.SameOrApart)
    (h : (applySites ctx sites).runOn d = .ok (.ok (), d')) :
    ∃ imprints, imprints? ctx { d.blob with code := code } d.pending d.records sites =
        some imprints ∧
      (Imprint.join imprints).Fits d.blob ∧ d'.blob = (Imprint.join imprints).apply d.blob := by
  induction sites generalizing past d with
  | nil =>
      obtain ⟨-, rfl⟩ := Prod.mk.inj (Except.ok.inj h)
      exact ⟨[], rfl, (Imprint.left_nil d).1, congrArg Draft.blob (Imprint.left_nil d).2⟩
  | cons site rest ih =>
      obtain ⟨_, d₁, hsite, h⟩ := Patch.bind_ok h
      obtain ⟨-, hinside, -⟩ := applySite_done hsite
      obtain ⟨imprint, himprint, hfits, hblob, hpending⟩ := applySite_imprint hsite
      obtain ⟨scopes, t, hlowered, hrecords, -⟩ := applySite_records hsite
      rw [hcur.length] at hinside
      have hsame : site.imprint? ctx d.blob d.pending d.handles =
          site.imprint? ctx { d.blob with code := code } d.pending d.handles :=
        Site.imprint?_patched (b := { d.blob with code := code }) hcur hproper
          (fun t ht s hs => hpast t ht _ (List.mem_cons_self ..) s hs) hinside
      rw [hsame] at himprint
      have hmatches := Site.imprint?_matches himprint
      rw [footprints, List.pairwise_cons] at hsites
      have hcur₁ : Patched (past ++ (site.footprint code d.pending).stretches) code
          d₁.blob.code := by
        rw [hblob]
        exact hcur.render hfits hmatches.operands
      have hproper₁ : ∀ t ∈ past ++ (site.footprint code d.pending).stretches, t.Proper := by
        intro t ht
        rcases List.mem_append.mp ht with ht | ht
        · exact hproper t ht
        · exact hmatches.proper t ht
      obtain ⟨imprints, himprints, hrest, hblob'⟩ := ih hcur₁ hproper₁
        (by
          intro t ht f hf s hs
          rw [hpending] at hf
          rcases List.mem_append.mp ht with ht | ht
          · exact hpast t ht f (List.mem_cons_of_mem _ hf) s hs
          · exact hsites.1 f hf t ht s hs)
        (by rw [hpending]; exact hsites.2) h
      refine ⟨imprint :: imprints, ?_, ?_, ?_⟩
      · rw [hblob, hpending, hrecords] at himprints
        exact imprints?_cons.mpr ⟨imprint, scopes, t, imprints, himprint, hlowered, himprints, rfl⟩
      · rw [hblob] at hrest
        exact Imprint.fits_join_cons hfits hrest
      · rw [hblob', hblob, Imprint.apply_join_cons]

end ManagedCode
