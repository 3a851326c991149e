import ManagedCode.Proofs.Installing
import ManagedCode.Proofs.Moving

/-! # Targets of installed code

    What installed code reaches once it stands at its place: calls and jumps their destinations,
    loads their constants, polls the polling page.  The code is decoded as it stands, and addresses
    are taken modulo the range of words.

* **`Blob.BranchesTo`**, **`Blob.Addresses`**, **`Blob.Holds`** — what an instruction reaches.
* **`Site.Resolved`** — what the instruction of a site has to reach.
* **`Carries`** — a blob in which the imprint of a site is still in place.
* **`installed_resolves`** — every site of an installed unit is resolved. -/

namespace ManagedCode

-- ── What an instruction reaches ─────────────────────────────────────────────────

namespace Blob

/-- The call or jump at `offset` goes to `target`. -/
def BranchesTo (b : Blob) (offset : Nat) (target : UInt64) : Prop :=
  ∃ i o, Instruction.at? b.code offset = some i ∧ i.branchOperand = .ok o ∧
    Address.displace (b.base + UInt64.ofNat i.next) (o.value b.code) = target

/-- The instruction at `offset` addresses `target`, relative to its end. -/
def Addresses (b : Blob) (offset : Nat) (target : UInt64) : Prop :=
  ∃ i o, Instruction.at? b.code offset = some i ∧ i.ipRelative ∧ i.displacement32 = .ok o ∧
    Address.displace (b.base + UInt64.ofNat i.next) (o.value b.code) = target

/-- The instruction at `offset` has `word` as its immediate. -/
def Holds (b : Blob) (offset : Nat) (word : UInt64) : Prop :=
  ∃ i o, Instruction.at? b.code offset = some i ∧ i.immediate64 = .ok o ∧
    UInt64.ofNat (Word.ofBytes ((b.code.drop o.offset).take 8)) = word

/-- The instruction at `offset` loads an immediate into a register. -/
def IsLoad (b : Blob) (offset : Nat) : Prop :=
  ∃ i, Instruction.at? b.code offset = some i ∧ i.shape = .movLiteral

/-- The constants section has `word` at `place`, and the instruction at `offset` addresses it. -/
def LoadsConstant (b : Blob) (offset : Nat) (word : UInt64) : Prop :=
  ∃ start place, b.constantsStart = .ok start ∧
    b.Addresses offset (b.base + UInt64.ofNat (start + place)) ∧
    (b.constants.drop place).take 8 = Word.toBytes 8 word.toNat ∧
    ⟨offset, .sectionWord .constants place, .displacement32⟩ ∈ b.relocations

end Blob

namespace Site

/-- A call through a load has the address as immediate, any other goes to it. -/
def StubReached (b : Blob) (offset : Nat) (address : UInt64) : Prop :=
  (b.IsLoad offset ∧ b.Holds offset address) ∨ (¬b.IsLoad offset ∧ b.BranchesTo offset address)

/-- The instruction of a site reaches what the site says, given the announced call. -/
def Resolved (ctx : SiteContext) (pending : PendingCall) (b : Blob) (site : Site) : Prop :=
  let offset := site.offset.toNat
  match site.kind with
  | .call (.runtimeStub id) _ =>
      ∃ address, stubAddress? ctx.stubs id = some address ∧ StubReached b offset address
  | .call (.installedCode id) _ =>
      ∃ entry, ctx.codes.verifiedEntry? id = .ok (some entry) ∧ b.BranchesTo offset entry
  | .call (.method _) _ =>
      match pending with
      | .throughCache cache =>
          b.BranchesTo offset ctx.world.resolveVirtualCall ∧
            ⟨offset, .virtualCall cache, .call32⟩ ∈ b.relocations ∧
            b.IsLoad cache ∧ b.Holds cache ctx.world.emptyCacheWord
      | .static => b.BranchesTo offset ctx.world.resolveStaticCall
      | .special => b.BranchesTo offset ctx.world.resolveSpecialCall
      | .inlined => True
      | .none => False
  | .dataPatch c _ inlined =>
      c.kind ≠ .object →
        if inlined then b.Holds offset (Word.ofInt c.bits)
        else b.LoadsConstant offset (Word.ofInt c.bits)
  | .mark id _ =>
      match Mark.ofNumber? id with
      | some .pollNear => b.Addresses offset ctx.pollTarget
      | some .pollReturnNear => b.Addresses offset ctx.pollTarget
      | some .invokeVirtual => b.IsLoad offset ∧ b.Holds offset ctx.world.emptyCacheWord
      | some .invokeInterface => b.IsLoad offset ∧ b.Holds offset ctx.world.emptyCacheWord
      | _ => True
  | .safepoint _ => True

end Site

-- ── A filled operand ────────────────────────────────────────────────────────────

section Filled

variable {code cur : List UInt8} {offset : Nat} {i : Instruction} {e : Edit} {base : UInt64}

/-- An instruction whose operand is filled decodes as before, and has the filling in its operand. -/
theorem at?_filled (hi : Instruction.at? code offset = some i)
    (ho : e.operand = i.firstOperand) (hfits : e.Fits base code.length)
    (hlen : cur.length = code.length)
    (hcur : ∀ p, offset ≤ p → p < i.next → cur[p]? = (e.apply base code)[p]?) :
    Instruction.at? cur offset = some i ∧
      (cur.drop e.operand.offset).take e.operand.size = e.filling.bytes base := by
  obtain ⟨-, hstart, hnext, hend⟩ := Instruction.at?_laws.bounds hi
  constructor
  · apply Instruction.at?_laws.congr hi hlen
    intro p hlo hhi
    rw [hcur p hlo (by omega), Edit.getElem?_apply hfits, if_neg (by rw [ho]; omega)]
  · have hroom : e.operand.offset + (e.filling.bytes base).length ≤ code.length := by
      rw [hfits.width]
      exact hfits.inside
    have hslice := Blob.slice_overwrite hroom
    rw [hfits.width] at hslice
    rw [← hslice]
    apply Blob.slice_congr
    intro p hlo hhi
    rw [ho] at hlo hhi
    exact hcur p (by omega) (by omega)

theorem value_of_bytes {o : Operand} {n : Int} (hsize : o.size = 4) (hn : n = Word.signed32 n)
    (h : (cur.drop o.offset).take o.size = Word.toBytes 4 (n % Word.limit32).toNat) :
    o.value cur = n := by
  rw [hsize] at h
  unfold Operand.value
  rw [h, Word.signed32_ofBytes_toBytes, ← hn]

/-- A distance filled for the place where code stands leads to its target from there. -/
theorem displace_distance {o : Operand} {target : UInt64} {next : Nat} (hsize : o.size = 4)
    (hfits : (Filling.distance target next).Fits base)
    (h : (cur.drop o.offset).take o.size = (Filling.distance target next).bytes base) :
    Address.displace (base + UInt64.ofNat next) (o.value cur) = target := by
  rw [value_of_bytes hsize hfits h, Filling.distanceAt, Address.displace_signed64]

/-- A distance within a blob leads to its place wherever the blob stands. -/
theorem displace_within {o : Operand} {place next : Nat} (hsize : o.size = 4)
    (hfits : (Filling.within place next).Fits base)
    (h : (cur.drop o.offset).take o.size = (Filling.within place next).bytes base) :
    Address.displace (base + UInt64.ofNat next) (o.value cur) = base + UInt64.ofNat place := by
  rw [value_of_bytes hsize hfits h, Filling.distanceWithin, Address.displace, Word.ofInt_signed64]
  grind

theorem word_of_bytes {o : Operand} {bits : UInt64} (hsize : o.size = 8)
    (h : (cur.drop o.offset).take o.size = Word.toBytes 8 bits.toNat) :
    UInt64.ofNat (Word.ofBytes ((cur.drop o.offset).take 8)) = bits := by
  have hlt : bits.toNat < 256 ^ 8 := bits.toNat_lt
  rw [hsize] at h
  rw [h, Word.ofBytes_toBytes, Nat.mod_eq_of_lt hlt, UInt64.ofNat_toNat]

end Filled

-- ── A blob that carries an imprint ──────────────────────────────────────────────

/-- A blob in which the imprint that a site left in `before` is still in place: what the site has
    patched is untouched since, its records are there, and its constants are where they were put. -/
structure Carries (before b : Blob) (f : Footprint) (imprint : Imprint) : Prop where
  layout : b.layout = before.layout
  length : b.code.length = before.code.length
  fits : ∀ e ∈ imprint.edits, e.Fits b.base before.code.length
  bytes : ∀ s ∈ f.stretches, ∀ p, s.start ≤ p → p < s.stop →
    b.code[p]? = (render b.base before.code imprint.edits)[p]?
  records : ∀ r ∈ imprint.records, r ∈ b.relocations
  constants : ∃ rest, b.constants = before.constants ++ imprint.constants ++ rest

/-- A constant is put behind those that are there. -/
theorem Blob.le_constantOffset {b : Blob} {alignment offset : Nat}
    (h : b.constantOffset alignment = .ok offset) : b.constants.length ≤ offset := by
  unfold Blob.constantOffset at h
  split at h
  · obtain rfl := Except.ok.inj h
    exact Nat.le_refl _
  · next hpos =>
      obtain ⟨_, -, h⟩ := Checked.bind_ok h
      obtain ⟨_, -, h⟩ := Checked.bind_ok h
      obtain ⟨sum, hsum, h⟩ := Checked.bind_ok h
      obtain ⟨rfl, -⟩ := Size.add_ok hsum
      obtain rfl := Checked.pure_ok h
      have hmod := Nat.div_add_mod (b.constants.length + alignment - 1) alignment
      have hlt := Nat.mod_lt (b.constants.length + alignment - 1) (Nat.pos_of_ne_zero hpos)
      rw [Nat.mul_comm] at hmod
      omega

namespace Carries

variable {before b : Blob} {offset : Nat} {i : Instruction} {imprint : Imprint} {anchored : Bool}

/-- The one operand that a site fills, as it is found in the end. -/
theorem filled {e : Edit} (hc : Carries before b (.instruction before.code offset anchored) imprint)
    (hi : Instruction.at? before.code offset = some i) (hedits : imprint.edits = [e])
    (ho : e.operand = i.firstOperand) :
    Instruction.at? b.code offset = some i ∧ e.Fits b.base before.code.length ∧
      (b.code.drop e.operand.offset).take e.operand.size = e.filling.bytes b.base := by
  have hfits : e.Fits b.base before.code.length :=
    hc.fits e (by rw [hedits]; exact List.mem_singleton.mpr rfl)
  obtain ⟨hat, hslice⟩ := at?_filled hi ho hfits hc.length fun p hlo hhi => by
    have hbytes := hc.bytes _ (List.mem_singleton.mpr rfl) p
    rw [Patched.of_instruction hi, hedits] at hbytes
    exact hbytes hlo hhi
  exact ⟨hat, hfits, hslice⟩

theorem branchesTo {target : UInt64} {kind : RelocationKind}
    (hc : Carries before b (.instruction before.code offset anchored) imprint)
    (hi : Instruction.at? before.code offset = some i)
    (h : Imprint.anchor? i target kind .call32 = some imprint) :
    Instruction.at? b.code offset = some i ∧ b.BranchesTo offset target ∧
      ⟨offset, kind, .call32⟩ ∈ b.relocations := by
  unfold Imprint.anchor? at h
  split at h
  · next o ho =>
      obtain rfl := Option.some.inj h
      change i.branchOperand = .ok o at ho
      obtain ⟨hfirst, hsize, -⟩ := Instruction.at?_laws.branchOperand_eq hi ho
      obtain ⟨hat, hfits, hslice⟩ := hc.filled hi rfl hfirst
      refine ⟨hat, ⟨i, o, hat, ho, displace_distance hsize hfits.filling hslice⟩, ?_⟩
      rw [← (Instruction.at?_laws.bounds hi).1]
      exact hc.records _ (List.mem_singleton.mpr rfl)
  · exact nomatch h

theorem addresses {target : UInt64} {kind : RelocationKind}
    (hc : Carries before b (.instruction before.code offset anchored) imprint)
    (hi : Instruction.at? before.code offset = some i) (hrelative : i.ipRelative)
    (h : Imprint.anchor? i target kind .displacement32 = some imprint) :
    b.Addresses offset target := by
  unfold Imprint.anchor? at h
  split at h
  · next o ho =>
      obtain rfl := Option.some.inj h
      change i.displacement32 = .ok o at ho
      obtain ⟨hfirst, hsize⟩ := Instruction.displacement32_eq ho
      obtain ⟨hat, hfits, hslice⟩ := hc.filled hi rfl hfirst
      exact ⟨i, o, hat, hrelative, ho, displace_distance hsize hfits.filling hslice⟩
  · exact nomatch h

theorem holds {bits : UInt64} {records : List Relocation}
    (hc : Carries before b (.instruction before.code offset anchored) imprint)
    (hi : Instruction.at? before.code offset = some i)
    (h : Imprint.word? i bits records = some imprint) :
    Instruction.at? b.code offset = some i ∧ b.Holds offset bits := by
  unfold Imprint.word? at h
  split at h
  · next o ho =>
      obtain rfl := Option.some.inj h
      obtain ⟨hfirst, hsize⟩ := Instruction.at?_laws.immediate64_eq hi ho
      obtain ⟨hat, -, hslice⟩ := hc.filled hi rfl hfirst
      exact ⟨hat, i, o, hat, ho, word_of_bytes hsize hslice⟩
  · exact nomatch h

theorem loadsConstant {bits : UInt64} {alignment : Nat}
    (hc : Carries before b (.instruction before.code offset anchored) imprint)
    (hi : Instruction.at? before.code offset = some i) (hrelative : i.ipRelative)
    (h : Imprint.constant? before i bits alignment = some imprint) :
    b.LoadsConstant offset bits := by
  unfold Imprint.constant? at h
  split at h
  · next o start place ho hstart hplace =>
      obtain rfl := Option.some.inj h
      obtain ⟨hfirst, hsize⟩ := Instruction.displacement32_eq ho
      obtain ⟨hat, hfits, hslice⟩ := hc.filled hi rfl hfirst
      obtain ⟨rest, hconstants⟩ := hc.constants
      have hle := Blob.le_constantOffset hplace
      refine ⟨start, place, ?_, ?_, ?_, ?_⟩
      · unfold Blob.constantsStart
        rw [hc.layout]
        exact hstart
      · exact ⟨i, o, hat, hrelative, ho, displace_within hsize hfits.filling hslice⟩
      · have hpadded : (before.constants ++
            List.replicate (place - before.constants.length) 0).length = place := by
          rw [List.length_append, List.length_replicate]
          omega
        have hwidth : (Word.toBytes 8 bits.toNat).length = 8 := Word.length_toBytes 8 _
        rw [hconstants, ← List.append_assoc, List.append_assoc (_ ++ _),
          List.drop_append_of_le_length (Nat.le_of_eq hpadded.symm),
          List.drop_of_length_le (Nat.le_of_eq hpadded), List.nil_append,
          List.take_append_of_le_length (Nat.le_of_eq hwidth.symm),
          List.take_of_length_le (Nat.le_of_eq hwidth)]
      · rw [← (Instruction.at?_laws.bounds hi).1]
        exact hc.records _ (List.mem_singleton.mpr rfl)
  · exact nomatch h

theorem cache {ctx : SiteContext}
    (hc : Carries before b (.instruction before.code offset anchored) imprint)
    (h : Site.cacheImprint? ctx before offset = some imprint) :
    b.IsLoad offset ∧ b.Holds offset ctx.world.emptyCacheWord := by
  obtain ⟨i, hi, h⟩ := Option.bind_eq_some_iff.mp h
  split at h
  · next hmov =>
      obtain ⟨hat, hholds⟩ := hc.holds hi h
      exact ⟨⟨i, hat, hmov⟩, hholds⟩
  · exact nomatch h

theorem poll {ctx : SiteContext} {kind : RelocationKind}
    (hc : Carries before b (.instruction before.code offset anchored) imprint)
    (h : Site.pollImprint? ctx before offset kind = some imprint) :
    b.Addresses offset ctx.pollTarget := by
  obtain ⟨i, hi, h⟩ := Option.bind_eq_some_iff.mp h
  split at h
  · next hrelative => exact hc.addresses hi hrelative h
  · exact nomatch h

end Carries

namespace Site

variable {ctx : SiteContext} {before b : Blob} {pending : PendingCall} {imprint : Imprint}

theorem call_resolved {offset : Int} {target : CallTarget} {info : Option DebugInfo}
    (hcache : ∀ cache, pending = .throughCache cache →
      b.IsLoad cache ∧ b.Holds cache ctx.world.emptyCacheWord)
    (hc : Carries before b (callFootprint before.code pending offset.toNat target) imprint)
    (h : callImprint? ctx before pending offset.toNat target = some imprint) :
    Resolved ctx pending b ⟨offset, .call target info⟩ := by
  unfold callImprint? at h
  split at h
  · trivial
  · next hinlined =>
      obtain ⟨⟨address, kind⟩, hdestination, hbind⟩ := Option.bind_eq_some_iff.mp h
      obtain ⟨i, hi, hbound⟩ := Option.bind_eq_some_iff.mp hbind
      cases target with
      | runtimeStub id =>
          obtain ⟨stub, hstub, hpair⟩ := Option.map_eq_some_iff.mp hdestination
          obtain ⟨rfl, rfl⟩ := Prod.mk.inj hpair
          refine ⟨stub, hstub, ?_⟩
          by_cases hmov : i.shape = .movLiteral
          · simp only [hmov] at hbound
            obtain ⟨hat, hholds⟩ := hc.holds hi hbound
            exact Or.inl ⟨⟨i, hat, hmov⟩, hholds⟩
          · have hanchor : Imprint.anchor? i stub .runtimeCall .call32 = some imprint := by
              split at hbound
              · next hmov' => exact (hmov hmov').elim
              · exact hbound
            obtain ⟨hat, hbranch, -⟩ := hc.branchesTo hi hanchor
            refine Or.inr ⟨?_, hbranch⟩
            rintro ⟨j, hj, hmov'⟩
            obtain rfl : i = j := Option.some.inj (hat.symm.trans hj)
            exact hmov hmov'
      | installedCode id =>
          have hbranch := (hc.branchesTo hi hbound).2.1
          simp only [CallTarget.destination?] at hdestination
          split at hdestination
          · next entry hentry =>
              obtain ⟨rfl, -⟩ := Prod.mk.inj (Option.some.inj hdestination)
              exact ⟨entry, hentry, hbranch⟩
          · exact (Option.some_ne_none _ hdestination.symm).elim
      | method ref =>
          cases pending with
          | throughCache cache =>
              obtain ⟨rfl, rfl⟩ := Prod.mk.inj (Option.some.inj hdestination)
              obtain ⟨-, hbranch, hrecord⟩ := hc.branchesTo hi hbound
              exact ⟨hbranch, hrecord, hcache cache rfl⟩
          | static | special =>
              obtain ⟨rfl, rfl⟩ := Prod.mk.inj (Option.some.inj hdestination)
              exact (hc.branchesTo hi hbound).2.1
          | inlined => exact (hinlined ref rfl rfl).elim
          | none => exact (Option.some_ne_none _ hdestination.symm).elim

/-- **A site whose imprint is in place is resolved**, if the inline cache of its call is. -/
theorem resolved_of_carries {site : Site} {handles : HandleTable}
    (hcache : ∀ cache, pending = .throughCache cache →
      b.IsLoad cache ∧ b.Holds cache ctx.world.emptyCacheWord)
    (hc : Carries before b (site.footprint before.code pending) imprint)
    (h : site.imprint? ctx before pending handles = some imprint) :
    site.Resolved ctx pending b := by
  obtain ⟨offset, kind⟩ := site
  cases kind with
  | call target info => exact call_resolved hcache hc h
  | safepoint info => trivial
  | dataPatch c alignment inlined =>
      intro hkind
      obtain ⟨i, hi, h⟩ := Option.bind_eq_some_iff.mp h
      have hplaced : (if inlined then Imprint.word? i (Word.ofInt c.bits) []
          else if i.ipRelative then Imprint.constant? before i (Word.ofInt c.bits) alignment
          else none) = some imprint := by
        split at h
        · next hobject _ => exact (hkind hobject).elim
        · next hobject _ => exact (hkind hobject).elim
        · exact h
      cases inlined with
      | true => exact (hc.holds hi hplaced).2
      | false =>
          simp only [Bool.false_eq_true, if_false] at hplaced
          split at hplaced
          · next hrelative => exact hc.loadsConstant hi hrelative hplaced
          · exact nomatch hplaced
  | mark id references =>
      change markImprint? ctx before offset.toNat id references = some imprint at h
      change Carries before b (markFootprint before.code offset.toNat id references) imprint at hc
      unfold Resolved
      unfold markImprint? at h
      unfold markFootprint at hc
      dsimp only
      cases hmark : Mark.ofNumber? id with
      | none => trivial
      | some mark =>
          rw [hmark] at h hc
          cases mark with
          | verifiedEntry | unverifiedEntry | osrEntry | unwindEntry | exceptionHandlerEntry
          | deoptHandlerEntry | invokeInvalid | invokeStatic | invokeSpecial
          | inlineInvokeVirtual | implicitNull | pollFar | pollReturnFar | dummyReference
          | staticCallStub | typePatching | accessFieldPatching => trivial
          | invokeVirtual | invokeInterface => exact hc.cache h
          | pollNear | pollReturnNear => exact hc.poll h

end Site

-- ── Every imprint of a run stays in place ───────────────────────────────────────

/-- A byte of filled code depends on that byte of the code before. -/
theorem render_congr {base : UInt64} {code code' : List UInt8} {edits : List Edit} {p : Nat}
    (hlen : code'.length = code.length) (hfits : ∀ e ∈ edits, e.Fits base code.length)
    (hp : code'[p]? = code[p]?) :
    (render base code' edits)[p]? = (render base code edits)[p]? := by
  induction edits generalizing code code' with
  | nil => exact hp
  | cons e rest ih =>
      have he := hfits e (List.mem_cons_self ..)
      have he' : e.Fits base code'.length := by
        rw [hlen]
        exact he
      refine ih ?_ (fun e' hmem => ?_) ?_
      · rw [Edit.length_apply he, Edit.length_apply he', hlen]
      · rw [Edit.length_apply he]
        exact hfits e' (List.mem_cons_of_mem _ hmem)
      · rw [Edit.getElem?_apply he, Edit.getElem?_apply he', hp]

/-- Patches that have no byte in common with a stretch leave it alone. -/
theorem not_covered {code : List UInt8} {marked : List (Footprint × Imprint)} {s : Stretch}
    (hmarked : ∀ m ∈ marked, m.1.Matches code m.2)
    (hapart : ∀ m ∈ marked, ∀ t ∈ m.1.stretches, t.Apart s) {p : Nat} (hlo : s.start ≤ p)
    (hhi : p < s.stop) :
    ∀ e ∈ editsOf marked, ¬(e.operand.offset ≤ p ∧ p < e.operand.offset + e.operand.size) := by
  intro e he
  obtain ⟨m, hm, he⟩ := List.mem_flatMap.mp he
  obtain ⟨t, ht, hoperand⟩ := (hmarked m hm).exists_stretch he
  have hproper := (hmarked m hm).proper t ht
  have hdisjoint := hapart m hm t ht
  unfold Stretch.Proper at hproper
  unfold Stretch.Apart at hdisjoint
  rw [← hoperand]
  omega

/-- **In a run whose patches have no byte in common, every imprint stays in place.** -/
theorem carries_of_split {ctx : SiteContext} {b : Blob} {pending : PendingCall}
    {records : ReferenceRecorder × HandleTable} {pre post : List Site} {site : Site}
    {imprints : List Imprint} {base : UInt64}
    (himprints : imprints? ctx b pending records (pre ++ site :: post) = some imprints)
    (hapart : (footprints b.code pending (pre ++ site :: post)).Pairwise Footprint.Apart)
    (hfits : (Imprint.join imprints).Fits { b with base := base }) :
    ∃ before imprint handles,
      site.imprint? ctx before (pre.foldl PendingCall.after pending) handles = some imprint ∧
      Carries before ((Imprint.join imprints).apply { b with base := base })
        (site.footprint before.code (pre.foldl PendingCall.after pending)) imprint := by
  obtain ⟨earlier, later, records', rfl, hearlier, hlater⟩ := imprints?_append himprints
  obtain ⟨imprint, _, t, rest, himprint, -, hrest, rfl⟩ := imprints?_cons.mp hlater
  obtain ⟨first, hfirstF, rfl, hfirst⟩ := imprints?_matches hearlier
  obtain ⟨last, hlastF, rfl, hlast⟩ := imprints?_matches hrest
  change last.map Prod.fst = footprints b.code _ post at hlastF
  rw [footprints_append, footprints, ← hfirstF, ← hlastF, List.pairwise_append,
    List.pairwise_cons] at hapart
  obtain ⟨-, ⟨hafter, -⟩, hbefore⟩ := hapart
  refine ⟨{ (Imprint.join (first.map Prod.snd)).apply b with code := b.code }, imprint,
    records'.2, himprint, rfl, ?_, ?_, ?_, ?_, ?_⟩
  · exact length_render hfits
  · intro e he
    exact hfits e (List.mem_flatMap.mpr ⟨imprint, List.mem_append_right _
      (List.mem_cons_self ..), he⟩)
  · intro s hs p hlo hhi
    have hedits : (Imprint.join (first.map Prod.snd ++ imprint :: last.map Prod.snd)).edits =
        editsOf first ++ (imprint.edits ++ editsOf last) := by
      simp only [Imprint.join, List.flatMap_append, List.flatMap_cons, List.flatMap_map]
      rfl
    unfold Imprint.Fits at hfits
    rw [hedits] at hfits
    have hfitsFirst : ∀ e ∈ editsOf first, e.Fits base b.code.length := fun e he =>
      hfits e (List.mem_append_left _ he)
    have hfitsSite : ∀ e ∈ imprint.edits, e.Fits base b.code.length := fun e he =>
      hfits e (List.mem_append_right _ (List.mem_append_left _ he))
    have hfitsLast : ∀ e ∈ editsOf last, e.Fits base b.code.length := fun e he =>
      hfits e (List.mem_append_right _ (List.mem_append_right _ he))
    have hlen := length_render hfitsFirst
    have hlen' : (render base (render base b.code (editsOf first)) imprint.edits).length =
        b.code.length := by
      rw [length_render fun e he => by rw [hlen]; exact hfitsSite e he, hlen]
    show (render base b.code _)[p]? = _
    rw [hedits, render_append, render_append,
      getElem?_render (fun e he => by rw [hlen']; exact hfitsLast e he)
        (not_covered hlast (fun m hm t ht => (hafter m.1 (List.mem_map_of_mem hm) s hs t ht).symm)
          hlo hhi)]
    refine render_congr hlen hfitsSite (getElem?_render hfitsFirst ?_)
    exact not_covered hfirst (fun m hm t ht =>
      hbefore m.1 (List.mem_map_of_mem hm) _ (List.mem_cons_self ..) t ht s hs) hlo hhi
  · intro r hr
    exact List.mem_append_right _ (List.mem_flatMap.mpr ⟨imprint, List.mem_append_right _
      (List.mem_cons_self ..), hr⟩)
  · refine ⟨(last.map Prod.snd).flatMap Imprint.constants, ?_⟩
    simp only [Imprint.apply, Imprint.join, List.flatMap_append, List.flatMap_cons,
      List.append_assoc]

/-- A call through a cache is announced by the mark of that cache. -/
theorem Site.mark_of_announced_cache {site : Site} {cache : Nat}
    (h : site.announced? = some (.throughCache cache)) :
    ∃ id references, site.kind = .mark id references ∧ site.offset.toNat = cache ∧
      (Mark.ofNumber? id = some .invokeVirtual ∨ Mark.ofNumber? id = some .invokeInterface) := by
  obtain ⟨id, references, mark, hkind, hmark, hannounced⟩ := announced?_eq_some_iff.mp h
  refine ⟨id, references, hkind, ?_⟩
  cases mark with
  | invokeVirtual =>
      exact ⟨PendingCall.throughCache.inj (Option.some.inj hannounced), Or.inl hmark⟩
  | invokeInterface =>
      exact ⟨PendingCall.throughCache.inj (Option.some.inj hannounced), Or.inr hmark⟩
  | _ => exact nomatch hannounced

/-- Behind sites that announce a call through a cache, its mark is among them. -/
theorem exists_cache_mark {pending : PendingCall} {pre : List Site} {cache : Nat}
    (h : pre.foldl PendingCall.after pending = .throughCache cache) :
    pending = .throughCache cache ∨ ∃ first mark last id references,
      pre = first ++ mark :: last ∧ mark.kind = .mark id references ∧
      mark.offset.toNat = cache ∧
      (Mark.ofNumber? id = some .invokeVirtual ∨ Mark.ofNumber? id = some .invokeInterface) := by
  rcases exists_announcing (by simp) h with ⟨hpending, -⟩ | ⟨first, mark, last, hpre, hannounced, -⟩
  · exact Or.inl hpending
  · obtain ⟨id, references, hmark⟩ := Site.mark_of_announced_cache hannounced
    exact Or.inr ⟨first, mark, last, id, references, hpre, hmark⟩

/-- Every site of a run that stays in place is resolved. -/
theorem resolved_of_split {ctx : SiteContext} {b : Blob} {records : ReferenceRecorder × HandleTable}
    {pre post : List Site} {site : Site} {imprints : List Imprint} {base : UInt64}
    (himprints : imprints? ctx b .none records (pre ++ site :: post) = some imprints)
    (hapart : (footprints b.code .none (pre ++ site :: post)).Pairwise Footprint.Apart)
    (hfits : (Imprint.join imprints).Fits { b with base := base }) :
    site.Resolved ctx (PendingCall.afterAll pre)
      ((Imprint.join imprints).apply { b with base := base }) := by
  obtain ⟨before, imprint, handles, himprint, hcarries⟩ :=
    carries_of_split himprints hapart hfits
  refine Site.resolved_of_carries (fun cache hcache => ?_) hcarries himprint
  rcases exists_cache_mark hcache with hnone |
    ⟨first, mark, last, id, references, rfl, hkind, rfl, hmark⟩
  · exact nomatch hnone
  -- the mark of the cache is a site of the same run
  rw [List.append_assoc, List.cons_append] at himprints hapart
  obtain ⟨before', imprint', handles', himprint', hcarries'⟩ :=
    carries_of_split himprints hapart hfits
  obtain ⟨offset, kind⟩ := mark
  obtain rfl : kind = .mark id references := hkind
  change Site.markImprint? ctx before' offset.toNat id references = some imprint' at himprint'
  change Carries before' _ (Site.markFootprint before'.code offset.toNat id references) _
    at hcarries'
  unfold Site.markImprint? at himprint'
  unfold Site.markFootprint at hcarries'
  rcases hmark with hmark | hmark <;> rw [hmark] at himprint' hcarries' <;>
    exact hcarries'.cache himprint'

-- ── Installed code ──────────────────────────────────────────────────────────────

/-- Patches without a byte in common leave what is bound to a fixed address alone. -/
theorem respects_of_apart {code : List UInt8} {marked : List (Footprint × Imprint)}
    (hmarked : ∀ m ∈ marked, m.1.Matches code m.2)
    (hapart : marked.Pairwise fun m n => m.1.Apart n.1) :
    marked.Pairwise fun m n => m.1.Respects n.1 := by
  refine List.Pairwise.imp_of_mem (fun {m n} hm _ hmn hanchored s hs hsn => ?_) hapart
  have hself := hmn s hs s hsn
  obtain ⟨i, _, _, _, hi, hstretches, -⟩ := (hmarked m hm).anchored hanchored
  obtain ⟨-, hstart, hnext, -⟩ := Instruction.at?_laws.bounds hi
  rw [hstretches] at hs
  obtain rfl := List.mem_singleton.mp hs
  unfold Stretch.Apart at hself
  dsimp only at hself
  omega

/-- **Patched targets survive installation.** In every unit that is installed and whose sites patch
    no byte in common, every site is resolved in the code registered at its final address. -/
theorem installed_resolves {settings : Settings} {u : CompiledUnit} {r r' : Runtime}
    {receipt : Receipt} (h : Ends settings u r (.ok receipt) r')
    (hapart : (footprints (u.code.take u.codeSize) .none u.sitesInOrder).Pairwise
      Footprint.Apart) :
    r'.codes.get? receipt.installed.id = some receipt.installed ∧
      ∀ pre site post, u.sitesInOrder = pre ++ site :: post →
        site.Resolved (u.siteContext settings u.parameterCount r) (PendingCall.afterAll pre)
          receipt.installed.code.blob := by
  cases h.installation with
  | registered hrun hfinish hregister =>
      obtain ⟨parameterCount, blob, hblob, hrun⟩ := hrun
      obtain ⟨hcode, hempty⟩ := CompiledUnit.blob_ok hblob
      obtain ⟨hfinished, -, -⟩ := CompiledUnit.finish_ok hfinish
      obtain ⟨address, moved, hmoved, hinstalled, hget, -⟩ := CodeTable.register_ok hregister
      refine ⟨hget, fun pre site post hsplit => ?_⟩
      rw [← hcode] at hapart
      change (applySites _ _).runOn (Draft.standingAt { blob, handles := r.handles } blob.base) =
        _ at hrun
      obtain ⟨marked, himprints, hfirst, hmarked, hpair, hfits, hdraft⟩ :=
        applySites_marked (hapart.imp fun hfg s hs t ht => Or.inr (hfg s hs t ht)) hrun
      have hrespects : marked.Pairwise fun m n => m.1.Respects n.1 := by
        refine respects_of_apart hmarked ?_
        rw [← List.pairwise_map, hfirst]
        exact hapart
      rw [hfinished, hdraft] at hmoved
      obtain ⟨hplaced, hfits'⟩ := moveTo_render hmarked hpair hrespects hempty hfits hmoved
      rw [hinstalled, hplaced]
      rw [hsplit] at himprints hapart
      have hresolved := resolved_of_split himprints hapart hfits'
      exact hresolved

-- ── A unit with a poll, a constant and two calls ────────────────────────────────

/-- The sample runtime, with the first block of its code space taken. -/
def Runtime.sampleInUse : Runtime where
  world := .sample
  codes := { space := { base := 0x7f000000, capacity := 0x1000, used := 0x40 } }
  stubs := Description.sample.stubs

/-- A poll, a call to a stub, the load of a constant, and a call through a cache. -/
def CompiledUnit.sample : CompiledUnit where
  name := "sample"
  code :=
    [0x85, 0x05, 0, 0, 0, 0, 0xe8, 0, 0, 0, 0, 0xf2, 0x0f, 0x10, 0x05, 0, 0, 0, 0,
     0x48, 0xb8, 0, 0, 0, 0, 0, 0, 0, 0, 0xe8, 0, 0, 0, 0]
  codeSize := 34
  frameSize := 8
  sites :=
    [⟨0, .mark 0x3001 []⟩,
     ⟨6, .call (.runtimeStub 1) none⟩,
     ⟨11, .dataPatch (.double 0x3ff0000000000000) 8 false⟩,
     ⟨19, .mark 0x2004 []⟩,
     ⟨29, .call (.method (.resolved ⟨0x1000⟩)) (some {
        frame := {
          method := ⟨0x1000⟩, bci := 0, values := []
          localCount := 0, stackCount := 0, lockCount := 0 }
        frameBits := ⟨[]⟩ })⟩]

theorem CompiledUnit.sitesInOrder_sample :
    CompiledUnit.sample.sitesInOrder = CompiledUnit.sample.sites :=
  List.mergeSort_of_pairwise (by decide)

/-- The sample unit is installed behind the taken block, with all its sites resolved. -/
theorem installed_resolves_sample :
    (footprints (CompiledUnit.sample.code.take CompiledUnit.sample.codeSize) .none
      CompiledUnit.sample.sitesInOrder).Pairwise Footprint.Apart ∧
    ∃ receipt r', Ends {} .sample .sampleInUse (.ok receipt) r' ∧
      ∀ pre site post, CompiledUnit.sample.sitesInOrder = pre ++ site :: post →
        site.Resolved (CompiledUnit.sample.siteContext {} CompiledUnit.sample.parameterCount
          .sampleInUse) (PendingCall.afterAll pre) receipt.installed.code.blob := by
  have hapart : (footprints (CompiledUnit.sample.code.take CompiledUnit.sample.codeSize) .none
      CompiledUnit.sample.sitesInOrder).Pairwise Footprint.Apart := by
    rw [CompiledUnit.sitesInOrder_sample]
    decide
  have hends : endsRegistered true (installStub {} .sample .sampleInUse) = true := by
    unfold installStub assembleAndCommit assemblePaused assemble
    rw [CompiledUnit.sitesInOrder_sample]
    decide +kernel
  obtain ⟨receipt, r', hreceipt⟩ := exists_receipt hends
  exact ⟨hapart, receipt, r', Or.inr hreceipt, (installed_resolves (Or.inr hreceipt) hapart).2⟩

end ManagedCode
