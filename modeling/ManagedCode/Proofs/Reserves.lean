import Mathlib.Algebra.Order.BigOperators.Group.List
import Mathlib.Algebra.Order.Ring.Nat
import ManagedCode.Proofs.Constants
import ManagedCode.Proofs.Refusal
import ManagedCode.Proofs.RelocationRoom

/-! # Reserves of a unit's blob

    The sections of a blob are given their capacities before the sites are applied: room for the
    producer's constants, and a fixed number of bytes for each site.  The room is used up by the
    constants that the sites load, eight bytes each, and by the padding in front of them, which
    depends on all that stands there already.  Sixteen bytes per site are enough but for one shape
    of unit.  The code has the size it was given room for, and two relocations per site are always
    enough.

* **`applySite_places`** — a load is refused where its constant ends beyond the capacity.
* **`overrun`** — what an aligned constant takes beyond its sixteen bytes;
  **`WithinReserve`**, **`Overrunning`** are the two states of a section on the way.
* **`CompiledUnit.OutgrowsReserve`**, **`constants_outgrow_reserve`** — the units whose constants
  do not fit.
* **`Ends.exhausted`**, **`code_and_relocations_fit`** — the reserves that are enough. -/

namespace ManagedCode

-- ── Refused sites ───────────────────────────────────────────────────────────────

/-- How placing a constant of eight bytes ends: refused where it does not fit, and otherwise only
    for want of relocations. -/
def Blob.Places (b : Blob) (alignment : Nat) (out : Except Overflow Unit) : Prop :=
  ∃ place, b.constantOffset alignment = .ok place ∧
    ((b.layout.constantsCapacity < place + 8 ∧
        out = .error (.constants (place + 8) b.layout.constantsCapacity)) ∨
      (place + 8 ≤ b.layout.constantsCapacity ∧
        ∀ e, out = .error e → ∃ capacity, e = .relocations capacity))

section Sites

open Patch

variable {ctx : SiteContext} {d d' : Draft} {out : Except Overflow Unit} {site : Site}

theorem placeConstant_places {i : Instruction} {bits : UInt64} {alignment : Nat}
    (h : (placeConstant i bits alignment).runOn d = .ok (out, d')) :
    d.blob.Places alignment out := by
  unfold placeConstant at h
  rw [runOn_lift_bind] at h
  obtain ⟨_, -, h⟩ := Checked.bind_ok h
  rw [runOn_lift_bind] at h
  obtain ⟨o, -, h⟩ := Checked.bind_ok h
  have hwidth : (Word.toBytes 8 bits.toNat).length = 8 := Word.length_toBytes 8 _
  have happend : ∀ (ended : Except Overflow Nat) (d₁ : Draft),
      (appendConstant (Word.toBytes 8 bits.toNat) alignment).runOn d = .ok (ended, d₁) →
      ∃ place, d.blob.constantOffset alignment = .ok place ∧
        ((d.blob.layout.constantsCapacity < place + 8 ∧
            ended = .error (.constants (place + 8) d.blob.layout.constantsCapacity)) ∨
          (place + 8 ≤ d.blob.layout.constantsCapacity ∧ ended = .ok place)) := by
    intro ended d₁ hrun
    rw [runOn_appendConstant] at hrun
    obtain ⟨⟨result, b⟩, hresult, hrun⟩ := Checked.bind_ok hrun
    obtain ⟨rfl, -⟩ := Prod.mk.inj (Except.ok.inj hrun)
    obtain ⟨place, hplace, hdone⟩ := Blob.appendConstant_done hresult
    rw [hwidth] at hdone
    refine ⟨place, hplace, ?_⟩
    rcases hdone with ⟨hended, hroom, -⟩ | ⟨hended, hfull, -⟩
    · exact Or.inr ⟨hroom, hended⟩
    · exact Or.inl ⟨hfull, hended⟩
  rcases bind_done h with ⟨e, rfl, hx⟩ | ⟨offset, d₁, hx, h⟩
  · obtain ⟨place, hplace, ⟨hfull, he⟩ | ⟨-, he⟩⟩ := happend _ _ hx
    · exact ⟨place, hplace, Or.inl ⟨hfull, congrArg _ (Except.error.inj he)⟩⟩
    · exact nomatch he
  · obtain ⟨place, hplace, ⟨-, ho⟩ | ⟨hroom, -⟩⟩ := happend _ _ hx
    · exact nomatch ho
    · refine ⟨place, hplace, Or.inr ⟨hroom, ?_⟩⟩
      rintro e rfl
      have hrest : TakesRecords 1 (do
          let target ← (← blob).constantAddress offset
          setRelativeOperand i o target
          Patch.relocate i.offset (.sectionWord .constants offset) .displacement32) :=
        .after .blob fun _ => .after (.lift _) fun target =>
          .after (takes_setRelativeOperand i o target) fun _ => .relocate ..
      exact hrest.refused _ _ _ h

/-- **A load** is refused where its constant ends beyond the capacity. -/
theorem applySite_places {c : LoadedConstant} (hc : site.loaded? = some c)
    (h : (applySite ctx site).runOn d = .ok (out, d')) : d.blob.Places c.alignment out := by
  obtain ⟨-, -, h⟩ := applySite_done h
  unfold Site.loaded? at hc
  split at hc
  · next constant alignment hkind =>
      split at hc
      · exact nomatch hc
      · next hobject =>
          obtain rfl := Option.some.inj hc
          rw [hkind] at h
          obtain ⟨i, t, -, -, ⟨hobject', -⟩ | ⟨-, hrun⟩⟩ := applyDataPatch_done h
          · exact absurd hobject' hobject
          · exact placeConstant_places
              (d := { d with references := t.references, handles := t.handles }) hrun
  · exact nomatch hc

/-- **Any other site** is refused only for want of relocations. -/
theorem applySite_refused (hnone : site.loaded? = none) {e : Overflow}
    (h : (applySite ctx site).runOn d = .ok (.error e, d')) :
    ∃ capacity, e = .relocations capacity := by
  obtain ⟨-, -, h⟩ := applySite_done h
  obtain ⟨offset, kind⟩ := site
  cases kind with
  | call target info => exact (takes_applyCall ..).refused _ _ _ h
  | safepoint info => exact (takes_applySafepoint ..).refused _ _ _ h
  | mark id references => exact (takes_applyMark ..).refused _ _ _ h
  | dataPatch c alignment inlined =>
      obtain ⟨i, t, -, -, ⟨-, handle, -, hrun⟩ | ⟨hvalue, hrun⟩⟩ := applyDataPatch_done h
      · exact (takes_bindWord ..).refused _ _ _ hrun
      · cases inlined with
        | true => exact (takes_writeImmediate ..).refused _ _ _ hrun
        | false =>
            have hsome : Site.loaded? ⟨offset, .dataPatch c alignment false⟩ =
                some ⟨offset.toNat, Word.ofInt c.bits, alignment⟩ := if_neg hvalue
            exact nomatch hnone.symm.trans hsome

/-- What stands in the constants section once a site is applied. -/
theorem applySite_size (h : (applySite ctx site).runOn d = .ok (.ok (), d')) :
    d'.blob.layout = d.blob.layout ∧
    (site.loaded? = none → d'.blob.constants.length = d.blob.constants.length) ∧
    ∀ c, site.loaded? = some c → ∃ place, d.blob.constantOffset c.alignment = .ok place ∧
      place + 8 ≤ d.blob.layout.constantsCapacity ∧ d'.blob.constants.length = place + 8 := by
  obtain ⟨imprint, himprint, -, hblob, -⟩ := applySite_imprint h
  rw [hblob]
  refine ⟨rfl, fun hnone => ?_, fun c hc => ?_⟩
  · rcases Site.imprint?_constants himprint with ⟨-, hplain, -⟩ | ⟨c, _, _, hc, -⟩
    · rw [Imprint.apply, hplain, List.append_nil]
    · exact (Option.some_ne_none _ (hc.symm.trans hnone)).elim
  · obtain ⟨place, hplace, ⟨-, hrefused⟩ | ⟨hroom, -⟩⟩ := applySite_places hc h
    · cases hrefused
    · refine ⟨place, hplace, hroom, ?_⟩
      rcases Site.imprint?_constants himprint with ⟨hnone, -⟩ |
        ⟨_, _, place', hc', -, hplace', hconstants, -⟩
      · exact (Option.some_ne_none _ (hc.symm.trans hnone)).elim
      · obtain rfl := Option.some.inj (hc.symm.trans hc')
        obtain rfl := Except.ok.inj (hplace.symm.trans hplace')
        have hle := Blob.le_constantOffset hplace
        have hwidth : (Word.toBytes 8 c.bits.toNat).length = 8 := Word.length_toBytes 8 _
        rw [Imprint.apply, hconstants]
        simp only [List.length_append, List.length_replicate, hwidth]
        omega

end Sites

-- ── Padding against reserve ─────────────────────────────────────────────────────

/-- Where eight bytes of the given alignment go behind `size` bytes. -/
def paddedPlace (size alignment : Nat) : Nat :=
  if alignment = 0 then size else (size + alignment - 1) / alignment * alignment

/-- The alignments that sixteen bytes per site are meant for. -/
def wordAlignments : List Nat := [0, 1, 2, 4, 8, 16]

/-- What a constant aligned to sixteen bytes takes beyond sixteen bytes, behind `size` bytes. -/
def overrun (size : Nat) : Nat := (16 - size % 16) % 16 - 8

/-- The sites applied so far have used no more than their reserve, and left what the next constant
    may take beyond its own. -/
def WithinReserve (data applied size : Nat) : Prop := size + overrun size ≤ data + 16 * applied

/-- Each of the sites applied so far has used up its reserve, and the first of them more. -/
def Overrunning (data applied size : Nat) : Prop :=
  0 < overrun data ∧ size + overrun size = data + 16 * applied + overrun data

section Padding

variable {data applied size alignment : Nat}

theorem overrun_lt (size : Nat) : overrun size < 8 := by
  simp only [overrun]
  omega

/-- A smaller alignment pads no further than to a multiple of eight. -/
theorem paddedPlace_small (size : Nat) (halignment : alignment ∈ wordAlignments)
    (hsmall : alignment ≠ 16) :
    size ≤ paddedPlace size alignment ∧ paddedPlace size alignment ≤ (size + 7) / 8 * 8 := by
  simp only [wordAlignments, List.mem_cons, List.not_mem_nil, or_false] at halignment
  rw [paddedPlace]
  split
  · omega
  · rcases halignment with rfl | rfl | rfl | rfl | rfl | rfl <;> omega

theorem paddedPlace_sixteen (size : Nat) : paddedPlace size 16 = (size + 15) / 16 * 16 := rfl

/-- Behind a constant aligned to sixteen bytes the next one needs no more than sixteen. -/
theorem overrun_filled (size : Nat) : overrun (paddedPlace size 16 + 8) = 0 := by
  rw [paddedPlace_sixteen, overrun]
  omega

theorem WithinReserve.skip (h : WithinReserve data applied size) :
    WithinReserve data (applied + 1) size := by
  simp only [WithinReserve] at h ⊢
  omega

/-- The padding that a constant needs is paid for by its own reserve and what was left of others. -/
theorem WithinReserve.load (h : WithinReserve data applied size)
    (halignment : alignment ∈ wordAlignments) :
    WithinReserve data (applied + 1) (paddedPlace size alignment + 8) := by
  simp only [WithinReserve, overrun] at h ⊢
  by_cases hsixteen : alignment = 16
  · rw [hsixteen, paddedPlace_sixteen]
    omega
  · obtain ⟨hle, hpadded⟩ := paddedPlace_small size halignment hsixteen
    omega

theorem Overrunning.skip (h : Overrunning data applied size) :
    WithinReserve data (applied + 1) size := by
  have hlt := overrun_lt data
  simp only [Overrunning] at h
  simp only [WithinReserve]
  omega

/-- A constant of smaller alignment makes up for what was overrun. -/
theorem Overrunning.load (h : Overrunning data applied size)
    (halignment : alignment ∈ wordAlignments) (hsmall : alignment ≠ 16) :
    WithinReserve data (applied + 1) (paddedPlace size alignment + 8) := by
  obtain ⟨hle, hpadded⟩ := paddedPlace_small size halignment hsmall
  simp only [Overrunning, overrun] at h
  simp only [WithinReserve, overrun]
  omega

/-- Another constant aligned to sixteen bytes uses up its reserve to the last byte. -/
theorem Overrunning.fill (h : Overrunning data applied size) :
    Overrunning data (applied + 1) (paddedPlace size 16 + 8) := by
  simp only [Overrunning, overrun] at h ⊢
  rw [paddedPlace_sixteen]
  omega

theorem Blob.constantOffset_eq {b : Blob} {place : Nat}
    (h : b.constantOffset alignment = .ok place) :
    place = paddedPlace b.constants.length alignment := by
  simp only [Blob.constantOffset] at h
  split at h
  · next hzero =>
      rw [paddedPlace, if_pos hzero]
      exact (Except.ok.inj h).symm
  · next hpos =>
      obtain ⟨_, -, h⟩ := Checked.bind_ok h
      obtain ⟨_, -, h⟩ := Checked.bind_ok h
      obtain ⟨sum, hsum, h⟩ := Checked.bind_ok h
      obtain ⟨rfl, -⟩ := Size.add_ok hsum
      rw [paddedPlace, if_neg hpos]
      exact (Checked.pure_ok h).symm

end Padding

-- ── Sites against the reserve ───────────────────────────────────────────────────

/-- Whether a site loads a constant aligned to sixteen bytes. -/
def Site.Fills (site : Site) : Prop := ∃ c, site.loaded? = some c ∧ c.alignment = 16

section Run

variable {ctx : SiteContext} {d d' : Draft} {site : Site} {sites : List Site}
  {data applied : Nat} {e : Overflow}

theorem applySite_within (halignment : ∀ c, site.loaded? = some c → c.alignment ∈ wordAlignments)
    (hd : WithinReserve data applied d.blob.constants.length)
    (h : (applySite ctx site).runOn d = .ok (.ok (), d')) :
    WithinReserve data (applied + 1) d'.blob.constants.length := by
  obtain ⟨-, hplain, hloads⟩ := applySite_size h
  cases hc : site.loaded? with
  | none =>
      rw [hplain hc]
      exact hd.skip
  | some c =>
      obtain ⟨place, hplace, -, hsize⟩ := hloads c hc
      rw [hsize, Blob.constantOffset_eq hplace]
      exact hd.load (halignment c hc)

theorem applySite_overrunning
    (halignment : ∀ c, site.loaded? = some c → c.alignment ∈ wordAlignments)
    (hd : Overrunning data applied d.blob.constants.length)
    (h : (applySite ctx site).runOn d = .ok (.ok (), d')) :
    (site.Fills ∧ Overrunning data (applied + 1) d'.blob.constants.length) ∨
      (¬ site.Fills ∧ WithinReserve data (applied + 1) d'.blob.constants.length) := by
  obtain ⟨-, hplain, hloads⟩ := applySite_size h
  cases hc : site.loaded? with
  | none =>
      rw [hplain hc]
      refine Or.inr ⟨?_, hd.skip⟩
      rintro ⟨c, hsome, -⟩
      exact nomatch hc.symm.trans hsome
  | some c =>
      obtain ⟨place, hplace, -, hsize⟩ := hloads c hc
      rw [hsize, Blob.constantOffset_eq hplace]
      by_cases hsixteen : c.alignment = 16
      · rw [hsixteen]
        exact Or.inl ⟨⟨c, hc, hsixteen⟩, hd.fill⟩
      · refine Or.inr ⟨?_, hd.load (halignment c hc) hsixteen⟩
        rintro ⟨c', hc', hsixteen'⟩
        obtain rfl := Option.some.inj (hc.symm.trans hc')
        exact hsixteen hsixteen'

/-- A site that is refused its constant is refused for the bytes that this would take. -/
theorem applySite_refused_cases (h : (applySite ctx site).runOn d = .ok (.error e, d')) :
    (∃ capacity, e = .relocations capacity) ∨
    ∃ c, site.loaded? = some c ∧ d.blob.layout.constantsCapacity <
      paddedPlace d.blob.constants.length c.alignment + 8 := by
  cases hc : site.loaded? with
  | none => exact Or.inl (applySite_refused hc h)
  | some c =>
      obtain ⟨place, hplace, ⟨hfull, -⟩ | ⟨-, hrefused⟩⟩ := applySite_places hc h
      · rw [Blob.constantOffset_eq hplace] at hfull
        exact Or.inr ⟨c, rfl, hfull⟩
      · exact Or.inl (hrefused e rfl)

/-- **Sites within their reserve** are refused only for want of relocations. -/
theorem applySites_within
    (halignment : ∀ site ∈ sites, ∀ c, site.loaded? = some c → c.alignment ∈ wordAlignments)
    (hcapacity : d.blob.layout.constantsCapacity = data + 16 * (applied + sites.length))
    (hd : WithinReserve data applied d.blob.constants.length)
    (h : (applySites ctx sites).runOn d = .ok (.error e, d')) :
    ∃ capacity, e = .relocations capacity := by
  induction sites generalizing d applied with
  | nil => exact nomatch h
  | cons site rest ih =>
      obtain ⟨hfirst, hlater⟩ := List.forall_mem_cons.mp halignment
      rw [List.length_cons] at hcapacity
      rcases Patch.bind_done h with ⟨e', he, hsite⟩ | ⟨_, d₁, hsite, hrest⟩
      · obtain rfl := Except.error.inj he
        rcases applySite_refused_cases hsite with hrecords | ⟨c, hc, hfull⟩
        · exact hrecords
        · have hload := hd.load (hfirst c hc)
          simp only [WithinReserve] at hload
          omega
      · refine ih hlater ?_ (applySite_within hfirst hd hsite) hrest
        rw [(applySite_size hsite).1, hcapacity]
        omega

/-- **Sites that overrun their reserve** are refused a constant only if all of them fill it. -/
theorem applySites_overrunning
    (halignment : ∀ site ∈ sites, ∀ c, site.loaded? = some c → c.alignment ∈ wordAlignments)
    (hcapacity : d.blob.layout.constantsCapacity = data + 16 * (applied + sites.length))
    (hd : Overrunning data applied d.blob.constants.length)
    (h : (applySites ctx sites).runOn d = .ok (.error e, d')) :
    (∃ capacity, e = .relocations capacity) ∨ (sites ≠ [] ∧ ∀ site ∈ sites, site.Fills) := by
  induction sites generalizing d applied with
  | nil => exact nomatch h
  | cons site rest ih =>
      obtain ⟨hfirst, hlater⟩ := List.forall_mem_cons.mp halignment
      rw [List.length_cons] at hcapacity
      rcases Patch.bind_done h with ⟨e', he, hsite⟩ | ⟨_, d₁, hsite, hrest⟩
      · obtain rfl := Except.error.inj he
        rcases applySite_refused_cases hsite with hrecords | ⟨c, hc, hfull⟩
        · exact Or.inl hrecords
        · by_cases hsixteen : c.alignment = 16
          · -- with a site behind this one there would have been room for what is overrun
            have hfill := hd.fill
            have hlt := overrun_lt data
            rw [hsixteen] at hfull
            simp only [Overrunning] at hfill
            have hlast : rest = [] := List.eq_nil_of_length_eq_zero (by omega)
            rw [hlast]
            exact Or.inr ⟨List.cons_ne_nil _ _, List.forall_mem_singleton.mpr ⟨c, hc, hsixteen⟩⟩
          · have hload := hd.load (hfirst c hc) hsixteen
            simp only [WithinReserve] at hload
            omega
      · have hcapacity₁ : d₁.blob.layout.constantsCapacity =
            data + 16 * (applied + 1 + rest.length) := by
          rw [(applySite_size hsite).1, hcapacity]
          omega
        rcases applySite_overrunning hfirst hd hsite with ⟨hfills, hd₁⟩ | ⟨-, hd₁⟩
        · rcases ih hlater hcapacity₁ hd₁ hrest with hrecords | ⟨-, hrest⟩
          · exact Or.inl hrecords
          · exact Or.inr ⟨List.cons_ne_nil _ _, List.forall_mem_cons.mpr ⟨hfills, hrest⟩⟩
        · exact Or.inl (applySites_within hlater hcapacity₁ hd₁ hrest)

/-- Sites that fill their reserve and overrun it do not all go through. -/
theorem applySites_filling (hne : sites ≠ []) (hfills : ∀ site ∈ sites, site.Fills)
    (hcapacity : d.blob.layout.constantsCapacity = data + 16 * (applied + sites.length))
    (hd : Overrunning data applied d.blob.constants.length) :
    (applySites ctx sites).runOn d ≠ .ok (.ok (), d') := by
  intro h
  induction sites generalizing d applied with
  | nil => exact hne rfl
  | cons site rest ih =>
      obtain ⟨⟨c, hc, hsixteen⟩, hlater⟩ := List.forall_mem_cons.mp hfills
      rw [List.length_cons] at hcapacity
      obtain ⟨_, d₁, hsite, hrest⟩ := Patch.bind_ok h
      obtain ⟨hlayout, -, hloads⟩ := applySite_size hsite
      obtain ⟨place, hplace, hroom, hsize⟩ := hloads c hc
      obtain rfl := Blob.constantOffset_eq hplace
      rw [hsixteen] at hroom hsize
      have hfill := hd.fill
      cases rest with
      | nil =>
          simp only [Overrunning, overrun_filled] at hfill
          rw [List.length_nil] at hcapacity
          omega
      | cons next later =>
          rw [← hsize] at hfill
          refine ih (List.cons_ne_nil _ _) hlater ?_ hfill hrest
          rw [hlayout, hcapacity]
          omega

end Run

-- ── Ends by an overflow ─────────────────────────────────────────────────────────

section Ended

variable {settings : Settings} {u : CompiledUnit} {r r' : Runtime}

/-- The code of a unit and the producer's constants fit what is reserved for them. -/
theorem CompiledUnit.blob_fits {out : Except Overflow Blob} (h : u.blob settings = .ok out) :
    ∃ b, out = .ok b := by
  obtain ⟨layout, hlayout, h⟩ := Checked.bind_ok h
  obtain rfl := layout_eq hlayout
  have hcode : (u.code.take u.codeSize).length ≤ u.codeSize := List.length_take_le ..
  dsimp only at h
  rw [Blob.copyCode, Blob.empty, List.length_nil, Nat.zero_add, if_pos hcode] at h
  cases hdata : u.dataSection with
  | none =>
      rw [hdata] at h
      exact ⟨_, (Checked.pure_ok h).symm⟩
  | some part =>
      rw [hdata] at h
      obtain ⟨⟨result, b'⟩, hresult, h⟩ := Checked.bind_ok h
      obtain ⟨place, hplace, ⟨rfl, -⟩ | ⟨-, hfull, -⟩⟩ := Blob.appendConstant_done hresult
      · exact ⟨b', (Checked.pure_ok h).symm⟩
      · obtain rfl := Blob.constantOffset_empty rfl hplace
        simp only [data, hdata] at hfull
        omega

theorem assemble_ended {parameterCount : Nat} {dependencies : List Dependency}
    {result : Except Overflow Code}
    (h : assemble settings u parameterCount dependencies r = .ok (result, r')) :
    ∃ ended d, u.RunsTo settings r ended d ∧ ∀ e, result = .error e ↔ ended = .error e := by
  obtain ⟨_, -, h⟩ := Checked.bind_ok h
  obtain ⟨out, hblob, h⟩ := Checked.bind_ok h
  obtain ⟨blob, rfl⟩ := CompiledUnit.blob_fits hblob
  obtain ⟨⟨ended, d⟩, hrun, h⟩ := Checked.bind_ok h
  refine ⟨ended, d, ⟨parameterCount, blob, hblob, hrun⟩, fun e => ?_⟩
  cases ended with
  | error refused =>
      obtain ⟨_, -, h⟩ := Checked.bind_ok h
      obtain ⟨rfl, -⟩ := Prod.mk.inj (Checked.pure_ok h)
      rw [Except.error.injEq, Except.error.injEq]
  | ok _ =>
      obtain ⟨code, -, h⟩ := Checked.bind_ok h
      obtain ⟨rfl, -⟩ := Prod.mk.inj (Checked.pure_ok h)
      exact ⟨nofun, nofun⟩

/-- Committing refuses nothing for want of room in the blob. -/
theorem commit_refusal {code : Code} {result : Except Refusal InstalledCode}
    (h : commit r code = .ok (result, r')) (e : Overflow) : result ≠ .error (.overflow e) := by
  rintro rfl
  simp only [commit] at h
  split at h
  · obtain ⟨_, -, h⟩ := Checked.bind_ok h
    exact nomatch (Prod.mk.inj (Checked.pure_ok h)).1
  · obtain ⟨full | registered, -, h⟩ := Checked.bind_ok h
    · obtain ⟨_, -, h⟩ := Checked.bind_ok h
      exact nomatch (Prod.mk.inj (Checked.pure_ok h)).1
    · exact nomatch (Prod.mk.inj (Checked.pure_ok h)).1

theorem assembleAndCommit_ended {parameterCount : Nat} {dependencies : List Dependency}
    {result : Except Refusal InstalledCode}
    (h : assembleAndCommit settings u parameterCount dependencies r = .ok (result, r')) :
    ∃ ended d, u.RunsTo settings r ended d ∧
      ∀ e, result = .error (.overflow e) ↔ ended = .error e := by
  obtain ⟨⟨assembled, r₁⟩, hpaused, hcommit⟩ := Checked.bind_ok h
  obtain ⟨⟨assembled', r₂⟩, hassemble, hpaused⟩ := Checked.bind_ok hpaused
  obtain ⟨rfl, rfl⟩ := Prod.mk.inj (Checked.pure_ok hpaused)
  obtain ⟨ended, d, hrun, hended⟩ := assemble_ended hassemble
  refine ⟨ended, d, hrun, fun e => ?_⟩
  rw [← hended]
  cases assembled' with
  | error refused =>
      obtain ⟨rfl, -⟩ := Prod.mk.inj (Checked.pure_ok hcommit)
      rw [Except.error.injEq, Except.error.injEq, Refusal.overflow.injEq]
  | ok code => exact ⟨fun hresult => absurd hresult (commit_refusal hcommit e), nofun⟩

/-- **An installation is refused for an overflow** exactly if the run of its sites is. -/
theorem Ends.overflow_iff {out : Except Refusal Receipt} (h : Ends settings u r out r') :
    ∃ ended d, u.RunsTo settings r ended d ∧
      ∀ e, out = .error (.overflow e) ↔ ended = .error e := by
  rcases h with h | h
  · simp only [installMethod] at h
    split at h
    · exact nomatch h
    · obtain ⟨dependencies, -, h⟩ := Checked.bind_ok h
      obtain ⟨⟨result, r₁⟩, hcommit, h⟩ := Checked.bind_ok h
      obtain ⟨rfl, rfl⟩ := Prod.mk.inj (Checked.pure_ok h)
      obtain ⟨ended, d, hrun, hended⟩ := assembleAndCommit_ended hcommit
      refine ⟨ended, d, hrun, fun e => ?_⟩
      rw [← hended]
      cases result with
      | error refusal => simp only [Except.map, Except.error.injEq]
      | ok installed => exact ⟨nofun, nofun⟩
  · obtain ⟨-, result, r₁, hcommit, h⟩ := installStub_done h
    obtain ⟨ended, d, hrun, hended⟩ := assembleAndCommit_ended hcommit
    refine ⟨ended, d, hrun, fun e => ?_⟩
    rw [← hended]
    cases result with
    | error refusal =>
        obtain ⟨rfl, -⟩ := h
        rw [Except.error.injEq, Except.error.injEq]
    | ok installed =>
        obtain ⟨rfl, -⟩ := h
        exact ⟨nofun, nofun⟩

end Ended

-- ── Units that outgrow their reserve ────────────────────────────────────────────

namespace CompiledUnit

/-- The constants that a unit loads are aligned to sixteen bytes at most. -/
def AlignsPatches (u : CompiledUnit) : Prop :=
  ∀ site ∈ u.sites, ∀ c alignment inlined, site.kind = .dataPatch c alignment inlined →
    alignment ∈ wordAlignments

/-- The producer's constants end shortly behind a multiple of sixteen bytes, and every site loads a
    constant aligned to sixteen. -/
structure OutgrowsReserve (u : CompiledUnit) : Prop where
  data : 0 < u.data.length % 16 ∧ u.data.length % 16 < 8
  sites : u.sites ≠ []
  loads : ∀ site ∈ u.sites, site.Fills

end CompiledUnit

theorem overrun_pos_iff {size : Nat} : 0 < overrun size ↔ 0 < size % 16 ∧ size % 16 < 8 := by
  rw [overrun]
  omega

theorem Site.loaded?_alignment {site : Site} {c : LoadedConstant} (h : site.loaded? = some c) :
    ∃ constant, site.kind = .dataPatch constant c.alignment false := by
  simp only [loaded?] at h
  split at h
  · next constant alignment hkind =>
      split at h
      · exact nomatch h
      · obtain rfl := Option.some.inj h
        exact ⟨constant, hkind⟩
  · exact nomatch h

/-- **Sixteen bytes per site are enough** for the constants of a unit whose patches are aligned to
    sixteen bytes at most, unless the producer's constants end one to seven bytes behind a multiple
    of sixteen and every site loads a constant aligned to sixteen. Such a unit is never
    registered. -/
theorem constants_outgrow_reserve {settings : Settings} {u : CompiledUnit} {r r' : Runtime}
    {out : Except Refusal Receipt} (hbytes : settings.constantBytesPerSite = 16)
    (hpatches : u.AlignsPatches) (h : Ends settings u r out r') :
    (∀ needed capacity, out = .error (.overflow (.constants needed capacity)) →
      u.OutgrowsReserve) ∧
    (u.OutgrowsReserve → ∃ e, out = .error (.overflow e)) := by
  obtain ⟨ended, d, ⟨parameterCount, blob, hblob, hrun⟩, hended⟩ := h.overflow_iff
  obtain ⟨hlayout, hdata⟩ := CompiledUnit.blob_layout hblob
  have hperm : u.sitesInOrder.Perm u.sites := List.mergeSort_perm ..
  have hcapacity : blob.layout.constantsCapacity =
      u.data.length + 16 * (0 + u.sitesInOrder.length) := by
    rw [CompiledUnit.layout_eq hlayout, hbytes, hperm.length_eq, Nat.zero_add, Nat.mul_comm]
  have halignment : ∀ site ∈ u.sitesInOrder, ∀ c, site.loaded? = some c →
      c.alignment ∈ wordAlignments := by
    intro site hsite c hc
    obtain ⟨constant, hkind⟩ := Site.loaded?_alignment hc
    exact hpatches site (hperm.mem_iff.mp hsite) constant c.alignment false hkind
  have hstart : 0 < overrun u.data.length →
      Overrunning u.data.length 0 blob.constants.length := fun hpos => by
    rw [hdata]
    exact ⟨hpos, rfl⟩
  constructor
  · intro needed capacity hout
    obtain rfl := (hended _).mp hout
    rcases Nat.eq_zero_or_pos (overrun u.data.length) with hzero | hpos
    · have hwithin : WithinReserve u.data.length 0 blob.constants.length := by
        simp only [WithinReserve, hdata, hzero, Nat.add_zero, Nat.mul_zero, Nat.le_refl]
      obtain ⟨_, hrecords⟩ := applySites_within halignment hcapacity hwithin hrun
      exact nomatch hrecords
    · rcases applySites_overrunning halignment hcapacity (hstart hpos) hrun with
        ⟨_, hrecords⟩ | ⟨hne, hfills⟩
      · exact nomatch hrecords
      · refine ⟨overrun_pos_iff.mp hpos, fun hempty => hne ?_, fun site hsite =>
          hfills site (hperm.mem_iff.mpr hsite)⟩
        rw [hempty] at hperm
        exact hperm.eq_nil
  · intro houtgrows
    cases ended with
    | error e => exact ⟨e, (hended e).mpr rfl⟩
    | ok _ =>
        refine absurd hrun (applySites_filling (fun hempty => houtgrows.sites ?_)
          (fun site hsite => houtgrows.loads site (hperm.mem_iff.mp hsite)) hcapacity
          (hstart (overrun_pos_iff.mpr houtgrows.data)))
        rw [hempty] at hperm
        exact hperm.symm.eq_nil

/-- One load of a constant aligned to sixteen bytes, behind a single byte of the producer. -/
def CompiledUnit.sampleOutgrown : CompiledUnit where
  name := "outgrown"
  code := [0xf2, 0x0f, 0x10, 0x05, 0, 0, 0, 0]
  codeSize := 8
  frameSize := 8
  sites := [⟨0, .dataPatch (.double 0x4000000000000000) 16 false⟩]
  dataSection := some ⟨[1], 1⟩

theorem CompiledUnit.sampleOutgrown_aligns : CompiledUnit.sampleOutgrown.AlignsPatches := by
  intro site hsite c alignment inlined hkind
  obtain rfl := List.mem_singleton.mp hsite
  obtain ⟨-, rfl, -⟩ := SiteKind.dataPatch.inj hkind
  decide

/-- The constant of the sample ends at 24 bytes, and 17 are reserved. -/
theorem CompiledUnit.sampleOutgrown_ends : ∃ r', Ends {} .sampleOutgrown .sample
    (.error (.overflow (.constants 24 17))) r' := by
  have hrefusal : refusal? (installStub {} .sampleOutgrown .sample) =
      some (.overflow (.constants 24 17)) := by
    have hsites : CompiledUnit.sampleOutgrown.sitesInOrder =
        CompiledUnit.sampleOutgrown.sites := List.mergeSort_singleton ..
    unfold installStub assembleAndCommit assemblePaused assemble
    rw [hsites]
    decide +kernel
  obtain ⟨r', hends⟩ := exists_of_refusal? hrefusal
  exact ⟨r', Or.inr hends⟩

theorem constants_outgrow_reserve_sample :
    ({} : Settings).constantBytesPerSite = 16 ∧ CompiledUnit.sampleOutgrown.AlignsPatches ∧
    ∃ r', Ends {} .sampleOutgrown .sample (.error (.overflow (.constants 24 17))) r' ∧
      CompiledUnit.sampleOutgrown.OutgrowsReserve := by
  obtain ⟨r', hends⟩ := CompiledUnit.sampleOutgrown_ends
  obtain ⟨houtgrows, -⟩ :=
    constants_outgrow_reserve rfl CompiledUnit.sampleOutgrown_aligns hends
  exact ⟨rfl, CompiledUnit.sampleOutgrown_aligns, r', hends, houtgrows 24 17 rfl⟩

/-- Sixteen bytes per site are not always enough. -/
theorem constants_reserve_outgrown :
    ¬ ∀ (settings : Settings) (u : CompiledUnit) (r r' : Runtime) (out : Except Refusal Receipt),
      settings.constantBytesPerSite = 16 → settings.constantsAlignment = 16 →
      u.AlignsPatches → Ends settings u r out r' →
      ∀ needed capacity, out ≠ .error (.overflow (.constants needed capacity)) := by
  intro hall
  obtain ⟨r', hends⟩ := CompiledUnit.sampleOutgrown_ends
  exact hall {} _ _ r' _ rfl rfl CompiledUnit.sampleOutgrown_aligns hends 24 17 rfl

-- ── Code and relocations ────────────────────────────────────────────────────────

/-- The mark of the stub that a call to a static method is first bound to. -/
def Site.IsStaticStub (site : Site) : Prop :=
  ∃ id references, site.kind = .mark id references ∧ Mark.ofNumber? id = some .staticCallStub

theorem Mark.recordLimit_le (mark : Mark) :
    mark.recordLimit ≤ 2 ∧ (mark ≠ .staticCallStub → mark.recordLimit = 1) := by
  cases mark <;> decide

theorem Site.recordLimit_le (site : Site) :
    site.recordLimit ≤ 2 ∧ (¬ site.IsStaticStub → site.recordLimit = 1) := by
  obtain ⟨offset, kind⟩ := site
  cases kind with
  | mark id references =>
      have hlimit : Site.recordLimit ⟨offset, .mark id references⟩ =
        ((Mark.ofNumber? id).map Mark.recordLimit).getD 1 := rfl
      rw [hlimit]
      cases hmark : Mark.ofNumber? id with
      | none => exact ⟨by decide, fun _ => rfl⟩
      | some mark =>
          refine ⟨mark.recordLimit_le.1, fun hstub => mark.recordLimit_le.2 ?_⟩
          rintro rfl
          exact hstub ⟨id, references, rfl, hmark⟩
  | call _ _ | safepoint _ | dataPatch _ _ _ => exact ⟨Nat.le_succ 1, fun _ => rfl⟩

section Room

variable {ctx : SiteContext} {d d' : Draft} {e : Overflow}

/-- A refused run has used up the relocations or the constants. -/
theorem applySites_refused {sites : List Site}
    (h : (applySites ctx sites).runOn d = .ok (.error e, d')) :
    (∃ capacity, e = .relocations capacity) ∨ ∃ needed capacity, e = .constants needed capacity := by
  induction sites generalizing d with
  | nil => exact nomatch h
  | cons site rest ih =>
      rcases Patch.bind_done h with ⟨e', he, hsite⟩ | ⟨_, d₁, -, hrest⟩
      · obtain rfl := Except.error.inj he
        cases hc : site.loaded? with
        | none => exact Or.inl (applySite_refused hc hsite)
        | some c =>
            obtain ⟨_, -, ⟨-, hfull⟩ | ⟨-, hrefused⟩⟩ := applySite_places hc hsite
            · exact Or.inr ⟨_, _, Except.error.inj hfull⟩
            · exact Or.inl (hrefused e rfl)
      · exact ih hrest

variable {settings : Settings} {u : CompiledUnit} {r r' : Runtime} {out : Except Refusal Receipt}

/-- **The relocations are used up** only where the sites may take more of them than are reserved
    for all sites together. -/
theorem Ends.exhausted {capacity : Nat}
    (h : Ends settings u r (.error (.overflow (.relocations capacity))) r') :
    u.sites.length * settings.relocationsPerSite < (u.sites.map Site.recordLimit).sum := by
  obtain ⟨ended, d, ⟨parameterCount, blob, hblob, hrun⟩, hended⟩ := h.overflow_iff
  obtain rfl := (hended _).mp rfl
  have hfull := (applySites_takes hrun).exhausted capacity rfl
  have hperm : u.sitesInOrder.Perm u.sites := List.mergeSort_perm ..
  rw [(CompiledUnit.blob_ok hblob).2, (hperm.map Site.recordLimit).sum_nat,
    CompiledUnit.layout_eq (CompiledUnit.blob_layout hblob).1, List.length_nil, Nat.zero_add]
    at hfull
  exact hfull

/-- **The code always fits, and two relocations per site are always enough**; one is enough for a
    unit without static call stubs. -/
theorem code_and_relocations_fit (h : Ends settings u r out r') :
    (∀ size capacity, out ≠ .error (.overflow (.instructions size capacity))) ∧
    (2 ≤ settings.relocationsPerSite ∨
        (settings.relocationsPerSite = 1 ∧ ∀ site ∈ u.sites, ¬ site.IsStaticStub) →
      ∀ capacity, out ≠ .error (.overflow (.relocations capacity))) := by
  constructor
  · rintro size capacity rfl
    obtain ⟨ended, d, ⟨_, _, -, hrun⟩, hended⟩ := h.overflow_iff
    obtain rfl := (hended _).mp rfl
    rcases applySites_refused hrun with ⟨_, he⟩ | ⟨_, _, he⟩ <;> exact nomatch he
  · rintro hreserve capacity rfl
    have hexhausted := h.exhausted
    have hlimit : ∀ site ∈ u.sites, site.recordLimit ≤ settings.relocationsPerSite := by
      intro site hsite
      rcases hreserve with htwo | ⟨hone, hstubs⟩
      · exact Nat.le_trans site.recordLimit_le.1 htwo
      · exact Nat.le_of_eq ((site.recordLimit_le.2 (hstubs site hsite)).trans hone.symm)
    have hsum : (u.sites.map Site.recordLimit).sum ≤
        u.sites.length * settings.relocationsPerSite := by
      have hle := List.sum_le_card_nsmul (u.sites.map Site.recordLimit) settings.relocationsPerSite
        (List.forall_mem_map.mpr hlimit)
      rwa [List.length_map, Nat.nsmul_eq_mul] at hle
    exact absurd hexhausted (Nat.not_lt_of_le hsum)

end Room

/-- A static call stub, which serves the call it stands at. -/
def CompiledUnit.sampleStaticStub : CompiledUnit where
  name := "static stub"
  code := [0x48, 0xb8, 0, 0, 0, 0, 0, 0, 0, 0]
  codeSize := 10
  frameSize := 8
  sites := [⟨0, .mark 0x1000 [0]⟩]

theorem CompiledUnit.sitesInOrder_sampleStaticStub :
    CompiledUnit.sampleStaticStub.sitesInOrder = CompiledUnit.sampleStaticStub.sites :=
  List.mergeSort_singleton ..

/-- The stub takes both of the records reserved for its site, and is refused where one is. -/
theorem code_and_relocations_fit_sample :
    2 ≤ ({} : Settings).relocationsPerSite ∧
    (∃ receipt r', Ends {} .sampleStaticStub .sample (.ok receipt) r' ∧
      receipt.installed.code.blob.relocations.length = 2 ∧
      ∀ capacity, (.ok receipt : Except Refusal Receipt) ≠
        .error (.overflow (.relocations capacity))) ∧
    ∃ r', Ends { relocationsPerSite := 1 } .sampleStaticStub .sample
        (.error (.overflow (.relocations 1))) r' ∧
      ∃ site ∈ CompiledUnit.sampleStaticStub.sites, site.IsStaticStub := by
  refine ⟨Nat.le_refl 2, ?_, ?_⟩
  · have hinstalled : (receipt? (installStub {} .sampleStaticStub .sample)).map
        (fun receipt => receipt.installed.code.blob.relocations.length) = some 2 := by
      unfold installStub assembleAndCommit assemblePaused assemble
      rw [CompiledUnit.sitesInOrder_sampleStaticStub]
      decide +kernel
    obtain ⟨receipt, hreceipt, hlength⟩ := Option.map_eq_some_iff.mp hinstalled
    obtain ⟨r', hends⟩ := exists_of_receipt? hreceipt
    exact ⟨receipt, r', Or.inr hends, hlength,
      (code_and_relocations_fit (Or.inr hends)).2 (Or.inl (Nat.le_refl 2))⟩
  · have hrefusal : refusal? (installStub { relocationsPerSite := 1 } .sampleStaticStub .sample) =
        some (.overflow (.relocations 1)) := by
      unfold installStub assembleAndCommit assemblePaused assemble
      rw [CompiledUnit.sitesInOrder_sampleStaticStub]
      decide +kernel
    obtain ⟨r', hends⟩ := exists_of_refusal? hrefusal
    refine ⟨r', Or.inr hends, Classical.byContradiction fun hnone => ?_⟩
    refine (code_and_relocations_fit (Or.inr hends)).2 (Or.inr ⟨rfl, fun site hsite hstub => ?_⟩)
      1 rfl
    exact hnone ⟨site, hsite, hstub⟩

end ManagedCode
