import ManagedCode.Proofs.Shifting
import ManagedCode.World.Sample

/-! # Moving code

    A unit is assembled where the code space starts and then moved to its place, which re-resolves
    every instruction with a positional record.  Assembling it at its place outright gives the same
    blob, unless an instruction that was bound to a fixed address is patched once more: its
    distance is then moved once for each record.

* **`Blob.moveTo_shifts`** — moving shifts the distances, once for each of them.
* **`moveTo_render`** — moving filled code fills it for its new place.
* **`moveTo_eq_direct_iff`** — when moving and assembling in place agree. -/

namespace ManagedCode

-- ── One record ──────────────────────────────────────────────────────────────────

namespace Blob

variable {b b' : Blob} {r : Relocation} {newBase : UInt64}

/-- A positional record shifts the operand it resolves through. -/
theorem retarget_ok {i : Instruction} {o : Operand} (hr : r.isPositional = true)
    (hi : Instruction.at? b.code r.offset = some i) (ho : positionalOperand r i = .ok o)
    (h : retarget newBase b r = .ok b') :
    let delta := Word.signed64 (b.base - newBase)
    o.value b.code + delta = Word.signed32 (o.value b.code + delta) ∧ o.size = 4 ∧
      o.offset + 4 ≤ b.code.length ∧ b' = { b with code := shift delta b.code o } := by
  unfold retarget at h
  rw [if_pos hr] at h
  obtain ⟨j, hj, h⟩ := Checked.bind_ok h
  obtain ⟨hat, -⟩ := Instruction.decodeAt_ok hj
  obtain rfl : i = j := Option.some.inj (hi.symm.trans hat)
  obtain ⟨o', ho', h⟩ := Checked.bind_ok h
  obtain rfl : o = o' := Except.ok.inj (ho.symm.trans ho')
  obtain ⟨distance, hdistance, h⟩ := Checked.bind_ok h
  obtain ⟨oldNext, holdNext, h⟩ := Checked.bind_ok h
  obtain ⟨newNext, hnewNext, h⟩ := Checked.bind_ok h
  obtain ⟨moved, hmoved, hwrite⟩ := Checked.bind_ok h
  obtain ⟨rfl, -⟩ := Address.advance_ok holdNext
  obtain ⟨rfl, -⟩ := Address.advance_ok hnewNext
  obtain ⟨hvalue, hfits⟩ := Address.distance_ok hmoved
  obtain ⟨_, hwidth, hwrite⟩ := Checked.bind_ok hwrite
  have hsize : o.size = 4 := require_ok hwidth
  obtain ⟨hin, -, rfl⟩ := writeBytes_ok hwrite
  have hread : distance = o.value b.code := by
    obtain ⟨_, -, hdistance⟩ := Checked.bind_ok hdistance
    obtain ⟨bytes, hbytes, hdistance⟩ := Checked.bind_ok hdistance
    obtain ⟨_, -, hbytes⟩ := Checked.bind_ok hbytes
    rw [← Checked.pure_ok hdistance, ← Checked.pure_ok hbytes]
    rfl
  have hrange : distance = Word.signed32 distance := by
    rw [hread]
    unfold Operand.value Word.signed32
    rw [Int.bmod_bmod]
  have hexact : moved = o.value b.code + Word.signed64 (b.base - newBase) := by
    rw [← hread]
    exact Address.displace_sub_eq b.base newBase (UInt64.ofNat i.next) hrange hvalue hfits
  refine ⟨hexact ▸ hfits, hsize, hin, ?_⟩
  unfold shift fourBytes
  rw [hexact]

theorem foldlM_retarget_free {records : List Relocation}
    (h : ∀ r ∈ records, r.isPositional = false) :
    records.foldlM (retarget newBase) b = .ok b := by
  induction records with
  | nil => rfl
  | cons r rest ih =>
      have hr : retarget newBase b r = .ok b := by
        unfold retarget
        rw [h r (List.mem_cons_self ..)]
        rfl
      rw [List.foldlM_cons, hr]
      exact ih fun r' hr' => h r' (List.mem_cons_of_mem _ hr')

end Blob

theorem Patched.shift {past : List Stretch} {code cur : List UInt8} {s : Stretch} {delta : Int}
    (h : Patched past code cur) (hs : s ∈ past) (hsize : s.operand.size = 4)
    (hin : s.operand.offset + 4 ≤ cur.length) :
    Patched past code (shift delta cur s.operand) := by
  refine ⟨(length_shift hin).trans h.length, fun p hp => ?_⟩
  unfold ManagedCode.shift
  rw [Blob.getElem?_overwrite (by rw [length_fourBytes]; exact hin), if_neg, h.agree p hp]
  have := hp s hs
  unfold Stretch.Covers at this
  rw [length_fourBytes, ← hsize]
  exact this

-- ── The stretches of a run ──────────────────────────────────────────────────────

section Marked

variable {code : List UInt8} {marked : List (Footprint × Imprint)}

/-- Every operand filled is that of a stretch. -/
theorem Footprint.Matches.exists_stretch {f : Footprint} {imprint : Imprint} {e : Edit}
    (h : f.Matches code imprint) (he : e ∈ imprint.edits) :
    ∃ s ∈ f.stretches, s.operand = e.operand := by
  have hmem : e.operand ∈ f.stretches.map Stretch.operand :=
    h.operands ▸ List.mem_map_of_mem he
  exact List.mem_map.mp hmem

theorem Footprint.Matches.exists_edit {f : Footprint} {imprint : Imprint} {s : Stretch}
    (h : f.Matches code imprint) (hs : s ∈ f.stretches) :
    ∃ e ∈ imprint.edits, e.operand = s.operand := by
  have hmem : s.operand ∈ imprint.edits.map Edit.operand :=
    h.operands ▸ List.mem_map_of_mem hs
  exact List.mem_map.mp hmem

theorem Footprint.Matches.anchored_of_distance {f : Footprint} {imprint : Imprint} {e : Edit}
    (h : f.Matches code imprint) (he : e ∈ imprint.edits)
    (hdistance : e.filling.isDistance = true) : f.anchored = true := by
  cases hanchored : f.anchored with
  | true => rfl
  | false =>
      have := (h.free hanchored).1 e he
      rw [hdistance] at this
      exact nomatch this

theorem Footprint.SameOrApart.symm {f g : Footprint} (h : f.SameOrApart g) : g.SameOrApart f := by
  intro t ht s hs
  rcases h s hs t ht with rfl | hapart
  · exact Or.inl rfl
  · exact Or.inr hapart.symm

/-- **An instruction bound to a fixed address** is hit exactly or not at all by every patch. -/
theorem same_or_apart_of_anchored (hmarked : ∀ m ∈ marked, m.1.Matches code m.2)
    (hpair : marked.Pairwise fun m n => m.1.SameOrApart n.1) {m : Footprint × Imprint}
    (hm : m ∈ marked) (hanchored : m.1.anchored = true) {s : Stretch} (hs : s ∈ m.1.stretches)
    {n : Footprint × Imprint} (hn : n ∈ marked) {t : Stretch} (ht : t ∈ n.1.stretches) :
    t = s ∨ t.Apart s := by
  induction marked with
  | nil => exact (List.not_mem_nil hm).elim
  | cons first rest ih =>
      rw [List.pairwise_cons] at hpair
      rcases List.mem_cons.mp hm with rfl | hmrest
      · rcases List.mem_cons.mp hn with rfl | hnrest
        · obtain ⟨i, _, _, _, -, hstretches, -⟩ :=
            (hmarked n (List.mem_cons_self ..)).anchored hanchored
          rw [hstretches] at hs ht
          exact Or.inl ((List.mem_singleton.mp ht).trans (List.mem_singleton.mp hs).symm)
        · exact (hpair.1 n hnrest).symm t ht s hs
      · rcases List.mem_cons.mp hn with rfl | hnrest
        · exact hpair.1 m hmrest t ht s hs
        · exact ih (fun m' hm' => hmarked m' (List.mem_cons_of_mem _ hm')) hpair.2 hmrest hnrest

/-- All edits, in order. -/
def editsOf (marked : List (Footprint × Imprint)) : List Edit := marked.flatMap fun m => m.2.edits

theorem apart_of_stretches {s t : Stretch} (hs : s.Proper) (ht : t.Proper) (h : s.Apart t) :
    s.operand.Apart t.operand := by
  unfold Stretch.Proper at hs ht
  unfold Stretch.Apart at h
  unfold Operand.Apart
  omega

/-- Where nothing bound to a fixed address is patched again, no distance is filled again. -/
theorem once_of_respects (hmarked : ∀ m ∈ marked, m.1.Matches code m.2)
    (hpair : marked.Pairwise fun m n => m.1.SameOrApart n.1)
    (hrespects : marked.Pairwise fun m n => m.1.Respects n.1) :
    (editsOf marked).Pairwise fun e e' =>
      e.filling.isDistance = true → e.operand.Apart e'.operand := by
  induction marked with
  | nil => exact .nil
  | cons m rest ih =>
      rw [List.pairwise_cons] at hpair hrespects
      have hm := hmarked m (List.mem_cons_self ..)
      refine List.pairwise_append.mpr ⟨?_, ?_, ?_⟩
      · cases hanchored : m.1.anchored with
        | true =>
            obtain ⟨i, target, kind, format, -, -, hedits, -⟩ := hm.anchored hanchored
            show m.2.edits.Pairwise _
            rw [hedits]
            exact List.pairwise_singleton _ _
        | false =>
            refine List.Pairwise.imp_of_mem (fun he _ _ hdistance => ?_)
              (List.pairwise_of_forall fun _ _ => trivial)
            rw [(hm.free hanchored).1 _ he] at hdistance
            exact nomatch hdistance
      · exact ih (fun n hn => hmarked n (List.mem_cons_of_mem _ hn)) hpair.2 hrespects.2
      · intro e he e' he' hdistance
        obtain ⟨n, hn, he'⟩ := List.mem_flatMap.mp he'
        have hnm := hmarked n (List.mem_cons_of_mem _ hn)
        have hanchored := hm.anchored_of_distance he hdistance
        obtain ⟨s, hs, hse⟩ := hm.exists_stretch he
        obtain ⟨t, ht, hte⟩ := hnm.exists_stretch he'
        rw [← hse, ← hte]
        rcases hpair.1 n hn s hs t ht with rfl | hapart
        · exact (hrespects.1 n hn hanchored s hs ht).elim
        · exact apart_of_stretches (hm.proper s hs) (hnm.proper t ht) hapart

/-- Where something bound to a fixed address is patched again, a distance is filled again. -/
theorem again_of_not_respects (hmarked : ∀ m ∈ marked, m.1.Matches code m.2)
    (h : ¬marked.Pairwise fun m n => m.1.Respects n.1) :
    ∃ before x later, editsOf marked = before ++ x :: later ∧ x.filling.isDistance = true ∧
      ∃ e ∈ later, e.operand = x.operand := by
  induction marked with
  | nil => exact (h .nil).elim
  | cons m rest ih =>
      have hm := hmarked m (List.mem_cons_self ..)
      by_cases hrest : rest.Pairwise fun m n => m.1.Respects n.1
      · have hfirst : ¬∀ n ∈ rest, m.1.Respects n.1 := fun hall =>
          h (List.pairwise_cons.mpr ⟨hall, hrest⟩)
        unfold Footprint.Respects at hfirst
        simp only [Classical.not_forall, Classical.not_not] at hfirst
        obtain ⟨n, hn, hanchored, s, hs, hsn⟩ := hfirst
        obtain ⟨i, target, kind, format, -, hstretches, hedits, -⟩ := hm.anchored hanchored
        obtain ⟨e, he, hes⟩ := (hmarked n (List.mem_cons_of_mem _ hn)).exists_edit hsn
        refine ⟨[], ⟨i.firstOperand, .distance target i.next⟩, editsOf rest, ?_, rfl, e, ?_, ?_⟩
        · show m.2.edits ++ editsOf rest = _
          rw [hedits]
          rfl
        · exact List.mem_flatMap.mpr ⟨n, hn, he⟩
        · rw [hstretches] at hs
          obtain rfl := List.mem_singleton.mp hs
          exact hes
      · obtain ⟨before, x, later, hedits, hx, hagain⟩ :=
          ih (fun n hn => hmarked n (List.mem_cons_of_mem _ hn)) hrest
        refine ⟨m.2.edits ++ before, x, later, ?_, hx, hagain⟩
        show m.2.edits ++ editsOf rest = _
        rw [hedits, List.append_assoc]

/-- A distance shares its operand or no byte of it with every other edit. -/
theorem apart_of_distance (hmarked : ∀ m ∈ marked, m.1.Matches code m.2)
    (hpair : marked.Pairwise fun m n => m.1.SameOrApart n.1) {x : Edit} (hx : x ∈ editsOf marked)
    (hdistance : x.filling.isDistance = true) :
    ∀ e ∈ editsOf marked, e.operand = x.operand ∨ e.operand.Apart x.operand := by
  intro e he
  obtain ⟨m, hm, hx⟩ := List.mem_flatMap.mp hx
  obtain ⟨n, hn, he⟩ := List.mem_flatMap.mp he
  have hanchored := (hmarked m hm).anchored_of_distance hx hdistance
  obtain ⟨s, hs, hsx⟩ := (hmarked m hm).exists_stretch hx
  obtain ⟨t, ht, hte⟩ := (hmarked n hn).exists_stretch he
  rw [← hsx, ← hte]
  rcases same_or_apart_of_anchored hmarked hpair hm hanchored hs hn ht with rfl | hapart
  · exact Or.inl rfl
  · exact Or.inr (apart_of_stretches ((hmarked n hn).proper t ht) ((hmarked m hm).proper s hs)
      hapart)

-- ── Moving shifts the distances ─────────────────────────────────────────────────

/-- All stretches, in order. -/
def stretchesOf (marked : List (Footprint × Imprint)) : List Stretch :=
  marked.flatMap fun m => m.1.stretches

/-- All records, in order. -/
def recordsOf (marked : List (Footprint × Imprint)) : List Relocation :=
  marked.flatMap fun m => m.2.records

/-- Following the records of a run shifts its distances, in order. By induction on the run; code
    that is shifted already still decodes as it did at first. -/
theorem foldlM_retarget {past : List Stretch} {newBase : UInt64} {b moved : Blob}
    (hproper : ∀ t ∈ past, t.Proper) (hcur : Patched past code b.code)
    (hmarked : ∀ m ∈ marked, m.1.Matches code m.2)
    (hhits : ∀ m ∈ marked, m.1.anchored = true → ∀ s ∈ m.1.stretches,
      s ∈ past ∧ ∀ t ∈ past, t = s ∨ t.Apart s)
    (h : (recordsOf marked).foldlM (Blob.retarget newBase) b = .ok moved) :
    ShiftsFit (Word.signed64 (b.base - newBase)) b.code (distances (editsOf marked)) ∧
      moved = { b with
        code := shifts (Word.signed64 (b.base - newBase)) b.code
          (distances (editsOf marked)) } := by
  induction marked generalizing b with
  | nil =>
      obtain rfl := Except.ok.inj h
      exact ⟨trivial, rfl⟩
  | cons m rest ih =>
      have hm := hmarked m (List.mem_cons_self ..)
      have hrest := fun n hn => hmarked n (List.mem_cons_of_mem m hn)
      have hhitsRest := fun n hn => hhits n (List.mem_cons_of_mem m hn)
      change (m.2.records ++ recordsOf rest).foldlM (Blob.retarget newBase) b = .ok moved at h
      have hdistances : distances (editsOf (m :: rest)) =
          distances m.2.edits ++ distances (editsOf rest) := distances_append ..
      rw [List.foldlM_append] at h
      rw [hdistances]
      cases hanchored : m.1.anchored with
      | false =>
          obtain ⟨hfixed, hrecords⟩ := hm.free hanchored
          rw [Blob.foldlM_retarget_free hrecords] at h
          have hnone : distances m.2.edits = [] := by
            unfold distances
            rw [List.filter_eq_nil_iff.mpr fun e he => by rw [hfixed e he]; exact nofun]
            rfl
          rw [hnone, List.nil_append]
          exact ih hcur hrest hhitsRest h
      | true =>
          obtain ⟨i, target, kind, format, hi, hstretches, hedits, hrecords, hpositional, ho⟩ :=
            hm.anchored hanchored
          have hs : (⟨i.offset, i.firstOperand, i.next⟩ : Stretch) ∈ m.1.stretches := by
            rw [hstretches]
            exact List.mem_singleton.mpr rfl
          obtain ⟨hspast, hsame⟩ := hhits m (List.mem_cons_self ..) hanchored _ hs
          obtain ⟨b₁, hrecord, hlater⟩ := Checked.bind_ok h
          rw [hrecords] at hrecord
          obtain ⟨b₂, hretarget, hnil⟩ := Checked.bind_ok hrecord
          obtain rfl : b₂ = b₁ := Except.ok.inj hnil
          have hdecoded : Instruction.at? b.code i.offset = some i := by
            rw [hcur.at?_eq hproper (by rw [Patched.of_instruction hi]; exact hsame)]
            exact hi
          obtain ⟨hsum, hsize, hin, rfl⟩ := Blob.retarget_ok hpositional hdecoded ho hretarget
          have hone : distances m.2.edits = [i.firstOperand] := by
            rw [hedits]
            rfl
          rw [hone]
          obtain ⟨hfit, hmoved⟩ := ih (hcur.shift hspast hsize hin) hrest hhitsRest hlater
          exact ⟨⟨hsum, hsize, hin, hfit⟩, hmoved⟩

end Marked

-- ── Moving and assembling in place ──────────────────────────────────────────────

section Moving

variable {marked : List (Footprint × Imprint)} {b moved : Blob} {newBase : UInt64}

/-- The imprints of a run as one. -/
def imprintOf (marked : List (Footprint × Imprint)) : Imprint :=
  .join (marked.map Prod.snd)

theorem edits_imprintOf (marked : List (Footprint × Imprint)) :
    (imprintOf marked).edits = editsOf marked := List.flatMap_map ..

theorem records_imprintOf (marked : List (Footprint × Imprint)) :
    (imprintOf marked).records = recordsOf marked := List.flatMap_map ..

theorem operands_editsOf {code : List UInt8} (hmarked : ∀ m ∈ marked, m.1.Matches code m.2) :
    (editsOf marked).map Edit.operand = (stretchesOf marked).map Stretch.operand := by
  induction marked with
  | nil => rfl
  | cons m rest ih =>
      show (m.2.edits ++ editsOf rest).map _ = (m.1.stretches ++ stretchesOf rest).map _
      rw [List.map_append, List.map_append, (hmarked m (List.mem_cons_self ..)).operands,
        ih fun n hn => hmarked n (List.mem_cons_of_mem _ hn)]

/-- **Moving shifts the distances of a run**, once for each of them. -/
theorem Blob.moveTo_shifts (hmarked : ∀ m ∈ marked, m.1.Matches b.code m.2)
    (hpair : marked.Pairwise fun m n => m.1.SameOrApart n.1) (hempty : b.relocations = [])
    (hfits : (imprintOf marked).Fits b)
    (h : ((imprintOf marked).apply b).moveTo newBase = .ok moved) :
    let delta := Word.signed64 (b.base - newBase)
    let filled := render b.base b.code (editsOf marked)
    ShiftsFit delta filled (distances (editsOf marked)) ∧
      moved = { (imprintOf marked).apply b with
        code := shifts delta filled (distances (editsOf marked)), base := newBase } := by
  obtain ⟨b₁, hfold, h⟩ := Checked.bind_ok h
  have hmoved := Checked.pure_ok h
  have hrecords : ((imprintOf marked).apply b).relocations = recordsOf marked := by
    rw [← records_imprintOf]
    show b.relocations ++ _ = _
    rw [hempty, List.nil_append]
  have hfilled : ((imprintOf marked).apply b).code = render b.base b.code (editsOf marked) := by
    rw [← edits_imprintOf]
    rfl
  have hproper : ∀ t ∈ stretchesOf marked, t.Proper := by
    intro t ht
    obtain ⟨m, hm, ht⟩ := List.mem_flatMap.mp ht
    exact (hmarked m hm).proper t ht
  have hoperands : (imprintOf marked).edits.map Edit.operand =
      (stretchesOf marked).map Stretch.operand := by
    rw [edits_imprintOf, operands_editsOf hmarked]
  have hcur : Patched (stretchesOf marked) b.code ((imprintOf marked).apply b).code :=
    (Patched.refl [] b.code).render hfits hoperands
  have hhits : ∀ m ∈ marked, m.1.anchored = true → ∀ s ∈ m.1.stretches,
      s ∈ stretchesOf marked ∧ ∀ t ∈ stretchesOf marked, t = s ∨ t.Apart s := by
    intro m hm hanchored s hs
    refine ⟨List.mem_flatMap.mpr ⟨m, hm, hs⟩, fun t ht => ?_⟩
    obtain ⟨n, hn, ht⟩ := List.mem_flatMap.mp ht
    exact same_or_apart_of_anchored hmarked hpair hm hanchored hs hn ht
  rw [hrecords] at hfold
  obtain ⟨hfit, hb₁⟩ := foldlM_retarget hproper hcur hmarked hhits hfold
  rw [hfilled] at hfit hb₁
  refine ⟨hfit, ?_⟩
  rw [← hmoved, hb₁]
  rfl

/-- **Moving filled code fills it for its new place**, if nothing bound to a fixed address is
    patched again. -/
theorem moveTo_render (hmarked : ∀ m ∈ marked, m.1.Matches b.code m.2)
    (hpair : marked.Pairwise fun m n => m.1.SameOrApart n.1)
    (hrespects : marked.Pairwise fun m n => m.1.Respects n.1) (hempty : b.relocations = [])
    (hfits : (imprintOf marked).Fits b)
    (h : ((imprintOf marked).apply b).moveTo newBase = .ok moved) :
    moved = (imprintOf marked).apply { b with base := newBase } ∧
      (imprintOf marked).Fits { b with base := newBase } := by
  obtain ⟨hshift, rfl⟩ := Blob.moveTo_shifts hmarked hpair hempty hfits h
  unfold Imprint.Fits at hfits ⊢
  rw [edits_imprintOf] at hfits ⊢
  obtain ⟨hcode, hnew⟩ := shifts_render hfits (once_of_respects hmarked hpair hrespects) hshift
  refine ⟨?_, hnew⟩
  simp only [hcode, Imprint.apply, edits_imprintOf]

end Moving

/-- A draft whose code stands at another address. -/
def Draft.standingAt (d : Draft) (base : UInt64) : Draft :=
  { d with blob := { d.blob with base := base } }

/-- A run from unpatched code, wherever the code stands: the footprints of the sites with the
    imprints left by them, which are the same for every address. -/
theorem applySites_marked {ctx : SiteContext} {sites : List Site} {d : Draft}
    (hsites : (footprints d.blob.code d.pending sites).Pairwise Footprint.SameOrApart)
    {base : UInt64} {d' : Draft}
    (h : (applySites ctx sites).runOn (d.standingAt base) = .ok (.ok (), d')) :
    ∃ marked, imprints? ctx d.blob d.pending d.records sites = some (marked.map Prod.snd) ∧
      marked.map Prod.fst = footprints d.blob.code d.pending sites ∧
      (∀ m ∈ marked, m.1.Matches d.blob.code m.2) ∧
      (marked.Pairwise fun m n => m.1.SameOrApart n.1) ∧
      (imprintOf marked).Fits (d.standingAt base).blob ∧
      d'.blob = (imprintOf marked).apply (d.standingAt base).blob := by
  obtain ⟨imprints, himprints, hfits, hblob⟩ := applySites_imprints (d := d.standingAt base)
    (Patched.refl [] d.blob.code) (fun t ht => (List.not_mem_nil ht).elim)
    (fun t ht => (List.not_mem_nil ht).elim) hsites h
  have himprints' : imprints? ctx d.blob d.pending d.records sites = some imprints := by
    rw [← himprints]
    exact (imprints?_base ctx base d.blob d.pending d.records sites).symm
  obtain ⟨marked, hfirst, rfl, hmarked⟩ := imprints?_matches himprints'
  refine ⟨marked, himprints', hfirst, hmarked, ?_, hfits, hblob⟩
  rw [← hfirst, List.pairwise_map] at hsites
  exact hsites

/-- **Moving and assembling in place agree** exactly where the code stays or no instruction that a
    site binds to a fixed address is patched by a later site. -/
theorem moveTo_eq_direct_iff {ctx : SiteContext} {sites : List Site} {d assembled direct : Draft}
    {old new : UInt64} {moved : Blob} (hempty : d.blob.relocations = [])
    (hsites : (footprints d.blob.code d.pending sites).Pairwise Footprint.SameOrApart)
    (hassembled : (applySites ctx sites).runOn (d.standingAt old) = .ok (.ok (), assembled))
    (hmoved : assembled.blob.moveTo new = .ok moved)
    (hdirect : (applySites ctx sites).runOn (d.standingAt new) = .ok (.ok (), direct)) :
    moved = direct.blob ↔
      old = new ∨ (footprints d.blob.code d.pending sites).Pairwise Footprint.Respects := by
  obtain ⟨marked, himprints, hfirst, hmarked, hpair, hfits, hblob⟩ :=
    applySites_marked hsites hassembled
  obtain ⟨marked', himprints', hfirst', hmarked', -, hfits', hblob'⟩ :=
    applySites_marked hsites hdirect
  have hsecond : marked'.map Prod.snd = marked.map Prod.snd :=
    Option.some.inj (himprints'.symm.trans himprints)
  have himprint : imprintOf marked' = imprintOf marked := congrArg Imprint.join hsecond
  rw [himprint] at hfits' hblob'
  rw [hblob] at hmoved
  have hrespects : (footprints d.blob.code d.pending sites).Pairwise Footprint.Respects ↔
      marked.Pairwise fun m n => m.1.Respects n.1 := by
    rw [← hfirst, List.pairwise_map]
  rw [hrespects, hblob']
  have hshifts :=
    Blob.moveTo_shifts (b := (d.standingAt old).blob) hmarked hpair hempty hfits hmoved
  simp only [Draft.standingAt] at hshifts
  obtain ⟨hshift, hvalue⟩ := hshifts
  constructor
  · intro heq
    by_cases hrespects' : marked.Pairwise fun m n => m.1.Respects n.1
    · exact Or.inr hrespects'
    · obtain ⟨before, x, later, hedits, hx, hagain⟩ := again_of_not_respects hmarked hrespects'
      have hother := apart_of_distance hmarked hpair (hedits ▸ List.mem_append_right _
        (List.mem_cons_self ..)) hx
      have hcode : shifts (Word.signed64 (old - new)) (render old d.blob.code (editsOf marked))
          (distances (editsOf marked)) = render new d.blob.code (editsOf marked) := by
        rw [hvalue, ← edits_imprintOf] at heq
        rw [← edits_imprintOf]
        exact congrArg Blob.code heq
      unfold Imprint.Fits at hfits hfits'
      rw [edits_imprintOf] at hfits hfits'
      rw [hedits] at hfits hfits' hother hshift hcode
      exact Or.inl (eq_of_shifts_render hfits hfits' hx hagain hother hshift hcode)
  · rintro (rfl | hrespects')
    · rw [hvalue]
      have hzero : Word.signed64 (old - old) = 0 := by
        rw [UInt64.sub_self]
        exact Int.zero_bmod
      rw [hzero] at hshift ⊢
      rw [shifts_zero hshift, ← edits_imprintOf]
      rfl
    · exact (moveTo_render (b := (d.standingAt old).blob) hmarked hpair hrespects' hempty hfits
        hmoved).1

-- ── A poll and a call ───────────────────────────────────────────────────────────

/-- The sample runtime with nothing installed. -/
def SiteContext.sample : SiteContext where
  world := .sample
  stubs := Description.sample.stubs
  codes := { space := { base := 0x7f000000, capacity := 0x1000 } }
  settings := {}
  frameSize := 16
  parameterCount := 0

/-- A poll and a call, both without their distances. -/
def Draft.pollAndCall : Draft where
  blob :=
    { layout := ⟨11, 0, 16, 4⟩
      code := [0x85, 0x05, 0, 0, 0, 0, 0xe8, 0, 0, 0, 0]
      constants := []
      relocations := []
      base := 0 }

/-- The poll as a mark. -/
def Site.samplePoll : Site := ⟨0, .mark 0x3001 []⟩

/-- The call, to a runtime stub. -/
def Site.sampleCall : Site := ⟨6, .call (.runtimeStub 1) none⟩

/-- A poll and a call that are patched once each are the same either way. -/
theorem moveTo_eq_direct_once :
    (footprints Draft.pollAndCall.blob.code .none [.samplePoll, .sampleCall]).Pairwise
        Footprint.SameOrApart ∧
      ∃ assembled moved direct,
        (applySites .sample [.samplePoll, .sampleCall]).runOn
            (Draft.pollAndCall.standingAt 0x7f000000) = .ok (.ok (), assembled) ∧
        assembled.blob.moveTo 0x7f000040 = .ok moved ∧
        (applySites .sample [.samplePoll, .sampleCall]).runOn
            (Draft.pollAndCall.standingAt 0x7f000040) = .ok (.ok (), direct) ∧
        moved = direct.blob := by
  have hsites : (footprints Draft.pollAndCall.blob.code Draft.pollAndCall.pending
      [.samplePoll, .sampleCall]).Pairwise Footprint.SameOrApart := by decide
  have hassembled : (applySites .sample [.samplePoll, .sampleCall]).runOn
      (Draft.pollAndCall.standingAt 0x7f000000) = .ok (.ok (), _) := rfl
  have hdirect : (applySites .sample [.samplePoll, .sampleCall]).runOn
      (Draft.pollAndCall.standingAt 0x7f000040) = .ok (.ok (), _) := rfl
  refine ⟨hsites, _, _, _, hassembled, rfl, hdirect, ?_⟩
  exact (moveTo_eq_direct_iff rfl hsites hassembled rfl hdirect).mpr (Or.inr (by decide))

/-- A poll that is marked twice is not: its distance is moved twice. -/
theorem moveTo_ne_direct_twice :
    (footprints Draft.pollAndCall.blob.code .none [.samplePoll, .samplePoll]).Pairwise
        Footprint.SameOrApart ∧
      ∃ assembled moved direct,
        (applySites .sample [.samplePoll, .samplePoll]).runOn
            (Draft.pollAndCall.standingAt 0x7f000000) = .ok (.ok (), assembled) ∧
        assembled.blob.moveTo 0x7f000040 = .ok moved ∧
        (applySites .sample [.samplePoll, .samplePoll]).runOn
            (Draft.pollAndCall.standingAt 0x7f000040) = .ok (.ok (), direct) ∧
        moved ≠ direct.blob :=
  ⟨by decide, _, _, _, rfl, rfl, rfl, by decide⟩

end ManagedCode
