import ManagedCode.Proofs.Targets

/-! # The order in which sites are given

    Sites are applied by offset, and sites of one offset in the order in which the producer gave
    them.  The sort is stable, so that what it makes of a list is told by the sites at each offset
    alone; how many there are decides on the reserves of the blob, and nothing else looks at the
    list that was given.

* **`CompiledUnit.SameAtEachOffset`** — units that differ in the order of their sites only, and not
  at any one offset.
* **`CompiledUnit.sitesAt_sitesInOrder`** — sorting keeps the sites of an offset and their order.
* **`eq_of_sitesAt_eq`** — a list sorted by offset is told by its sites at each offset.
* **`CompiledUnit.sitesInOrder_eq_iff`** — when two units have the same sites in order.
* **`installations_ignore_site_order`** — such units are installed alike. -/

namespace ManagedCode

/-- The sites at an offset, in order. -/
def sitesAt (offset : Int) (sites : List Site) : List Site :=
  sites.filter fun site => site.offset = offset

/-- The second unit is the first with its sites in another order, where those at each offset are
    the same list. -/
structure CompiledUnit.SameAtEachOffset (u u' : CompiledUnit) : Prop where
  rest : u' = { u with sites := u'.sites }
  sites : ∀ offset, sitesAt offset u'.sites = sitesAt offset u.sites

-- ── Sorting by offset ───────────────────────────────────────────────────────────

theorem mem_sitesAt {offset : Int} {site : Site} {sites : List Site} :
    site ∈ sitesAt offset sites ↔ site ∈ sites ∧ site.offset = offset := by
  simp [sitesAt]

theorem sitesAt_cons (offset : Int) (site : Site) (sites : List Site) :
    sitesAt offset (site :: sites) =
      if site.offset = offset then site :: sitesAt offset sites else sitesAt offset sites := by
  simp [sitesAt, List.filter_cons]

/-- Lists with the same sites at each offset have the same sites. -/
theorem mem_iff_of_sitesAt_eq {sites sites' : List Site}
    (h : ∀ offset, sitesAt offset sites' = sitesAt offset sites) (site : Site) :
    site ∈ sites' ↔ site ∈ sites := by
  have hsame := h site.offset
  constructor
  · intro hsite
    have hat := mem_sitesAt.mpr ⟨hsite, rfl⟩
    rw [hsame] at hat
    exact (mem_sitesAt.mp hat).1
  · intro hsite
    have hat := mem_sitesAt.mpr ⟨hsite, rfl⟩
    rw [← hsame] at hat
    exact (mem_sitesAt.mp hat).1

/-- A list sorted by offset starts at the least offset. -/
theorem head_offset_le {first : Site} {rest : List Site}
    (hsorted : (first :: rest).Pairwise fun a b => a.offset ≤ b.offset) :
    ∀ site ∈ first :: rest, first.offset ≤ site.offset := by
  intro site hsite
  rcases List.mem_cons.mp hsite with rfl | hsite
  · exact Int.le_refl _
  · exact (List.pairwise_cons.mp hsorted).1 site hsite

/-- **A list sorted by offset is told by its sites at each offset.** -/
theorem eq_of_sitesAt_eq {sites sites' : List Site}
    (hsorted : sites.Pairwise fun a b => a.offset ≤ b.offset)
    (hsorted' : sites'.Pairwise fun a b => a.offset ≤ b.offset)
    (h : ∀ offset, sitesAt offset sites' = sitesAt offset sites) : sites' = sites := by
  have hmem := mem_iff_of_sitesAt_eq h
  induction sites generalizing sites' with
  | nil => exact List.eq_nil_iff_forall_not_mem.mpr fun site hsite => nomatch (hmem site).mp hsite
  | cons first rest ih =>
      cases sites' with
      | nil => exact nomatch (hmem first).mpr (List.mem_cons_self ..)
      | cons first' rest' =>
          have hoffset : first'.offset = first.offset :=
            Int.le_antisymm
              (head_offset_le hsorted' first ((hmem first).mpr (List.mem_cons_self ..)))
              (head_offset_le hsorted first' ((hmem first').mp (List.mem_cons_self ..)))
          have hfirst := h first.offset
          rw [sitesAt_cons, sitesAt_cons, if_pos hoffset, if_pos rfl] at hfirst
          obtain ⟨rfl, -⟩ := List.cons.inj hfirst
          have htail : ∀ offset, sitesAt offset rest' = sitesAt offset rest := by
            intro offset
            have hboth := h offset
            rw [sitesAt_cons, sitesAt_cons] at hboth
            by_cases hat : first'.offset = offset
            · rw [if_pos hat, if_pos hat] at hboth
              exact (List.cons.inj hboth).2
            · rw [if_neg hat, if_neg hat] at hboth
              exact hboth
          rw [ih hsorted.of_cons hsorted'.of_cons htail (mem_iff_of_sitesAt_eq htail)]

namespace CompiledUnit

variable {u u' : CompiledUnit}

private theorem offset_le_trans (a b c : Site) (hab : decide (a.offset ≤ b.offset) = true)
    (hbc : decide (b.offset ≤ c.offset) = true) : decide (a.offset ≤ c.offset) = true := by
  simp only [decide_eq_true_eq] at hab hbc ⊢
  omega

private theorem offset_le_total (a b : Site) :
    (decide (a.offset ≤ b.offset) || decide (b.offset ≤ a.offset)) = true := by
  simp only [Bool.or_eq_true, decide_eq_true_eq]
  omega

theorem perm_sitesInOrder (u : CompiledUnit) : u.sitesInOrder.Perm u.sites :=
  List.mergeSort_perm ..

theorem pairwise_sitesInOrder (u : CompiledUnit) :
    u.sitesInOrder.Pairwise fun a b => a.offset ≤ b.offset :=
  (List.pairwise_mergeSort offset_le_trans offset_le_total u.sites).imp of_decide_eq_true

/-- **Sorting keeps the sites of an offset and their order.** -/
theorem sitesAt_sitesInOrder (u : CompiledUnit) (offset : Int) :
    sitesAt offset u.sitesInOrder = sitesAt offset u.sites := by
  have hsame : (sitesAt offset u.sites).Pairwise
      fun a b => decide (a.offset ≤ b.offset) = true := by
    refine List.pairwise_iff_forall_sublist.mpr fun {a b} hab => ?_
    obtain ⟨-, ha⟩ := mem_sitesAt.mp (hab.subset (List.mem_cons_self ..))
    obtain ⟨-, hb⟩ := mem_sitesAt.mp
      (hab.subset (List.mem_cons_of_mem _ (List.mem_cons_self ..)))
    simp [ha, hb]
  have hkept : (sitesAt offset u.sites).Sublist u.sitesInOrder :=
    List.sublist_mergeSort offset_le_trans offset_le_total hsame List.filter_sublist
  have hsublist : (sitesAt offset u.sites).Sublist (sitesAt offset u.sitesInOrder) := by
    have hfiltered := hkept.filter fun site => decide (site.offset = offset)
    simp only [sitesAt, List.filter_filter, Bool.and_self] at hfiltered
    exact hfiltered
  have hcount := (u.perm_sitesInOrder.filter fun site => decide (site.offset = offset)).length_eq
  exact (hsublist.eq_of_length hcount.symm).symm

/-- **When two units have the same sites in order.** -/
theorem sitesInOrder_eq_iff : u'.sitesInOrder = u.sitesInOrder ↔
    ∀ offset, sitesAt offset u'.sites = sitesAt offset u.sites := by
  constructor
  · intro h offset
    rw [← u'.sitesAt_sitesInOrder, h, u.sitesAt_sitesInOrder]
  · intro h
    refine eq_of_sitesAt_eq u.pairwise_sitesInOrder u'.pairwise_sitesInOrder fun offset => ?_
    rw [u'.sitesAt_sitesInOrder, h, u.sitesAt_sitesInOrder]

-- ── Installing ──────────────────────────────────────────────────────────────────

namespace SameAtEachOffset

variable (h : u.SameAtEachOffset u') (settings : Settings) (r : Runtime)
include h

theorem sitesInOrder_eq : u'.sitesInOrder = u.sitesInOrder := sitesInOrder_eq_iff.mpr h.sites

/-- The reserves of the blob are the same, since there are as many sites. -/
theorem blob_eq : u'.blob settings = u.blob settings := by
  have hperm : u'.sites.Perm u.sites :=
    u'.perm_sitesInOrder.symm.trans (h.sitesInOrder_eq ▸ u.perm_sitesInOrder)
  obtain ⟨sites, rfl⟩ : ∃ sites, u' = { u with sites } := ⟨_, h.rest⟩
  have hlayout : CompiledUnit.layout { u with sites } settings = u.layout settings := by
    unfold CompiledUnit.layout
    rw [hperm.length_eq]
  unfold CompiledUnit.blob
  rw [hlayout]

theorem assemble_eq (parameterCount : Nat) (dependencies : List Dependency) :
    assemble settings u' parameterCount dependencies r =
      assemble settings u parameterCount dependencies r := by
  have horder := h.sitesInOrder_eq
  have hblob := h.blob_eq settings
  obtain ⟨sites, rfl⟩ : ∃ sites, u' = { u with sites } := ⟨_, h.rest⟩
  unfold assemble
  rw [horder, hblob]
  rfl

theorem assembleAndCommit_eq (parameterCount : Nat) (dependencies : List Dependency) :
    assembleAndCommit settings u' parameterCount dependencies r =
      assembleAndCommit settings u parameterCount dependencies r := by
  unfold assembleAndCommit assemblePaused
  rw [h.assemble_eq]

theorem installMethod_eq : installMethod settings u' r = installMethod settings u r := by
  have hcommit := h.assembleAndCommit_eq settings r
  obtain ⟨sites, rfl⟩ : ∃ sites, u' = { u with sites } := ⟨_, h.rest⟩
  unfold installMethod
  simp only [hcommit]

theorem installStub_eq : installStub settings u' r = installStub settings u r := by
  have hcommit := h.assembleAndCommit_eq settings r
  obtain ⟨sites, rfl⟩ : ∃ sites, u' = { u with sites } := ⟨_, h.rest⟩
  unfold installStub
  simp only [hcommit]

end SameAtEachOffset

end CompiledUnit

/-- **Installations ignore the order of sites across offsets.** Two units that differ in the order
    in which their sites are given, but at no single offset, have the same outcome under all
    settings and on every runtime, as methods and as stubs: the same fault, the same refusal or the
    same registered code, and the same runtime afterwards. -/
theorem installations_ignore_site_order {u u' : CompiledUnit} (h : u.SameAtEachOffset u')
    (settings : Settings) (r : Runtime) :
    u'.sitesInOrder = u.sitesInOrder ∧
    installMethod settings u' r = installMethod settings u r ∧
    installStub settings u' r = installStub settings u r ∧
    install settings u' r = install settings u r := by
  have hmethod := h.installMethod_eq settings r
  have hstub := h.installStub_eq settings r
  refine ⟨h.sitesInOrder_eq, hmethod, hstub, ?_⟩
  have hkind : u'.method = u.method := by rw [h.rest]
  unfold install
  rw [hkind, hmethod, hstub]

-- ── A unit given in two orders ──────────────────────────────────────────────────

/-- A static call behind its mark, and a poll. -/
def CompiledUnit.sampleInvoke : CompiledUnit where
  name := "invoke"
  code := [0xe8, 0, 0, 0, 0, 0x85, 0x05, 0, 0, 0, 0]
  codeSize := 11
  frameSize := 8
  sites :=
    [⟨0, .mark 0x2002 []⟩,
     ⟨0, .call (.method (.resolved ⟨0x3000⟩)) (some {
        frame := {
          method := ⟨0x1000⟩, bci := 0, values := []
          localCount := 0, stackCount := 0, lockCount := 0 }
        frameBits := ⟨[]⟩ })⟩,
     ⟨5, .mark 0x3001 []⟩]

/-- The same unit with the poll given first. -/
def CompiledUnit.sampleInvokeLast : CompiledUnit :=
  { sampleInvoke with sites := sampleInvoke.sites.drop 2 ++ sampleInvoke.sites.take 2 }

/-- The unit is installed alike in both orders, with the mark still in front of its call. -/
theorem installations_ignore_site_order_sample :
    CompiledUnit.sampleInvokeLast.sites ≠ CompiledUnit.sampleInvoke.sites ∧
    CompiledUnit.sampleInvoke.SameAtEachOffset .sampleInvokeLast ∧
    ∃ receipt r', installStub {} .sampleInvoke .sampleInUse = .ok (.ok receipt, r') ∧
      installStub {} .sampleInvokeLast .sampleInUse = .ok (.ok receipt, r') := by
  have hsame : CompiledUnit.sampleInvoke.SameAtEachOffset .sampleInvokeLast := by
    refine ⟨rfl, fun offset => ?_⟩
    by_cases h0 : (0 : Int) = offset
    · subst h0
      rfl
    by_cases h5 : (5 : Int) = offset
    · subst h5
      rfl
    · simp [sitesAt, CompiledUnit.sampleInvokeLast, CompiledUnit.sampleInvoke, h0, h5]
  have horder : CompiledUnit.sampleInvoke.sitesInOrder = CompiledUnit.sampleInvoke.sites :=
    List.mergeSort_of_pairwise (by decide)
  have hends : endsRegistered true (installStub {} .sampleInvoke .sampleInUse) = true := by
    unfold installStub assembleAndCommit assemblePaused assemble
    rw [horder]
    decide +kernel
  obtain ⟨receipt, r', hreceipt⟩ := exists_receipt hends
  obtain ⟨-, -, hstub, -⟩ := installations_ignore_site_order hsame {} .sampleInUse
  exact ⟨by decide, hsame, receipt, r', hreceipt, hstub.trans hreceipt⟩

end ManagedCode
