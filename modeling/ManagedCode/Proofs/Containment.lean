import ManagedCode.Proofs.Constants
import ManagedCode.Proofs.Suspension

/-! # Installed code refers to itself only

    The offsets in the tables of a unit come from the offsets of sites, from what marks refer back
    to, from the ends of calls, from constants and from exception handlers.  Each of them is checked
    or follows from how instructions are decoded, so that none leads out of the unit.

* **`Relocation.Inside`** — a relocation that refers to the unit it is in, if to any.
* **`Draft.Contained`** — the invariant of a run of sites; **`applySite_contained`** is its step.
* **`Walk.pc_le`** — execution is suspended within the code, or right behind it.
* **`Code.Contained`**, **`installed_unit_contained`** — the tables of an installed unit. -/

namespace ManagedCode

-- ── What is within a unit ───────────────────────────────────────────────────────

/-- A relocation of code of size `n`, and what it refers to in this code or in constants of size
    `c`, are within them. -/
structure Relocation.Inside (n c : Nat) (r : Relocation) : Prop where
  offset : r.offset < n
  target : match r.kind with
    | .virtualCall cache => cache < n
    | .staticStub call => call < n
    | .sectionWord place target => place = .constants ∧ target + 8 ≤ c
    | _ => True

theorem Relocation.Inside.mono {n c c' : Nat} {r : Relocation} (h : r.Inside n c) (hc : c ≤ c') :
    r.Inside n c' := by
  obtain ⟨offset, kind, format⟩ := r
  refine ⟨h.offset, ?_⟩
  have htarget := h.target
  cases kind with
  | sectionWord place target => exact ⟨htarget.1, Nat.le_trans htarget.2 hc⟩
  | _ => exact htarget

/-- The tables of a unit in the making refer to its code of size `n`, and so does the call that is
    announced. -/
structure Draft.Contained (n : Nat) (d : Draft) : Prop where
  size : d.blob.code.length = n
  records : ∀ r ∈ d.blob.relocations, r.Inside n d.blob.constants.length
  entryPoints : ∀ kind offset, d.entryPoints.get? kind = some offset → offset < n
  implicitNulls : ∀ entry ∈ d.implicitNulls.entries, entry.1 < n ∧ entry.2 < n
  cache : ∀ cache, d.pending = .throughCache cache → cache < n

-- ── Named offsets ───────────────────────────────────────────────────────────────

/-- The offsets that marks name in a draft. -/
def Draft.named (d : Draft) : EntryPoints × ImplicitTable := (d.entryPoints, d.implicitNulls)

/-- What can be named at an offset: nothing, an entry point, or a place that may fault on null and
    continues there. -/
inductive Draft.Names (d d' : Draft) (offset : Nat) : Prop
  | nothing (h : d'.named = d.named)
  | entryPoint (kind : EntryKind) (h : d'.named = (d.entryPoints.set kind offset, d.implicitNulls))
  | implicitNull
      (h : d'.named = (d.entryPoints, ⟨d.implicitNulls.entries ++ [(offset, offset)]⟩))

section Named

open Patch

variable {ctx : SiteContext} {d d' : Draft}

theorem Patch.Keeps.named {α : Type} {step : Patch α} (h : Keeps Draft.sansBlob step) :
    Keeps Draft.named step := by
  intro d d' out hrun
  show d'.sansBlob.named = d.sansBlob.named
  rw [h d d' out hrun]

theorem keeps_openSafepoint (pc : Nat) (info : DebugInfo) (leaf : Int) :
    Keeps Draft.named (openSafepoint ctx pc info leaf) :=
  .bind (.lift _) fun _ => .bind (.modifyLog (fun _ _ => rfl) _) fun _ => .bind (.lift _) fun _ =>
    .bind .get fun _ => .bind (.lowering (fun _ _ _ => rfl) _) fun _ => .modified fun _ => rfl

theorem keeps_closeSafepoint (pc : Nat) : Keeps Draft.named (closeSafepoint pc) :=
  .modifyLog (fun _ _ => rfl) _

theorem keeps_withCallSafepoint {pc : Nat} {info : Option DebugInfo} {step : Patch Unit}
    (hstep : Keeps Draft.sansBlob step) :
    Keeps Draft.named (withCallSafepoint ctx pc info step) := by
  cases info with
  | none =>
      exact .bind hstep.named fun _ => .bind (.modified fun _ => rfl) fun _ => .pure _
  | some info =>
      exact .bind (keeps_openSafepoint pc info _) fun _ => .bind hstep.named fun _ =>
        .bind (.modified fun _ => rfl) fun _ => keeps_closeSafepoint pc

theorem applyMark_names {offset : Nat} {id : Int} {references : List Int}
    (h : (applyMark ctx offset id references).runOn d = .ok (.ok (), d')) :
    d.Names d' offset := by
  by_cases hentry : ∃ mark kind, Mark.ofNumber? id = some mark ∧ mark.entryKind? = some kind
  · obtain ⟨mark, kind, hmark, hkind⟩ := hentry
    unfold applyMark at h
    rw [hmark] at h
    cases mark with
    | verifiedEntry | unverifiedEntry | osrEntry | unwindEntry | exceptionHandlerEntry
    | deoptHandlerEntry =>
        obtain ⟨-, rfl⟩ := Prod.mk.inj (Except.ok.inj h)
        exact .entryPoint kind (by rw [← Option.some.inj hkind]; rfl)
    | _ => exact nomatch hkind
  by_cases hnull : Mark.ofNumber? id = some .implicitNull
  · unfold applyMark at h
    rw [hnull] at h
    obtain ⟨nulls, hadd, h⟩ := Checked.bind_ok ((runOn_lift_bind _ _ d).symm.trans h)
    obtain ⟨-, rfl⟩ := Prod.mk.inj (Except.ok.inj h)
    obtain ⟨_, -, hadd⟩ := Checked.bind_ok hadd
    obtain rfl := Checked.pure_ok hadd
    exact .implicitNull rfl
  · have hkeeps : Keeps Draft.named (applyMark ctx offset id references) :=
      .applyMark (fun _ _ => rfl)
        (fun mark kind hmark hkind => (hentry ⟨mark, kind, hmark, hkind⟩).elim)
        (fun hmark => (hnull hmark).elim) fun _ _ _ _ _ => rfl
    exact .nothing (hkeeps _ _ _ h)

/-- A site names its own offset, if it names one. -/
theorem applySite_names {site : Site} (h : (applySite ctx site).runOn d = .ok (.ok (), d')) :
    d.Names d' site.offset.toNat := by
  obtain ⟨offset, kind⟩ := site
  obtain ⟨-, -, h⟩ := applySite_done h
  cases kind with
  | call target info =>
      obtain ⟨i, pc, -, -, h⟩ := applyCall_done h
      cases target with
      | installedCode id => exact .nothing ((keeps_bindInstalledCode ctx i id).named _ _ _ h)
      | runtimeStub id =>
          exact .nothing (keeps_withCallSafepoint (keeps_bindStub ctx i id) _ _ _ h)
      | method ref =>
          exact .nothing (keeps_withCallSafepoint (keeps_bindMethodCall i info _ _) _ _ _ h)
  | safepoint info =>
      have hkeeps : Keeps Draft.named (applySafepoint ctx offset.toNat info) :=
        .bind (keeps_openSafepoint _ info _) fun _ => keeps_closeSafepoint _
      exact .nothing (hkeeps _ _ _ h)
  | dataPatch c alignment inlined =>
      obtain ⟨t, -, hd'⟩ := applyDataPatch_frame h
      exact .nothing (by rw [hd']; rfl)
  | mark id references => exact applyMark_names h

end Named

-- ── Sites ───────────────────────────────────────────────────────────────────────

section Sites

variable {ctx : SiteContext} {d d' : Draft} {n : Nat}

/-- A static call stub serves a call within the code. -/
theorem applySite_staticStub {site : Site} {id reference : Int}
    (hkind : site.kind = .mark id [reference]) (hmark : Mark.ofNumber? id = some .staticCallStub)
    (h : (applySite ctx site).runOn d = .ok (.ok (), d')) :
    reference.toNat < d.blob.code.length := by
  obtain ⟨offset, kind⟩ := site
  obtain rfl : kind = .mark id [reference] := hkind
  obtain ⟨-, -, h⟩ := applySite_done h
  simp only [applyMark, hmark, markStaticStub] at h
  rw [Patch.runOn_blob_bind, Patch.runOn_lift_bind] at h
  obtain ⟨place, hplace, -⟩ := Checked.bind_ok h
  obtain ⟨_, hinside, -⟩ := Checked.bind_ok hplace
  exact (require_ok hinside).2

/-- **What a site records is within the unit**, given that the announced cache is. -/
theorem Draft.Contained.records_after (hd : d.Contained n) {site : Site} {imprint : Imprint}
    (himprint : site.imprint? ctx d.blob d.pending d.handles = some imprint)
    (h : (applySite ctx site).runOn d = .ok (.ok (), d')) :
    ∀ r ∈ d.blob.relocations ++ imprint.records,
      r.Inside n (d.blob.constants ++ imprint.constants).length := by
  have hoffset : site.offset.toNat < n := hd.size ▸ (applySite_done h).2.1
  intro r hr
  rcases List.mem_append.mp hr with hr | hr
  · exact (hd.records r hr).mono (List.prefix_append _ _).length_le
  rcases Site.imprint?_constants himprint with ⟨-, -, hrecords⟩ |
    ⟨c, start, place, hloaded, -, hplace, hconstants, hrecords⟩
  · obtain ⟨hr, hkind⟩ := hrecords r hr
    obtain ⟨offset, kind, format⟩ := r
    refine ⟨hr ▸ hoffset, ?_⟩
    cases kind with
    | virtualCall cache => exact hd.cache cache hkind
    | staticStub call =>
        obtain ⟨id, reference, hsite, hmark, rfl⟩ := hkind
        exact hd.size ▸ applySite_staticStub hsite hmark h
    | sectionWord place target => exact hkind.elim
    | none | runtimeCall | specialCall | staticCall | reference | metadata | poll | pollReturn =>
        trivial
  · rw [hrecords] at hr
    obtain rfl := List.mem_singleton.mp hr
    have hle := Blob.le_constantOffset hplace
    refine ⟨?_, rfl, ?_⟩
    · show c.offset < n
      rw [site.offset_of_loaded? hloaded]
      exact hoffset
    · rw [hconstants]
      simp only [List.length_append, List.length_replicate, Word.length_toBytes]
      omega

/-- **One site** keeps a unit contained. -/
theorem applySite_contained {site : Site} (hd : d.Contained n)
    (h : (applySite ctx site).runOn d = .ok (.ok (), d')) : d'.Contained n := by
  have hoffset : site.offset.toNat < n := hd.size ▸ (applySite_done h).2.1
  obtain ⟨imprint, himprint, -, hblob, hpending⟩ := applySite_imprint h
  have hrecords : ∀ r ∈ d'.blob.relocations, r.Inside n d'.blob.constants.length := by
    rw [hblob]
    exact hd.records_after himprint h
  have hcache : ∀ cache, d'.pending = .throughCache cache → cache < n := by
    intro cache hcache
    rw [hpending] at hcache
    rcases announced_after d.pending site with ⟨announced, hannounced, hafter⟩ |
      ⟨-, -, -, hafter⟩ | ⟨-, -, hafter⟩
    · rw [← hafter, hcache] at hannounced
      obtain ⟨-, -, -, rfl, -⟩ := site.mark_of_announced_cache hannounced
      exact hoffset
    · exact nomatch hcache.symm.trans hafter
    · exact hd.cache cache (hafter.symm.trans hcache)
  have hsize : d'.blob.code.length = n := (applySite_frame h).size.trans hd.size
  rcases applySite_names h with hnamed | ⟨kind, hnamed⟩ | hnamed
  · obtain ⟨hentries, hnulls⟩ := Prod.mk.inj hnamed
    exact ⟨hsize, hrecords, hentries ▸ hd.entryPoints, hnulls ▸ hd.implicitNulls, hcache⟩
  · obtain ⟨hentries, hnulls⟩ := Prod.mk.inj hnamed
    refine ⟨hsize, hrecords, ?_, hnulls ▸ hd.implicitNulls, hcache⟩
    intro other offset hother
    rw [hentries, EntryPoints.get?_set] at hother
    split at hother
    · rw [← Option.some.inj hother]
      exact hoffset
    · exact hd.entryPoints other offset hother
  · obtain ⟨hentries, hnulls⟩ := Prod.mk.inj hnamed
    refine ⟨hsize, hrecords, hentries ▸ hd.entryPoints, ?_, hcache⟩
    intro entry hentry
    rw [hnulls] at hentry
    rcases List.mem_append.mp hentry with hentry | hentry
    · exact hd.implicitNulls entry hentry
    · rw [List.mem_singleton.mp hentry]
      exact ⟨hoffset, hoffset⟩

/-- **All sites** keep a unit contained. -/
theorem applySites_contained {sites : List Site} (hd : d.Contained n)
    (h : (applySites ctx sites).runOn d = .ok (.ok (), d')) : d'.Contained n := by
  induction sites generalizing d with
  | nil =>
      obtain ⟨-, rfl⟩ := Prod.mk.inj (Except.ok.inj h)
      exact hd
  | cons site rest ih =>
      obtain ⟨_, d₁, hsite, hrest⟩ := Patch.bind_ok h
      exact ih (applySite_contained hd hsite) hrest

/-- A site that goes through suspends execution within the code or right behind it. Only the call
    behind a load is not decoded, and its bytes are checked to be there. -/
theorem Site.SuspendsAt.pc_le {site : Site} {pc : Nat} (hpc : site.SuspendsAt d.blob pc)
    (h : (applySite ctx site).runOn d = .ok (.ok (), d')) : pc ≤ d.blob.code.length := by
  cases hpc with
  | safepoint => exact Nat.le_of_lt (applySite_done h).2.1
  | call hi hshape =>
      obtain ⟨hat, -⟩ := Instruction.decodeAt_ok hi
      exact (Instruction.at?_laws.bounds hat).2.2.2
  | loadedCall hi hshape =>
      obtain ⟨-, -, h⟩ := applySite_done h
      obtain ⟨i, pc, hi', hend, -⟩ := applyCall_done h
      obtain rfl := Except.ok.inj (hi.symm.trans hi')
      simp only [callEnd, hshape] at hend
      obtain ⟨_, hroom, -⟩ := Checked.bind_ok hend
      exact require_ok hroom

/-- **Execution is suspended within the code**, or right behind it. -/
theorem Walk.pc_le {sites : List Site} {points : List SuspensionPoint}
    (h : Walk ctx d sites points d') : ∀ point ∈ points, point.pc ≤ d.blob.code.length := by
  induction h with
  | done => exact List.forall_mem_nil _
  | pass _ happly _ ih =>
      rw [← (applySite_frame happly).size]
      exact ih
  | suspend _ hpc happly _ ih =>
      intro point hpoint
      rcases List.mem_cons.mp hpoint with rfl | hpoint
      · exact hpc.pc_le happly
      · rw [← (applySite_frame happly).size]
        exact ih point hpoint

end Sites

-- ── Installed units ─────────────────────────────────────────────────────────────

/-- Every row of a finished handler table is about an offset of the code. -/
theorem CompiledUnit.handlerTable_inside {u : CompiledUnit} {n : Nat} {table : HandlerTable}
    (h : u.handlerTable n = .ok table) : ∀ row ∈ table.rows, 0 ≤ row.pc ∧ row.pc < n := by
  refine Checked.foldlM_keeps
    (P := fun t : HandlerTable => ∀ row ∈ t.rows, 0 ≤ row.pc ∧ row.pc < n)
    (fun t handler t' ht hstep => ?_) (List.forall_mem_nil _) h
  obtain ⟨_, hsite, hstep⟩ := Checked.bind_ok hstep
  obtain ⟨_, hhandler, hstep⟩ := Checked.bind_ok hstep
  obtain ⟨_, -, hstep⟩ := Checked.bind_ok hstep
  obtain rfl := Checked.pure_ok hstep
  have hsite := require_ok hsite
  have hhandler := require_ok hhandler
  intro row hrow
  rcases List.mem_append.mp hrow with hrow | hrow
  · exact ht row hrow
  rcases List.mem_cons.mp hrow with rfl | hrow
  · show 0 ≤ handler.offset ∧ handler.offset < n
    omega
  · rw [List.mem_singleton.mp hrow]
    show 0 ≤ handler.handler ∧ handler.handler < n
    omega

/-- A unit is only assembled if it has as much code as it says. -/
theorem assembleAndCommit_codeSize {settings : Settings} {u : CompiledUnit} {parameterCount : Nat}
    {dependencies : List Dependency} {r r' : Runtime} {out : Except Refusal InstalledCode}
    (h : assembleAndCommit settings u parameterCount dependencies r = .ok (out, r')) :
    u.codeSize ≤ u.code.length := by
  obtain ⟨_, hpaused, -⟩ := Checked.bind_ok h
  obtain ⟨_, hassemble, -⟩ := Checked.bind_ok hpaused
  obtain ⟨_, hcheck, -⟩ := Checked.bind_ok hassemble
  obtain ⟨_, hsize, -⟩ := Checked.bind_ok hcheck
  exact require_ok hsize

/-- However the installation of a unit ends, the unit has as much code as it says. -/
theorem Ends.codeSize_le {settings : Settings} {u : CompiledUnit} {r r' : Runtime}
    {out : Except Refusal Receipt} (h : Ends settings u r out r') :
    u.codeSize ≤ u.code.length := by
  rcases h with h | h
  · unfold installMethod at h
    split at h
    · exact nomatch h
    · obtain ⟨_, -, h⟩ := Checked.bind_ok h
      obtain ⟨_, h, -⟩ := Checked.bind_ok h
      exact assembleAndCommit_codeSize h
  · obtain ⟨-, _, _, h, -⟩ := installStub_done h
    exact assembleAndCommit_codeSize h

/-- The tables of a unit with code of size `n` refer to nothing outside of it: calls, stubs, entry
    points, implicit exceptions and exception handlers to offsets of the code, words to its
    constants, and suspension points to offsets of the code or to its end. The constants start
    behind the code. -/
structure Code.Contained (n : Nat) (code : Code) : Prop where
  size : code.blob.code.length = n
  records : ∀ r ∈ code.blob.relocations, r.Inside n code.blob.constants.length
  entryPoints : ∀ kind offset, code.entryPoints.get? kind = some offset → offset < n
  implicitNulls : ∀ entry ∈ code.implicitNulls.entries, entry.1 < n ∧ entry.2 < n
  safepoints : ∀ s ∈ code.safepoints, s.pc ≤ n
  maps : ∀ entry ∈ code.maps.maps, entry.1 ≤ n
  handlers : ∀ row ∈ code.handlers.rows, 0 ≤ row.pc ∧ row.pc < n
  sections : ∃ start, code.blob.constantsStart = .ok start ∧ n ≤ start

theorem CompiledUnit.finish_handlers {u : CompiledUnit} {dependencies : List Dependency}
    {d : Draft} {code : Code} (h : u.finish dependencies d = .ok code) :
    u.handlerTable d.blob.code.length = .ok code.handlers := by
  obtain ⟨handlers, hhandlers, h⟩ := Checked.bind_ok h
  obtain ⟨_, -, h⟩ := Checked.bind_ok h
  obtain rfl := Checked.pure_ok h
  exact hhandlers

/-- **An installed unit refers to nothing outside of it.** Whatever its sites, marks and exception
    handlers say, what is registered has as much code as the unit says, and all its tables are about
    offsets of this code and of its own constants. -/
theorem installed_unit_contained {settings : Settings} {u : CompiledUnit} {r r' : Runtime}
    {receipt : Receipt} (h : Ends settings u r (.ok receipt) r') :
    r'.codes.get? receipt.installed.id = some receipt.installed ∧
      receipt.installed.code.Contained u.codeSize := by
  cases h.installation with
  | @registered d dependencies code _ codes hrun hfinish hregister =>
      obtain ⟨parameterCount, blob, hblob, hrun⟩ := hrun
      obtain ⟨hcode, hempty⟩ := CompiledUnit.blob_ok hblob
      obtain ⟨hcapacity, -, -⟩ := CompiledUnit.blob_reserves hblob
      have hsize : blob.code.length = u.codeSize := by
        rw [hcode, List.length_take, Nat.min_eq_left h.codeSize_le]
      have hfirst : Draft.Contained u.codeSize { blob, handles := r.handles } := by
        refine ⟨hsize, ?_, fun kind offset => ?_, List.forall_mem_nil _, nofun⟩
        · rw [hempty]
          exact List.forall_mem_nil _
        · cases kind <;> exact nofun
      have hd := applySites_contained hfirst hrun
      have hlayout := (applySites_frame hrun).layout
      obtain ⟨points, hwalk, hlog⟩ := applySites_walks ⟨.nil, .nil, .nil⟩ hrun
      have hpc : ∀ pc ∈ d.log.closed.map Safepoint.pc, pc ≤ u.codeSize := by
        rw [← hlog.pcs]
        exact List.forall_mem_map.mpr (hsize ▸ hwalk.pc_le)
      have hhandlers := CompiledUnit.handlerTable_inside (CompiledUnit.finish_handlers hfinish)
      obtain ⟨hmoved, hconstants, hrelocations, start, hstart, -⟩ :=
        CodeTable.register_constants hregister
      obtain ⟨-, handlers, rfl⟩ := CompiledUnit.finish_eq hfinish
      obtain ⟨address, moved, hmove, hinstalled, hget, -⟩ := CodeTable.register_ok hregister
      rw [hinstalled] at hmoved hconstants hrelocations hstart ⊢
      refine ⟨hget, ?_, ?_, hd.entryPoints, hd.implicitNulls, ?_, ?_, ?_, start, hstart, ?_⟩
      · exact (Blob.length_moveTo hmove).trans hd.size
      · rw [hconstants, hrelocations]
        exact hd.records
      · exact List.forall_mem_map.mp hpc
      · show ∀ entry ∈ d.log.maps.maps, entry.1 ≤ u.codeSize
        rw [← hlog.keys] at hpc
        exact List.forall_mem_map.mp hpc
      · rw [hd.size] at hhandlers
        exact hhandlers
      · obtain ⟨-, -, hle, -⟩ := Size.alignUp_ok hstart
        rw [hmoved] at hle
        change d.blob.layout.codeCapacity ≤ start at hle
        rw [hlayout] at hle
        exact hcapacity ▸ hle

-- ── A unit with every kind of table ─────────────────────────────────────────────

/-- A call through a cache at the very end of the code, whose static call stub stands in front of
    it, the load of a constant that may fault on null, two entries and an exception handler. -/
def CompiledUnit.sampleTables : CompiledUnit where
  name := "tables"
  code :=
    [0x48, 0xb8, 0, 0, 0, 0, 0, 0, 0, 0, 0xf2, 0x0f, 0x10, 0x05, 0, 0, 0, 0, 0x90,
     0xe8, 0, 0, 0, 0]
  codeSize := 24
  frameSize := 8
  sites :=
    [⟨0, .mark 0x0002 []⟩,
     ⟨0, .mark 0x2004 []⟩,
     ⟨10, .mark 0x3000 []⟩,
     ⟨10, .dataPatch (.double 0x3ff0000000000000) 8 false⟩,
     ⟨18, .mark 0x0005 []⟩,
     ⟨18, .mark 0x1000 [19]⟩,
     ⟨19, .call (.method (.resolved ⟨0x1000⟩)) (some {
        frame := {
          method := ⟨0x1000⟩, bci := 0, values := []
          localCount := 0, stackCount := 0, lockCount := 0 }
        frameBits := ⟨[]⟩ })⟩]
  exceptionHandlers := [⟨19, 18⟩]

theorem CompiledUnit.sitesInOrder_sampleTables :
    CompiledUnit.sampleTables.sitesInOrder = CompiledUnit.sampleTables.sites :=
  List.mergeSort_of_pairwise (by decide)

/-- The call is suspended right behind the code, and everything else is within it. -/
theorem installed_unit_contained_sample :
    ∃ receipt r', Ends {} .sampleTables .sampleInUse (.ok receipt) r' ∧
      receipt.installed.code.blob.relocations.map Relocation.kind =
        [.sectionWord .constants 0, .metadata, .staticStub 19, .virtualCall 0] ∧
      receipt.installed.code.entryPoints.toList = [(.entry, 0), (.exceptions, 18)] ∧
      receipt.installed.code.implicitNulls.entries = [(10, 10)] ∧
      receipt.installed.code.safepoints.map Safepoint.pc = [24] ∧
      receipt.installed.code.handlers.rows.map HandlerRow.pc = [19, 18] ∧
      receipt.installed.code.Contained 24 := by
  have htables : ((receipt? (installStub {} .sampleTables .sampleInUse)).any fun receipt =>
      receipt.installed.code.blob.relocations.map Relocation.kind =
        [.sectionWord .constants 0, .metadata, .staticStub 19, .virtualCall 0] ∧
      receipt.installed.code.entryPoints.toList = [(.entry, 0), (.exceptions, 18)] ∧
      receipt.installed.code.implicitNulls.entries = [(10, 10)] ∧
      receipt.installed.code.safepoints.map Safepoint.pc = [24] ∧
      receipt.installed.code.handlers.rows.map HandlerRow.pc = [19, 18]) = true := by
    unfold installStub assembleAndCommit assemblePaused assemble
    rw [CompiledUnit.sitesInOrder_sampleTables]
    decide +kernel
  obtain ⟨receipt, hreceipt, htables⟩ := (Option.any_eq_true ..).mp htables
  obtain ⟨r', hends⟩ := exists_of_receipt? hreceipt
  obtain ⟨hrecords, hentries, hnulls, hpcs, hrows⟩ := of_decide_eq_true htables
  exact ⟨receipt, r', Or.inr hends, hrecords, hentries, hnulls, hpcs, hrows,
    (installed_unit_contained (Or.inr hends)).2⟩

end ManagedCode
