import ManagedCode.Proofs.Installing
import ManagedCode.Proofs.Naming
import ManagedCode.World.Sample

/-! # Refused installations

    A unit may be refused before anything is made for it, in the middle of a site, or when all of
    it is assembled.  Wherever that is, the records then hold each handle made so far exactly once,
    so that giving back the recorded handles gives back what was made.

* **`applySites_gains`** — the run of the sites of a unit, however it ends.
* **`Runtime.Reachable`** — runtimes as handles are made and given back, and units installed.
* **`refused_leaves_no_trace`** — a refused installation changes nothing that can be seen. -/

namespace ManagedCode

-- ── The sites of a unit ─────────────────────────────────────────────────────────

/-- The handle is among those recorded for the unit and refers to the object. -/
def Draft.Owns (d : Draft) : Handle → ObjectAddress → Prop := d.references.recorded.Own d.handles

section Run

variable {ctx : SiteContext} {base : HandleTable} {d d' : Draft} {out : Except Overflow Unit}

/-- One site records every handle it makes, also if it is refused. -/
theorem applySite_gains {site : Site} (hd : d.references.Tracks base d.handles)
    (h : (applySite ctx site).runOn d = .ok (out, d')) :
    d'.references.Tracks base d'.handles ∧
      (∀ h object, d.Owns h object → d'.Owns h object) ∧
      (out = .ok () → ∃ new, d'.log.closed = d.log.closed ++ new ∧
        List.Forall₂ (fun suspension s => Safepoint.Names d'.Owns ctx.world suspension.1 s)
          site.suspension?.toList new) := by
  obtain ⟨scopes, t, hlowered, hrecords, hclosed⟩ := applySite_records h
  obtain ⟨hreferences, hhandles⟩ := Prod.mk.inj hrecords
  obtain ⟨ht, howns, hnames⟩ := Site.lowered_gains hd hlowered
  have hd' : d'.Owns = t.Owns := by
    unfold Draft.Owns
    rw [hreferences, hhandles]
    rfl
  rw [hreferences, hhandles, hd']
  refine ⟨ht, howns, fun hout => ?_⟩
  obtain ⟨pc, -, hlog⟩ := hclosed hout
  exact ⟨_, hlog.closed, hnames pc _⟩

/-- **The run of the sites** records every handle it makes, also if it is refused, and a run that
    goes through closes one safepoint per suspension point, which refers to what that names. -/
theorem applySites_gains {sites : List Site} (hd : d.references.Tracks base d.handles)
    (h : (applySites ctx sites).runOn d = .ok (out, d')) :
    d'.references.Tracks base d'.handles ∧
      (∀ h object, d.Owns h object → d'.Owns h object) ∧
      (out = .ok () → ∃ new, d'.log.closed = d.log.closed ++ new ∧
        List.Forall₂ (fun suspension s => Safepoint.Names d'.Owns ctx.world suspension.1 s)
          (sites.filterMap Site.suspension?) new) := by
  induction sites generalizing d with
  | nil =>
      obtain ⟨-, rfl⟩ := Prod.mk.inj (Except.ok.inj h)
      exact ⟨hd, fun _ _ h => h, fun _ => ⟨[], (List.append_nil _).symm, .nil⟩⟩
  | cons site rest ih =>
      rcases Patch.bind_done h with ⟨e, rfl, hsite⟩ | ⟨_, d₁, hsite, hrest⟩
      · obtain ⟨hd', howns, -⟩ := applySite_gains hd hsite
        exact ⟨hd', howns, nofun⟩
      · obtain ⟨hd₁, howns₁, hfirst⟩ := applySite_gains hd hsite
        obtain ⟨hd', howns', hthen⟩ := ih hd₁ hrest
        refine ⟨hd', fun h object howned => howns' _ _ (howns₁ _ _ howned), fun hout => ?_⟩
        obtain ⟨first, hclosed₁, hnames₁⟩ := hfirst rfl
        obtain ⟨new, hclosed', hnames'⟩ := hthen hout
        refine ⟨first ++ new, ?_, ?_⟩
        · rw [hclosed', hclosed₁, List.append_assoc]
        · rw [Site.suspensions_cons]
          exact List.rel_append (hnames₁.imp fun _ _ hnames => hnames.mono howns') hnames'

/-- What the run of a unit makes is recorded, and is new to the runtime. -/
theorem CompiledUnit.RunsTo.gains {u : CompiledUnit} {settings : Settings} {r : Runtime}
    (hsound : r.handles.Sound) (hrun : u.RunsTo settings r out d) :
    r.handles.Gains d.references.handles d.handles := by
  obtain ⟨parameterCount, blob, -, hrun⟩ := hrun
  exact (applySites_gains (.start hsound) hrun).1.gains

end Run

-- ── Runtimes in use ─────────────────────────────────────────────────────────────

/-- The runtimes that come about by making and giving back handles and installing units. -/
inductive Runtime.Reachable : Runtime → Prop
  | create {world : Description} {settings : Settings} {r : Runtime}
      (h : Runtime.create world settings = .ok r) : Reachable r
  | make {r : Runtime} {object : ObjectAddress} {handle : Handle} {handles : HandleTable}
      (hr : Reachable r) (h : r.handles.make object = .ok (handle, handles)) :
      Reachable { r with handles }
  | release {r : Runtime} {handle : Handle} {handles : HandleTable}
      (hr : Reachable r) (h : r.handles.release handle = .ok handles) :
      Reachable { r with handles }
  | install {settings : Settings} {u : CompiledUnit} {r r' : Runtime}
      {out : Except Refusal Receipt} (hr : Reachable r) (h : Ends settings u r out r') :
      Reachable r'

/-- What an installation leaves in the table: the handles of a registered unit, or nothing. -/
theorem Installation.gains {settings : Settings} {u : CompiledUnit} {r r' : Runtime}
    {out : Except Refusal Receipt} (hsound : r.handles.Sound)
    (h : Installation settings u r out r') :
    match out with
    | .ok receipt => r.handles.Gains receipt.installed.code.references.handles r'.handles
    | .error _ => r.handles.Gains [] r'.handles := by
  cases h with
  | noRoom => exact .refl hsound
  | refused hrun hrelease =>
      obtain ⟨handles, hreleased, hgains⟩ := (hrun.gains hsound).releaseAll
      obtain rfl := Except.ok.inj (hrelease.symm.trans hreleased)
      exact hgains
  | registered hrun hfinish hregister =>
      obtain ⟨-, hreferences, -⟩ := CompiledUnit.finish_ok hfinish
      obtain ⟨address, moved, -, hinstalled, -⟩ := CodeTable.register_ok hregister
      dsimp only
      rw [hinstalled]
      show r.handles.Gains (Code.references _).handles _
      rw [hreferences]
      exact hrun.gains hsound

/-- **The table of a runtime in use is sound.** -/
theorem Runtime.Reachable.sound {r : Runtime} (hr : r.Reachable) : r.handles.Sound := by
  induction hr with
  | create h =>
      unfold Runtime.create at h
      split at h
      · exact nomatch h
      · rw [← Except.ok.inj h]
        exact HandleTable.sound_empty
  | make hr h ih => exact (HandleTable.make_ok ih h).1
  | release hr h ih => exact ih.release h
  | @install settings u r r' out hr h ih =>
      have hgains := h.installation.gains ih
      cases out with
      | ok receipt => exact hgains.sound
      | error refusal => exact hgains.sound

-- ── Refusals ────────────────────────────────────────────────────────────────────

/-- **A refused installation leaves no trace.** The table of installed code with its indexes and
    its code space, the stubs and the scopes that hold off collection are as before, as many
    handles are live, and every handle resolves as before. -/
theorem refused_leaves_no_trace {settings : Settings} {u : CompiledUnit} {r r' : Runtime}
    {refusal : Refusal} (hr : r.Reachable) (h : Ends settings u r (.error refusal) r') :
    r'.codes = r.codes ∧ r'.stubs = r.stubs ∧ r'.pauses = r.pauses ∧ r'.world = r.world ∧
      r'.handles.live = r.handles.live ∧
      ∀ handle, r'.handles.resolve? handle = r.handles.resolve? handle := by
  have hgains : r.handles.Gains [] r'.handles := h.installation.gains hr.sound
  have hframe := h.installation.eq_of_refused
  refine ⟨?_, ?_, ?_, ?_, hgains.live, fun handle => hgains.others handle nofun⟩ <;> rw [hframe]

-- ── A unit that loads an object ─────────────────────────────────────────────────

/-- The sample runtime with nothing installed. -/
def Runtime.sample : Runtime where
  world := .sample
  codes := { space := { base := 0x7f000000, capacity := 0x100000 } }
  stubs := Description.sample.stubs

theorem Runtime.sample_reachable : Runtime.sample.Reachable := by
  have hcreate : Runtime.create .sample { codeCapacity := 0x100000 } = .ok .sample := rfl
  exact .create hcreate

/-- The load of an object, whose handle is made before the relocation is recorded. -/
def CompiledUnit.sampleLoad : CompiledUnit where
  name := "load"
  code := [0x48, 0xb8, 0, 0, 0, 0, 0, 0, 0, 0]
  codeSize := 10
  frameSize := 8
  sites := [⟨0, .dataPatch (.ofObject ⟨0x5000⟩) 8 true⟩]

theorem CompiledUnit.sitesInOrder_sampleLoad :
    CompiledUnit.sampleLoad.sitesInOrder = CompiledUnit.sampleLoad.sites :=
  List.mergeSort_singleton ..

/-- Without room for relocations the load is refused, after its handle is made. -/
theorem CompiledUnit.sampleLoad_refused : ∃ refusal r',
    installStub { relocationsPerSite := 0 } .sampleLoad .sample = .ok (.error refusal, r') := by
  apply exists_refusal
  unfold installStub assembleAndCommit assemblePaused assemble
  rw [CompiledUnit.sitesInOrder_sampleLoad]
  decide +kernel

/-- The refused load leaves no live handle behind. -/
theorem refused_leaves_no_trace_sample :
    Runtime.sample.Reachable ∧
    ∃ refusal r', Ends { relocationsPerSite := 0 } .sampleLoad .sample (.error refusal) r' ∧
      r'.codes = Runtime.sample.codes ∧ r'.handles.live = 0 ∧
      ∀ handle, r'.handles.resolve? handle = none := by
  obtain ⟨refusal, r', hrefused⟩ := CompiledUnit.sampleLoad_refused
  obtain ⟨hcodes, -, -, -, hlive, hresolve⟩ :=
    refused_leaves_no_trace Runtime.sample_reachable (Or.inr hrefused)
  refine ⟨Runtime.sample_reachable, refusal, r', Or.inr hrefused, hcodes, hlive, fun handle => ?_⟩
  rw [hresolve]
  unfold HandleTable.resolve?
  cases HandleTable.slotOf? handle <;> rfl

end ManagedCode
