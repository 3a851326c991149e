import Mathlib.Data.List.Nodup
import ManagedCode.Proofs.Refusal
import ManagedCode.Proofs.Targets

/-! # Ownership of handles

    Over any sequence of installations, accepted and refused ones in any order, the live handles
    are those of the registered units, each of one unit only.  Slots given back by a refused unit
    are used again by later ones, so this is about handles and what they refer to, not about slots.

* **`Code.Names`** — the handles of a unit, where they are found and what they refer to.
* **`Runtime.Run`** — a sequence of installations, with a log of the accepted ones.
* **`Runtime.Run.gains`** — the invariant of such a sequence.
* **`handles_owned`** — who owns the live handles, and what they refer to. -/

namespace ManagedCode

-- ── Handles in code ─────────────────────────────────────────────────────────────

/-- In the installation of a unit, the site behind `pre` writes `word` as the immediate of its
    instruction. -/
def CompiledUnit.Writes (u : CompiledUnit) (settings : Settings) (r : Runtime) (pre : List Site)
    (site : Site) (word : UInt64) : Prop :=
  ∃ parameterCount blob d d', u.blob settings = .ok (.ok blob) ∧
    (applySites (u.siteContext settings parameterCount r) pre).runOn
      { blob, handles := r.handles } = .ok (.ok (), d) ∧
    (applySite (u.siteContext settings parameterCount r) site).runOn d = .ok (.ok (), d') ∧
    d'.blob.Holds site.offset.toNat word

/-- A word written for an object constant is null, or a handle of the object the constant names. -/
def Constant.WrittenAs (refers : Handle → ObjectAddress → Prop) (c : Constant) (word : UInt64) :
    Prop :=
  match c.named? with
  | none => word = 0
  | some object => refers ⟨word⟩ object

/-- The handles in the code of a unit refer to what the unit names: those in the scopes, locks and
    objects of its safepoints, and those written for the object constants it loads. -/
structure Code.Names (refers : Handle → ObjectAddress → Prop) (settings : Settings)
    (u : CompiledUnit) (r : Runtime) (code : Code) : Prop where
  safepoints : List.Forall₂ (fun suspension s => Safepoint.Names refers r.world suspension.1 s)
    (u.sitesInOrder.filterMap Site.suspension?) code.safepoints
  loads : ∀ pre site post c alignment inlined, u.sitesInOrder = pre ++ site :: post →
    site.kind = .dataPatch c alignment inlined → c.kind = .object →
    ∃ word, u.Writes settings r pre site word ∧ c.WrittenAs refers word

section Mono

variable {refers refers' : Handle → ObjectAddress → Prop}
  (hmono : ∀ h object, refers h object → refers' h object)
include hmono

theorem Constant.WrittenAs.mono {c : Constant} {word : UInt64} (h : c.WrittenAs refers word) :
    c.WrittenAs refers' word := by
  unfold Constant.WrittenAs at h ⊢
  split at h
  · exact h
  · exact hmono _ _ h

theorem Code.Names.mono {settings : Settings} {u : CompiledUnit} {r : Runtime} {code : Code}
    (h : code.Names refers settings u r) : code.Names refers' settings u r := by
  refine ⟨h.safepoints.imp fun _ _ => Safepoint.Names.mono hmono, ?_⟩
  intro pre site post c alignment inlined hsplit hkind hobject
  obtain ⟨word, hwrites, hword⟩ := h.loads pre site post c alignment inlined hsplit hkind hobject
  exact ⟨word, hwrites, hword.mono hmono⟩

end Mono

-- ── Loads of objects ────────────────────────────────────────────────────────────

/-- A run of sites that goes through, cut in two. -/
theorem applySites_append {ctx : SiteContext} {pre rest : List Site} {d d' : Draft}
    (h : (applySites ctx (pre ++ rest)).runOn d = .ok (.ok (), d')) :
    ∃ d₁, (applySites ctx pre).runOn d = .ok (.ok (), d₁) ∧
      (applySites ctx rest).runOn d₁ = .ok (.ok (), d') := by
  unfold applySites at h
  rw [List.forM_eq_forM, List.forM_append] at h
  obtain ⟨_, d₁, hpre, hrest⟩ := Patch.bind_ok h
  exact ⟨d₁, hpre, hrest⟩

/-- Right after a site is applied, its imprint is in place. -/
theorem Carries.of_apply {b : Blob} {f : Footprint} {imprint : Imprint} (hfits : imprint.Fits b) :
    Carries b (imprint.apply b) f imprint :=
  ⟨rfl, length_render hfits, hfits, fun _ _ _ _ _ => rfl,
    fun _ hr => List.mem_append_right _ hr, [], (List.append_nil _).symm⟩

/-- The load of an object has the new handle of the object as its immediate. -/
theorem applySite_writes {ctx : SiteContext} {base : HandleTable} {d d' : Draft} {site : Site}
    {c : Constant} {alignment : Nat} {inlined : Bool}
    (hd : d.references.Tracks base d.handles)
    (hkind : site.kind = .dataPatch c alignment inlined) (hobject : c.kind = .object)
    (h : (applySite ctx site).runOn d = .ok (.ok (), d')) :
    ∃ word, d'.blob.Holds site.offset.toNat word ∧ c.WrittenAs d'.Owns word := by
  obtain ⟨imprint, himprint, hfits, hblob, -⟩ := applySite_imprint h
  obtain ⟨scopes, t, hlowered, hrecords, -⟩ := applySite_records h
  obtain ⟨hreferences, hhandles⟩ := Prod.mk.inj hrecords
  obtain ⟨offset, kind⟩ := site
  obtain rfl : kind = .dataPatch c alignment inlined := hkind
  obtain ⟨kind, bits, object⟩ := c
  obtain rfl : kind = .object := hobject
  obtain ⟨i, hi, hword⟩ := Option.bind_eq_some_iff.mp himprint
  have hcarries : Carries d.blob d'.blob (.instruction d.blob.code offset.toNat false) imprint := by
    rw [hblob]
    exact .of_apply hfits
  rcases object with _ | ⟨object | id | text⟩
  case some.heap =>
    obtain ⟨_, t₁, hconstant, hlowered⟩ := Lower.bind_ok hlowered
    obtain ⟨-, rfl⟩ := Lower.pure_ok hlowered
    obtain ⟨handle, hmake⟩ := Constant.lowered_heap rfl rfl hconstant
    obtain ⟨handles, hmade, -⟩ := makeHandle_ok hmake
    obtain ⟨-, -, howns, -⟩ := makeHandle_gains hd hmake
    change d.handles.make object = .ok (handle, handles) at hmade
    dsimp only at hword
    rw [hmade] at hword
    refine ⟨handle.address, (hcarries.holds hi hword).2, ?_⟩
    show d'.references.recorded.Own d'.handles handle object
    rw [hreferences, hhandles]
    exact howns
  all_goals exact ⟨0, (hcarries.holds hi hword).2, rfl⟩

-- ── Runs ────────────────────────────────────────────────────────────────────────

/-- An accepted unit, with the runtime it was installed into. -/
structure Acceptance where
  settings : Settings
  unit : CompiledUnit
  before : Runtime
  receipt : Receipt

namespace Acceptance

/-- The code that was registered for the unit. -/
def code (a : Acceptance) : Code := a.receipt.installed.code

end Acceptance

/-- The handles of all registered units, in order of installation. -/
def CodeTable.handles (t : CodeTable) : List Handle :=
  t.codes.flatMap fun code => code.references.handles

/-- A sequence of installations, of methods and stubs, and the log of the accepted ones. -/
inductive Runtime.Run (start : Runtime) : List Acceptance → Runtime → Prop
  | start : Run start [] start
  | accepted {log : List Acceptance} {settings : Settings} {u : CompiledUnit} {r r' : Runtime}
      {receipt : Receipt} (hrun : Run start log r) (h : Ends settings u r (.ok receipt) r') :
      Run start (log ++ [⟨settings, u, r, receipt⟩]) r'
  | refused {log : List Acceptance} {settings : Settings} {u : CompiledUnit} {r r' : Runtime}
      {refusal : Refusal} (hrun : Run start log r) (h : Ends settings u r (.error refusal) r') :
      Run start log r'

/-- **A registered unit owns what it names.** -/
theorem Installation.names {settings : Settings} {u : CompiledUnit} {r r' : Runtime}
    {receipt : Receipt} (hsound : r.handles.Sound)
    (h : Installation settings u r (.ok receipt) r') :
    receipt.installed.code.Names (receipt.installed.code.references.Own r'.handles) settings u r ∧
      r'.codes.codes = r.codes.codes ++ [receipt.installed.code] := by
  cases h with
  | @registered d dependencies code receipt codes hrun hfinish hregister =>
      obtain ⟨-, hreferences, hsafepoints⟩ := CompiledUnit.finish_ok hfinish
      obtain ⟨address, moved, -, hinstalled, -, hcodes⟩ := CodeTable.register_ok hregister
      obtain ⟨parameterCount, blob, hblob, hrun⟩ := hrun
      obtain ⟨-, -, hclosed⟩ := applySites_gains (.start hsound) hrun
      obtain ⟨new, hnew, hnames⟩ := hclosed rfl
      refine ⟨?_, hcodes⟩
      rw [hinstalled]
      show Code.Names (code.references.Own d.handles) settings u r { code with blob := moved }
      rw [hreferences]
      refine ⟨?_, fun pre site post c alignment inlined hsplit hkind hobject => ?_⟩
      · show List.Forall₂ _ _ code.safepoints
        rw [hsafepoints, hnew]
        exact hnames
      · rw [hsplit] at hrun
        obtain ⟨d₁, hpre, hrun⟩ := applySites_append hrun
        obtain ⟨_, d₂, hsite, hpost⟩ := Patch.bind_ok hrun
        obtain ⟨hd₁, -, -⟩ := applySites_gains (.start hsound) hpre
        obtain ⟨hd₂, -, -⟩ := applySite_gains hd₁ hsite
        obtain ⟨word, hholds, hword⟩ := applySite_writes hd₁ hkind hobject hsite
        obtain ⟨-, howns, -⟩ := applySites_gains hd₂ hpost
        exact ⟨word, ⟨parameterCount, blob, d₁, d₂, hblob, hpre, hsite, hholds⟩, hword.mono howns⟩

theorem CodeTable.handles_append {t t' : CodeTable} {code : Code}
    (h : t'.codes = t.codes ++ [code]) : t'.handles = t.handles ++ code.references.handles := by
  unfold CodeTable.handles
  rw [h, List.flatMap_append, List.flatMap_singleton]

/-- The code of accepted units names what they named, for as long as their handles are live. -/
theorem Code.Names.of_gains {t t' : HandleTable} {handles : List Handle} {settings : Settings}
    {u : CompiledUnit} {r : Runtime} {code : Code} (hgains : t.Gains handles t')
    (h : code.Names (code.references.Own t) settings u r) :
    code.Names (code.references.Own t') settings u r :=
  h.mono fun _ _ howns => ⟨howns.1, hgains.keeps howns.2⟩

/-- **What a sequence of installations preserves.** The table of handles has gained the handles of
    the registered units, and these units are the accepted ones, whose code names what they name. -/
theorem Runtime.Run.gains {start r : Runtime} {log : List Acceptance}
    (hsound : start.handles.Sound) (hcodes : start.codes.codes = []) (hrun : start.Run log r) :
    start.handles.Gains r.codes.handles r.handles ∧ r.codes.codes = log.map Acceptance.code ∧
      ∀ a ∈ log, a.code.Names (a.code.references.Own r.handles) a.settings a.unit a.before := by
  induction hrun with
  | start =>
      refine ⟨?_, hcodes, fun a ha => absurd ha List.not_mem_nil⟩
      unfold CodeTable.handles
      rw [hcodes]
      exact .refl hsound
  | @accepted log settings u r r' receipt hrun h ih =>
      obtain ⟨hgains, hlog, hnames⟩ := ih
      have hnew : r.handles.Gains receipt.installed.code.references.handles r'.handles :=
        h.installation.gains hgains.sound
      obtain ⟨hnamed, hregistered⟩ := h.installation.names hgains.sound
      refine ⟨?_, ?_, fun a ha => ?_⟩
      · rw [CodeTable.handles_append hregistered]
        exact hgains.trans hnew
      · rw [hregistered, hlog, List.map_append]
        rfl
      · rcases List.mem_append.mp ha with ha | ha
        · exact (hnames a ha).of_gains hnew
        · obtain rfl := List.mem_singleton.mp ha
          exact hnamed
  | @refused log settings u r r' refusal hrun h ih =>
      obtain ⟨hgains, hlog, hnames⟩ := ih
      have hnone : r.handles.Gains [] r'.handles := h.installation.gains hgains.sound
      have hkept : r'.codes = r.codes := by rw [h.installation.eq_of_refused]
      have hboth := hgains.trans hnone
      rw [List.append_nil] at hboth
      rw [hkept]
      exact ⟨hboth, hlog, fun a ha => (hnames a ha).of_gains hnone⟩

/-- Without live handles no handle resolves. -/
theorem HandleTable.Sound.resolve?_of_live {t : HandleTable} (ht : t.Sound) (hlive : t.live = 0)
    (h : Handle) : t.resolve? h = none := by
  rw [ht.live_eq, List.countP_eq_zero] at hlive
  cases hresolve : t.resolve? h with
  | none => rfl
  | some object =>
      obtain ⟨slot, -, hslot⟩ := Option.bind_eq_some_iff.mp hresolve
      have hheld := List.mem_of_getElem? (Option.join_eq_some_iff.mp hslot)
      exact (hlive (some object) hheld rfl).elim

/-- **The registered units own the live handles.** After any sequence of installations on a runtime
    that started without units and live handles, no unit has a handle twice, no two units have one
    in common, and the live handles are theirs. The handles in the scopes, locks and objects of a
    unit and in the loads it patched are its own, and refer to what the unit names in their
    place. -/
theorem handles_owned {start r : Runtime} {log : List Acceptance} (hstart : start.Reachable)
    (hlive : start.handles.live = 0) (hcodes : start.codes.codes = []) (hrun : start.Run log r) :
    r.codes.codes = log.map Acceptance.code ∧
    (∀ code ∈ r.codes.codes, code.references.handles.Nodup) ∧
    r.codes.codes.Pairwise (fun a b => a.references.handles.Disjoint b.references.handles) ∧
    (∀ h, r.handles.resolve? h ≠ none ↔ ∃ code ∈ r.codes.codes, h ∈ code.references.handles) ∧
    r.handles.live = r.codes.handles.length ∧
    ∀ a ∈ log, a.code.Names (a.code.references.Own r.handles) a.settings a.unit a.before := by
  obtain ⟨hgains, hlog, hnames⟩ := hrun.gains hstart.sound hcodes
  obtain ⟨hdistinct, hapart⟩ := List.nodup_flatMap.mp hgains.distinct
  refine ⟨hlog, hdistinct, hapart, fun h => ?_, ?_, hnames⟩
  · rw [← List.mem_flatMap]
    constructor
    · intro hheld
      refine Classical.byContradiction fun hnot => hheld ?_
      rw [hgains.others h hnot]
      exact hstart.sound.resolve?_of_live hlive h
    · exact hgains.held h
  · rw [hgains.live, hlive, Nat.zero_add]

-- ── A refused unit and an accepted one ──────────────────────────────────────────

/-- The load of an object, and a suspension point with a constant and with an object that has one
    as its field. -/
def CompiledUnit.sampleObjects : CompiledUnit where
  name := "objects"
  code := [0x48, 0xb8, 0, 0, 0, 0, 0, 0, 0, 0, 0x90]
  codeSize := 11
  frameSize := 8
  sites :=
    [⟨0, .dataPatch (.ofObject ⟨0x5000⟩) 8 true⟩,
     ⟨10, .safepoint {
        frame := {
          method := ⟨0x1000⟩, bci := 0
          values := [.constant (.ofObject ⟨0x6000⟩), .virtualObject 1]
          localCount := 2, stackCount := 0, lockCount := 0 }
        frameBits := ⟨[]⟩
        virtualObjects := [⟨1, ⟨0x400⟩, [.constant (.ofObject ⟨0x7000⟩)]⟩] }⟩]

theorem CompiledUnit.sitesInOrder_sampleObjects :
    CompiledUnit.sampleObjects.sitesInOrder = CompiledUnit.sampleObjects.sites :=
  List.mergeSort_of_pairwise (by decide)

/-- A unit that uses the slot of a refused one again owns its handles. -/
theorem handles_owned_sample :
    Runtime.sample.Reachable ∧ Runtime.sample.handles.live = 0 ∧
    Runtime.sample.codes.codes = [] ∧
    ∃ log r, Runtime.sample.Run log r ∧ log ≠ [] ∧
      (∀ h, r.handles.resolve? h ≠ none ↔
        ∃ code ∈ r.codes.codes, h ∈ code.references.handles) ∧
      ∀ a ∈ log, a.code.Names (a.code.references.Own r.handles) a.settings a.unit a.before := by
  have hends : endsRegistered true
      (installStub { relocationsPerSite := 0 } .sampleLoad .sample >>= fun ended =>
        installStub {} .sampleObjects ended.2) = true := by
    unfold installStub assembleAndCommit assemblePaused assemble
    rw [CompiledUnit.sitesInOrder_sampleLoad, CompiledUnit.sitesInOrder_sampleObjects]
    decide +kernel
  obtain ⟨receipt, r', hboth⟩ := exists_receipt hends
  obtain ⟨⟨out, r⟩, hfirst, hsecond⟩ := Checked.bind_ok hboth
  obtain ⟨refusal, r₁, hrefused⟩ := CompiledUnit.sampleLoad_refused
  obtain ⟨rfl, rfl⟩ := Prod.mk.inj (Except.ok.inj (hrefused.symm.trans hfirst))
  have hrun := (Runtime.Run.start.refused (Or.inr hrefused)).accepted (Or.inr hsecond)
  obtain ⟨-, -, -, hheld, -, hnames⟩ :=
    handles_owned Runtime.sample_reachable rfl rfl hrun
  exact ⟨Runtime.sample_reachable, rfl, rfl, _, r', hrun, by simp, hheld, hnames⟩

end ManagedCode
