import ManagedCode.Proofs.Refusal

/-! # The safepoints of a unit

    The sites of a unit are walked by ascending offset, and some of them are suspension points: the
    safepoints, and the calls with debug information that do not jump to installed code.  The tables
    of an assembled unit describe exactly these, in the order of the walk.

* **`Scope.Describes`**, **`Safepoint.Describes`** — what is recorded of a frame and of a suspension
  point.
* **`Walk`** — the sites applied one after the other, with the suspension points met on the way.
* **`SafepointLog.Describes`** — the invariant: the closed safepoints and the reference maps stand
  for the points met so far, by ascending offset.
* **`applySite_walks`**, **`applySites_walks`** — one site and all of them.
* **`safepoints_at_suspension_points`** — the tables of an assembled unit. -/

namespace ManagedCode

-- ── What is recorded of a suspension point ──────────────────────────────────────

/-- A scope stands for a frame. The interrupted instruction is executed again unless the frame is
    in a call, before its first instruction or behind its return. -/
structure Scope.Describes (frame : Frame) (s : Scope) : Prop where
  method : s.method = frame.method
  bci : s.bci = frame.bci
  rethrow : s.rethrow = frame.rethrow
  reexecute : s.reexecute = true ↔ frame.duringCall = false ∧ frame.bci ≠ -1 ∧ frame.bci ≠ -2

/-- A place where execution may be suspended. -/
structure SuspensionPoint where
  pc : Nat
  leafGraphId : Int
  info : DebugInfo

/-- A safepoint stands for a suspension point, with one scope per frame, innermost first. -/
structure Safepoint.Describes (point : SuspensionPoint) (s : Safepoint) : Prop where
  pc : s.pc = point.pc
  leafGraphId : s.leafGraphId = point.leafGraphId
  scopes : List.Forall₂ Scope.Describes point.info.chain s.scopes
  depth : s.scopes.length = point.info.depth

/-- An entry of the table of reference maps stands for a suspension point of a frame. -/
def SuspensionPoint.HasMap (frameSize parameterCount : Nat) (point : SuspensionPoint)
    (entry : Nat × RefMap) : Prop :=
  entry.1 = point.pc ∧
    RefMap.ofBits frameSize parameterCount point.info.registerBits point.info.frameBits =
      .ok entry.2

/-- The sites are applied in order, and the points are the suspension points among them, each at
    its place in the code that its site is applied to. -/
inductive Walk (ctx : SiteContext) : Draft → List Site → List SuspensionPoint → Draft → Prop
  | done {d : Draft} : Walk ctx d [] [] d
  | pass {d d₁ d' : Draft} {site : Site} {sites : List Site} {points : List SuspensionPoint}
      (hnone : site.suspension? = none) (happly : (applySite ctx site).runOn d = .ok (.ok (), d₁))
      (hrest : Walk ctx d₁ sites points d') : Walk ctx d (site :: sites) points d'
  | suspend {d d₁ d' : Draft} {site : Site} {sites : List Site} {points : List SuspensionPoint}
      {pc : Nat} {info : DebugInfo} {leaf : Int} (hsome : site.suspension? = some (info, leaf))
      (hpc : site.SuspendsAt d.blob pc) (happly : (applySite ctx site).runOn d = .ok (.ok (), d₁))
      (hrest : Walk ctx d₁ sites points d') :
      Walk ctx d (site :: sites) (⟨pc, leaf, info⟩ :: points) d'

-- ── Scopes ──────────────────────────────────────────────────────────────────────

theorem lowerFrame_describes {values : ValueContext} {frame : Frame} {scope : Scope}
    {t t' : Lowering} (h : (lowerFrame values frame).run t = .ok (scope, t')) :
    scope.Describes frame := by
  obtain ⟨_, _, -, h⟩ := Lower.bind_ok h
  obtain ⟨_, _, -, h⟩ := Lower.bind_ok h
  obtain ⟨slots, _, -, h⟩ := Lower.bind_ok h
  obtain ⟨rfl, -⟩ := Lower.pure_ok h
  refine ⟨rfl, rfl, rfl, ?_⟩
  show frame.reexecutes = true ↔ _
  unfold Frame.reexecutes Frame.beforeBci Frame.afterBci
  by_cases hbci : frame.bci = -1 ∨ frame.bci = -2
  · rw [if_pos hbci]
    constructor
    · exact nofun
    · rintro ⟨-, hbefore, hafter⟩
      exact (hbci.elim hbefore hafter).elim
  · rw [if_neg hbci]
    simp [not_or.mp hbci]

/-- The chain is described outermost frame first, and read innermost first. -/
theorem DebugInfo.describe_scopes {ctx : SiteContext} {info : DebugInfo} {scopes : List Scope}
    {t t' : Lowering} (h : (info.describe ctx).run t = .ok (scopes, t')) :
    List.Forall₂ Scope.Describes info.chain scopes.reverse := by
  obtain ⟨values, t₁, -, h⟩ := Lower.bind_ok h
  rw [← List.forall₂_reverse_iff, List.reverse_reverse]
  exact Lower.mapM_forall₂ (fun _ _ _ _ => lowerFrame_describes) h

theorem Site.lowered_of_suspension {ctx : SiteContext} {site : Site} {info : DebugInfo} {leaf : Int}
    {scopes : Option (List Scope)} {t t' : Lowering} (hsome : site.suspension? = some (info, leaf))
    (h : (site.lowered ctx).run t = .ok (scopes, t')) :
    ∃ described, scopes = some described ∧ (info.describe ctx).run t = .ok (described, t') := by
  have hrun : (some <$> info.describe ctx).run t = .ok (scopes, t') := by
    obtain ⟨offset, kind⟩ := site
    cases kind with
    | dataPatch c alignment inlined => exact nomatch hsome
    | mark id references => exact nomatch hsome
    | safepoint info =>
        obtain ⟨rfl, -⟩ := Prod.mk.inj (Option.some.inj hsome)
        exact h
    | call target info =>
        change (DebugInfo.describe? ctx (Option.map Prod.fst (Site.suspension? _))).run t = _ at h
        rw [hsome] at h
        exact h
  rw [StateT.run_map] at hrun
  obtain ⟨⟨described, t₁⟩, hdescribe, heq⟩ := map_eq_ok hrun
  obtain ⟨rfl, rfl⟩ := Prod.mk.inj heq
  exact ⟨described, rfl, hdescribe⟩

-- ── The log along the walk ──────────────────────────────────────────────────────

/-- A map behind all others is put at the end. -/
theorem RefMapTable.insertMap_of_lt {pc : Nat} {map : RefMap} {maps : List (Nat × RefMap)}
    (h : ∀ entry ∈ maps, entry.1 < pc) : insertMap pc map maps = maps ++ [(pc, map)] := by
  induction maps with
  | nil => rfl
  | cons entry rest ih =>
      have hentry := h entry (List.mem_cons_self ..)
      have hrest : ∀ other ∈ rest, other.1 < pc := fun other hother =>
        h other (List.mem_cons_of_mem _ hother)
      rw [insertMap, if_neg (by omega), ih hrest]
      rfl

/-- What is behind all other maps has no map yet. -/
theorem RefMapTable.find?_of_lt {t : RefMapTable} {pc : Nat} (h : ∀ entry ∈ t.maps, entry.1 < pc) :
    t.find? pc = none := by
  refine List.lookup_eq_none_iff.mpr fun entry hentry => ?_
  have hlt := h entry hentry
  simp only [bne_iff_ne, ne_eq]
  omega

/-- What is closed stands for the points met so far, by ascending offset, and has the reference
    maps of these points and no others. -/
structure SafepointLog.Describes (ctx : SiteContext) (points : List SuspensionPoint)
    (log : SafepointLog) : Prop where
  safepoints : List.Forall₂ Safepoint.Describes points log.closed
  ascending : log.closed.Pairwise fun a b => a.pc < b.pc
  maps : List.Forall₂ (SuspensionPoint.HasMap ctx.frameSize ctx.parameterCount) points
    log.maps.maps

namespace SafepointLog

variable {ctx : SiteContext} {points : List SuspensionPoint} {log log' : SafepointLog}

/-- What is behind the last closed safepoint is behind all of them. -/
theorem lt_of_last (hascending : log.closed.Pairwise fun a b => a.pc < b.pc) {pc : Nat}
    (hlast : ∀ last, log.closed.getLast? = some last → last.pc < pc) :
    ∀ s ∈ log.closed, s.pc < pc := by
  intro s hs
  have hne := List.ne_nil_of_mem hs
  have hbehind := hlast _ (List.getLast?_eq_some_getLast hne)
  rcases List.mem_append.mp ((List.dropLast_append_getLast hne).symm ▸ hs) with hinit | heq
  · rw [← List.dropLast_append_getLast hne, List.pairwise_append] at hascending
    exact Nat.lt_trans (hascending.2.2 s hinit _ (List.mem_singleton.mpr rfl)) hbehind
  · rw [List.mem_singleton.mp heq]
    exact hbehind

/-- Where the maps are those of the closed safepoints, what is behind these is behind all maps. -/
theorem keys_lt (hkeys : log.maps.maps.map Prod.fst = log.closed.map Safepoint.pc) {pc : Nat}
    (hbehind : ∀ s ∈ log.closed, s.pc < pc) : ∀ entry ∈ log.maps.maps, entry.1 < pc := by
  intro entry hentry
  have hkey := List.mem_map_of_mem (f := Prod.fst) hentry
  rw [hkeys] at hkey
  obtain ⟨other, hother, hpc⟩ := List.mem_map.mp hkey
  rw [← hpc]
  exact hbehind other hother

/-- And it has no map yet. -/
theorem exists_add (hkeys : log.maps.maps.map Prod.fst = log.closed.map Safepoint.pc) {pc : Nat}
    (hbehind : ∀ s ∈ log.closed, s.pc < pc) (map : RefMap) :
    ∃ maps, log.maps.add pc map = .ok maps := by
  unfold RefMapTable.add require
  rw [if_pos (RefMapTable.find?_of_lt (keys_lt hkeys hbehind))]
  exact ⟨_, rfl⟩

/-- The offsets of the closed safepoints are those of the points. -/
theorem Describes.pcs (h : log.Describes ctx points) :
    points.map SuspensionPoint.pc = log.closed.map Safepoint.pc := by
  have hclosed := (List.forall₂_map_right_iff (f := Safepoint.pc)).mpr
    (h.safepoints.imp fun point s hs => hs.pc.symm)
  rwa [← List.forall₂_map_left_iff (f := SuspensionPoint.pc), List.forall₂_eq_eq_eq] at hclosed

/-- The offsets of the maps are those of the closed safepoints. -/
theorem Describes.keys (h : log.Describes ctx points) :
    log.maps.maps.map Prod.fst = log.closed.map Safepoint.pc := by
  have hmaps := (List.forall₂_map_right_iff (f := Prod.fst)).mpr
    (h.maps.imp fun point entry hentry => hentry.1.symm)
  rw [← List.forall₂_map_left_iff (f := SuspensionPoint.pc), List.forall₂_eq_eq_eq] at hmaps
  exact hmaps.symm.trans h.pcs

/-- **A recorded suspension point** is described behind those before it. -/
theorem Describes.record (h : log.Describes ctx points) {info : DebugInfo} {s : Safepoint}
    (hrecords : log.Records ctx log' (some info) (some s))
    (hs : s.Describes ⟨s.pc, s.leafGraphId, info⟩) :
    log'.Describes ctx (points ++ [⟨s.pc, s.leafGraphId, info⟩]) := by
  obtain ⟨map, opened, hmap, hstart, rfl⟩ := hrecords
  obtain ⟨-, hlast, -, -⟩ := start_ok hstart
  have hbehind := lt_of_last h.ascending hlast
  have hkeys := keys_lt h.keys hbehind
  obtain ⟨-, -, -, rfl⟩ := start_ok hstart
  refine ⟨List.rel_append h.safepoints (.cons hs .nil), ?_, ?_⟩
  · rw [List.pairwise_append]
    refine ⟨h.ascending, List.pairwise_singleton .., fun a ha b hb => ?_⟩
    rw [List.mem_singleton.mp hb]
    exact hbehind a ha
  · show List.Forall₂ _ _ (RefMapTable.insertMap s.pc map log.maps.maps)
    rw [RefMapTable.insertMap_of_lt hkeys]
    exact List.rel_append h.maps (.cons ⟨rfl, hmap⟩ .nil)

end SafepointLog

section Sites

variable {ctx : SiteContext} {d d' : Draft} {points : List SuspensionPoint}

/-- **One site** passes, or is a suspension point and described as such. -/
theorem applySite_walks {site : Site} (hd : d.log.Describes ctx points)
    (h : (applySite ctx site).runOn d = .ok (.ok (), d')) :
    (site.suspension? = none ∧ d'.log.Describes ctx points) ∨
    ∃ pc info leaf, site.suspension? = some (info, leaf) ∧ site.SuspendsAt d.blob pc ∧
      d'.log.Describes ctx (points ++ [⟨pc, leaf, info⟩]) := by
  obtain ⟨scopes, t, hlowered, -, hdone⟩ := applySite_records h
  obtain ⟨pc, hpc, hrecords⟩ := hdone rfl
  cases hsuspension : site.suspension? with
  | none =>
      rw [hsuspension] at hrecords
      cases scopes with
      | none =>
          rw [show d'.log = d.log from hrecords]
          exact Or.inl ⟨rfl, hd⟩
      | some scopes => exact hrecords.elim
  | some suspension =>
      obtain ⟨info, leaf⟩ := suspension
      obtain ⟨described, rfl, hdescribe⟩ := site.lowered_of_suspension hsuspension hlowered
      rw [hsuspension] at hpc hrecords
      have hscopes := info.describe_scopes hdescribe
      have hdescribes : Safepoint.Describes ⟨pc, leaf, info⟩ ⟨pc, leaf, described, t.pool⟩ :=
        ⟨rfl, rfl, hscopes, hscopes.length_eq.symm⟩
      exact Or.inr ⟨pc, info, leaf, rfl, hpc nofun, hd.record hrecords hdescribes⟩

/-- **All sites**: the points described at the end are those described before and, behind them,
    those met on the walk. -/
theorem applySites_walks {sites : List Site} (hd : d.log.Describes ctx points)
    (h : (applySites ctx sites).runOn d = .ok (.ok (), d')) :
    ∃ met, Walk ctx d sites met d' ∧ d'.log.Describes ctx (points ++ met) := by
  induction sites generalizing d points with
  | nil =>
      obtain ⟨-, rfl⟩ := Prod.mk.inj (Except.ok.inj h)
      exact ⟨[], .done, by rwa [List.append_nil]⟩
  | cons site rest ih =>
      obtain ⟨_, d₁, hsite, hrest⟩ := Patch.bind_ok h
      rcases applySite_walks hd hsite with ⟨hnone, hd₁⟩ | ⟨pc, info, leaf, hsome, hpc, hd₁⟩
      · obtain ⟨met, hwalk, hmet⟩ := ih hd₁ hrest
        exact ⟨met, .pass hnone hsite hwalk, hmet⟩
      · obtain ⟨met, hwalk, hmet⟩ := ih hd₁ hrest
        refine ⟨⟨pc, leaf, info⟩ :: met, .suspend hsome hpc hsite hwalk, ?_⟩
        rwa [List.append_cons]

/-- The points met are the suspension points of the sites, in order. -/
theorem Walk.suspensions {sites : List Site} (h : Walk ctx d sites points d') :
    points.map (fun point => (point.info, point.leafGraphId)) =
      sites.filterMap Site.suspension? := by
  induction h with
  | done => rfl
  | pass hnone _ _ ih => rw [List.filterMap_cons_none hnone, ih]
  | suspend hsome _ _ _ ih => rw [List.filterMap_cons_some hsome, List.map_cons, ih]

end Sites

-- ── Assembled units ─────────────────────────────────────────────────────────────

/-- **The safepoints of a unit are its suspension points.** Whenever a unit is assembled, walking
    its sites by offset meets suspension points that the finished safepoints describe one by one,
    in this order and by strictly ascending offset, and the reference maps are those of these
    points, for the whole frame of the unit. -/
theorem safepoints_at_suspension_points {settings : Settings} {u : CompiledUnit}
    {parameterCount : Nat} {dependencies : List Dependency} {r r' : Runtime} {code : Code}
    (h : assemble settings u parameterCount dependencies r = .ok (.ok code, r')) :
    ∃ blob d points, u.blob settings = .ok (.ok blob) ∧
      Walk (u.siteContext settings parameterCount r) { blob, handles := r.handles }
        u.sitesInOrder points d ∧
      points.map (fun point => (point.info, point.leafGraphId)) =
        u.sitesInOrder.filterMap Site.suspension? ∧
      List.Forall₂ Safepoint.Describes points code.safepoints ∧
      code.safepoints.Pairwise (fun a b => a.pc < b.pc) ∧
      code.maps.maps.map Prod.fst = code.safepoints.map Safepoint.pc ∧
      List.Forall₂ (SuspensionPoint.HasMap (u.frameSize.toNat + returnAddressSize) parameterCount)
        points code.maps.maps := by
  rcases assemble_done h with ⟨e, hresult, -⟩ | ⟨blob, ended, d, hblob, hrun,
    ⟨e, handles, hresult, -⟩ | ⟨code', rfl, hresult, hfinish, -⟩⟩
  · exact nomatch hresult
  · exact nomatch hresult
  obtain rfl := Except.ok.inj hresult
  have hstart : SafepointLog.Describes (u.siteContext settings parameterCount r) [] {} :=
    ⟨.nil, .nil, .nil⟩
  obtain ⟨points, hwalk, hlog⟩ := applySites_walks hstart hrun
  obtain ⟨-, handlers, rfl⟩ := CompiledUnit.finish_eq hfinish
  exact ⟨blob, d, points, hblob, hwalk, hwalk.suspensions, hlog.safepoints, hlog.ascending,
    hlog.keys, hlog.maps⟩

-- ── A safepoint and a call through a register ───────────────────────────────────

/-- A suspension point before the first instruction. -/
def Site.sampleEntry : Site :=
  ⟨0, .safepoint {
    frame := {
      method := ⟨0x1000⟩, bci := -1, values := []
      localCount := 0, stackCount := 0, lockCount := 0 }
    frameBits := ⟨[]⟩ }⟩

/-- A call in an inlined method, with a loaded target. -/
def Site.sampleLoadedCall : Site :=
  ⟨6, .call (.runtimeStub 1) (some {
    frame := {
      method := ⟨0x2000⟩, bci := 3, values := []
      localCount := 0, stackCount := 0, lockCount := 0, duringCall := true, leafGraphId := 7 }
    callers := [{
      method := ⟨0x1000⟩, bci := 5, values := []
      localCount := 0, stackCount := 0, lockCount := 0, rethrow := true }]
    frameBits := ⟨[1]⟩ })⟩

/-- Two suspension points and between them a call that is none, not given by offset. -/
def CompiledUnit.sampleSuspended : CompiledUnit where
  name := "suspended"
  code := [0x90, 0xe8, 0, 0, 0, 0, 0x48, 0xb8, 0, 0, 0, 0, 0, 0, 0, 0, 0x40, 0xff, 0xd0]
  codeSize := 19
  frameSize := 8
  sites := [.sampleLoadedCall, .sampleEntry, ⟨1, .call (.runtimeStub 0) none⟩]

theorem CompiledUnit.sitesInOrder_sampleSuspended :
    CompiledUnit.sampleSuspended.sitesInOrder =
      [.sampleEntry, ⟨1, .call (.runtimeStub 0) none⟩, .sampleLoadedCall] := by
  simp [CompiledUnit.sitesInOrder, CompiledUnit.sampleSuspended, List.mergeSort,
    List.MergeSort.Internal.splitInTwo, Site.sampleEntry, Site.sampleLoadedCall]

/-- The code of a unit that was assembled. -/
def assembledCode? : Checked (Except Overflow Code × Runtime) → Option Code
  | .ok (.ok code, _) => some code
  | _ => none

theorem exists_assembled {ended : Checked (Except Overflow Code × Runtime)} {code : Code}
    (h : assembledCode? ended = some code) : ∃ r', ended = .ok (.ok code, r') := by
  rcases ended with fault | ⟨refused | code', r'⟩
  · exact nomatch h
  · exact nomatch h
  · obtain rfl := Option.some.inj h
    exact ⟨r', rfl⟩

/-- The two suspension points are found behind one another, the second with its two frames at the
    end of the register call. -/
theorem safepoints_at_suspension_points_sample :
    ∃ code r', assemble {} .sampleSuspended 0 [] Runtime.sample.pause = .ok (.ok code, r') ∧
      code.safepoints.map (fun s => (s.pc, s.leafGraphId, s.scopes.map Scope.bci)) =
        [(0, -1, [-1]), (19, 7, [3, 5])] ∧
      code.maps.maps.map Prod.fst = [0, 19] ∧
      ∃ points, List.Forall₂ Safepoint.Describes points code.safepoints ∧
        List.Forall₂ (SuspensionPoint.HasMap 16 0) points code.maps.maps := by
  have hassembled : (assembledCode? (assemble {} .sampleSuspended 0 [] Runtime.sample.pause)).map
      (fun code => code.safepoints.map fun s => (s.pc, s.leafGraphId, s.scopes.map Scope.bci)) =
        some [(0, -1, [-1]), (19, 7, [3, 5])] := by
    unfold assemble
    rw [CompiledUnit.sitesInOrder_sampleSuspended]
    decide +kernel
  obtain ⟨code, hcode, hsafepoints⟩ := Option.map_eq_some_iff.mp hassembled
  obtain ⟨r', hended⟩ := exists_assembled hcode
  obtain ⟨-, -, points, -, -, -, hdescribed, -, hkeys, hmaps⟩ :=
    safepoints_at_suspension_points hended
  refine ⟨code, r', hended, hsafepoints, ?_, points, hdescribed, hmaps⟩
  have hpcs := congrArg (List.map Prod.fst) hsafepoints
  rw [List.map_map] at hpcs
  exact hkeys.trans hpcs

end ManagedCode
