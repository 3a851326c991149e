import ManagedCode.Proofs.Steps

/-! # What a site records

    Besides patching code, a site may lower values: it records references, makes handles and closes
    a safepoint.  What it records depends on the site and on the tables before it, not on the code,
    and a refusal comes only after all of it is recorded.

* **`Patch.Keeps`** — a step that leaves something about the draft alone, however it ends.
* **`Site.lowered`** — the lowering that a site amounts to.
* **`applySite_records`** — an applied or refused site has recorded what that lowering records, and
  an applied one has closed the safepoint made of it. -/

namespace ManagedCode

-- ── Steps that leave something alone ────────────────────────────────────────────

namespace Patch

variable {α β γ : Type} {f : Draft → γ}

/-- However the step ends, `f` of the draft stays as it was. -/
def Keeps (f : Draft → γ) (step : Patch α) : Prop :=
  ∀ (d d' : Draft) (out : Except Overflow α), step.runOn d = .ok (out, d') → f d' = f d

namespace Keeps

theorem bind {x : Patch α} {g : α → Patch β} (hx : Keeps f x) (hg : ∀ a, Keeps f (g a)) :
    Keeps f (x >>= g) := by
  intro d d' out h
  rcases bind_done h with ⟨e, -, hx'⟩ | ⟨a, d₁, hx', hg'⟩
  · exact hx _ _ _ hx'
  · exact (hg a _ _ _ hg').trans (hx _ _ _ hx')

theorem pure (a : α) : Keeps f (Pure.pure a : Patch α) := by
  intro d d' out h
  obtain ⟨-, rfl⟩ := Prod.mk.inj (Except.ok.inj h)
  rfl

theorem lift (x : Checked α) : Keeps f (liftM x : Patch α) := by
  intro d d' out h
  rw [runOn_lift] at h
  obtain ⟨a, -, h⟩ := Checked.bind_ok h
  obtain ⟨-, rfl⟩ := Prod.mk.inj (Except.ok.inj h)
  rfl

theorem get : Keeps f (MonadState.get : Patch Draft) := by
  intro d d' out h
  obtain ⟨-, rfl⟩ := Prod.mk.inj (Except.ok.inj h)
  rfl

theorem blob : Keeps f Patch.blob := bind get fun _ => pure _

theorem modified {g : Draft → Draft} (hg : ∀ d, f (g d) = f d) :
    Keeps f (modify g : Patch PUnit) := by
  intro d d' out h
  obtain ⟨-, rfl⟩ := Prod.mk.inj (Except.ok.inj h)
  exact hg d

theorem modifyLog (hf : ∀ d log, f { d with log } = f d)
    (g : SafepointLog → Checked SafepointLog) : Keeps f (Patch.modifyLog g) := by
  intro d d' out h
  rw [runOn_modifyLog] at h
  obtain ⟨log, -, h⟩ := Checked.bind_ok h
  obtain ⟨-, rfl⟩ := Prod.mk.inj (Except.ok.inj h)
  exact hf d log

theorem lowering (hf : ∀ d references handles, f { d with references, handles } = f d)
    (step : Lower α) : Keeps f (Patch.lowering step) := by
  intro d d' out h
  rw [runOn_lowering] at h
  obtain ⟨t, -, h⟩ := Checked.bind_ok h
  obtain ⟨-, rfl⟩ := Prod.mk.inj (Except.ok.inj h)
  exact hf d _ _

section Blob

variable (hf : ∀ (d : Draft) (b : ManagedCode.Blob), f { d with blob := b } = f d)
include hf

theorem modifyBlob (g : ManagedCode.Blob → Checked ManagedCode.Blob) :
    Keeps f (Patch.modifyBlob g) := by
  intro d d' out h
  rw [runOn_modifyBlob] at h
  obtain ⟨b, -, h⟩ := Checked.bind_ok h
  obtain ⟨-, rfl⟩ := Prod.mk.inj (Except.ok.inj h)
  exact hf d b

theorem relocate (offset : Nat) (kind : RelocationKind) (format : OperandFormat) :
    Keeps f (Patch.relocate offset kind format) := by
  intro d d' out h
  rw [runOn_relocate] at h
  obtain ⟨⟨_, b⟩, -, h⟩ := Checked.bind_ok h
  obtain ⟨-, rfl⟩ := Prod.mk.inj (Except.ok.inj h)
  exact hf d b

theorem appendConstant (bytes : List UInt8) (alignment : Nat) :
    Keeps f (Patch.appendConstant bytes alignment) := by
  intro d d' out h
  rw [runOn_appendConstant] at h
  obtain ⟨⟨_, b⟩, -, h⟩ := Checked.bind_ok h
  obtain ⟨-, rfl⟩ := Prod.mk.inj (Except.ok.inj h)
  exact hf d b

end Blob

end Keeps

end Patch

/-- What a draft holds besides its blob. -/
def Draft.sansBlob (d : Draft) : Draft := { d with blob := default }

/-- What the lowering of values changes in a draft, and the safepoints made from it. -/
def Draft.notes (d : Draft) : ReferenceRecorder × HandleTable × SafepointLog :=
  (d.references, d.handles, d.log)

theorem Draft.eq_of_sansBlob {d d' : Draft} (h : d'.sansBlob = d.sansBlob) :
    d' = { d with blob := d'.blob } := by
  cases d
  cases d'
  simp only [sansBlob, mk.injEq] at h ⊢
  exact ⟨trivial, h.2⟩

/-- The name that a mark gives its offset, if it gives it one. -/
def Mark.entryKind? : Mark → Option EntryKind
  | unverifiedEntry => some .entry
  | verifiedEntry => some .verifiedEntry
  | osrEntry => some .osrEntry
  | unwindEntry => some .unwindHandler
  | exceptionHandlerEntry => some .exceptions
  | deoptHandlerEntry => some .deopt
  | _ => none

/-- Whether a mark announces how the next call is bound. -/
def Mark.isInvoke : Mark → Bool
  | invokeInvalid => true
  | invokeInterface => true
  | invokeStatic => true
  | invokeSpecial => true
  | invokeVirtual => true
  | inlineInvokeVirtual => true
  | _ => false

-- ── Binding calls and placing constants ─────────────────────────────────────────

section Binding

open Patch

theorem keeps_setBranchTarget (i : Instruction) (target : UInt64) :
    Keeps Draft.sansBlob (setBranchTarget i target) :=
  .modifyBlob (fun _ _ => rfl) _

theorem keeps_bindCall (i : Instruction) (target : UInt64) (kind : RelocationKind) :
    Keeps Draft.sansBlob (bindCall i target kind) :=
  .bind (.lift _) fun _ => .bind (keeps_setBranchTarget i target) fun _ =>
    .relocate (fun _ _ => rfl) _ _ _

theorem keeps_bindInstalledCode (ctx : SiteContext) (i : Instruction) (id : CodeId) :
    Keeps Draft.sansBlob (bindInstalledCode ctx i id) := by
  refine .bind (.lift _) fun _ => .bind (.lift _) fun entry => ?_
  cases entry with
  | none => exact .lift _
  | some entry =>
      exact .bind (keeps_setBranchTarget i entry) fun _ => .relocate (fun _ _ => rfl) _ _ _

theorem keeps_bindStub (ctx : SiteContext) (i : Instruction) (id : Int) :
    Keeps Draft.sansBlob (bindStub ctx i id) := by
  unfold bindStub
  cases stubAddress? ctx.stubs id with
  | none => exact .lift _
  | some target =>
      dsimp only
      split
      · exact .bind (.modifyBlob (fun _ _ => rfl) _) fun _ => .relocate (fun _ _ => rfl) _ _ _
      · exact .bind (keeps_setBranchTarget i target) fun _ => .relocate (fun _ _ => rfl) _ _ _

theorem keeps_bindThroughCache (ctx : SiteContext) (i : Instruction) (cache : Option Nat) :
    Keeps Draft.sansBlob (bindThroughCache ctx i cache) := by
  cases cache with
  | none => exact .lift _
  | some cache => exact keeps_bindCall _ _ _

theorem keeps_bindMethod (ctx : SiteContext) (i : Instruction) (method : Option MethodId) :
    Keeps Draft.sansBlob (bindMethod ctx i method) := by
  refine .bind .get fun d => ?_
  dsimp only
  cases d.announced.mark with
  | inlineInvokeVirtual => exact .pure _
  | invokeVirtual | invokeInterface =>
      exact .bind (.lift _) fun _ => keeps_bindThroughCache ctx i d.announced.offset
  | invokeStatic | invokeSpecial => exact .bind (.lift _) fun _ => keeps_bindCall _ _ _
  | _ => exact .lift _

theorem keeps_placeConstant (i : Instruction) (bits : UInt64) (alignment : Nat) :
    Keeps Draft.sansBlob (placeConstant i bits alignment) :=
  .bind (.lift _) fun _ => .bind (.lift _) fun _ =>
    .bind (.appendConstant (fun _ _ => rfl) _ _) fun _ => .bind .blob fun _ =>
    .bind (.lift _) fun _ => .bind (.modifyBlob (fun _ _ => rfl) _) fun _ =>
    .relocate (fun _ _ => rfl) _ _ _

/-- A mark changes the blob, and besides it entry points, implicit exceptions or what is announced
    only if it is a mark of this kind. -/
theorem Patch.Keeps.applyMark {γ : Type} {f : Draft → γ} {ctx : SiteContext} {offset : Nat}
    {id : Int} {references : List Int} (hblob : ∀ d b, f { d with blob := b } = f d)
    (hentries : ∀ mark kind, Mark.ofNumber? id = some mark → mark.entryKind? = some kind →
      ∀ d entries, f { d with entryPoints := entries } = f d)
    (hnulls : Mark.ofNumber? id = some .implicitNull →
      ∀ d nulls, f { d with implicitNulls := nulls } = f d)
    (hinvoke : ∀ mark, Mark.ofNumber? id = some mark → mark.isInvoke = true →
      ∀ d announced, f { d with announced := announced } = f d) :
    Keeps f (ManagedCode.applyMark ctx offset id references) := by
  have hpoll : ∀ kind, Keeps f (markNearPoll ctx offset kind) := fun _ =>
    .bind .blob fun _ => .bind (.lift _) fun _ => .bind (.lift _) fun _ => .bind (.lift _) fun _ =>
    .bind (.lift _) fun _ => .bind (.lift _) fun _ => .bind (.modifyBlob hblob _) fun _ =>
    .relocate hblob _ _ _
  unfold ManagedCode.applyMark
  cases hmark : Mark.ofNumber? id with
  | none => exact .lift _
  | some mark =>
      have hannounce : mark.isInvoke = true → Keeps f (announce mark offset) :=
        fun hcall => .modified fun d => hinvoke mark hmark hcall d _
      have hentry : ∀ kind, mark.entryKind? = some kind → Keeps f (setEntryPoint kind offset) :=
        fun kind hkind => .modified fun d => hentries mark kind hmark hkind d _
      cases mark with
      | verifiedEntry | unverifiedEntry | osrEntry | unwindEntry | exceptionHandlerEntry
      | deoptHandlerEntry => exact hentry _ rfl
      | invokeInvalid | invokeStatic | invokeSpecial | inlineInvokeVirtual => exact hannounce rfl
      | invokeVirtual | invokeInterface =>
          exact .bind (.modifyBlob hblob _) fun _ => hannounce rfl
      | pollNear | pollReturnNear => exact hpoll _
      | pollFar | pollReturnFar => exact .relocate hblob _ _ _
      | typePatching | accessFieldPatching => exact .modifyBlob hblob _
      | dummyReference => exact .bind (.relocate hblob _ _ _) fun _ => .modifyBlob hblob _
      | implicitNull =>
          intro d d' out h
          obtain ⟨nulls, -, h⟩ := Checked.bind_ok ((runOn_lift_bind _ _ d).symm.trans h)
          obtain ⟨-, rfl⟩ := Prod.mk.inj (Except.ok.inj h)
          exact hnulls hmark d nulls
      | staticCallStub =>
          show Keeps f (markStaticStub offset references)
          unfold markStaticStub
          split
          · exact .bind .blob fun _ => .bind (.lift _) fun _ =>
              .bind (.relocate hblob _ _ _) fun _ => .relocate hblob _ _ _
          · exact .lift _

/-- A mark records no references, makes no handles and opens no safepoint. -/
theorem keeps_applyMark (ctx : SiteContext) (offset : Nat) (id : Int) (references : List Int) :
    Keeps Draft.notes (applyMark ctx offset id references) :=
  .applyMark (fun _ _ => rfl) (fun _ _ _ _ _ _ => rfl) (fun _ _ _ => rfl) fun _ _ _ _ _ => rfl

end Binding

-- ── The lowering of a site ──────────────────────────────────────────────────────

/-- The scopes of a suspension point, outermost first. The pool is left in the state. -/
def DebugInfo.describe (ctx : SiteContext) (info : DebugInfo) : Lower (List Scope) := do
  let values ← ValueContext.create ctx.world ctx.settings.byteOrder
    (Word.signed32 ctx.frameSize) info.virtualObjects
  info.chain.reverse.mapM (lowerFrame values)

/-- What the values of a suspension point are lowered with. -/
def DebugInfo.context (ctx : SiteContext) (info : DebugInfo) : ValueContext where
  world := ctx.world
  byteOrder := ctx.settings.byteOrder
  frameSize := Word.signed32 ctx.frameSize
  virtualObjects := info.virtualObjects

theorem DebugInfo.context_frameSize (ctx : SiteContext) (info : DebugInfo) :
    (info.context ctx).frameSize = Word.signed32 ctx.frameSize := by
  rw [DebugInfo.context]

/-- A suspension point is described frame by frame, if its objects are described once each. -/
theorem DebugInfo.describe_ok {ctx : SiteContext} {info : DebugInfo} {scopes : List Scope}
    {t t' : Lowering} (h : (info.describe ctx).run t = .ok (scopes, t')) :
    Description.firstRepeated [] (info.virtualObjects.map VirtualObject.id) = none ∧
      (info.chain.reverse.mapM (lowerFrame (info.context ctx))).run t = .ok (scopes, t') := by
  obtain ⟨values, _, hlift, h⟩ := Lower.bind_ok h
  obtain ⟨hvalues, rfl⟩ := Lower.lift_ok hlift
  rw [ValueContext.create] at hvalues
  split at hvalues
  · exact nomatch hvalues
  · next hfresh =>
      obtain rfl := Except.ok.inj hvalues
      exact ⟨hfresh, h⟩

/-- The scopes of a suspension point, if there is one. -/
def DebugInfo.describe? (ctx : SiteContext) : Option DebugInfo → Lower (Option (List Scope))
  | none => return none
  | some info => some <$> info.describe ctx

/-- The suspension point of a site, with the graph it is attributed to. A jump to installed code
    has none. -/
def Site.suspension? (site : Site) : Option (DebugInfo × Int) :=
  match site.kind with
  | .call (.installedCode _) _ => none
  | .call _ info => info.map fun info => (info, info.frame.leafGraphId)
  | .safepoint info => some (info, -1)
  | .dataPatch _ _ _ => none
  | .mark _ _ => none

theorem Site.suspensions_cons (site : Site) (rest : List Site) :
    (site :: rest).filterMap Site.suspension? =
      site.suspension?.toList ++ rest.filterMap Site.suspension? := by
  rw [List.filterMap_cons]
  cases site.suspension? <;> rfl

/-- Where execution is suspended at a site, in the code the site is applied to: at a safepoint
    itself, and behind a call. A call whose target is loaded ends with the call through the
    register, behind the load. -/
inductive Site.SuspendsAt (b : Blob) : Site → Nat → Prop
  | safepoint {offset : Nat} {info : DebugInfo} :
      SuspendsAt b ⟨offset, .safepoint info⟩ offset
  | call {offset : Nat} {target : CallTarget} {info : Option DebugInfo} {i : Instruction}
      (hi : b.instructionAt offset = .ok i)
      (hshape : i.shape = .call ∨ i.shape = .jump ∨ i.shape = .callRegister) :
      SuspendsAt b ⟨offset, .call target info⟩ i.next
  | loadedCall {offset : Nat} {target : CallTarget} {info : Option DebugInfo} {i : Instruction}
      (hi : b.instructionAt offset = .ok i) (hshape : i.shape = .movLiteral) :
      SuspendsAt b ⟨offset, .call target info⟩ (i.next + registerCallSize)

/-- What a loaded constant records: the type it embeds, or a handle of its object. -/
def Constant.lowered (c : Constant) : Lower Unit := do
  if c.kind = .object then
    match c.object with
    | some (.heap object) => discard (makeHandle object)
    | _ => return
  else
    let t ← get
    let references ← t.references.addConstant c
    set { t with references }

/-- The lowering that a site amounts to. -/
def Site.lowered (ctx : SiteContext) (site : Site) : Lower (Option (List Scope)) := do
  match site.kind with
  | .dataPatch c _ _ =>
      c.lowered
      return none
  | _ => DebugInfo.describe? ctx (site.suspension?.map Prod.fst)

/-- The tables a lowering starts with. -/
def Draft.lowering (d : Draft) : Lowering := { references := d.references, handles := d.handles }

theorem makeHandle_ok {object : ObjectAddress} {handle : Handle} {t t' : Lowering}
    (h : (makeHandle object).run t = .ok (handle, t')) :
    ∃ handles, t.handles.make object = .ok (handle, handles) ∧
      t' = { t with handles, references := (t.references.addHandle handle).2 } := by
  obtain ⟨_, _, hget, h⟩ := Lower.bind_ok h
  obtain ⟨rfl, rfl⟩ := Lower.get_ok hget
  obtain ⟨⟨made, handles⟩, _, hlift, h⟩ := Lower.bind_ok h
  obtain ⟨hmake, rfl⟩ := Lower.lift_ok hlift
  obtain ⟨_, _, hset, h⟩ := Lower.bind_ok h
  obtain rfl := Lower.set_ok hset
  obtain ⟨rfl, rfl⟩ := Lower.pure_ok h
  exact ⟨handles, hmake, rfl⟩

theorem Constant.lowered_of_ne {c : Constant} (hkind : c.kind ≠ .object) {t : Lowering}
    {references : ReferenceRecorder} (h : t.references.addConstant c = .ok references) :
    c.lowered.run t = .ok ((), { t with references }) := by
  unfold lowered
  rw [if_neg hkind]
  show (liftM (ReferenceRecorder.addConstant _ _) : Lower ReferenceRecorder).run t >>= _ = _
  rw [h]
  rfl

theorem Constant.lowered_heap {c : Constant} {object : ObjectAddress} (hkind : c.kind = .object)
    (hobject : c.object = some (.heap object)) {t t' : Lowering} {u : Unit}
    (h : c.lowered.run t = .ok (u, t')) :
    ∃ handle, (makeHandle object).run t = .ok (handle, t') := by
  unfold lowered at h
  rw [if_pos hkind, hobject] at h
  change (makeHandle object >>= fun _ => pure ()).run t = _ at h
  obtain ⟨handle, t₁, hmake, h⟩ := Lower.bind_ok h
  obtain ⟨-, rfl⟩ := Lower.pure_ok h
  exact ⟨handle, hmake⟩

/-- The open safepoint is the one at the offset that is meant. -/
theorem SafepointLog.currentAt_ok {log : SafepointLog} {pc : Nat} {s : Safepoint}
    (h : log.currentAt pc = .ok s) : log.current = some s ∧ s.pc = pc := by
  unfold currentAt at h
  cases hcurrent : log.current with
  | none =>
      rw [hcurrent] at h
      exact nomatch h
  | some present =>
      rw [hcurrent] at h
      obtain ⟨_, hpc, h⟩ := Checked.bind_ok h
      obtain rfl := Checked.pure_ok h
      exact ⟨rfl, require_ok hpc⟩

/-- A safepoint is opened while none is open, behind the closed ones, at an offset without a map. -/
theorem SafepointLog.start_ok {log log' : SafepointLog} {pc : Nat} {leaf : Int} {map : RefMap}
    (h : log.start pc leaf map = .ok log') :
    log.current = none ∧ (∀ last, log.closed.getLast? = some last → last.pc < pc) ∧
      log.maps.find? pc = none ∧
      log' = ⟨⟨RefMapTable.insertMap pc map log.maps.maps⟩, log.closed,
        some { pc, leafGraphId := leaf }⟩ := by
  obtain ⟨_, hcurrent, h⟩ := Checked.bind_ok h
  have hmaps : (do
      let maps ← log.maps.add pc map
      return { log with maps, current := some { pc, leafGraphId := leaf } }) = Except.ok log' →
      log.maps.find? pc = none ∧ log' = ⟨⟨RefMapTable.insertMap pc map log.maps.maps⟩, log.closed,
        some { pc, leafGraphId := leaf }⟩ := by
    intro hadd
    obtain ⟨maps, hmap, hadd⟩ := Checked.bind_ok hadd
    obtain ⟨_, hfree, hmap⟩ := Checked.bind_ok hmap
    obtain rfl := Checked.pure_ok hmap
    exact ⟨require_ok hfree, (Checked.pure_ok hadd).symm⟩
  refine ⟨require_ok hcurrent, ?_⟩
  cases hlast : log.closed.getLast? with
  | none =>
      rw [hlast] at h
      exact ⟨nofun, hmaps h⟩
  | some last =>
      rw [hlast] at h
      obtain ⟨_, hbehind, h⟩ := Checked.bind_ok h
      refine ⟨fun other hother => ?_, hmaps h⟩
      obtain rfl := Option.some.inj hother
      exact require_ok hbehind

/-- What goes wrong at the start: a safepoint is open, or one behind is closed, or else the map
    cannot be added. -/
theorem SafepointLog.start_error {log : SafepointLog} {pc : Nat} {leaf : Int} {map : RefMap}
    {fault : Fault} (h : log.start pc leaf map = .error fault) :
    (log.current ≠ none ∧ fault = .table (.safepointInProgress pc)) ∨
      (∃ previous, fault = .table (.safepointOutOfOrder pc previous)) ∨
      ((∀ last, log.closed.getLast? = some last → last.pc < pc) ∧ log.current = none ∧
        log.maps.add pc map = .error fault) := by
  rcases Checked.bind_error h with hbusy | ⟨_, hidle, h⟩
  · exact Or.inl (require_error hbusy)
  · have hadd : (do
        let maps ← log.maps.add pc map
        return { log with maps, current := some { pc, leafGraphId := leaf } }) =
          Except.error fault → log.current = none ∧ log.maps.add pc map = .error fault := by
      intro hadd
      rcases Checked.bind_error hadd with hadd | ⟨_, -, hadd⟩
      · exact ⟨require_ok hidle, hadd⟩
      · exact nomatch hadd
    cases hlast : log.closed.getLast? with
    | none =>
        rw [hlast] at h
        exact Or.inr (Or.inr ⟨nofun, hadd h⟩)
    | some last =>
        rw [hlast] at h
        rcases Checked.bind_error h with hbefore | ⟨_, hbehind, h⟩
        · exact Or.inr (Or.inl ⟨last.pc, (require_error hbefore).2⟩)
        · refine Or.inr (Or.inr ⟨fun other hother => ?_, hadd h⟩)
          obtain rfl := Option.some.inj hother
          exact require_ok hbehind

theorem describeFrames_ok {values : ValueContext} {pc : Nat} {frames : List Frame}
    {log log' : SafepointLog} {t t' : Lowering} {s : Safepoint} (hlog : log.current = some s)
    (h : (describeFrames values pc log frames).run t = .ok (log', t')) :
    ∃ scopes, (frames.mapM (lowerFrame values)).run t = .ok (scopes, t') ∧
      log' = { log with current := some { s with described := s.described ++ scopes } } := by
  induction frames generalizing log t s with
  | nil =>
      obtain ⟨rfl, rfl⟩ := Lower.pure_ok h
      refine ⟨[], rfl, ?_⟩
      rw [List.append_nil, ← hlog]
  | cons frame rest ih =>
      unfold describeFrames at h
      rw [List.foldlM_cons] at h
      obtain ⟨log₁, t₁, hstep, h⟩ := Lower.bind_ok h
      obtain ⟨scope, t₂, hscope, hstep⟩ := Lower.bind_ok hstep
      obtain ⟨hdescribe, rfl⟩ := Lower.lift_ok hstep
      obtain ⟨s', hs', hdescribe⟩ := Checked.bind_ok hdescribe
      have hs : s' = s :=
        Option.some.inj ((SafepointLog.currentAt_ok hs').1.symm.trans hlog)
      obtain rfl := Checked.pure_ok hdescribe
      obtain ⟨scopes, hscopes, hlog'⟩ := ih rfl h
      refine ⟨scope :: scopes, ?_, ?_⟩
      · rw [List.mapM_cons]
        show (lowerFrame values frame).run t >>= _ = _
        rw [hscope]
        show (List.mapM (lowerFrame values) rest).run t₂ >>= _ = _
        rw [hscopes]
        rfl
      · rw [hlog', hs, List.append_assoc, List.singleton_append]

theorem describeSafepoint_ok {values : ValueContext} {pc : Nat} {info : DebugInfo}
    {log log' : SafepointLog} {t t' : Lowering} {s : Safepoint} (hlog : log.current = some s)
    (h : (describeSafepoint values pc log info).run t = .ok (log', t')) :
    ∃ scopes, (info.chain.reverse.mapM (lowerFrame values)).run t = .ok (scopes, t') ∧
      log' = { log with
        current := some ⟨s.pc, s.leafGraphId, s.described ++ scopes, t'.pool⟩ } := by
  obtain ⟨log₁, t₁, hframes, h⟩ := Lower.bind_ok h
  obtain ⟨scopes, hscopes, rfl⟩ := describeFrames_ok hlog hframes
  obtain ⟨t₂, t₃, hget, h⟩ := Lower.bind_ok h
  obtain ⟨rfl, rfl⟩ := Lower.get_ok hget
  obtain ⟨hset, rfl⟩ := Lower.lift_ok h
  refine ⟨scopes, hscopes, ?_⟩
  obtain ⟨s', hs', hset⟩ := Checked.bind_ok hset
  obtain ⟨_, -, hs'⟩ := Checked.bind_ok hs'
  obtain rfl := Checked.pure_ok hs'
  exact (Checked.pure_ok hset).symm

/-- A suspension point enters a log, which stays as it is without one: a safepoint is opened with
    the reference map of the suspension point, and closed. -/
def SafepointLog.Records (ctx : SiteContext) (log log' : SafepointLog) :
    Option DebugInfo → Option Safepoint → Prop
  | some info, some s => ∃ map opened,
      RefMap.ofBits ctx.frameSize ctx.parameterCount info.registerBits info.frameBits = .ok map ∧
      log.start s.pc s.leafGraphId map = .ok opened ∧
      log' = { opened with closed := opened.closed ++ [s], current := none }
  | none, none => log' = log
  | _, _ => False

theorem SafepointLog.Records.closed {ctx : SiteContext} {log log' : SafepointLog}
    {info : Option DebugInfo} {s : Option Safepoint} (h : log.Records ctx log' info s) :
    log'.closed = log.closed ++ s.toList := by
  rcases info with _ | info <;> rcases s with _ | s
  · rw [show log' = log from h]
    exact (List.append_nil _).symm
  · exact h.elim
  · exact h.elim
  · obtain ⟨map, opened, -, hopened, rfl⟩ := h
    obtain ⟨-, -, -, rfl⟩ := start_ok hopened
    rfl

/-- **Opening a safepoint** always goes through if it ends, and describes the suspension point. -/
theorem openSafepoint_done {ctx : SiteContext} {pc : Nat} {info : DebugInfo} {leaf : Int}
    {d d' : Draft} {out : Except Overflow Unit}
    (h : (Patch.openSafepoint ctx pc info leaf).runOn d = .ok (out, d')) :
    out = .ok () ∧ ∃ scopes t, (info.describe ctx).run d.lowering = .ok (scopes, t) ∧
      d' = { d with log := d'.log, references := t.references, handles := t.handles } ∧
      ∃ map opened, RefMap.ofBits ctx.frameSize ctx.parameterCount info.registerBits
          info.frameBits = .ok map ∧ d.log.start pc leaf map = .ok opened ∧
        d'.log = { opened with current := some ⟨pc, leaf, scopes, t.pool⟩ } := by
  unfold Patch.openSafepoint at h
  rw [Patch.runOn_lift_bind] at h
  obtain ⟨map, hmap, h⟩ := Checked.bind_ok h
  rw [Patch.runOn_bind, Patch.runOn_modifyLog] at h
  obtain ⟨⟨_, d₁⟩, hstart, h⟩ := Checked.bind_ok h
  obtain ⟨log₁, hlog₁, hstart⟩ := Checked.bind_ok hstart
  obtain ⟨rfl, rfl⟩ := Prod.mk.inj (Except.ok.inj hstart)
  dsimp only at h
  rw [Patch.runOn_lift_bind] at h
  obtain ⟨values, hvalues, h⟩ := Checked.bind_ok h
  rw [Patch.runOn_get_bind, Patch.runOn_bind, Patch.runOn_lowering] at h
  obtain ⟨⟨_, d₂⟩, hlower, h⟩ := Checked.bind_ok h
  obtain ⟨⟨log₂, t⟩, hdescribe, hlower⟩ := Checked.bind_ok hlower
  obtain ⟨rfl, rfl⟩ := Prod.mk.inj (Except.ok.inj hlower)
  obtain ⟨rfl, rfl⟩ := Prod.mk.inj (Except.ok.inj h)
  have hcurrent : log₁.current = some { pc, leafGraphId := leaf } := by
    rw [(SafepointLog.start_ok hlog₁).2.2.2]
  obtain ⟨scopes, hscopes, rfl⟩ := describeSafepoint_ok hcurrent hdescribe
  refine ⟨rfl, scopes, t, ?_, rfl, map, log₁, hmap, hlog₁, rfl⟩
  show (liftM (ValueContext.create _ _ _ _) : Lower ValueContext).run d.lowering >>= _ = _
  rw [hvalues]
  exact hscopes

theorem closeSafepoint_done {pc : Nat} {d d' : Draft} {s : Safepoint}
    {out : Except Overflow Unit} (hs : d.log.current = some s)
    (h : (Patch.closeSafepoint pc).runOn d = .ok (out, d')) :
    out = .ok () ∧
      d' = { d with log := { d.log with closed := d.log.closed ++ [s], current := none } } := by
  unfold Patch.closeSafepoint at h
  rw [Patch.runOn_modifyLog] at h
  obtain ⟨log, hlog, h⟩ := Checked.bind_ok h
  obtain ⟨rfl, rfl⟩ := Prod.mk.inj (Except.ok.inj h)
  obtain ⟨s', hs', hlog⟩ := Checked.bind_ok hlog
  obtain rfl := Option.some.inj (hs.symm.trans (SafepointLog.currentAt_ok hs').1)
  obtain rfl := Checked.pure_ok hlog
  exact ⟨rfl, rfl⟩

/-- The tables that outlive the lowering of a suspension point. -/
def Lowering.records (t : Lowering) : ReferenceRecorder × HandleTable := (t.references, t.handles)

/-- The tables of a draft that lowerings fill. -/
def Draft.records (d : Draft) : ReferenceRecorder × HandleTable := (d.references, d.handles)

theorem Draft.records_of_sansBlob {d d' : Draft} (h : d'.sansBlob = d.sansBlob) :
    d'.records = d.records := by
  rw [eq_of_sansBlob h]
  rfl

section Site

variable {ctx : SiteContext} {d d' : Draft} {out : Except Overflow Unit}

/-- A step inside of the safepoint of a call: the suspension point is described, the step is made
    on what is then recorded, and the safepoint is closed if the step goes through. -/
theorem withCallSafepoint_done {pc : Nat} {info : Option DebugInfo} {step : Patch Unit}
    (hstep : step.Keeps Draft.sansBlob)
    (h : (withCallSafepoint ctx pc info step).runOn d = .ok (out, d')) :
    ∃ scopes t d₁ d₂, ∃ inner : Except Overflow Unit,
      (DebugInfo.describe? ctx info).run d.lowering = .ok (scopes, t) ∧
      d₁ = { d with log := d₁.log, references := t.references, handles := t.handles } ∧
      step.runOn d₁ = .ok (inner, d₂) ∧ d'.records = t.records ∧
      (out = .ok () → inner = .ok () ∧ d'.blob = d₂.blob ∧
        d'.announced = { d.announced with mark := .invokeInvalid } ∧
        d.log.Records ctx d'.log info (scopes.map fun s =>
          ⟨pc, (info.map (·.frame.leafGraphId)).getD 0, s, t.pool⟩)) := by
  cases info with
  | none =>
      rcases Patch.bind_done h with ⟨e, rfl, hx⟩ | ⟨_, d₂, hx, h⟩
      · exact ⟨none, d.lowering, d, d', _, rfl, rfl, hx,
          Draft.records_of_sansBlob (hstep _ _ _ hx), nofun⟩
      · have hd₂ := Draft.eq_of_sansBlob (hstep _ _ _ hx)
        have hrecords := Draft.records_of_sansBlob (hstep _ _ _ hx)
        obtain ⟨rfl, rfl⟩ := Prod.mk.inj (Except.ok.inj h)
        refine ⟨none, d.lowering, d, d₂, _, rfl, rfl, hx, hrecords,
          fun _ => ⟨rfl, rfl, ?_, ?_⟩⟩
        · show ({ d₂.announced with mark := .invokeInvalid } : Announcement) = _
          rw [hd₂]
        · show d₂.log = d.log
          rw [hd₂]
  | some info =>
      rcases Patch.bind_done h with ⟨e, -, hx⟩ | ⟨_, d₁, hopen, h⟩
      · exact nomatch (openSafepoint_done hx).1
      · obtain ⟨-, scopes, t, hdescribe, hd₁, map, opened, hmap, hopened, hlog₁⟩ :=
          openSafepoint_done hopen
        have hrun : (DebugInfo.describe? ctx (some info)).run d.lowering =
            .ok (some scopes, t) := by
          rw [DebugInfo.describe?, StateT.run_map, hdescribe]
          rfl
        rcases Patch.bind_done h with ⟨e, rfl, hx⟩ | ⟨_, d₂, hx, h⟩
        · refine ⟨some scopes, t, d₁, d', _, hrun, hd₁, hx, ?_, nofun⟩
          rw [Draft.records_of_sansBlob (hstep _ _ _ hx), hd₁]
          rfl
        · have hd₂ := Draft.eq_of_sansBlob (hstep _ _ _ hx)
          have hlog : ({ d₂ with
              announced := { d₂.announced with mark := .invokeInvalid } } : Draft).log.current =
              some ⟨pc, info.frame.leafGraphId, scopes, t.pool⟩ := by
            rw [hd₂, hlog₁]
          obtain ⟨rfl, rfl⟩ := closeSafepoint_done hlog h
          refine ⟨some scopes, t, d₁, d₂, _, hrun, hd₁, hx, ?_, fun _ => ⟨rfl, rfl, ?_, ?_⟩⟩
          · show d₂.records = t.records
            rw [Draft.records_of_sansBlob (hstep _ _ _ hx), hd₁]
            rfl
          · show ({ d₂.announced with mark := .invokeInvalid } : Announcement) = _
            rw [hd₂, hd₁]
          · refine ⟨map, opened, hmap, hopened, ?_⟩
            show (⟨d₂.log.maps, d₂.log.closed ++ _, none⟩ : SafepointLog) = _
            rw [hd₂, hlog₁]
            rfl

/-- What a site does once its offset is known to be within the code. -/
theorem applySite_done {site : Site} (h : (applySite ctx site).runOn d = .ok (out, d')) :
    0 ≤ site.offset ∧ site.offset.toNat < d.blob.code.length ∧
      (match site.kind with
        | .call target info => applyCall ctx site.offset.toNat target info
        | .safepoint info => applySafepoint ctx site.offset.toNat info
        | .dataPatch constant alignment inlined =>
            applyDataPatch site.offset.toNat constant alignment inlined
        | .mark id references => applyMark ctx site.offset.toNat id references).runOn d =
        .ok (out, d') := by
  unfold applySite at h
  rw [Patch.runOn_blob_bind, Patch.runOn_lift_bind] at h
  obtain ⟨offset, hoffset, h⟩ := Checked.bind_ok h
  obtain ⟨_, hinside, hoffset⟩ := Checked.bind_ok hoffset
  obtain rfl := Checked.pure_ok hoffset
  obtain ⟨hpos, hlt⟩ := require_ok hinside
  exact ⟨hpos, hlt, h⟩

/-- A call is bound once its instruction and its end are known. -/
theorem applyCall_done {offset : Nat} {target : CallTarget} {info : Option DebugInfo}
    (h : (applyCall ctx offset target info).runOn d = .ok (out, d')) :
    ∃ i pc, d.blob.instructionAt offset = .ok i ∧ callEnd d.blob target i = .ok pc ∧
      (match target with
        | .installedCode id => bindInstalledCode ctx i id
        | .runtimeStub id => withCallSafepoint ctx pc info (bindStub ctx i id)
        | .method method =>
            withCallSafepoint ctx pc info do
              require info.isSome (.site (.noDebugInfo offset))
              bindMethod ctx i method.resolved?).runOn d = .ok (out, d') := by
  unfold applyCall at h
  rw [Patch.runOn_blob_bind, Patch.runOn_lift_bind] at h
  obtain ⟨i, hi, h⟩ := Checked.bind_ok h
  rw [Patch.runOn_lift_bind] at h
  obtain ⟨pc, hpc, h⟩ := Checked.bind_ok h
  refine ⟨i, pc, hi, hpc, ?_⟩
  cases target <;> exact h

/-- The end of a call is where execution is suspended in it. -/
theorem suspendsAt_callEnd {b : Blob} {offset pc : Nat} {target : CallTarget}
    {info : Option DebugInfo} {i : Instruction} (hi : b.instructionAt offset = .ok i)
    (h : callEnd b target i = .ok pc) : Site.SuspendsAt b ⟨offset, .call target info⟩ pc := by
  unfold callEnd at h
  cases hshape : i.shape with
  | call =>
      rw [hshape] at h
      obtain rfl := Except.ok.inj h
      exact .call hi (Or.inl hshape)
  | jump =>
      rw [hshape] at h
      obtain rfl := Except.ok.inj h
      exact .call hi (Or.inr (Or.inl hshape))
  | movLiteral =>
      rw [hshape] at h
      obtain ⟨_, -, h⟩ := Checked.bind_ok h
      obtain ⟨_, -, h⟩ := Checked.bind_ok h
      obtain ⟨_, -, h⟩ := Checked.bind_ok h
      obtain ⟨_, -, h⟩ := Checked.bind_ok h
      obtain rfl := Checked.pure_ok h
      exact .loadedCall hi hshape
  | callRegister =>
      rw [hshape] at h
      cases target with
      | method method =>
          obtain rfl := Except.ok.inj h
          exact .call hi (Or.inr (Or.inr hshape))
      | runtimeStub id => exact nomatch h
      | installedCode id => exact nomatch h
  | other =>
      rw [hshape] at h
      exact nomatch h

/-- What an object constant is written as, given what its lowering makes of the handles: a null as
    0, a heap object as its new handle. -/
def Constant.IsWritten (c : Constant) (handles : HandleTable) (h : Handle) : Prop :=
  match c.object with
  | none => h = ⟨0⟩
  | some (.heap object) => ∃ handles', handles.make object = .ok (h, handles')
  | some _ => False

/-- A loaded constant records what it refers to; then a handle or the value itself is written. -/
theorem applyDataPatch_done {offset : Nat} {c : Constant} {alignment : Nat} {inlined : Bool}
    (h : (applyDataPatch offset c alignment inlined).runOn d = .ok (out, d')) :
    ∃ i t, d.blob.instructionAt offset = .ok i ∧ c.lowered.run d.lowering = .ok ((), t) ∧
      let d₁ := { d with references := t.references, handles := t.handles }
      (c.kind = .object ∧ ∃ handle, c.IsWritten d.handles handle ∧
        (do Patch.modifyBlob fun b => do b.write64 (← i.immediate64) handle.address
            Patch.relocate offset .reference .immediate : Patch Unit).runOn d₁ = .ok (out, d')) ∨
      (c.kind ≠ .object ∧
        (if inlined then
          Patch.modifyBlob fun b => do b.write64 (← i.immediate64) (Word.ofInt c.bits)
        else placeConstant i (Word.ofInt c.bits) alignment).runOn d₁ = .ok (out, d')) := by
  obtain ⟨kind, bits, object⟩ := c
  unfold applyDataPatch at h
  rw [Patch.runOn_blob_bind, Patch.runOn_lift_bind] at h
  obtain ⟨i, hi, h⟩ := Checked.bind_ok h
  cases kind with
  | object =>
      rcases Patch.bind_done h with ⟨e, -, hx⟩ | ⟨handle, d₁, hx, h⟩
      · cases object with
        | none => exact nomatch hx
        | some object =>
            cases object with
            | heap object =>
                obtain ⟨_, -, hx⟩ := Checked.bind_ok ((Patch.runOn_lowering _ d).symm.trans hx)
                exact nomatch hx
            | type id => exact nomatch hx
            | remark text => exact nomatch hx
      · cases object with
        | none =>
            obtain ⟨hhandle, rfl⟩ := Prod.mk.inj (Except.ok.inj hx)
            obtain rfl := Except.ok.inj hhandle
            exact ⟨i, d.lowering, hi, rfl, Or.inl ⟨rfl, ⟨0⟩, rfl, h⟩⟩
        | some object =>
            cases object with
            | heap object =>
                obtain ⟨⟨handle', t⟩, hmake, hx⟩ :=
                  Checked.bind_ok ((Patch.runOn_lowering _ d).symm.trans hx)
                obtain ⟨hhandle, rfl⟩ := Prod.mk.inj (Except.ok.inj hx)
                obtain rfl := Except.ok.inj hhandle
                refine ⟨i, t, hi, ?_, Or.inl ⟨rfl, handle', ?_, h⟩⟩
                · show (makeHandle object).run d.lowering >>= _ = _
                  rw [show (makeHandle object).run d.lowering = _ from hmake]
                  rfl
                · obtain ⟨handles', hmade, -⟩ := makeHandle_ok hmake
                  exact ⟨handles', hmade⟩
            | type id => exact nomatch hx
            | remark text => exact nomatch hx
  | float | long | double | word =>
      rw [Patch.runOn_get_bind, Patch.runOn_lift_bind] at h
      obtain ⟨references, hreferences, h⟩ := Checked.bind_ok h
      rw [Patch.runOn_set_bind] at h
      exact ⟨i, { d.lowering with references }, hi, Constant.lowered_of_ne (by simp) hreferences,
        Or.inr ⟨nofun, h⟩⟩
  | illegal | boolean | byte | char | short | int => exact nomatch h

theorem keeps_bindMethodCall (i : Instruction) (info : Option DebugInfo) (fault : Fault)
    (method : Option MethodId) :
    Patch.Keeps Draft.sansBlob (do require info.isSome fault; bindMethod ctx i method) :=
  .bind (.lift _) fun _ => keeps_bindMethod ctx i method

/-- A loaded constant changes the blob, and what its lowering records. -/
theorem applyDataPatch_frame {offset : Nat} {c : Constant} {alignment : Nat} {inlined : Bool}
    (h : (applyDataPatch offset c alignment inlined).runOn d = .ok (out, d')) :
    ∃ t, c.lowered.run d.lowering = .ok ((), t) ∧
      d' = { d with blob := d'.blob, references := t.references, handles := t.handles } := by
  obtain ⟨i, t, -, hlowered, ⟨-, handle, -, hrun⟩ | ⟨-, hrun⟩⟩ := applyDataPatch_done h
  · have hkeeps : Patch.Keeps Draft.sansBlob (do
        Patch.modifyBlob fun b => do b.write64 (← i.immediate64) handle.address
        Patch.relocate offset .reference .immediate) :=
      .bind (.modifyBlob (fun _ _ => rfl) _) fun _ => .relocate (fun _ _ => rfl) _ _ _
    exact ⟨t, hlowered, Draft.eq_of_sansBlob (hkeeps _ _ _ hrun)⟩
  · have hkeeps : Patch.Keeps Draft.sansBlob (if inlined then
        Patch.modifyBlob fun b => do b.write64 (← i.immediate64) (Word.ofInt c.bits)
        else placeConstant i (Word.ofInt c.bits) alignment) := by
      split
      · exact .modifyBlob (fun _ _ => rfl) _
      · exact keeps_placeConstant _ _ _
    exact ⟨t, hlowered, Draft.eq_of_sansBlob (hkeeps _ _ _ hrun)⟩

theorem applyDataPatch_records {offset : Nat} {c : Constant} {alignment : Nat} {inlined : Bool}
    (h : (applyDataPatch offset c alignment inlined).runOn d = .ok (out, d')) :
    ∃ t, c.lowered.run d.lowering = .ok ((), t) ∧ d'.records = t.records ∧ d'.log = d.log ∧
      d'.announced = d.announced := by
  obtain ⟨t, hlowered, hd'⟩ := applyDataPatch_frame h
  rw [hd']
  exact ⟨t, hlowered, rfl, rfl, rfl⟩

/-- **A site that is applied or refused has recorded what its lowering records**, and an applied one
    has closed the safepoint of its suspension point. -/
theorem applySite_records {site : Site} (h : (applySite ctx site).runOn d = .ok (out, d')) :
    ∃ scopes t, (site.lowered ctx).run d.lowering = .ok (scopes, t) ∧ d'.records = t.records ∧
      (out = .ok () → ∃ pc, (site.suspension? ≠ none → site.SuspendsAt d.blob pc) ∧
        d.log.Records ctx d'.log (site.suspension?.map Prod.fst) (scopes.map fun s =>
          ⟨pc, (site.suspension?.map Prod.snd).getD 0, s, t.pool⟩)) := by
  obtain ⟨offset, kind⟩ := site
  obtain ⟨hoffset, -, h⟩ := applySite_done h
  obtain ⟨offset, rfl⟩ := Int.eq_ofNat_of_zero_le hoffset
  cases kind with
  | call target info =>
      obtain ⟨i, pc, hi, hpc, h⟩ := applyCall_done h
      have hends : Site.SuspendsAt d.blob ⟨offset, .call target info⟩ pc :=
        suspendsAt_callEnd hi hpc
      cases target with
      | installedCode id =>
          have hd' := Draft.eq_of_sansBlob (keeps_bindInstalledCode ctx i id _ _ _ h)
          refine ⟨none, d.lowering, rfl, ?_, fun _ => ⟨pc, fun _ => hends, ?_⟩⟩
          · rw [hd']
            rfl
          · show d'.log = d.log
            rw [hd']
      | runtimeStub id =>
          obtain ⟨scopes, t, _, _, _, hrun, -, -, hrecords, hdone⟩ :=
            withCallSafepoint_done (keeps_bindStub ctx i id) h
          cases info <;> exact ⟨scopes, t, hrun, hrecords,
            fun hout => ⟨pc, fun _ => hends, (hdone hout).2.2.2⟩⟩
      | method method =>
          obtain ⟨scopes, t, _, _, _, hrun, -, -, hrecords, hdone⟩ :=
            withCallSafepoint_done (keeps_bindMethodCall i info _ method.resolved?) h
          cases info <;> exact ⟨scopes, t, hrun, hrecords,
            fun hout => ⟨pc, fun _ => hends, (hdone hout).2.2.2⟩⟩
  | safepoint info =>
      rcases Patch.bind_done h with ⟨e, -, hx⟩ | ⟨_, d₁, hopen, h⟩
      · exact nomatch (openSafepoint_done hx).1
      · obtain ⟨-, scopes, t, hrun, hd₁, map, opened, hmap, hopened, hlog₁⟩ :=
          openSafepoint_done hopen
        obtain ⟨-, rfl⟩ := closeSafepoint_done (by rw [hlog₁]) h
        refine ⟨some scopes, t, ?_, ?_, fun _ => ⟨offset, fun _ => .safepoint, ?_⟩⟩
        · show (some <$> info.describe ctx).run d.lowering = _
          rw [StateT.run_map, hrun]
          rfl
        · show d₁.records = t.records
          rw [hd₁]
          rfl
        · refine ⟨map, opened, hmap, hopened, ?_⟩
          show (⟨d₁.log.maps, d₁.log.closed ++ _, none⟩ : SafepointLog) = _
          rw [hlog₁]
          rfl
  | dataPatch c alignment inlined =>
      obtain ⟨t, hrun, hrecords, hlog, -⟩ := applyDataPatch_records h
      refine ⟨none, t, ?_, hrecords, fun _ => ⟨0, fun hnone => absurd rfl hnone, hlog⟩⟩
      show c.lowered.run d.lowering >>= _ = _
      rw [hrun]
      rfl
  | mark id references =>
      have hnotes := keeps_applyMark ctx offset id references _ _ _ h
      obtain ⟨hreferences, hnotes⟩ := Prod.mk.inj hnotes
      obtain ⟨hhandles, hlog⟩ := Prod.mk.inj hnotes
      exact ⟨none, d.lowering, rfl, Prod.ext hreferences hhandles,
        fun _ => ⟨0, fun hnone => absurd rfl hnone, hlog⟩⟩

end Site

end ManagedCode
