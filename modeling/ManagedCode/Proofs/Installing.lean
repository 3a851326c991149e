import ManagedCode.Proofs.Imprint

/-! # How an installation ends

    Everything that one installation can do to a runtime, whichever of the two ways it is started:
    the unit has no room before anything is made for it, it is refused and what was made is given
    back, or it is registered.

* **`Ends`** — an installation, of a method or of a stub, ends with a result.
* **`Installation`** — the three ways to end, with all that leads there.
* **`Ends.installation`** — there are no others. -/

namespace ManagedCode

/-- An installation, as a method or as a stub, ends with a result and leaves a runtime. -/
def Ends (settings : Settings) (u : CompiledUnit) (r : Runtime)
    (out : Except Refusal Receipt) (r' : Runtime) : Prop :=
  installMethod settings u r = .ok (out, r') ∨ installStub settings u r = .ok (out, r')

/-- The run of the sites of a unit on its blob ends with a draft. -/
def CompiledUnit.RunsTo (u : CompiledUnit) (settings : Settings) (r : Runtime)
    (ended : Except Overflow Unit) (d : Draft) : Prop :=
  ∃ parameterCount blob, u.blob settings = .ok (.ok blob) ∧
    (applySites (u.siteContext settings parameterCount r) u.sitesInOrder).runOn
      { blob, handles := r.handles } = .ok (ended, d)

/-- The stubs that a registered unit adds: its own address, if it gets a number. -/
def Receipt.newStubs (receipt : Receipt) : List UInt64 :=
  (receipt.stub.map fun _ => receipt.installed.code.address).toList

/-- The ways an installation can end. -/
inductive Installation (settings : Settings) (u : CompiledUnit) (r : Runtime) :
    Except Refusal Receipt → Runtime → Prop
  /-- The unit does not fit its own blob, and nothing has been made for it. -/
  | noRoom {e : Overflow} : Installation settings u r (.error (.overflow e)) r
  /-- The unit is refused while its sites are applied or afterwards. -/
  | refused {refusal : Refusal} {ended : Except Overflow Unit} {d : Draft} {handles : HandleTable}
      (hrun : u.RunsTo settings r ended d)
      (hrelease : d.handles.releaseAll d.references.handles = .ok handles) :
      Installation settings u r (.error refusal) { r with handles }
  /-- The unit is registered, and a stub gets a number. -/
  | registered {d : Draft} {dependencies : List Dependency} {code : Code} {receipt : Receipt}
      {codes : CodeTable} (hrun : u.RunsTo settings r (.ok ()) d)
      (hfinish : u.finish dependencies d = .ok code)
      (hregister : r.codes.register code = .ok (.ok (receipt.installed, codes))) :
      Installation settings u r (.ok receipt)
        { r with codes, handles := d.handles, stubs := r.stubs ++ receipt.newStubs }

section

variable {settings : Settings} {u : CompiledUnit} {r r' : Runtime}

/-- Finishing takes over what the sites left in the draft, with no safepoint open. -/
theorem CompiledUnit.finish_eq {dependencies : List Dependency} {d : Draft} {code : Code}
    (h : u.finish dependencies d = .ok code) :
    d.log.current = none ∧ ∃ handlers, code = {
      name := u.name
      method := u.method
      entryBci := u.entryBci
      blob := d.blob
      entryPoints := d.entryPoints
      frameSize := u.frameSize.toNat + returnAddressSize
      customStackAreaOffset := u.customStackAreaOffset
      maps := d.log.maps
      safepoints := d.log.closed
      handlers
      implicitNulls := d.implicitNulls
      dependencies
      references := d.references.recorded } := by
  obtain ⟨handlers, -, h⟩ := Checked.bind_ok h
  obtain ⟨⟨maps, safepoints⟩, htables, h⟩ := Checked.bind_ok h
  obtain ⟨_, hclosed, htables⟩ := Checked.bind_ok htables
  obtain ⟨rfl, rfl⟩ := Prod.mk.inj (Checked.pure_ok htables)
  exact ⟨require_ok hclosed, handlers, (Checked.pure_ok h).symm⟩

theorem CompiledUnit.finish_ok {dependencies : List Dependency} {d : Draft} {code : Code}
    (h : u.finish dependencies d = .ok code) :
    code.blob = d.blob ∧ code.references = d.references.recorded ∧
      code.safepoints = d.log.closed := by
  obtain ⟨-, handlers, rfl⟩ := finish_eq h
  exact ⟨rfl, rfl, rfl⟩

/-- The blob that the sites of a unit are applied to holds its code, and no relocations. -/
theorem CompiledUnit.blob_ok {b : Blob} (h : u.blob settings = .ok (.ok b)) :
    b.code = u.code.take u.codeSize ∧ b.relocations = [] := by
  obtain ⟨layout, -, h⟩ := Checked.bind_ok h
  dsimp only at h
  split at h
  · exact nomatch Checked.pure_ok h
  · next copied hcopy =>
      have hcopied : copied.code = u.code.take u.codeSize ∧ copied.relocations = [] := by
        rw [Blob.copyCode_ok hcopy]
        exact ⟨rfl, rfl⟩
      cases hdata : u.dataSection with
      | none =>
          rw [hdata] at h
          obtain rfl := Except.ok.inj (Checked.pure_ok h)
          exact hcopied
      | some part =>
          rw [hdata] at h
          obtain ⟨⟨out, b'⟩, hout, h⟩ := Checked.bind_ok h
          obtain ⟨offset, rfl, rfl⟩ := map_eq_ok (Checked.pure_ok h)
          obtain ⟨-, rfl⟩ := Blob.appendConstant_ok hout
          exact hcopied

@[simp] theorem CodeTable.entries_enter (t : CodeTable) (code : Code) :
    (t.enter code).entries = t.entries ++ [⟨t.nextId, code⟩] := by
  unfold CodeTable.enter
  dsimp only
  split
  · split <;> rfl
  · rfl

@[simp] theorem CodeTable.codes_enter (t : CodeTable) (code : Code) :
    (t.enter code).codes = t.codes ++ [code] := by
  rw [codes, entries_enter, List.map_append]
  rfl

@[simp] theorem CodeTable.space_enter (t : CodeTable) (code : Code) :
    (t.enter code).space = t.space := by
  unfold CodeTable.enter
  dsimp only
  split
  · split <;> rfl
  · rfl

/-- A registered unit stands at its own address and is found under its identity. -/
theorem CodeTable.register_ok {t t' : CodeTable} {code : Code} {installed : InstalledCode}
    (h : t.register code = .ok (.ok (installed, t'))) :
    ∃ address moved, code.blob.moveTo address = .ok moved ∧
      installed.code = { code with blob := moved } ∧ t'.get? installed.id = some installed ∧
      t'.codes = t.codes ++ [installed.code] := by
  obtain ⟨size, -, h⟩ := Checked.bind_ok h
  obtain ⟨full | ⟨address, space⟩, -, h⟩ := Checked.bind_ok h
  · exact nomatch Checked.pure_ok h
  obtain ⟨moved, hmoved, h⟩ := Checked.bind_ok h
  obtain ⟨rfl, rfl⟩ := Prod.mk.inj (Except.ok.inj (Checked.pure_ok h))
  refine ⟨address, moved, hmoved, rfl, ?_, CodeTable.codes_enter ..⟩
  rw [CodeTable.get?, CodeTable.entries_enter]
  exact List.getElem?_concat_length

theorem Runtime.releaseAll_ok {handles : List Handle} (h : r.releaseAll handles = .ok r') :
    ∃ table, r.handles.releaseAll handles = .ok table ∧ r' = { r with handles := table } := by
  obtain ⟨table, htable, h⟩ := Checked.bind_ok h
  exact ⟨table, htable, (Checked.pure_ok h).symm⟩

/-- How assembling ends: without room, or with the run of the sites, which is refused and the
    handles given back, or gives code. -/
theorem assemble_done {parameterCount : Nat} {dependencies : List Dependency}
    {result : Except Overflow Code}
    (h : assemble settings u parameterCount dependencies r = .ok (result, r')) :
    (∃ e, result = .error e ∧ r' = r) ∨
    ∃ blob ended d, u.blob settings = .ok (.ok blob) ∧
      (applySites (u.siteContext settings parameterCount r) u.sitesInOrder).runOn
        { blob, handles := r.handles } = .ok (ended, d) ∧
      ((∃ e handles, result = .error e ∧
          d.handles.releaseAll d.references.handles = .ok handles ∧ r' = { r with handles }) ∨
        (∃ code, ended = .ok () ∧ result = .ok code ∧ u.finish dependencies d = .ok code ∧
          r' = { r with handles := d.handles })) := by
  obtain ⟨_, -, h⟩ := Checked.bind_ok h
  obtain ⟨blob | blob, hblob, h⟩ := Checked.bind_ok h
  · obtain ⟨rfl, rfl⟩ := Prod.mk.inj (Checked.pure_ok h)
    exact Or.inl ⟨blob, rfl, rfl⟩
  · obtain ⟨⟨ended, d⟩, hrun, h⟩ := Checked.bind_ok h
    refine Or.inr ⟨blob, ended, d, hblob, hrun, ?_⟩
    cases ended with
    | error e =>
        obtain ⟨released, hreleased, h⟩ := Checked.bind_ok h
        obtain ⟨rfl, rfl⟩ := Prod.mk.inj (Checked.pure_ok h)
        obtain ⟨handles, hhandles, rfl⟩ := Runtime.releaseAll_ok hreleased
        exact Or.inl ⟨e, handles, rfl, hhandles, rfl⟩
    | ok _ =>
        obtain ⟨code, hcode, h⟩ := Checked.bind_ok h
        obtain ⟨rfl, rfl⟩ := Prod.mk.inj (Checked.pure_ok h)
        exact Or.inr ⟨code, rfl, rfl, hcode, rfl⟩

/-- Holding off collection meanwhile changes nothing about how assembling ends. -/
theorem assemblePaused_done {parameterCount : Nat} {dependencies : List Dependency}
    {result : Except Overflow Code}
    (h : assemblePaused settings u parameterCount dependencies r = .ok (result, r')) :
    (∃ e, result = .error e ∧ r' = r) ∨
    (∃ e ended d handles, result = .error e ∧ u.RunsTo settings r ended d ∧
      d.handles.releaseAll d.references.handles = .ok handles ∧ r' = { r with handles }) ∨
    (∃ d code, result = .ok code ∧ u.RunsTo settings r (.ok ()) d ∧
      u.finish dependencies d = .ok code ∧ r' = { r with handles := d.handles }) := by
  obtain ⟨⟨result', paused⟩, hassemble, h⟩ := Checked.bind_ok h
  obtain ⟨rfl, rfl⟩ := Prod.mk.inj (Checked.pure_ok h)
  rcases assemble_done hassemble with ⟨e, rfl, rfl⟩ | ⟨blob, ended, d, hblob, hrun,
    ⟨e, handles, rfl, hhandles, rfl⟩ | ⟨code, rfl, rfl, hcode, rfl⟩⟩
  · exact Or.inl ⟨e, rfl, rfl⟩
  · exact Or.inr (Or.inl ⟨e, ended, d, handles, rfl, ⟨parameterCount, blob, hblob, hrun⟩,
      hhandles, rfl⟩)
  · exact Or.inr (Or.inr ⟨d, code, rfl, ⟨parameterCount, blob, hblob, hrun⟩, hcode, rfl⟩)

/-- How committing ends: refused with the handles given back, or registered. -/
theorem commit_done {code : Code} {result : Except Refusal InstalledCode}
    (h : commit r code = .ok (result, r')) :
    (∃ refusal handles, result = .error refusal ∧
      r.handles.releaseAll code.references.handles = .ok handles ∧ r' = { r with handles }) ∨
    (∃ installed codes, result = .ok installed ∧
      r.codes.register code = .ok (.ok (installed, codes)) ∧ r' = { r with codes }) := by
  unfold commit at h
  split at h
  · next dependency _ =>
      obtain ⟨released, hreleased, h⟩ := Checked.bind_ok h
      obtain ⟨rfl, rfl⟩ := Prod.mk.inj (Checked.pure_ok h)
      obtain ⟨handles, hhandles, rfl⟩ := Runtime.releaseAll_ok hreleased
      exact Or.inl ⟨.brokenDependency dependency, handles, rfl, hhandles, rfl⟩
  · obtain ⟨full | ⟨installed, codes⟩, hregister, h⟩ := Checked.bind_ok h
    · obtain ⟨released, hreleased, h⟩ := Checked.bind_ok h
      obtain ⟨rfl, rfl⟩ := Prod.mk.inj (Checked.pure_ok h)
      obtain ⟨handles, hhandles, rfl⟩ := Runtime.releaseAll_ok hreleased
      exact Or.inl ⟨.spaceFull full, handles, rfl, hhandles, rfl⟩
    · obtain ⟨rfl, rfl⟩ := Prod.mk.inj (Checked.pure_ok h)
      exact Or.inr ⟨installed, codes, rfl, hregister, rfl⟩

/-- Code is registered when no dependency of it is broken, and refused for the first that is. -/
theorem commit_checks {code : Code} {result : Except Refusal InstalledCode}
    (h : commit r code = .ok (result, r')) :
    (∀ installed, result = .ok installed →
      Dependency.firstBroken? r.world code.dependencies = none) ∧
    (∀ d, result = .error (.brokenDependency d) →
      Dependency.firstBroken? r.world code.dependencies = some d) := by
  unfold commit at h
  split at h
  · next broken hbroken =>
      obtain ⟨_, -, h⟩ := Checked.bind_ok h
      obtain ⟨rfl, -⟩ := Prod.mk.inj (Checked.pure_ok h)
      refine ⟨fun _ hok => (nomatch hok), fun d hd => ?_⟩
      obtain rfl := Refusal.brokenDependency.inj (Except.error.inj hd)
      exact hbroken
  · next hsound =>
      refine ⟨fun _ _ => hsound, fun d hd => ?_⟩
      subst hd
      obtain ⟨full | registered, -, h⟩ := Checked.bind_ok h
      · obtain ⟨_, -, h⟩ := Checked.bind_ok h
        exact nomatch (Prod.mk.inj (Checked.pure_ok h)).1
      · exact nomatch (Prod.mk.inj (Checked.pure_ok h)).1

/-- How assembling and committing end, before a stub gets its number. -/
theorem assembleAndCommit_done {parameterCount : Nat} {dependencies : List Dependency}
    {result : Except Refusal InstalledCode}
    (h : assembleAndCommit settings u parameterCount dependencies r = .ok (result, r')) :
    (∃ refusal, result = .error refusal ∧ Installation settings u r (.error refusal) r') ∨
    (∃ installed, result = .ok installed ∧ r'.stubs = r.stubs ∧
      r'.codes.get? installed.id = some installed ∧
      ∀ stub, Installation settings u r (.ok ⟨installed, stub⟩)
        { r' with stubs := r.stubs ++ Receipt.newStubs ⟨installed, stub⟩ }) := by
  obtain ⟨⟨assembled, r₁⟩, hassemble, hcommit⟩ := Checked.bind_ok h
  rcases assemblePaused_done hassemble with ⟨e, rfl, rfl⟩ |
    ⟨e, ended, d, handles, rfl, hruns, hrelease, rfl⟩ | ⟨d, code, rfl, hruns, hfinish, rfl⟩
  · obtain ⟨rfl, rfl⟩ := Prod.mk.inj (Checked.pure_ok hcommit)
    exact Or.inl ⟨_, rfl, .noRoom⟩
  · obtain ⟨rfl, rfl⟩ := Prod.mk.inj (Checked.pure_ok hcommit)
    exact Or.inl ⟨_, rfl, .refused hruns hrelease⟩
  · obtain ⟨-, hreferences, -⟩ := CompiledUnit.finish_ok hfinish
    rcases commit_done hcommit with ⟨refusal, handles, rfl, hrelease, rfl⟩ |
      ⟨installed, codes, rfl, hregister, rfl⟩
    · rw [hreferences] at hrelease
      exact Or.inl ⟨refusal, rfl, .refused hruns hrelease⟩
    · obtain ⟨-, -, -, -, hget, -⟩ := CodeTable.register_ok hregister
      exact Or.inr ⟨installed, rfl, rfl, hget, fun stub => .registered hruns hfinish hregister⟩

/-- The dependencies a unit is assembled with are those that are checked. -/
theorem assembleAndCommit_checks {parameterCount : Nat} {dependencies : List Dependency}
    {result : Except Refusal InstalledCode}
    (h : assembleAndCommit settings u parameterCount dependencies r = .ok (result, r')) :
    (∀ installed, result = .ok installed →
      Dependency.firstBroken? r.world dependencies = none) ∧
    (∀ d, result = .error (.brokenDependency d) →
      Dependency.firstBroken? r.world dependencies = some d) := by
  obtain ⟨⟨assembled, r₁⟩, hassembled, hcommit⟩ := Checked.bind_ok h
  rcases assemblePaused_done hassembled with ⟨e, rfl, -⟩ | ⟨e, _, _, _, rfl, -⟩ |
    ⟨d, code, rfl, -, hfinish, rfl⟩
  · obtain ⟨rfl, -⟩ := Prod.mk.inj (Checked.pure_ok hcommit)
    exact ⟨fun _ hok => (nomatch hok), fun _ hbroken => (nomatch hbroken)⟩
  · obtain ⟨rfl, -⟩ := Prod.mk.inj (Checked.pure_ok hcommit)
    exact ⟨fun _ hok => (nomatch hok), fun _ hbroken => (nomatch hbroken)⟩
  · obtain ⟨-, _, rfl⟩ := CompiledUnit.finish_eq hfinish
    exact commit_checks hcommit

/-- A stub is registered like any unit, and its address is then added under the next number. -/
theorem installStub_done {out : Except Refusal Receipt}
    (h : installStub settings u r = .ok (out, r')) :
    u.method = none ∧ ∃ result r₁,
      assembleAndCommit settings u u.parameterCount [] r = .ok (result, r₁) ∧
      match result with
      | .error refusal => out = .error refusal ∧ r' = r₁
      | .ok installed => out = .ok ⟨installed, some r₁.stubs.length⟩ ∧
          r' = { r₁ with stubs := r₁.stubs ++ [installed.code.address] } := by
  obtain ⟨_, hmethod, h⟩ := Checked.bind_ok h
  obtain ⟨_, -, h⟩ := Checked.bind_ok h
  obtain ⟨⟨result, r₁⟩, hcommit, h⟩ := Checked.bind_ok h
  refine ⟨require_ok hmethod, result, r₁, hcommit, ?_⟩
  rcases assembleAndCommit_done hcommit with ⟨refusal, rfl, -⟩ | ⟨installed, rfl, -, hget, -⟩
  · cases refusal with
    | brokenDependency d => exact nomatch h
    | overflow cause | spaceFull cause =>
        obtain ⟨rfl, rfl⟩ := Prod.mk.inj (Checked.pure_ok h)
        exact ⟨rfl, rfl⟩
  · dsimp only at h
    rw [hget] at h
    obtain ⟨rfl, rfl⟩ := Prod.mk.inj (Checked.pure_ok h)
    exact ⟨rfl, rfl⟩

/-- **An installation ends in one of three ways.** -/
theorem Ends.installation {out : Except Refusal Receipt} (h : Ends settings u r out r') :
    Installation settings u r out r' := by
  rcases h with h | h
  · unfold installMethod at h
    split at h
    · exact nomatch h
    · obtain ⟨dependencies, -, h⟩ := Checked.bind_ok h
      obtain ⟨⟨result, r₁⟩, hcommit, h⟩ := Checked.bind_ok h
      obtain ⟨rfl, rfl⟩ := Prod.mk.inj (Checked.pure_ok h)
      rcases assembleAndCommit_done hcommit with ⟨refusal, rfl, hends⟩ |
        ⟨installed, rfl, hstubs, -, hends⟩
      · exact hends
      · have hmethod := hends none
        rw [show Receipt.newStubs ⟨installed, none⟩ = [] from rfl, List.append_nil,
          ← hstubs] at hmethod
        exact hmethod
  · obtain ⟨-, result, r₁, hcommit, h⟩ := installStub_done h
    rcases assembleAndCommit_done hcommit with ⟨refusal, rfl, hends⟩ |
      ⟨installed, rfl, hstubs, -, hends⟩
    · obtain ⟨rfl, rfl⟩ := h
      exact hends
    · obtain ⟨rfl, rfl⟩ := h
      have hstub := hends (some r₁.stubs.length)
      rw [← hstubs] at hstub
      exact hstub

/-- A refused installation touches nothing but the handles. -/
theorem Installation.eq_of_refused {refusal : Refusal}
    (h : Installation settings u r (.error refusal) r') : r' = { r with handles := r'.handles } := by
  cases h with
  | noRoom => rfl
  | refused hrun hrelease => rfl

end

-- ── Ends of a computed installation ─────────────────────────────────────────────

/-- Whether an installation ends, with its unit registered or not. -/
def endsRegistered (registered : Bool) : Checked (Except Refusal Receipt × Runtime) → Bool
  | .ok (.ok _, _) => registered
  | .ok (.error _, _) => !registered
  | .error _ => false

theorem exists_receipt {ended : Checked (Except Refusal Receipt × Runtime)}
    (h : endsRegistered true ended = true) : ∃ receipt r', ended = .ok (.ok receipt, r') := by
  rcases ended with fault | ⟨refusal | receipt, r'⟩
  · exact nomatch h
  · exact nomatch h
  · exact ⟨receipt, r', rfl⟩

/-- The receipt of a registered unit. -/
def receipt? : Checked (Except Refusal Receipt × Runtime) → Option Receipt
  | .ok (.ok receipt, _) => some receipt
  | _ => none

theorem exists_of_receipt? {ended : Checked (Except Refusal Receipt × Runtime)} {receipt : Receipt}
    (h : receipt? ended = some receipt) : ∃ r', ended = .ok (.ok receipt, r') := by
  rcases ended with fault | ⟨refusal | found, r'⟩
  · exact nomatch h
  · exact nomatch h
  · obtain rfl := Option.some.inj h
    exact ⟨r', rfl⟩

/-- Why a unit was refused. -/
def refusal? : Checked (Except Refusal Receipt × Runtime) → Option Refusal
  | .ok (.error refusal, _) => some refusal
  | _ => none

theorem exists_of_refusal? {ended : Checked (Except Refusal Receipt × Runtime)} {refusal : Refusal}
    (h : refusal? ended = some refusal) : ∃ r', ended = .ok (.error refusal, r') := by
  rcases ended with fault | ⟨found | receipt, r'⟩
  · exact nomatch h
  · obtain rfl := Option.some.inj h
    exact ⟨r', rfl⟩
  · exact nomatch h

theorem exists_refusal {ended : Checked (Except Refusal Receipt × Runtime)}
    (h : endsRegistered false ended = true) : ∃ refusal r', ended = .ok (.error refusal, r') := by
  rcases ended with fault | ⟨refusal | receipt, r'⟩
  · exact nomatch h
  · exact ⟨refusal, r', rfl⟩
  · exact nomatch h

end ManagedCode
