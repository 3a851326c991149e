import ManagedCode.Proofs.Ownership

/-! # How method calls are bound

    A method call is bound the way the last invoke mark before it announced.  Calls use up what is
    announced, all but jumps to installed code, which leave it for the next call; so the mark and
    its call have no other call between them exactly if they have no such jump between them.

* **`PendingCall.Binds`** — how a call of an announced kind is bound.
* **`applySite_binds`** — a method call is bound the way that is announced.
* **`method_call_bound_by_last_mark`** — which mark announced it, in every run of sites.
* **`jump_leaves_announced_call`** — a run where another call is between the two. -/

namespace ManagedCode

-- ── Bound calls ─────────────────────────────────────────────────────────────────

/-- The call at `offset` goes to `target` in the second blob, with a relocation that says so behind
    those of the first. -/
def Blob.BindsTo (b b' : Blob) (offset : Nat) (target : UInt64) (kind : RelocationKind) : Prop :=
  b'.BranchesTo offset target ∧ b'.relocations = b.relocations ++ [⟨offset, kind, .call32⟩]

/-- How a call of an announced kind is bound: to the stub that resolves calls of this kind, the one
    through a cache together with the cache; a call that is bound in the code itself is left as it
    is. Without an announcement there is no way. -/
def PendingCall.Binds (ctx : SiteContext) (b b' : Blob) (offset : Nat) : PendingCall → Prop
  | throughCache cache => b.BindsTo b' offset ctx.world.resolveVirtualCall (.virtualCall cache)
  | static => b.BindsTo b' offset ctx.world.resolveStaticCall .staticCall
  | special => b.BindsTo b' offset ctx.world.resolveSpecialCall .specialCall
  | inlined => b' = b
  | none => False

section Sites

variable {ctx : SiteContext} {d d' : Draft}

/-- Right after it is filled, the operand of a call leads to its target. -/
theorem Imprint.anchor?_bindsTo {b : Blob} {offset : Nat} {i : Instruction} {target : UInt64}
    {kind : RelocationKind} {imprint : Imprint} (hi : Instruction.at? b.code offset = some i)
    (h : Imprint.anchor? i target kind .call32 = some imprint) (hfits : imprint.Fits b) :
    b.BindsTo (imprint.apply b) offset target kind := by
  have hcarries : Carries b (imprint.apply b) (.instruction b.code offset true) imprint :=
    .of_apply hfits
  refine ⟨(hcarries.branchesTo hi h).2.1, ?_⟩
  unfold Imprint.anchor? at h
  split at h
  · obtain rfl := Option.some.inj h
    rw [(Instruction.at?_laws.bounds hi).1]
    rfl
  · exact nomatch h

/-- **A method call is bound the way that is announced.** -/
theorem applySite_binds {site : Site} {ref : MethodRef} {info : Option DebugInfo}
    (hcall : site.kind = .call (.method ref) info)
    (h : (applySite ctx site).runOn d = .ok (.ok (), d')) :
    d.pending.Binds ctx d.blob d'.blob site.offset.toNat := by
  obtain ⟨offset, kind⟩ := site
  obtain rfl : kind = .call (.method ref) info := hcall
  obtain ⟨imprint, himprint, hfits, hblob, -⟩ := applySite_imprint h
  change Site.callImprint? ctx d.blob d.pending offset.toNat (.method ref) = some imprint
    at himprint
  rw [hblob]
  cases hpending : d.pending with
  | inlined =>
      rw [hpending] at himprint
      obtain rfl := Option.some.inj himprint
      exact (congrArg Draft.blob (Imprint.left_nil d).2).symm
  | none =>
      rw [hpending] at himprint
      exact nomatch himprint
  | throughCache | static | special =>
      rw [hpending] at himprint
      obtain ⟨i, hi, hbound⟩ := Option.bind_eq_some_iff.mp himprint
      exact Imprint.anchor?_bindsTo hi hbound hfits

/-- A run of sites announces what its sites announce. -/
theorem applySites_pending {sites : List Site}
    (h : (applySites ctx sites).runOn d = .ok (.ok (), d')) :
    d'.pending = sites.foldl PendingCall.after d.pending := by
  induction sites generalizing d with
  | nil =>
      obtain ⟨-, rfl⟩ := Prod.mk.inj (Except.ok.inj h)
      rfl
  | cons site rest ih =>
      obtain ⟨_, d₁, hsite, hrest⟩ := Patch.bind_ok h
      obtain ⟨-, -, -, -, hpending⟩ := applySite_imprint hsite
      rw [ih hrest, hpending]
      rfl

end Sites

-- ── The mark that announces a call ──────────────────────────────────────────────

/-- **Every method call is bound by the last invoke mark before it.** In a run of sites that goes
    through on a fresh draft, every method call has an invoke mark before it and is bound the way
    that the last one announced. Every other call behind that mark is a jump to installed code, so
    there is none at all exactly if there is no such jump. -/
theorem method_call_bound_by_last_mark {ctx : SiteContext} {blob : Blob} {handles : HandleTable}
    {d' : Draft} {pre post : List Site} {call : Site} {ref : MethodRef} {info : Option DebugInfo}
    (hcall : call.kind = .call (.method ref) info)
    (h : (applySites ctx (pre ++ call :: post)).runOn { blob, handles } = .ok (.ok (), d')) :
    ∃ first marking last announced d₁ d₂, pre = first ++ marking :: last ∧
      marking.announced? = some announced ∧ (∀ other ∈ last, other.announced? = none) ∧
      (applySites ctx pre).runOn { blob, handles } = .ok (.ok (), d₁) ∧
      (applySite ctx call).runOn d₁ = .ok (.ok (), d₂) ∧
      announced.Binds ctx d₁.blob d₂.blob call.offset.toNat ∧
      (∀ other ∈ last, other.isCall = true → other.entersInstalledCode = true) ∧
      ((∀ other ∈ last, other.isCall = false) ↔
        ∀ other ∈ last, other.entersInstalledCode = false) := by
  obtain ⟨d₁, hpre, hrest⟩ := applySites_append h
  obtain ⟨_, d₂, hsite, -⟩ := Patch.bind_ok hrest
  have hbinds := applySite_binds hcall hsite
  have hsome : d₁.pending ≠ .none := by
    intro hnone
    rw [hnone] at hbinds
    exact hbinds
  rcases exists_announcing hsome (applySites_pending hpre).symm with ⟨hfresh, -⟩ |
    ⟨first, marking, last, hsplit, hmarking, hlast⟩
  · exact (hsome hfresh.symm).elim
  refine ⟨first, marking, last, d₁.pending, d₁, d₂, hsplit, hmarking,
    fun other hother => (hlast other hother).1, hpre, hsite, hbinds,
    fun other hother => (hlast other hother).2, ?_⟩
  constructor
  · intro hcalls other hother
    refine Bool.eq_false_iff.mpr fun hjump => ?_
    exact Bool.false_ne_true
      ((hcalls other hother).symm.trans (Site.isCall_of_entersInstalledCode hjump))
  · intro hjumps other hother
    refine Bool.eq_false_iff.mpr fun hcall => ?_
    exact Bool.false_ne_true ((hjumps other hother).symm.trans ((hlast other hother).2 hcall))

-- ── A jump between a mark and its call ──────────────────────────────────────────

/-- The sample context with a unit installed. -/
def SiteContext.sampleOccupied : SiteContext :=
  { SiteContext.sample with
    codes :=
      { space := { base := 0x7f000000, capacity := 0x1000 }
        entries :=
          [⟨⟨0⟩,
            { name := "installed"
              blob :=
                { layout := ⟨1, 0, 16, 0⟩
                  code := [0xc3]
                  constants := []
                  relocations := []
                  base := 0x7f000040 } }⟩] } }

/-- A jump and a call, both without their distances. -/
def Blob.sampleJumpAndCall : Blob where
  layout := ⟨10, 0, 16, 4⟩
  code := [0xe9, 0, 0, 0, 0, 0xe8, 0, 0, 0, 0]
  constants := []
  relocations := []
  base := 0x7f000000

/-- A mark that announces a static call. -/
def Site.sampleAnnouncement : Site := ⟨0, .mark 0x2002 []⟩

/-- A jump to the installed unit. -/
def Site.sampleJump : Site := ⟨0, .call (.installedCode ⟨0⟩) none⟩

/-- A call of a static method. -/
def Site.sampleStaticCall : Site :=
  ⟨5, .call (.method (.resolved ⟨0x3000⟩)) (some {
    frame := {
      method := ⟨0x1000⟩, bci := 0, values := []
      localCount := 0, stackCount := 0, lockCount := 0 }
    frameBits := ⟨[]⟩ })⟩

/-- Whether a run of sites goes through. -/
def goesThrough : Checked (Except Overflow Unit × Draft) → Bool
  | .ok (.ok _, _) => true
  | _ => false

theorem exists_draft {ended : Checked (Except Overflow Unit × Draft)}
    (h : goesThrough ended = true) : ∃ d', ended = .ok (.ok (), d') := by
  rcases ended with fault | ⟨overflow | done, d'⟩
  · exact nomatch h
  · exact nomatch h
  · exact ⟨d', rfl⟩

/-- The mark, the jump and the call go through on a fresh draft. -/
theorem sampleJumpAndCall_goesThrough :
    ∃ d', (applySites .sampleOccupied ([.sampleAnnouncement, .sampleJump] ++
      .sampleStaticCall :: [])).runOn { blob := .sampleJumpAndCall } = .ok (.ok (), d') :=
  exists_draft (by decide +kernel)

/-- The mark is the only one of the two sites in front of the call that announces anything. -/
theorem Site.sampleAnnouncement_unique {first last : List Site} {marking : Site}
    (hsplit : [sampleAnnouncement, sampleJump] = first ++ marking :: last)
    (hmarking : marking.announced? ≠ none) :
    marking = sampleAnnouncement ∧ last = [sampleJump] := by
  rcases first with _ | ⟨other, _ | ⟨next, first⟩⟩
  · obtain ⟨rfl, rfl⟩ := List.cons.inj hsplit
    exact ⟨rfl, rfl⟩
  · obtain ⟨-, hsplit⟩ := List.cons.inj hsplit
    obtain ⟨rfl, -⟩ := List.cons.inj hsplit
    exact (hmarking rfl).elim
  · simp at hsplit

/-- The call is bound by the mark, across the jump. -/
theorem method_call_bound_by_last_mark_sample :
    ∃ d', (applySites .sampleOccupied ([.sampleAnnouncement, .sampleJump] ++
        .sampleStaticCall :: [])).runOn { blob := .sampleJumpAndCall } = .ok (.ok (), d') ∧
      ∃ d₁ d₂, (applySite .sampleOccupied .sampleStaticCall).runOn d₁ = .ok (.ok (), d₂) ∧
        d₁.blob.BindsTo d₂.blob 5 Description.sample.resolveStaticCall .staticCall := by
  obtain ⟨d', hrun⟩ := sampleJumpAndCall_goesThrough
  obtain ⟨first, marking, last, announced, d₁, d₂, hsplit, hmarking, -, -, hsite, hbinds, -, -⟩ :=
    method_call_bound_by_last_mark rfl hrun
  obtain ⟨rfl, -⟩ := Site.sampleAnnouncement_unique hsplit (by rw [hmarking]; nofun)
  obtain rfl : PendingCall.static = announced := Option.some.inj hmarking
  exact ⟨d', hrun, d₁, d₂, hsite, hbinds⟩

/-- **A jump to installed code leaves what is announced.** It is not so that no other call ever
    stands between a method call and the invoke mark before it. -/
theorem jump_leaves_announced_call :
    ¬ ∀ (ctx : SiteContext) (blob : Blob) (handles : HandleTable) (pre post : List Site)
        (call : Site) (ref : MethodRef) (info : Option DebugInfo) (d' : Draft),
        call.kind = .call (.method ref) info →
        (applySites ctx (pre ++ call :: post)).runOn { blob, handles } = .ok (.ok (), d') →
        ∃ first marking last, pre = first ++ marking :: last ∧ marking.announced? ≠ none ∧
          ∀ other ∈ last, other.isCall = false := by
  intro h
  obtain ⟨d', hrun⟩ := sampleJumpAndCall_goesThrough
  obtain ⟨first, marking, last, hsplit, hmarking, hcalls⟩ := h _ _ _ _ _ _ _ _ d' rfl hrun
  obtain ⟨-, rfl⟩ := Site.sampleAnnouncement_unique hsplit hmarking
  exact nomatch hcalls .sampleJump (List.mem_cons_self ..)

end ManagedCode
