import ManagedCode.Compiled.Mark
import ManagedCode.Proofs.Decoding

/-! # Footprints of sites

    Which bytes of the code a site patches can be told from the code and the sites alone, before
    any of them is applied.  A footprint lists the instructions and the header bytes that a site
    patches, and says whether what it writes is a distance to a fixed address.

* **`PendingCall.after`** — the kind of call announced once a site is applied;
  **`exists_announcing`** finds the mark that announced it.
* **`Stretch`** — an instruction with the operand that is patched, or a single header byte.
* **`footprints`** — the footprints of a list of sites, in order. -/

namespace ManagedCode

-- ── The announced call ──────────────────────────────────────────────────────────

/-- The kind of the next call once a site is applied. Invoke marks announce it, calls use it up,
    and a jump to installed code leaves it alone. -/
def PendingCall.after (pending : PendingCall) (site : Site) : PendingCall :=
  match site.kind with
  | .call (.installedCode _) _ => pending
  | .call _ _ => .none
  | .safepoint _ => pending
  | .dataPatch _ _ _ => pending
  | .mark id _ =>
      match Mark.ofNumber? id with
      | some .invokeVirtual => .throughCache site.offset.toNat
      | some .invokeInterface => .throughCache site.offset.toNat
      | some .invokeStatic => .static
      | some .invokeSpecial => .special
      | some .inlineInvokeVirtual => .inlined
      | some .invokeInvalid => .none
      | _ => pending

/-- The kind of call announced behind a list of sites. -/
def PendingCall.afterAll (sites : List Site) : PendingCall :=
  sites.foldl PendingCall.after .none

/-- The kind of call that a mark at an offset announces, if it is an invoke mark. -/
def Mark.announced? (offset : Nat) : Mark → Option PendingCall
  | invokeVirtual => some (.throughCache offset)
  | invokeInterface => some (.throughCache offset)
  | invokeStatic => some .static
  | invokeSpecial => some .special
  | inlineInvokeVirtual => some .inlined
  | invokeInvalid => some .none
  | _ => none

namespace Site

/-- The kind of call that a site announces, if it is an invoke mark. -/
def announced? (site : Site) : Option PendingCall :=
  match site.kind with
  | .mark id _ => (Mark.ofNumber? id).bind (Mark.announced? site.offset.toNat)
  | _ => none

/-- Whether a site is a call, to whatever target. -/
def isCall (site : Site) : Bool :=
  match site.kind with
  | .call _ _ => true
  | _ => false

/-- Whether a site is a jump to installed code. -/
def entersInstalledCode (site : Site) : Bool :=
  match site.kind with
  | .call (.installedCode _) _ => true
  | _ => false

/-- A jump to installed code is a call. -/
theorem isCall_of_entersInstalledCode {site : Site} (h : site.entersInstalledCode = true) :
    site.isCall = true := by
  obtain ⟨offset, kind⟩ := site
  cases kind with
  | call target info => rfl
  | safepoint | dataPatch | mark => exact nomatch h

theorem announced?_eq_some_iff {site : Site} {announced : PendingCall} :
    site.announced? = some announced ↔ ∃ id references mark, site.kind = .mark id references ∧
      Mark.ofNumber? id = some mark ∧ mark.announced? site.offset.toNat = some announced := by
  obtain ⟨offset, kind⟩ := site
  constructor
  · intro h
    cases kind with
    | mark id references =>
        obtain ⟨mark, hmark, hannounced⟩ := Option.bind_eq_some_iff.mp h
        exact ⟨id, references, mark, rfl, hmark, hannounced⟩
    | call | safepoint | dataPatch => exact nomatch h
  · rintro ⟨id, references, mark, rfl, hmark, hannounced⟩
    exact Option.bind_eq_some_iff.mpr ⟨mark, hmark, hannounced⟩

end Site

/-- What is announced behind a site: what the site announces, nothing behind a call, and otherwise
    what was announced before. -/
theorem announced_after (pending : PendingCall) (site : Site) :
    (∃ announced, site.announced? = some announced ∧ pending.after site = announced) ∨
    (site.announced? = none ∧ site.isCall = true ∧ site.entersInstalledCode = false ∧
      pending.after site = .none) ∨
    (site.announced? = none ∧ (site.isCall = true → site.entersInstalledCode = true) ∧
      pending.after site = pending) := by
  obtain ⟨offset, kind⟩ := site
  cases kind with
  | call target info =>
      cases target with
      | installedCode id => exact Or.inr (Or.inr ⟨rfl, fun _ => rfl, rfl⟩)
      | method ref => exact Or.inr (Or.inl ⟨rfl, rfl, rfl, rfl⟩)
      | runtimeStub id => exact Or.inr (Or.inl ⟨rfl, rfl, rfl, rfl⟩)
  | safepoint info => exact Or.inr (Or.inr ⟨rfl, nofun, rfl⟩)
  | dataPatch c alignment inlined => exact Or.inr (Or.inr ⟨rfl, nofun, rfl⟩)
  | mark id references =>
      simp only [Site.announced?, PendingCall.after]
      cases hmark : Mark.ofNumber? id with
      | none => exact Or.inr (Or.inr ⟨rfl, nofun, rfl⟩)
      | some mark =>
          cases mark with
          | invokeVirtual | invokeInterface | invokeStatic | invokeSpecial | inlineInvokeVirtual
          | invokeInvalid => exact Or.inl ⟨_, rfl, rfl⟩
          | verifiedEntry | unverifiedEntry | osrEntry | unwindEntry | exceptionHandlerEntry
          | deoptHandlerEntry | staticCallStub | implicitNull | pollNear | pollReturnNear
          | pollFar | pollReturnFar | typePatching | dummyReference | accessFieldPatching =>
              exact Or.inr (Or.inr ⟨rfl, nofun, rfl⟩)

/-- **What is announced behind sites was announced by the last invoke mark of them**, and behind that
    mark there are no calls but jumps to installed code. By induction on the sites; without such a
    mark it was announced before them. -/
theorem exists_announcing {pending announced : PendingCall} {sites : List Site}
    (hsome : announced ≠ .none) (h : sites.foldl PendingCall.after pending = announced) :
    (pending = announced ∧ ∀ other ∈ sites, other.announced? = none ∧
      (other.isCall = true → other.entersInstalledCode = true)) ∨
    ∃ first marking last, sites = first ++ marking :: last ∧
      marking.announced? = some announced ∧ ∀ other ∈ last, other.announced? = none ∧
        (other.isCall = true → other.entersInstalledCode = true) := by
  induction sites generalizing pending with
  | nil => exact Or.inl ⟨h, List.forall_mem_nil _⟩
  | cons site rest ih =>
      rcases ih h with ⟨hafter, hrest⟩ | ⟨first, marking, last, rfl, hmarking, hlast⟩
      · rcases announced_after pending site with ⟨new, hnew, hsite⟩ | ⟨-, -, -, hsite⟩ |
          ⟨hquiet, hjump, hsite⟩
        · obtain rfl := hsite.symm.trans hafter
          exact Or.inr ⟨[], site, rest, rfl, hnew, hrest⟩
        · exact (hsome (hafter.symm.trans hsite)).elim
        · refine Or.inl ⟨hsite.symm.trans hafter, fun other hother => ?_⟩
          rcases List.mem_cons.mp hother with rfl | hother
          · exact ⟨hquiet, hjump⟩
          · exact hrest other hother
      · exact Or.inr ⟨site :: first, marking, last, rfl, hmarking, hlast⟩

-- ── Stretches ───────────────────────────────────────────────────────────────────

/-- A stretch of code that a site patches: the bytes from `start` to `stop`, of which those of
    `operand` are replaced. -/
structure Stretch where
  start : Nat
  operand : Operand
  stop : Nat
deriving DecidableEq, Repr

namespace Stretch

/-- The instruction at an offset. Where nothing can be decoded, all of the rest of the code. -/
def ofInstruction (code : List UInt8) (offset : Nat) : Stretch :=
  match Instruction.at? code offset with
  | some i => ⟨offset, i.firstOperand, i.next⟩
  | none => ⟨offset, ⟨code.length, 0⟩, code.length⟩

/-- A single byte. -/
def ofByte (offset : Nat) : Stretch := ⟨offset, ⟨offset, 1⟩, offset + 1⟩

/-- Two stretches have no byte in common. -/
def Apart (s t : Stretch) : Prop := s.stop ≤ t.start ∨ t.stop ≤ s.start

instance (s t : Stretch) : Decidable (s.Apart t) := inferInstanceAs (Decidable (_ ∨ _))

/-- A byte is among those replaced. -/
def Covers (s : Stretch) (p : Nat) : Prop :=
  s.operand.offset ≤ p ∧ p < s.operand.offset + s.operand.size

/-- The replaced bytes are within the stretch. -/
def Proper (s : Stretch) : Prop :=
  s.start ≤ s.operand.offset ∧ s.operand.offset + s.operand.size ≤ s.stop

end Stretch

/-- Code with the two header bytes of a patching stub filled in: the number of bytes between its
    references, and the same with the skip added. -/
def patchedHeader (offset : Nat) (first second : Int) (code : List UInt8) : List UInt8 :=
  Blob.overwrite
    (Blob.overwrite code (offset - 1) [UInt8.ofNat (second - first).toNat])
    (offset - 3) [UInt8.ofNat (second - first + patchingSkip.toNat).toNat]

-- ── Footprints ──────────────────────────────────────────────────────────────────

/-- What a site patches, and whether it writes the distance to a fixed address. -/
structure Footprint where
  stretches : List Stretch := []
  anchored : Bool := false
deriving DecidableEq, Repr

namespace Footprint

/-- The patches of two sites have no byte in common. -/
def Apart (f g : Footprint) : Prop := ∀ s ∈ f.stretches, ∀ t ∈ g.stretches, s.Apart t

/-- The patches of two sites are of the same instruction or have no byte in common. -/
def SameOrApart (f g : Footprint) : Prop :=
  ∀ s ∈ f.stretches, ∀ t ∈ g.stretches, s = t ∨ s.Apart t

/-- The later of two sites patches nothing that the earlier one bound to a fixed address. -/
def Respects (f g : Footprint) : Prop :=
  f.anchored = true → ∀ s ∈ f.stretches, s ∉ g.stretches

instance (f g : Footprint) : Decidable (f.Apart g) :=
  inferInstanceAs (Decidable (∀ s ∈ f.stretches, ∀ t ∈ g.stretches, s.Apart t))

instance (f g : Footprint) : Decidable (f.SameOrApart g) :=
  inferInstanceAs (Decidable (∀ s ∈ f.stretches, ∀ t ∈ g.stretches, s = t ∨ s.Apart t))

instance (f g : Footprint) : Decidable (f.Respects g) :=
  inferInstanceAs (Decidable (f.anchored = true → ∀ s ∈ f.stretches, s ∉ g.stretches))

/-- The footprint of one patched instruction. -/
def instruction (code : List UInt8) (offset : Nat) (anchored : Bool) : Footprint :=
  ⟨[Stretch.ofInstruction code offset], anchored⟩

end Footprint

namespace Site

/-- The footprint of a call. A method call that is bound in the code itself patches nothing, and a
    stub called through a load is not reached by a distance. -/
def callFootprint (code : List UInt8) (pending : PendingCall) (offset : Nat) :
    CallTarget → Footprint
  | .runtimeStub _ =>
      .instruction code offset
        ((Instruction.at? code offset).all fun i => i.shape != .movLiteral)
  | .installedCode _ => .instruction code offset true
  | .method _ =>
      match pending with
      | .throughCache _ => .instruction code offset true
      | .static => .instruction code offset true
      | .special => .instruction code offset true
      | .inlined => {}
      | .none => {}

/-- The header bytes of a patching stub. -/
def headerStretches (offset : Nat) : List Stretch := [.ofByte (offset - 1), .ofByte (offset - 3)]

/-- The footprint of a mark. -/
def markFootprint (code : List UInt8) (offset : Nat) (id : Int) (references : List Int) :
    Footprint :=
  match Mark.ofNumber? id with
  | some .invokeVirtual => .instruction code offset false
  | some .invokeInterface => .instruction code offset false
  | some .pollNear => .instruction code offset true
  | some .pollReturnNear => .instruction code offset true
  | some .typePatching => { stretches := headerStretches offset }
  | some .accessFieldPatching =>
      match references with
      | [first, second] =>
          { stretches := headerStretches offset ++
              [.ofInstruction (patchedHeader offset first second code) first.toNat] }
      | _ => { stretches := headerStretches offset }
  | _ => {}

/-- What a site patches in the given code. -/
def footprint (code : List UInt8) (pending : PendingCall) (site : Site) : Footprint :=
  match site.kind with
  | .call target _ => callFootprint code pending site.offset.toNat target
  | .safepoint _ => {}
  | .dataPatch _ _ _ => .instruction code site.offset.toNat false
  | .mark id references => markFootprint code site.offset.toNat id references

end Site

/-- The footprints of sites that are applied in order, behind a site that announced `pending`. -/
def footprints (code : List UInt8) : PendingCall → List Site → List Footprint
  | _, [] => []
  | pending, site :: rest =>
      site.footprint code pending :: footprints code (pending.after site) rest

theorem footprints_append (code : List UInt8) (pending : PendingCall) (first second : List Site) :
    footprints code pending (first ++ second) = footprints code pending first ++
      footprints code (first.foldl PendingCall.after pending) second := by
  induction first generalizing pending with
  | nil => rfl
  | cons site rest ih =>
      rw [List.cons_append, footprints, ih]
      rfl

end ManagedCode
