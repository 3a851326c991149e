import ManagedCode.Proofs.Footprint

/-! # Imprints of sites

    What a site that goes through leaves in the blob, said without the steps that get there: the
    operands it fills, the constants it appends and the relocations it records.  An operand is
    filled with bytes that are the same wherever the code stands, or with the distance to a fixed
    address, which is not.

* **`Filling`**, **`Edit`**, **`render`** — filled operands, written out for a base address.
* **`Imprint`** — what one site leaves; **`Site.imprint?`** tells it from the site and the code.
* **`Blob.write32_ok`** .. **`Blob.changeKind_ok`** — what the operations of a blob amount to. -/

namespace ManagedCode

-- ── Edits ───────────────────────────────────────────────────────────────────────

/-- What an operand is filled with. -/
inductive Filling where
  /-- The same bytes wherever the code stands. -/
  | fixed (bytes : List UInt8)
  /-- The distance to a fixed address from `next`, counted from the start of the code. -/
  | distance (target : UInt64) (next : Nat)
  /-- The distance from `next` to another place of the same blob. -/
  | within (place next : Nat)
deriving DecidableEq, Repr

namespace Filling

/-- The distance from `next` to `target` in code that stands at `base`. -/
def distanceAt (base target : UInt64) (next : Nat) : Int :=
  Word.signed64 (target - (base + UInt64.ofNat next))

/-- The distance from `next` to `place`, wherever both stand. -/
def distanceWithin (place next : Nat) : Int :=
  Word.signed64 (UInt64.ofNat place - UInt64.ofNat next)

/-- The bytes of a filling in code that stands at `base`. -/
def bytes (base : UInt64) : Filling → List UInt8
  | fixed bytes => bytes
  | distance target next => Word.toBytes 4 (distanceAt base target next % Word.limit32).toNat
  | within place next => Word.toBytes 4 (distanceWithin place next % Word.limit32).toNat

/-- Whether a filling is the distance to a fixed address. -/
def isDistance : Filling → Bool
  | fixed _ => false
  | distance _ _ => true
  | within _ _ => false

/-- A distance has to fit the four bytes it is written to. -/
def Fits (base : UInt64) : Filling → Prop
  | fixed _ => True
  | distance target next =>
      distanceAt base target next = Word.signed32 (distanceAt base target next)
  | within place next => distanceWithin place next = Word.signed32 (distanceWithin place next)

/-- Only a distance to a fixed address depends on where the code stands. -/
theorem bytes_eq {f : Filling} (h : f.isDistance = false) (old new : UInt64) :
    f.bytes old = f.bytes new := by
  cases f with
  | fixed bytes => rfl
  | distance target next => exact nomatch h
  | within place next => rfl

theorem Fits.of_not_distance {f : Filling} {old : UInt64} (hfits : f.Fits old)
    (h : f.isDistance = false) (new : UInt64) : f.Fits new := by
  cases f with
  | fixed bytes => exact hfits
  | distance target next => exact nomatch h
  | within place next => exact hfits

theorem exists_of_isDistance {f : Filling} (h : f.isDistance = true) :
    ∃ target next, f = .distance target next := by
  cases f with
  | fixed bytes => exact nomatch h
  | distance target next => exact ⟨target, next, rfl⟩
  | within place next => exact nomatch h

end Filling

/-- An operand and what it is filled with. -/
structure Edit where
  operand : Operand
  filling : Filling
deriving DecidableEq, Repr

namespace Edit

/-- Fills the operand in code that stands at `base`. -/
def apply (base : UInt64) (code : List UInt8) (e : Edit) : List UInt8 :=
  Blob.overwrite code e.operand.offset (e.filling.bytes base)

/-- The filling is as wide as the operand, and the operand is within code of the given size. -/
structure Fits (base : UInt64) (size : Nat) (e : Edit) : Prop where
  width : (e.filling.bytes base).length = e.operand.size
  inside : e.operand.offset + e.operand.size ≤ size
  inRange : e.operand.offset + e.operand.size < Word.limit
  filling : e.filling.Fits base

end Edit

/-- Code that stands at `base` with operands filled in order. -/
def render (base : UInt64) (code : List UInt8) (edits : List Edit) : List UInt8 :=
  edits.foldl (Edit.apply base) code

-- ── Imprints ────────────────────────────────────────────────────────────────────

/-- What a site leaves in a blob. -/
structure Imprint where
  edits : List Edit := []
  constants : List UInt8 := []
  records : List Relocation := []
deriving DecidableEq, Repr

namespace Imprint

/-- A blob with an imprint. -/
def apply (imprint : Imprint) (b : Blob) : Blob :=
  { b with
    code := render b.base b.code imprint.edits
    constants := b.constants ++ imprint.constants
    relocations := b.relocations ++ imprint.records }

/-- Every operand filled is within the code, and every distance fits. -/
def Fits (imprint : Imprint) (b : Blob) : Prop := ∀ e ∈ imprint.edits, e.Fits b.base b.code.length

/-- An operand that reaches a fixed address by its distance. -/
def anchor? (i : Instruction) (target : UInt64) (kind : RelocationKind)
    (format : OperandFormat) : Option Imprint :=
  match Blob.positionalOperand ⟨i.offset, kind, format⟩ i with
  | .ok o => some
      { edits := [⟨o, .distance target i.next⟩], records := [⟨i.offset, kind, format⟩] }
  | .error _ => none

/-- An operand that holds a word. -/
def word? (i : Instruction) (bits : UInt64) (records : List Relocation) : Option Imprint :=
  match i.immediate64 with
  | .ok o => some { edits := [⟨o, .fixed (Word.toBytes 8 bits.toNat)⟩], records }
  | .error _ => none

/-- Relocations only. -/
def recording (records : List Relocation) : Imprint where
  records := records

/-- A constant behind those of the blob, and the load that refers to it. -/
def constant? (b : Blob) (i : Instruction) (bits : UInt64) (alignment : Nat) : Option Imprint :=
  match i.displacement32, b.constantsStart, b.constantOffset alignment with
  | .ok o, .ok start, .ok offset => some
      { edits := [⟨o, .within (start + offset) i.next⟩]
        constants := List.replicate (offset - b.constants.length) 0 ++ Word.toBytes 8 bits.toNat
        records := [⟨i.offset, .sectionWord .constants offset, .displacement32⟩] }
  | _, _, _ => none

/-- The two header bytes of a patching stub. -/
def headerEdits (offset : Nat) (first second : Int) : List Edit :=
  [⟨⟨offset - 1, 1⟩, .fixed [UInt8.ofNat (second - first).toNat]⟩,
   ⟨⟨offset - 3, 1⟩, .fixed [UInt8.ofNat (second - first + patchingSkip.toNat).toNat]⟩]

end Imprint

/-- The address a call is bound to and the kind of its record, unless the call is bound in the
    code itself. -/
def CallTarget.destination? (ctx : SiteContext) (pending : PendingCall) :
    CallTarget → Option (UInt64 × RelocationKind)
  | .runtimeStub id => (stubAddress? ctx.stubs id).map fun address => (address, .runtimeCall)
  | .installedCode id =>
      match ctx.codes.verifiedEntry? id with
      | .ok (some entry) => some (entry, .runtimeCall)
      | _ => none
  | .method _ =>
      match pending with
      | .throughCache cache => some (ctx.world.resolveVirtualCall, .virtualCall cache)
      | .static => some (ctx.world.resolveStaticCall, .staticCall)
      | .special => some (ctx.world.resolveSpecialCall, .specialCall)
      | .inlined => none
      | .none => none

/-- Where a poll that is near the polling page reaches it. -/
def SiteContext.pollTarget (ctx : SiteContext) : UInt64 :=
  ctx.world.pollingPage + UInt64.ofNat (ctx.settings.pollOffset % ctx.world.pageSize)

namespace Site

/-- What a call leaves in the blob: a load of a stub's address, or the distance to the
    destination. -/
def callImprint? (ctx : SiteContext) (b : Blob) (pending : PendingCall) (offset : Nat)
    (target : CallTarget) : Option Imprint :=
  match target, pending with
  | .method _, .inlined => some {}
  | _, _ =>
      (target.destination? ctx pending).bind fun (address, kind) =>
        (Instruction.at? b.code offset).bind fun i =>
          match target, i.shape with
          | .runtimeStub _, .movLiteral =>
              Imprint.word? i address [⟨i.offset, kind, .immediate⟩]
          | _, _ => Imprint.anchor? i address kind .call32

/-- What a constant leaves in the blob. Object constants are written as handles, the next one of
    the table. -/
def patchImprint? (b : Blob) (handles : HandleTable) (offset : Nat) (c : Constant)
    (alignment : Nat) (inlined : Bool) : Option Imprint :=
  (Instruction.at? b.code offset).bind fun i =>
    match c.kind, c.object with
    | .object, some (.heap object) =>
        match handles.make object with
        | .ok (handle, _) => Imprint.word? i handle.address [⟨offset, .reference, .immediate⟩]
        | .error _ => none
    | .object, _ => Imprint.word? i 0 [⟨offset, .reference, .immediate⟩]
    | _, _ =>
        if inlined then Imprint.word? i (Word.ofInt c.bits) []
        else if i.ipRelative then Imprint.constant? b i (Word.ofInt c.bits) alignment
        else none

/-- What the load of an inline cache leaves in the blob. -/
def cacheImprint? (ctx : SiteContext) (b : Blob) (offset : Nat) : Option Imprint :=
  (Instruction.at? b.code offset).bind fun i =>
    if i.shape = .movLiteral then Imprint.word? i ctx.world.emptyCacheWord [] else none

/-- What a poll near the polling page leaves in the blob. -/
def pollImprint? (ctx : SiteContext) (b : Blob) (offset : Nat) (kind : RelocationKind) :
    Option Imprint :=
  (Instruction.at? b.code offset).bind fun i =>
    if i.ipRelative then Imprint.anchor? i ctx.pollTarget kind .displacement32 else none

/-- What a patched field access leaves in the blob. Its instruction is decoded behind the header
    bytes, which are filled first. -/
def fieldImprint? (b : Blob) (offset : Nat) (first second : Int) : Option Imprint :=
  (Instruction.at? (patchedHeader offset first second b.code) first.toNat).bind fun i =>
    match i.displacement32 with
    | .ok o => some
        { edits := Imprint.headerEdits offset first second ++ [⟨o, .fixed (Word.toBytes 4 0)⟩] }
    | .error _ => none

/-- What a mark leaves in the blob. -/
def markImprint? (ctx : SiteContext) (b : Blob) (offset : Nat) (id : Int)
    (references : List Int) : Option Imprint :=
  match Mark.ofNumber? id, references with
  | some .staticCallStub, [call] =>
      some (.recording [⟨offset, .metadata, .immediate⟩, ⟨offset, .staticStub call.toNat, .none⟩])
  | some .invokeVirtual, _ => cacheImprint? ctx b offset
  | some .invokeInterface, _ => cacheImprint? ctx b offset
  | some .pollNear, _ => pollImprint? ctx b offset .poll
  | some .pollReturnNear, _ => pollImprint? ctx b offset .pollReturn
  | some .pollFar, _ => some (.recording [⟨offset, .poll, .none⟩])
  | some .pollReturnFar, _ => some (.recording [⟨offset, .pollReturn, .none⟩])
  | some .typePatching, [first, second] =>
      some { edits := Imprint.headerEdits offset first second }
  | some .typePatching, _ => none
  | some .accessFieldPatching, [first, second] => fieldImprint? b offset first second
  | some .accessFieldPatching, _ => none
  | some .dummyReference, _ => some (.recording [⟨offset, .none, .immediate⟩])
  | _, _ => some {}

/-- What a site leaves in the blob it is applied to. -/
def imprint? (ctx : SiteContext) (b : Blob) (pending : PendingCall) (handles : HandleTable)
    (site : Site) : Option Imprint :=
  match site.kind with
  | .call target _ => callImprint? ctx b pending site.offset.toNat target
  | .safepoint _ => some {}
  | .dataPatch c alignment inlined =>
      patchImprint? b handles site.offset.toNat c alignment inlined
  | .mark id references => markImprint? ctx b site.offset.toNat id references

end Site

-- ── The operations of a blob ────────────────────────────────────────────────────

namespace Blob

variable {b b' : Blob} {o : Operand}

theorem checkAccess_ok {offset size : Nat} {u : Unit} (h : b.checkAccess offset size = .ok u) :
    offset + size ≤ b.code.length ∧ offset + size < Word.limit := by
  obtain ⟨last, hlast, h⟩ := Checked.bind_ok h
  obtain ⟨rfl, hlt⟩ := Size.add_ok hlast
  exact ⟨require_ok h, hlt⟩

theorem writeBytes_ok {offset width value : Nat} (h : b.writeBytes offset width value = .ok b') :
    offset + width ≤ b.code.length ∧ offset + width < Word.limit ∧
      b' = { b with code := overwrite b.code offset (Word.toBytes width value) } := by
  obtain ⟨_, hcheck, h⟩ := Checked.bind_ok h
  obtain ⟨hle, hlt⟩ := checkAccess_ok hcheck
  exact ⟨hle, hlt, (Checked.pure_ok h).symm⟩

theorem checkAccess_eq {offset size : Nat} (hinside : offset + size ≤ b.code.length)
    (hrange : offset + size < Word.limit) : b.checkAccess offset size = .ok () := by
  rw [checkAccess, Size.add_of_lt hrange, Checked.ok_bind]
  exact require_met hinside

/-- What is within the code can be written. -/
theorem writeBytes_eq {offset width : Nat} (hinside : offset + width ≤ b.code.length)
    (hrange : offset + width < Word.limit) (value : Nat) :
    b.writeBytes offset width value =
      .ok { b with code := overwrite b.code offset (Word.toBytes width value) } := by
  rw [writeBytes, checkAccess_eq hinside hrange]
  rfl

/-- What is written is found again, and all other bytes are as they were. -/
theorem writeBytes_frame {offset width value : Nat} (h : b.writeBytes offset width value = .ok b') :
    b'.code.length = b.code.length ∧
      (b'.code.drop offset).take width = Word.toBytes width value ∧
      ∀ p, ¬ (offset ≤ p ∧ p < offset + width) → b'.code[p]? = b.code[p]? := by
  obtain ⟨hroom, -, rfl⟩ := writeBytes_ok h
  have hwidth : (Word.toBytes width value).length = width := Word.length_toBytes ..
  have hroom : offset + (Word.toBytes width value).length ≤ b.code.length := by
    rw [hwidth]
    exact hroom
  have hslice := slice_overwrite hroom
  rw [hwidth] at hslice
  refine ⟨length_overwrite hroom, hslice, fun p hp => ?_⟩
  show (overwrite b.code offset _)[p]? = _
  rw [getElem?_overwrite hroom, hwidth, if_neg hp]

/-- Writing a word is an edit. -/
theorem write64_ok {value : UInt64} (h : b.write64 o value = .ok b') :
    let e : Edit := ⟨o, .fixed (Word.toBytes 8 value.toNat)⟩
    e.Fits b.base b.code.length ∧ b' = { b with code := e.apply b.base b.code } := by
  obtain ⟨_, hwidth, h⟩ := Checked.bind_ok h
  have hsize : o.size = 8 := require_ok hwidth
  obtain ⟨hle, hlt, rfl⟩ := writeBytes_ok h
  refine ⟨⟨?_, ?_, ?_, trivial⟩, rfl⟩
  · rw [Filling.bytes, Word.length_toBytes, hsize]
  · rw [hsize]; exact hle
  · rw [hsize]; exact hlt

/-- Writing the distance to an address is an edit. -/
theorem write32_distance_ok {target next : UInt64} {place : Nat} {d : Int}
    (hnext : b.codeAddress place = .ok next) (hd : Address.distance target next = .ok d)
    (h : b.write32 o d = .ok b') :
    let e : Edit := ⟨o, .distance target place⟩
    e.Fits b.base b.code.length ∧ b' = { b with code := e.apply b.base b.code } := by
  obtain ⟨_, hwidth, h⟩ := Checked.bind_ok h
  have hsize : o.size = 4 := require_ok hwidth
  obtain ⟨hle, hlt, rfl⟩ := writeBytes_ok h
  obtain ⟨rfl, -⟩ := Address.advance_ok hnext
  obtain ⟨hval, hfits⟩ := Address.distance_ok hd
  have hbytes : (Filling.distance target place).bytes b.base =
      Word.toBytes 4 (d % Word.limit32).toNat := by
    rw [Filling.bytes, Filling.distanceAt, ← hval]
  refine ⟨⟨?_, ?_, ?_, ?_⟩, ?_⟩
  · rw [Filling.bytes, Word.length_toBytes, hsize]
  · rw [hsize]; exact hle
  · rw [hsize]; exact hlt
  · rw [Filling.Fits, Filling.distanceAt, ← hval]
    exact hfits
  · rw [Edit.apply, hbytes]

/-- Writing a byte is an edit. -/
theorem write8_ok {offset : Nat} {value : UInt8} (h : b.write8 offset value = .ok b') :
    let e : Edit := ⟨⟨offset, 1⟩, .fixed [value]⟩
    e.Fits b.base b.code.length ∧ b' = { b with code := e.apply b.base b.code } := by
  obtain ⟨hle, hlt, rfl⟩ := writeBytes_ok h
  have hbyte : Word.toBytes 1 value.toNat = [value] := by
    rw [Word.toBytes, Word.toBytes, UInt8.ofNat_toNat]
  rw [hbyte]
  exact ⟨⟨rfl, hle, hlt, trivial⟩, rfl⟩

/-- Code is appended, or refused because it does not fit. -/
theorem copyCode_done {bytes : List UInt8} {out : Except Overflow Unit}
    (h : b.copyCode bytes = (out, b')) :
    (out = .ok () ∧ b.code.length + bytes.length ≤ b.layout.codeCapacity ∧
        b' = { b with code := b.code ++ bytes }) ∨
      (out = .error (.instructions (b.code.length + bytes.length) b.layout.codeCapacity) ∧
        b.layout.codeCapacity < b.code.length + bytes.length ∧ b' = b) := by
  simp only [copyCode] at h
  split at h
  · next hroom =>
      obtain ⟨rfl, rfl⟩ := Prod.mk.inj h
      exact Or.inl ⟨rfl, hroom, rfl⟩
  · next hfull =>
      obtain ⟨rfl, rfl⟩ := Prod.mk.inj h
      exact Or.inr ⟨rfl, Nat.lt_of_not_le hfull, rfl⟩

/-- A relocation is recorded, or refused because there is no room for another. -/
theorem relocate_done {offset : Nat} {kind : RelocationKind} {format : OperandFormat}
    {out : Except Overflow Unit} (h : b.relocate offset kind format = .ok (out, b')) :
    offset < b.code.length ∧
      ((out = .ok () ∧ b.relocations.length < b.layout.relocationCapacity ∧
          b' = { b with relocations := b.relocations ++ [⟨offset, kind, format⟩] }) ∨
        (out = .error (.relocations b.layout.relocationCapacity) ∧
          b.layout.relocationCapacity ≤ b.relocations.length ∧ b' = b)) := by
  obtain ⟨_, hinside, h⟩ := Checked.bind_ok h
  refine ⟨require_ok hinside, ?_⟩
  split at h
  · next hroom =>
      obtain ⟨rfl, rfl⟩ := Prod.mk.inj (Checked.pure_ok h)
      exact Or.inl ⟨rfl, hroom, rfl⟩
  · next hfull =>
      obtain ⟨rfl, rfl⟩ := Prod.mk.inj (Checked.pure_ok h)
      exact Or.inr ⟨rfl, Nat.le_of_not_lt hfull, rfl⟩

/-- A constant is appended, or refused because it does not fit. -/
theorem appendConstant_done {bytes : List UInt8} {alignment : Nat} {out : Except Overflow Nat}
    (h : b.appendConstant bytes alignment = .ok (out, b')) :
    ∃ place, b.constantOffset alignment = .ok place ∧
      ((out = .ok place ∧ place + bytes.length ≤ b.layout.constantsCapacity ∧
          b' = { b with constants :=
            b.constants ++ (List.replicate (place - b.constants.length) 0 ++ bytes) }) ∨
        (out = .error (.constants (place + bytes.length) b.layout.constantsCapacity) ∧
          b.layout.constantsCapacity < place + bytes.length ∧ b' = b)) := by
  obtain ⟨place, hplace, h⟩ := Checked.bind_ok h
  obtain ⟨needed, hneeded, h⟩ := Checked.bind_ok h
  obtain ⟨rfl, -⟩ := Size.add_ok hneeded
  refine ⟨place, hplace, ?_⟩
  split at h
  · next hroom =>
      obtain ⟨rfl, rfl⟩ := Prod.mk.inj (Checked.pure_ok h)
      rw [List.append_assoc]
      exact Or.inl ⟨rfl, hroom, rfl⟩
  · next hfull =>
      obtain ⟨rfl, rfl⟩ := Prod.mk.inj (Checked.pure_ok h)
      exact Or.inr ⟨rfl, Nat.lt_of_not_le hfull, rfl⟩

theorem copyCode_ok {bytes : List UInt8} (h : b.copyCode bytes = (.ok (), b')) :
    b' = { b with code := b.code ++ bytes } := by
  rcases copyCode_done h with ⟨-, -, hb'⟩ | ⟨he, -⟩
  · exact hb'
  · exact nomatch he

theorem relocate_ok {offset : Nat} {kind : RelocationKind} {format : OperandFormat}
    (h : b.relocate offset kind format = .ok (.ok (), b')) :
    b' = { b with relocations := b.relocations ++ [⟨offset, kind, format⟩] } := by
  rcases relocate_done h with ⟨-, ⟨-, -, hb'⟩ | ⟨he, -⟩⟩
  · exact hb'
  · exact nomatch he

theorem appendConstant_ok {bytes : List UInt8} {alignment offset : Nat}
    (h : b.appendConstant bytes alignment = .ok (.ok offset, b')) :
    b.constantOffset alignment = .ok offset ∧
      b' = { b with constants :=
        b.constants ++ (List.replicate (offset - b.constants.length) 0 ++ bytes) } := by
  obtain ⟨place, hplace, ⟨hoffset, -, hb'⟩ | ⟨he, -⟩⟩ := appendConstant_done h
  · obtain rfl := Except.ok.inj hoffset
    exact ⟨hplace, hb'⟩
  · exact nomatch he

/-- A relocation recorded just now is the one whose kind is changed. -/
theorem changeKind_ok {offset : Nat} {old new : RelocationKind} {format : OperandFormat}
    {records : List Relocation} (hb : b.relocations = records ++ [⟨offset, old, format⟩])
    (h : b.changeKind offset old new = .ok b') :
    b' = { b with relocations := records ++ [⟨offset, new, format⟩] } := by
  unfold changeKind at h
  rw [hb, List.reverse_append, List.reverse_singleton, List.singleton_append, rekindFirst,
    if_pos ⟨rfl, rfl⟩] at h
  obtain rfl := Except.ok.inj h
  simp only [List.reverse_cons, List.reverse_reverse]

end Blob

end ManagedCode
