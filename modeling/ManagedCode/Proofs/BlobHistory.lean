import Mathlib.Data.List.Basic
import ManagedCode.Proofs.Placement
import ManagedCode.Proofs.RelocationRoom
import ManagedCode.Proofs.Targets

/-! # Histories of a blob

    A blob is filled by calls in any order, with offsets, alignments and sizes that the caller
    chooses, and some of them are refused for want of room.  Whatever the history: nothing outgrows
    its capacity, relocations are within the code, constants stay where they were put with zeros
    between them, and what was written into the code is read back until one of its bytes is written
    again.

* **`Blob.Run`** — calls one after the other, each with the blob it met and its answer.
* **`Blob.Step`** — what one call that ends can do; **`Blob.perform_step`** says that it is all.
* **`Blob.Consistent`** — the invariant of the sections, kept by a call (**`Consistent.step`**) and
  so by a run (**`Consistent.run`**).
* **`Written.In`** — a value in the code, which every call keeps whose bytes are others.
* **`Blob.sections_follow_history`** — what any history leaves. -/

namespace ManagedCode

-- ── Calls ───────────────────────────────────────────────────────────────────────

/-- A value that is written into the code. -/
inductive Written where
  | byte (offset : Nat) (value : UInt8)
  | word32 (o : Operand) (value : Int32)
  | word64 (o : Operand) (value : UInt64)

namespace Written

def offset : Written → Nat
  | byte offset _ => offset
  | word32 o _ => o.offset
  | word64 o _ => o.offset

/-- How many bytes a value takes. -/
def width : Written → Nat
  | byte _ _ => 1
  | word32 _ _ => 4
  | word64 _ _ => 8

/-- A byte of the code is one of those of the value. -/
def Covers (w : Written) (p : Nat) : Prop := w.offset ≤ p ∧ p < w.offset + w.width

/-- Writes the value into the code. -/
def store (b : Blob) : Written → Checked Blob
  | byte offset value => b.write8 offset value
  | word32 o value => b.write32 o value.toInt
  | word64 o value => b.write64 o value

/-- The bytes of a value. -/
def bytes : Written → List UInt8
  | byte _ value => Word.toBytes 1 value.toNat
  | word32 _ value => Word.toBytes 4 (value.toInt % Word.limit32).toNat
  | word64 _ value => Word.toBytes 8 value.toNat

/-- The operand is as wide as the value. -/
def Sized : Written → Prop
  | byte _ _ => True
  | word32 o _ => o.size = 4
  | word64 o _ => o.size = 8

/-- The code holds the value. -/
structure In (code : List UInt8) (w : Written) : Prop where
  sized : w.Sized
  inside : w.offset + w.width ≤ code.length
  inRange : w.offset + w.width < Word.limit
  bytes : (code.drop w.offset).take w.width = w.bytes

/-- What is read where the value was written is the value. -/
def ReadBack (b : Blob) : Written → Prop
  | byte offset value => b.read8 offset = .ok value
  | word32 o value => b.read32 o = .ok value.toInt
  | word64 o value => b.read64 o = .ok value

end Written

namespace Blob

/-- What can be asked of a blob. -/
inductive Call where
  | copyCode (bytes : List UInt8)
  | appendConstant (bytes : List UInt8) (alignment : Nat)
  | relocate (offset : Nat) (kind : RelocationKind) (format : OperandFormat)
  | changeKind (offset : Nat) (old new : RelocationKind)
  | write (w : Written)
  | moveTo (newBase : UInt64)

/-- The answer to a call: it went through, with the offset of a constant, or it was refused. -/
abbrev Answer := Except Overflow (Option Nat)

/-- One call to a blob: its answer, and the blob that it leaves, be it refused or not. -/
def perform (b : Blob) : Call → Checked (Answer × Blob)
  | .copyCode bytes =>
      let (result, b') := b.copyCode bytes
      return (result.map fun _ => none, b')
  | .appendConstant bytes alignment => do
      let (result, b') ← b.appendConstant bytes alignment
      return (result.map some, b')
  | .relocate offset kind format => do
      let (result, b') ← b.relocate offset kind format
      return (result.map fun _ => none, b')
  | .changeKind offset old new => do return (.ok none, ← b.changeKind offset old new)
  | .write w => do return (.ok none, ← w.store b)
  | .moveTo newBase => do return (.ok none, ← b.moveTo newBase)

/-- A call, the blob that it met, and its answer. -/
structure Event where
  before : Blob
  call : Call
  answer : Answer

/-- Calls that ended, one after the other. -/
inductive Run : Blob → List Event → Blob → Prop
  | done {b : Blob} : Run b [] b
  | call {b b₁ b' : Blob} {call : Call} {answer : Answer} {events : List Event}
      (h : b.perform call = .ok (answer, b₁)) (hrest : Run b₁ events b') :
      Run b (⟨b, call, answer⟩ :: events) b'

/-- A move rewrites the byte at `p`: it is in the operand of one of the positional relocations, as
    the code is when this relocation has its turn. -/
inductive Retargets (newBase : UInt64) (p : Nat) : List Relocation → Blob → Prop
  | here {b : Blob} {r : Relocation} {rest : List Relocation} {i : Instruction} {o : Operand}
      (hr : r.isPositional = true) (hi : b.instructionAt r.offset = .ok i)
      (ho : positionalOperand r i = .ok o) (hp : o.offset ≤ p ∧ p < o.offset + 4) :
      Retargets newBase p (r :: rest) b
  | later {b b' : Blob} {r : Relocation} {rest : List Relocation}
      (hstep : retarget newBase b r = .ok b') (h : Retargets newBase p rest b') :
      Retargets newBase p (r :: rest) b

/-- A call writes the byte at `p` of the code. -/
def Event.Writes (e : Event) (p : Nat) : Prop :=
  match e.call with
  | .copyCode bytes => e.before.code.length ≤ p ∧ p < e.before.code.length + bytes.length
  | .write w => w.Covers p
  | .moveTo newBase => Retargets newBase p e.before.relocations e.before
  | _ => False

/-- Bytes among the constants. -/
structure Datum where
  offset : Nat
  bytes : List UInt8

/-- A byte of the constants is one of those of the datum. -/
def Datum.Covers (c : Datum) (p : Nat) : Prop := c.offset ≤ p ∧ p < c.offset + c.bytes.length

/-- The bytes that a call put among the constants, where it answered that they are. -/
def Event.datum? (e : Event) : Option Datum :=
  match e.call, e.answer with
  | .appendConstant bytes _, .ok (some offset) => some ⟨offset, bytes⟩
  | _, _ => none

-- ── What a call can do ──────────────────────────────────────────────────────────

/-- What a call needs is more than a capacity leaves. -/
inductive Exceeds (b : Blob) : Call → Overflow → Prop
  | code {bytes : List UInt8} (h : b.layout.codeCapacity < b.code.length + bytes.length) :
      Exceeds b (.copyCode bytes)
        (.instructions (b.code.length + bytes.length) b.layout.codeCapacity)
  | constants {bytes : List UInt8} {alignment place : Nat}
      (hplace : b.constantOffset alignment = .ok place)
      (h : b.layout.constantsCapacity < place + bytes.length) :
      Exceeds b (.appendConstant bytes alignment)
        (.constants (place + bytes.length) b.layout.constantsCapacity)
  | relocations {offset : Nat} {kind : RelocationKind} {format : OperandFormat}
      (h : b.layout.relocationCapacity ≤ b.relocations.length) :
      Exceeds b (.relocate offset kind format) (.relocations b.layout.relocationCapacity)

/-- The ways in which a call ends: it does what it is asked, within the capacities and the code, or
    it is refused and does nothing. -/
inductive Step (b : Blob) : Call → Answer → Blob → Prop
  | copied {bytes : List UInt8} (hroom : b.code.length + bytes.length ≤ b.layout.codeCapacity) :
      Step b (.copyCode bytes) (.ok none) { b with code := b.code ++ bytes }
  | appended {bytes : List UInt8} {alignment offset : Nat} (hbehind : b.constants.length ≤ offset)
      (hroom : offset + bytes.length ≤ b.layout.constantsCapacity) :
      Step b (.appendConstant bytes alignment) (.ok (some offset))
        { b with constants :=
          b.constants ++ (List.replicate (offset - b.constants.length) 0 ++ bytes) }
  | relocated {offset : Nat} {kind : RelocationKind} {format : OperandFormat}
      (hinside : offset < b.code.length)
      (hroom : b.relocations.length < b.layout.relocationCapacity) :
      Step b (.relocate offset kind format) (.ok none)
        { b with relocations := b.relocations ++ [⟨offset, kind, format⟩] }
  | rekinded {offset : Nat} {old new : RelocationKind} {relocations : List Relocation}
      (hoffsets : relocations.map Relocation.offset = b.relocations.map Relocation.offset) :
      Step b (.changeKind offset old new) (.ok none) { b with relocations }
  | written {w : Written} {code : List UInt8} (hin : w.In code)
      (hlength : code.length = b.code.length)
      (hothers : ∀ p, ¬ w.Covers p → code[p]? = b.code[p]?) :
      Step b (.write w) (.ok none) { b with code }
  | moved {newBase : UInt64} {code : List UInt8} (hlength : code.length = b.code.length)
      (hothers : ∀ p, ¬ Retargets newBase p b.relocations b → code[p]? = b.code[p]?) :
      Step b (.moveTo newBase) (.ok none) { b with code, base := newBase }
  | refused {call : Call} {e : Overflow} (hfull : b.Exceeds call e) : Step b call (.error e) b

-- ── Bytes that stay ─────────────────────────────────────────────────────────────

/-- A relocation keeps the bytes that are not in its operand. -/
theorem retarget_others {newBase : UInt64} {b b' : Blob} {r : Relocation} {p : Nat}
    (h : retarget newBase b r = .ok b')
    (hp : ∀ i o, r.isPositional = true → b.instructionAt r.offset = .ok i →
      positionalOperand r i = .ok o → ¬ (o.offset ≤ p ∧ p < o.offset + 4)) :
    b'.code[p]? = b.code[p]? := by
  rcases retarget_done h with rfl | ⟨i, o, distance, hr, hi, ho, hwrite⟩
  · rfl
  · obtain ⟨_, -, hwrite⟩ := Checked.bind_ok hwrite
    exact (writeBytes_frame hwrite).2.2 p (hp i o hr hi ho)

/-- A move keeps the bytes that are in none of the operands. -/
theorem foldlM_retarget_others {newBase : UInt64} {records : List Relocation} {b b' : Blob}
    {p : Nat} (h : records.foldlM (retarget newBase) b = .ok b')
    (hp : ¬ Retargets newBase p records b) : b'.code[p]? = b.code[p]? := by
  induction records generalizing b with
  | nil =>
      obtain rfl := Checked.pure_ok h
      rfl
  | cons r rest ih =>
      obtain ⟨b₁, hstep, hrest⟩ := Checked.bind_ok h
      rw [ih hrest fun hlater => hp (.later hstep hlater)]
      exact retarget_others hstep fun i o hr hi ho hin => hp (.here hr hi ho hin)

theorem checkWidth_of_eq {o : Operand} {width : Nat} (h : o.size = width) :
    checkWidth o width = .ok () := require_met h

end Blob

namespace Written

variable {w : Written} {b b' : Blob}

/-- A value that is written is in the code, and no other byte is changed. -/
theorem store_ok (h : w.store b = .ok b') :
    w.In b'.code ∧ b'.code.length = b.code.length ∧
      (∀ p, ¬ w.Covers p → b'.code[p]? = b.code[p]?) ∧ b' = { b with code := b'.code } := by
  have hwrite : w.Sized ∧ ∃ value, b.writeBytes w.offset w.width value = .ok b' ∧
      Word.toBytes w.width value = w.bytes := by
    cases w with
    | byte offset value => exact ⟨trivial, _, h, rfl⟩
    | word32 o value =>
        obtain ⟨_, hwidth, h⟩ := Checked.bind_ok h
        have hwidth : o.size = 4 := require_ok hwidth
        exact ⟨hwidth, _, h, rfl⟩
    | word64 o value =>
        obtain ⟨_, hwidth, h⟩ := Checked.bind_ok h
        have hwidth : o.size = 8 := require_ok hwidth
        exact ⟨hwidth, _, h, rfl⟩
  obtain ⟨hsized, value, hwrite, hbytes⟩ := hwrite
  obtain ⟨hlength, hslice, hothers⟩ := Blob.writeBytes_frame hwrite
  obtain ⟨hinside, hrange, rfl⟩ := Blob.writeBytes_ok hwrite
  exact ⟨⟨hsized, hlength.symm ▸ hinside, hrange, hslice.trans hbytes⟩, hlength, hothers, rfl⟩

/-- A value stays in code that keeps its bytes. -/
theorem In.keep {code code' : List UInt8} (h : w.In code) (hlength : code.length ≤ code'.length)
    (hbytes : ∀ p, w.Covers p → code'[p]? = code[p]?) : w.In code' := by
  refine ⟨h.sized, Nat.le_trans h.inside hlength, h.inRange, ?_⟩
  rw [← h.bytes]
  exact Blob.slice_congr fun p hlo hhi => hbytes p ⟨hlo, hhi⟩

/-- **A value that the code holds is read back.** -/
theorem In.readBack (h : w.In b.code) : w.ReadBack b := by
  have hread : b.readBytes w.offset w.width = .ok (Word.ofBytes w.bytes) := by
    rw [Blob.readBytes, Blob.checkAccess_eq h.inside h.inRange, ← h.bytes]
    rfl
  cases w with
  | byte offset value =>
      change b.readBytes offset 1 = .ok (Word.ofBytes (Word.toBytes 1 value.toNat)) at hread
      rw [Word.ofBytes_toBytes, Nat.mod_eq_of_lt (show _ < 256 ^ 1 from value.toNat_lt)] at hread
      show b.readBytes offset 1 >>= _ = _
      rw [hread]
      exact congrArg Except.ok UInt8.ofNat_toNat
  | word32 o value =>
      show Blob.checkWidth o 4 >>= _ = _
      rw [Blob.checkWidth_of_eq h.sized]
      show b.readBytes o.offset 4 >>= _ = _
      rw [show b.readBytes o.offset 4 = _ from hread]
      refine congrArg Except.ok ((Word.signed32_ofBytes_toBytes _).trans ?_)
      exact value.toBitVec.toInt_bmod_cancel
  | word64 o value =>
      change b.readBytes o.offset 8 = .ok (Word.ofBytes (Word.toBytes 8 value.toNat)) at hread
      rw [Word.ofBytes_toBytes, Nat.mod_eq_of_lt (show _ < 256 ^ 8 from value.toNat_lt)] at hread
      show Blob.checkWidth o 8 >>= _ = _
      rw [Blob.checkWidth_of_eq h.sized]
      show b.readBytes o.offset 8 >>= _ = _
      rw [hread]
      exact congrArg Except.ok UInt64.ofNat_toNat

end Written

namespace Blob

variable {layout : Layout} {base : UInt64} {b b' : Blob} {call : Call} {answer : Answer}

-- ── One call ────────────────────────────────────────────────────────────────────

/-- **A call does what it is asked, or nothing.** -/
theorem perform_step (h : b.perform call = .ok (answer, b')) : Step b call answer b' := by
  cases call with
  | copyCode bytes =>
      rcases hcopy : b.copyCode bytes with ⟨out, left⟩
      rw [perform, hcopy] at h
      obtain ⟨rfl, rfl⟩ := Prod.mk.inj (Checked.pure_ok h)
      obtain ⟨rfl, hroom, rfl⟩ | ⟨rfl, hfull, rfl⟩ := copyCode_done hcopy
      · exact .copied hroom
      · exact .refused (.code hfull)
  | appendConstant bytes alignment =>
      obtain ⟨⟨out, left⟩, happend, h⟩ := Checked.bind_ok h
      obtain ⟨rfl, rfl⟩ := Prod.mk.inj (Checked.pure_ok h)
      obtain ⟨place, hplace, ⟨rfl, hroom, rfl⟩ | ⟨rfl, hfull, rfl⟩⟩ := appendConstant_done happend
      · exact .appended (le_constantOffset hplace) hroom
      · exact .refused (.constants hplace hfull)
  | relocate offset kind format =>
      obtain ⟨⟨out, left⟩, hrelocate, h⟩ := Checked.bind_ok h
      obtain ⟨rfl, rfl⟩ := Prod.mk.inj (Checked.pure_ok h)
      obtain ⟨hinside, ⟨rfl, hroom, rfl⟩ | ⟨rfl, hfull, rfl⟩⟩ := relocate_done hrelocate
      · exact .relocated hinside hroom
      · exact .refused (.relocations hfull)
  | changeKind offset old new =>
      obtain ⟨b₁, hchange, h⟩ := Checked.bind_ok h
      obtain ⟨rfl, rfl⟩ := Prod.mk.inj (Checked.pure_ok h)
      obtain ⟨hframe, hoffsets⟩ := changeKind_offsets hchange
      rw [hframe]
      exact .rekinded hoffsets
  | write w =>
      obtain ⟨b₁, hstore, h⟩ := Checked.bind_ok h
      obtain ⟨rfl, rfl⟩ := Prod.mk.inj (Checked.pure_ok h)
      obtain ⟨hin, hlength, hothers, hframe⟩ := w.store_ok hstore
      rw [hframe]
      exact .written hin hlength hothers
  | moveTo newBase =>
      obtain ⟨b₁, hmove, h⟩ := Checked.bind_ok h
      obtain ⟨rfl, rfl⟩ := Prod.mk.inj (Checked.pure_ok h)
      rw [moveTo_frame hmove]
      refine .moved (length_moveTo hmove) fun p hp => ?_
      obtain ⟨b₂, hfold, hmove⟩ := Checked.bind_ok hmove
      obtain rfl := Checked.pure_ok hmove
      have hothers := foldlM_retarget_others hfold hp
      exact hothers

-- ── The sections ────────────────────────────────────────────────────────────────

/-- The constants hold the data where they were put, one behind the other, and zeros between. -/
structure HoldsData (data : List Datum) (constants : List UInt8) : Prop where
  found : ∀ c ∈ data, c.offset + c.bytes.length ≤ constants.length ∧
    (constants.drop c.offset).take c.bytes.length = c.bytes
  ordered : data.Pairwise fun c c' => c.offset + c.bytes.length ≤ c'.offset
  between : ∀ p < constants.length, (∀ c ∈ data, ¬ c.Covers p) → constants[p]? = some 0

/-- What is appended behind a padding of zeros leaves the data in front as they are. -/
theorem HoldsData.append {data : List Datum} {constants bytes : List UInt8} {offset : Nat}
    (h : HoldsData data constants) (hbehind : constants.length ≤ offset) :
    HoldsData (data ++ [⟨offset, bytes⟩])
      (constants ++ (List.replicate (offset - constants.length) 0 ++ bytes)) := by
  have hpadded : (constants ++ List.replicate (offset - constants.length) (0 : UInt8)).length =
      offset := by
    rw [List.length_append, List.length_replicate]
    omega
  have hlength : (constants ++ (List.replicate (offset - constants.length) 0 ++ bytes)).length =
      offset + bytes.length := by
    rw [← List.append_assoc, List.length_append, hpadded]
  refine ⟨List.forall_mem_append.mpr ⟨fun c hc => ?_, List.forall_mem_singleton.mpr ?_⟩, ?_,
    fun p hp hfree => ?_⟩
  · obtain ⟨hinside, hfound⟩ := h.found c hc
    refine ⟨by omega, ?_⟩
    rw [List.drop_append_of_le_length (by omega), List.take_append_of_le_length, hfound]
    rw [List.length_drop]
    omega
  · refine ⟨Nat.le_of_eq hlength.symm, ?_⟩
    rw [← List.append_assoc, List.drop_left' hpadded, List.take_length]
  · refine List.pairwise_append.mpr ⟨h.ordered, List.pairwise_singleton .., ?_⟩
    intro c hc c' hc'
    rw [List.mem_singleton.mp hc']
    exact Nat.le_trans (h.found c hc).1 hbehind
  · obtain ⟨hbefore, hnew⟩ := List.forall_mem_append.mp hfree
    have hnew := List.forall_mem_singleton.mp hnew
    by_cases hold : p < constants.length
    · rw [List.getElem?_append_left hold]
      exact h.between p hold hbefore
    · have hpadding : p < offset := by
        rw [hlength] at hp
        exact Nat.lt_of_not_le fun hle => hnew ⟨hle, hp⟩
      rw [← List.append_assoc, List.getElem?_append_left (by rw [hpadded]; exact hpadding),
        List.getElem?_append_right (by omega), List.getElem?_replicate, if_pos (by omega)]

/-- **What every call keeps**, of a blob with the given layout and data. -/
structure Consistent (layout : Layout) (data : List Datum) (b : Blob) : Prop where
  layout_eq : b.layout = layout
  code : b.code.length ≤ layout.codeCapacity
  constants : b.constants.length ≤ layout.constantsCapacity
  relocations : b.relocations.length ≤ layout.relocationCapacity
  inside : ∀ r ∈ b.relocations, r.offset < b.code.length
  data : HoldsData data b.constants

namespace Consistent

variable {data : List Datum}

theorem empty (layout : Layout) (base : UInt64) : Consistent layout [] (.empty layout base) :=
  ⟨rfl, Nat.zero_le _, Nat.zero_le _, Nat.zero_le _, nofun, nofun, .nil, nofun⟩

/-- A change of the code, and of the kinds of relocations, keeps the sections. -/
theorem of_offsets (h : Consistent layout data b) (hlayout : b'.layout = b.layout)
    (hconstants : b'.constants = b.constants) (hgrows : b.code.length ≤ b'.code.length)
    (hroom : b'.code.length ≤ b.layout.codeCapacity)
    (hoffsets : b'.relocations.map Relocation.offset = b.relocations.map Relocation.offset) :
    Consistent layout data b' := by
  have hcount := congrArg List.length hoffsets
  rw [List.length_map, List.length_map] at hcount
  refine ⟨hlayout.trans h.layout_eq, h.layout_eq ▸ hroom, hconstants ▸ h.constants,
    hcount ▸ h.relocations, fun r hr => ?_, hconstants ▸ h.data⟩
  have hr := List.mem_map_of_mem (f := Relocation.offset) hr
  rw [hoffsets] at hr
  obtain ⟨r', hr', heq⟩ := List.mem_map.mp hr
  rw [← heq]
  exact Nat.lt_of_lt_of_le (h.inside r' hr') hgrows

/-- **One call**: the data are those that it adds to. -/
theorem step (h : Consistent layout data b) (hstep : Step b call answer b') :
    Consistent layout (data ++ (Event.datum? ⟨b, call, answer⟩).toList) b' := by
  have hcode : b.code.length ≤ b.layout.codeCapacity := h.layout_eq ▸ h.code
  have hnone (hdatum : Event.datum? ⟨b, call, answer⟩ = none) (h' : Consistent layout data b') :
      Consistent layout (data ++ (Event.datum? ⟨b, call, answer⟩).toList) b' := by
    rw [hdatum, Option.toList_none, List.append_nil]
    exact h'
  cases hstep with
  | copied hroom =>
      rw [← List.length_append] at hroom
      refine hnone rfl (h.of_offsets rfl rfl ?_ hroom rfl)
      rw [List.length_append]
      exact Nat.le_add_right ..
  | appended hbehind hroom =>
      refine ⟨h.layout_eq, h.code, ?_, h.relocations, h.inside, h.data.append hbehind⟩
      rw [List.length_append, List.length_append, List.length_replicate, ← h.layout_eq]
      omega
  | relocated hinside hroom =>
      refine hnone rfl ⟨h.layout_eq, h.code, h.constants, ?_, ?_, h.data⟩
      · rw [List.length_append, ← h.layout_eq]
        exact hroom
      · exact List.forall_mem_append.mpr ⟨h.inside, List.forall_mem_singleton.mpr hinside⟩
  | rekinded hoffsets => exact hnone rfl (h.of_offsets rfl rfl (Nat.le_refl _) hcode hoffsets)
  | written hin hlength hothers =>
      exact hnone rfl (h.of_offsets rfl rfl (Nat.le_of_eq hlength.symm) (hlength ▸ hcode) rfl)
  | moved hlength hothers =>
      exact hnone rfl (h.of_offsets rfl rfl (Nat.le_of_eq hlength.symm) (hlength ▸ hcode) rfl)
  | refused hfull => exact hnone (by cases call <;> rfl) h

/-- **A run**, by induction on its calls. -/
theorem run {events : List Event} (h : Consistent layout data b) (hrun : Run b events b') :
    Consistent layout (data ++ events.filterMap Event.datum?) b' := by
  induction hrun generalizing data with
  | done => exact (List.append_nil data).symm ▸ h
  | call hcall hrest ih =>
      have hrest := ih (h.step (perform_step hcall))
      rw [List.append_assoc] at hrest
      rw [List.filterMap_eq_flatMap_toList, List.flatMap_cons, ← List.filterMap_eq_flatMap_toList]
      exact hrest

/-- The constants begin behind the code. -/
theorem le_constantsStart (h : Consistent layout data b) {start : Nat}
    (hstart : b.constantsStart = .ok start) : b.code.length ≤ start := by
  have hcode : b.code.length ≤ b.layout.codeCapacity := h.layout_eq ▸ h.code
  exact Nat.le_trans hcode (Size.alignUp_ok hstart).2.2.1

end Consistent

/-- The constants begin somewhere, as long as there are addresses. -/
theorem exists_constantsStart (hpower : Size.isPowerOfTwo b.layout.constantsAlignment = true)
    (hroom : b.layout.codeCapacity + b.layout.constantsAlignment < Word.limit) :
    ∃ start, b.constantsStart = .ok start := by
  rw [constantsStart, Size.alignUp, require_met hpower, Checked.ok_bind, Size.add_of_lt hroom]
  exact ⟨_, rfl⟩

-- ── The code ────────────────────────────────────────────────────────────────────

/-- Code is never taken away. -/
theorem Step.grows (h : Step b call answer b') : b.code.length ≤ b'.code.length := by
  cases h with
  | copied hroom =>
      rw [List.length_append]
      exact Nat.le_add_right ..
  | written hin hlength hothers => exact Nat.le_of_eq hlength.symm
  | moved hlength hothers => exact Nat.le_of_eq hlength.symm
  | appended | relocated | rekinded | refused => exact Nat.le_refl _

/-- **What a call does not write, it keeps.** -/
theorem Step.others (h : Step b call answer b') {p : Nat} (hp : p < b.code.length)
    (hfree : ¬ Event.Writes ⟨b, call, answer⟩ p) : b'.code[p]? = b.code[p]? := by
  cases h with
  | copied hroom => exact List.getElem?_append_left hp
  | written hin hlength hothers => exact hothers p hfree
  | moved hlength hothers => exact hothers p hfree
  | appended | relocated | rekinded | refused => rfl

/-- A value stays in the code as long as none of its bytes is written. -/
theorem Run.holds {w : Written} {events : List Event} (hrun : Run b events b')
    (h : w.In b.code) (hfree : ∀ e ∈ events, ∀ p, w.Covers p → ¬ e.Writes p) : w.In b'.code := by
  induction hrun with
  | done => exact h
  | call hcall hrest ih =>
      obtain ⟨hfirst, hfree⟩ := List.forall_mem_cons.mp hfree
      have hstep := perform_step hcall
      refine ih (h.keep hstep.grows fun p hp => hstep.others ?_ (hfirst p hp)) hfree
      exact Nat.lt_of_lt_of_le hp.2 h.inside

/-- A run goes on behind each of its calls. -/
theorem Run.split {before after : List Event} {e : Event} (h : Run b (before ++ e :: after) b') :
    ∃ b₁, e.before.perform e.call = .ok (e.answer, b₁) ∧ Run b₁ after b' := by
  induction before generalizing b with
  | nil =>
      cases h with
      | call hcall hrest => exact ⟨_, hcall, hrest⟩
  | cons first rest ih =>
      cases h with
      | call hcall hrest => exact ih hrest

/-- **The sections follow the history.** Whatever is asked of a blob, in whatever order: code,
    constants and relocations stay within their capacities, every relocation is within the code, and
    the code ends before the constants begin. A call that is refused changes nothing. What was put
    among the constants is found at the offset that was answered, each behind the one before, and
    all other bytes there are zero. A value written into the code is read back as long as none of
    its bytes is written by a later call. -/
theorem sections_follow_history {events : List Event}
    (hpower : Size.isPowerOfTwo layout.constantsAlignment = true)
    (h : Run (.empty layout base) events b) :
    b.code.length ≤ layout.codeCapacity ∧
    b.constants.length ≤ layout.constantsCapacity ∧
    b.relocations.length ≤ layout.relocationCapacity ∧
    (∀ r ∈ b.relocations, r.offset < b.code.length) ∧
    (layout.codeCapacity + layout.constantsAlignment < Word.limit →
      ∃ start, b.constantsStart = .ok start) ∧
    (∀ start, b.constantsStart = .ok start → b.code.length ≤ start) ∧
    (∀ call e b', b.perform call = .ok (.error e, b') → b' = b ∧ b.Exceeds call e) ∧
    HoldsData (events.filterMap Event.datum?) b.constants ∧
    ∀ before met w answer after, events = before ++ ⟨met, .write w, answer⟩ :: after →
      (∀ e ∈ after, ∀ p, w.Covers p → ¬ e.Writes p) → w.ReadBack b := by
  have hb := (Consistent.empty layout base).run h
  refine ⟨hb.code, hb.constants, hb.relocations, hb.inside, fun hroom => ?_,
    fun start => hb.le_constantsStart, fun call e b' hrefused => ?_, hb.data,
    fun before met w answer after hevents hfree => ?_⟩
  · rw [← hb.layout_eq] at hpower hroom
    exact exists_constantsStart hpower hroom
  · cases perform_step hrefused with
    | refused hfull => exact ⟨rfl, hfull⟩
  · subst hevents
    obtain ⟨b₁, hcall, hrest⟩ := h.split
    cases perform_step hcall with
    | written hin hlength hothers => exact (hrest.holds hin hfree).readBack
    | refused hfull => exact nomatch hfull

-- ── A call that moves ───────────────────────────────────────────────────────────

/-- A call with four bytes behind it, two constants with padding between, and the call's record. -/
def sampleFilled : Blob where
  layout := ⟨16, 16, 16, 2⟩
  code := [0xe8, 0, 0, 0, 0, 0xfe, 0xff, 0xff, 0xff]
  constants := [1, 0, 0, 0, 0, 0, 0, 0, 7, 7]
  relocations := [⟨0, .runtimeCall, .call32⟩]
  base := 0x1000

/-- The operand of the call. -/
theorem sampleFilled_operand {i : Instruction} {o : Operand}
    (hi : sampleFilled.instructionAt 0 = .ok i)
    (ho : positionalOperand ⟨0, .runtimeCall, .call32⟩ i = .ok o) : o = ⟨1, 4⟩ := by
  have hoperand : (sampleFilled.instructionAt 0 >>=
      positionalOperand ⟨0, .runtimeCall, .call32⟩) = .ok ⟨1, 4⟩ := rfl
  rw [hi] at hoperand
  exact Except.ok.inj (ho.symm.trans hoperand)

/-- The number behind the call survives the move, and so do the constants. -/
theorem sections_follow_history_sample : ∃ events b,
    Run (.empty ⟨16, 16, 16, 2⟩ 0x1000) events b ∧ b.base = 0x2000 ∧
    b.read32 ⟨5, 4⟩ = .ok (-2) ∧ (b.constants.drop 8).take 2 = [7, 7] ∧
    b.constants[3]? = some 0 ∧ ∃ start, b.constantsStart = .ok start ∧ b.code.length ≤ start := by
  have hrun : Run (.empty ⟨16, 16, 16, 2⟩ 0x1000) _ _ :=
    @Run.call _ _ _ (.copyCode [0xe8, 0, 0, 0, 0, 0x90, 0x90, 0x90, 0x90]) _ _ rfl <|
    @Run.call _ _ _ (.appendConstant [1] 0) _ _ rfl <|
    @Run.call _ _ _ (.appendConstant [7, 7] 8) _ _ rfl <|
    @Run.call _ _ _ (.relocate 0 .runtimeCall .call32) _ _ rfl <|
    @Run.call _ sampleFilled _ (.write (.word32 ⟨5, 4⟩ (-2))) _ _ rfl <|
    @Run.call _ _ _ (.moveTo 0x2000) _ _ rfl .done
  obtain ⟨-, -, -, -, hstart, hbehind, -, hdata, hread⟩ := sections_follow_history rfl hrun
  obtain ⟨start, hstart⟩ := hstart (by decide)
  refine ⟨_, _, hrun, rfl, hread [_, _, _, _] _ _ _ _ rfl ?_, ?_, hdata.between 3 (by decide) ?_,
    start, hstart, hbehind _ hstart⟩
  · refine List.forall_mem_singleton.mpr fun p hp hwrites => ?_
    cases hwrites with
    | here hr hi ho hin =>
        obtain rfl := sampleFilled_operand hi ho
        exact absurd hp.1 (Nat.not_le_of_lt hin.2)
    | later hstep h => exact nomatch h
  · exact (hdata.found ⟨8, [7, 7]⟩ (List.mem_cons_of_mem _ (List.mem_cons_self ..))).2
  · refine List.forall_mem_cons.mpr ⟨?_, List.forall_mem_singleton.mpr ?_⟩
    · exact fun h => absurd h.2 (by decide)
    · exact fun h => absurd h.1 (by decide)

end Blob

end ManagedCode
