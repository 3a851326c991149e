import ManagedCode.Proofs.Bytes
import ManagedCode.Proofs.Steps

/-! # Decoding and patching

    The bytes of a head fix everything the installer knows of an instruction, so an operand can be
    replaced without changing what is decoded.  And no instruction has two operands that could
    be patched: the target of a branch, a wide immediate and a displacement of four bytes are each
    the first operand behind the head.

    This is all that the installer relies on, whatever instructions there are.  So it is gathered in
    the laws of a decoder, and only this module shows them of the tables of opcodes.

* **`Instruction.at?`** is the decoder without its checks of addresses.
* **`Instruction.DecoderLaws`** — what is relied on of a decoder, and **`at?_laws`**, that it holds.
* **`Instruction.firstOperand`** — the one operand that can be patched, where
  `branchOperand_eq`, `displacement32_eq` and `immediate64_eq` meet. -/

namespace ManagedCode

-- ── Forms ───────────────────────────────────────────────────────────────────────

/-- Whether an immediate takes at most four bytes, whatever the modifiers. -/
def Immediate.isNarrow : Immediate → Bool
  | fixed size => size ≤ 4
  | full => false
  | _ => true

theorem Immediate.size_le {i : Immediate} (h : i.isNarrow) (m : Modifiers) (member : Nat) :
    i.size m member ≤ 4 := by
  cases i with
  | absent => exact Nat.zero_le _
  | fixed size => exact of_decide_eq_true h
  | operand => rw [size]; split <;> omega
  | full => exact nomatch h
  | groupByte => rw [size]; split <;> omega
  | groupOperand =>
      rw [size]
      repeat' split
      all_goals omega

namespace Form

/-- Branches and loads have no addressing bytes, a branch has an immediate of four bytes, and only
    a load may have a wider one. -/
def isRegular (f : Form) : Bool :=
  match f.role with
  | .call | .jump => !f.addressed && f.immediate == .fixed 4
  | .load _ => !f.addressed
  | _ => f.immediate.isNarrow

theorem all_ite {q : Form → Bool} {p : Prop} [Decidable p] {a b : Option Form}
    (ha : a.all q) (hb : b.all q) : (if p then a else b).all q := by
  by_cases hp : p
  · rw [if_pos hp]; exact ha
  · rw [if_neg hp]; exact hb

theorem all_isRegular_arithmetic (opcode : Nat) : (arithmetic opcode).all isRegular := by
  unfold arithmetic
  split <;> rfl

-- the tables are long chains of conditions, so they are walked lemma by lemma and not split
theorem all_isRegular_ofOpcode (opcode : Nat) : (ofOpcode opcode).all isRegular := by
  unfold ofOpcode
  refine all_ite (all_isRegular_arithmetic opcode) ?_
  repeat' apply all_ite
  all_goals rfl

theorem all_isRegular_ofEscaped (opcode : Nat) : (ofEscaped opcode).all isRegular := by
  unfold ofEscaped
  repeat' apply all_ite
  all_goals rfl

end Form

-- ── Heads ───────────────────────────────────────────────────────────────────────

/-- Two lists that agree at the front start with the same byte. -/
private theorem eq_cons_of_agree {b : UInt8} {rest bytes : List UInt8} {n : Nat} (hn : 0 < n)
    (h : ∀ p < n, bytes[p]? = (b :: rest)[p]?) :
    ∃ rest', bytes = b :: rest' ∧ ∀ p < n - 1, rest'[p]? = rest[p]? := by
  have h0 := h 0 hn
  cases bytes with
  | nil => exact nomatch h0
  | cons c rest' =>
      rw [List.getElem?_cons_zero, List.getElem?_cons_zero] at h0
      obtain rfl := Option.some.inj h0
      refine ⟨rest', rfl, ?_⟩
      intro p hp
      have := h (p + 1) (by omega)
      rwa [List.getElem?_cons_succ, List.getElem?_cons_succ] at this

/-- Addressing bytes are read up to their size and no further. -/
theorem Addressing.ofBytes?_congr {bytes bytes' : List UInt8} {a : Addressing}
    (h : Addressing.ofBytes? bytes = some a) (hagree : ∀ p < a.size, bytes'[p]? = bytes[p]?) :
    Addressing.ofBytes? bytes' = some a := by
  cases bytes with
  | nil => exact nomatch h
  | cons first rest =>
      have hpos : 0 < a.size := by
        simp only [ofBytes?] at h
        repeat' split at h
        all_goals cases h <;> exact Nat.succ_pos _
      obtain ⟨rest', rfl, htail⟩ := eq_cons_of_agree hpos hagree
      simp only [ofBytes?] at h ⊢
      by_cases hmode : first.toNat / 64 = 3
      · rw [if_pos hmode] at h ⊢
        exact h
      rw [if_neg hmode] at h ⊢
      by_cases htarget : first.toNat % 8 = 4
      · rw [if_pos htarget] at h ⊢
        -- only here a second byte is read
        cases rest with
        | nil => exact nomatch h
        | cons index more =>
            have hsize : a.size = 2 := by
              simp only at h
              split at h <;> cases h <;> rfl
            obtain ⟨more', rfl, -⟩ := eq_cons_of_agree (n := a.size - 1) (by omega) htail
            exact h
      · rw [if_neg htarget] at h ⊢
        exact h

namespace Head

/-- What the heads of the instruction set have in common: a branch has its target of four bytes as
    its only operand, and so has a load its literal of eight. -/
structure Regular (h : Head) : Prop where
  branch : h.shape = .call ∨ h.shape = .jump → h.displacement = 0 ∧ h.immediate = 4
  wide : h.immediate = 8 → h.displacement = 0

theorem Regular.unaddressed {m : Modifiers} {size : Nat} {f : Form} (hf : f.isRegular) :
    (Head.unaddressed m size f).Regular := by
  obtain ⟨addressed, immediate, role⟩ := f
  have hnarrow (hi : immediate.isNarrow) {P : Prop} : immediate.size m 0 = 8 → P := by
    intro h8
    have := Immediate.size_le hi m 0
    omega
  cases role with
  | call =>
      obtain ⟨-, hi⟩ := Bool.and_eq_true_iff.mp hf
      obtain rfl := eq_of_beq hi
      exact ⟨fun _ => ⟨rfl, rfl⟩, fun _ => rfl⟩
  | jump =>
      obtain ⟨-, hi⟩ := Bool.and_eq_true_iff.mp hf
      obtain rfl := eq_of_beq hi
      exact ⟨fun _ => ⟨rfl, rfl⟩, fun _ => rfl⟩
  | load register =>
      unfold Head.unaddressed
      by_cases hwide : m.wide
      · simp only [if_pos hwide]
        exact ⟨(by rintro (h | h) <;> cases h), fun _ => rfl⟩
      · simp only [if_neg hwide]
        exact ⟨(by rintro (h | h) <;> cases h), fun _ => rfl⟩
  | absolute => exact ⟨(by rintro (h | h) <;> cases h), hnarrow hf⟩
  | plain => exact ⟨(by rintro (h | h) <;> cases h), hnarrow hf⟩
  | indirect => exact ⟨(by rintro (h | h) <;> cases h), hnarrow hf⟩

theorem Regular.addressed {m : Modifiers} {size : Nat} {f : Form} {a : Addressing}
    (hf : f.isRegular) (ha : f.addressed = true) : (Head.addressed m size f a).Regular := by
  obtain ⟨addressed, immediate, role⟩ := f
  obtain rfl : addressed = true := ha
  -- branches and loads have no addressing bytes, so what is left has a narrow immediate
  have hi : immediate.isNarrow := by
    cases role <;> first | exact hf | exact nomatch hf
  have hne : ¬immediate.size m a.member = 8 := by
    have := Immediate.size_le hi m a.member
    omega
  unfold Head.addressed
  simp only
  repeat' split
  all_goals exact ⟨(by rintro (h | h) <;> cases h), fun h => absurd h hne⟩

theorem ofForm?_regular {m : Modifiers} {size : Nat} {f : Form} {rest : List UInt8} {h : Head}
    (hf : f.isRegular) (hh : ofForm? m size f rest = some h) : h.Regular := by
  unfold ofForm? at hh
  by_cases ha : f.addressed = true
  · rw [if_pos ha] at hh
    obtain ⟨a, -, rfl⟩ := Option.map_eq_some_iff.mp hh
    exact .addressed hf ha
  · rw [if_neg ha] at hh
    obtain rfl := Option.some.inj hh
    exact .unaddressed hf

@[simp] theorem size_unaddressed (m : Modifiers) (size : Nat) (f : Form) :
    (Head.unaddressed m size f).size = size := by
  unfold Head.unaddressed
  simp only
  repeat' split
  all_goals rfl

@[simp] theorem size_addressed (m : Modifiers) (size : Nat) (f : Form) (a : Addressing) :
    (Head.addressed m size f a).size = size + a.size := by
  unfold Head.addressed
  simp only
  repeat' split
  all_goals rfl

/-- Behind the opcode, a head is read up to its size and no further. -/
theorem ofForm?_congr {m : Modifiers} {size : Nat} {f : Form} {rest rest' : List UInt8} {h : Head}
    (hh : ofForm? m size f rest = some h) (hagree : ∀ p < h.size - size, rest'[p]? = rest[p]?) :
    ofForm? m size f rest' = some h := by
  unfold ofForm? at hh ⊢
  by_cases ha : f.addressed = true
  · rw [if_pos ha] at hh ⊢
    obtain ⟨a, hbytes, rfl⟩ := Option.map_eq_some_iff.mp hh
    rw [size_addressed, Nat.add_sub_cancel_left] at hagree
    rw [Addressing.ofBytes?_congr hbytes hagree]
    rfl
  · rw [if_neg ha] at hh ⊢
    exact hh

theorem ofForm?_size {m : Modifiers} {size : Nat} {f : Form} {rest : List UInt8} {h : Head}
    (hh : ofForm? m size f rest = some h) : size ≤ h.size := by
  unfold ofForm? at hh
  by_cases ha : f.addressed = true
  · rw [if_pos ha] at hh
    obtain ⟨a, -, rfl⟩ := Option.map_eq_some_iff.mp hh
    rw [size_addressed]
    omega
  · rw [if_neg ha] at hh
    obtain rfl := Option.some.inj hh
    exact Nat.le_of_eq (size_unaddressed ..).symm

/-- A head is regular, takes at least one byte, and is read up to its size and no further. -/
theorem scan_spec {m : Modifiers} {size : Nat} {code : List UInt8} {h : Head}
    (hh : scan m size code = some h) :
    h.Regular ∧ size < h.size ∧
      ∀ code', (∀ p < h.size - size, code'[p]? = code[p]?) → scan m size code' = some h := by
  induction code generalizing m size with
  | nil => exact nomatch hh
  | cons byte rest ih =>
      rw [scan.eq_def] at hh
      cases hm : m.extend? byte.toNat with
      | some m₁ =>
          simp only [hm] at hh
          obtain ⟨hreg, hsize, hread⟩ := ih hh
          refine ⟨hreg, by omega, ?_⟩
          intro code' hagree
          obtain ⟨rest', rfl, htail⟩ := eq_cons_of_agree (by omega) hagree
          rw [scan.eq_def]
          simp only [hm]
          exact hread rest' fun p hp => htail p (by omega)
      | none =>
          simp only [hm] at hh
          by_cases hesc : byte = 0x0f
          · rw [if_pos hesc] at hh
            cases rest with
            | nil => exact nomatch hh
            | cons escaped rest =>
                clear ih
                obtain ⟨f, hf, hh⟩ := Option.bind_eq_some_iff.mp hh
                have hsize := ofForm?_size hh
                have hreg := Form.all_isRegular_ofEscaped escaped.toNat
                rw [hf] at hreg
                refine ⟨ofForm?_regular hreg hh, by omega, ?_⟩
                intro code' hagree
                obtain ⟨rest', rfl, htail⟩ := eq_cons_of_agree (by omega) hagree
                obtain ⟨rest'', rfl, htail'⟩ := eq_cons_of_agree (by omega) htail
                rw [scan.eq_def]
                simp only [hm, if_pos hesc, hf, Option.bind_some]
                exact ofForm?_congr hh fun p hp => htail' p (by omega)
          · rw [if_neg hesc] at hh
            obtain ⟨f, hf, hh⟩ := Option.bind_eq_some_iff.mp hh
            have hsize := ofForm?_size hh
            have hreg := Form.all_isRegular_ofOpcode byte.toNat
            rw [hf] at hreg
            refine ⟨ofForm?_regular hreg hh, by omega, ?_⟩
            intro code' hagree
            obtain ⟨rest', rfl, htail⟩ := eq_cons_of_agree (by omega) hagree
            rw [scan.eq_def]
            simp only [hm, if_neg hesc, hf, Option.bind_some]
            exact ofForm?_congr hh fun p hp => htail p (by omega)

end Head

-- ── Instructions ────────────────────────────────────────────────────────────────

namespace Instruction

/-- The instruction at an offset of the code, wherever the code stands. -/
def at? (code : List UInt8) (offset : Nat) : Option Instruction :=
  ofBytes? offset (code.drop offset)

/-- The first operand behind the head. -/
def firstOperand (i : Instruction) : Operand :=
  match i.displacement, i.immediate with
  | some o, _ => o
  | none, some o => o
  | none, none => ⟨i.next, 0⟩

theorem decodeAt_ok {code : List UInt8} {offset : Nat} {base : UInt64} {i : Instruction}
    (h : decodeAt code offset base = .ok i) : at? code offset = some i ∧ offset < code.length := by
  obtain ⟨_, hoffset, h⟩ := Checked.bind_ok h
  obtain ⟨_, -, h⟩ := Checked.bind_ok h
  cases hi : ofBytes? offset (code.drop offset) with
  | none => rw [hi] at h; exact nomatch h
  | some j =>
      rw [hi] at h
      obtain rfl := Checked.pure_ok h
      exact ⟨hi, require_ok hoffset⟩

/-- A decoded instruction is the one of its head. -/
theorem at?_some {code : List UInt8} {offset : Nat} {i : Instruction}
    (h : at? code offset = some i) :
    ∃ head, Head.ofBytes? (code.drop offset) = some head ∧ i = ofHead offset head ∧
      head.length ≤ code.length - offset ∧ head.length ≤ maxLength := by
  obtain ⟨head, hhead, h⟩ := Option.bind_eq_some_iff.mp h
  split at h
  · next hlen =>
      obtain rfl := Option.some.inj h
      rw [List.length_drop] at hlen
      exact ⟨head, hhead, rfl, hlen⟩
  · exact nomatch h

theorem firstOperand_ofHead (offset : Nat) (h : Head) :
    (ofHead offset h).firstOperand.offset = offset + h.size := by
  unfold firstOperand ofHead operandAt next Head.length
  by_cases hd : h.displacement = 0
  · by_cases hi : h.immediate = 0
    · simp only [hd, hi, if_true]
      omega
    · simp only [hd, hi, if_true, if_false]
      omega
  · simp only [hd, if_false]

/-- An operand stands where it is put, if it has a size at all. -/
theorem operandAt_eq_some_iff {place size : Nat} {o : Operand} :
    operandAt place size = some o ↔ size ≠ 0 ∧ o = ⟨place, size⟩ := by
  by_cases hsize : size = 0
  · simp [operandAt, hsize]
  · simp [operandAt, hsize, eq_comm]

-- ── The laws of a decoder ───────────────────────────────────────────────────────

/-- **What is relied on of a decoder**, whatever instructions it knows. -/
structure DecoderLaws (decode : List UInt8 → Nat → Option Instruction) : Prop where
  /-- An instruction stands where it is decoded, takes at least a byte, and is within the code. -/
  inside : ∀ {code offset i}, decode code offset = some i →
    i.offset = offset ∧ offset < i.next ∧ i.next ≤ code.length
  /-- Operands are parts of their instruction, behind its first byte. -/
  operands : ∀ {code offset i o}, decode code offset = some i →
    i.displacement = some o ∨ i.immediate = some o →
    offset < o.offset ∧ o.offset + o.size ≤ i.next
  /-- A branch has its target as its only operand, and ends with it. -/
  branch : ∀ {code offset i}, decode code offset = some i → i.isBranch = true →
    i.displacement = none ∧ i.immediate = some ⟨i.next - 4, 4⟩
  /-- No instruction has a displacement besides a wide immediate. -/
  wide : ∀ {code offset i o}, decode code offset = some i → i.immediate = some o → o.size = 8 →
    i.displacement = none
  /-- Code that reaches as far as the instruction, and agrees up to its first operand, decodes
      alike. -/
  head : ∀ {code code' offset i}, decode code offset = some i → i.next ≤ code'.length →
    (∀ p, offset ≤ p → p < i.firstOperand.offset → code'[p]? = code[p]?) →
    decode code' offset = some i

/-- **The decoder keeps the laws.** -/
theorem at?_laws : DecoderLaws at? where
  inside {code offset i} h := by
    obtain ⟨head, hhead, rfl, hlen, -⟩ := at?_some h
    obtain ⟨-, hsize, -⟩ := Head.scan_spec hhead
    have hpos : 0 < head.length := by unfold Head.length; omega
    refine ⟨rfl, Nat.lt_add_of_pos_right hpos, ?_⟩
    show offset + head.length ≤ code.length
    omega
  operands {code offset i o} h ho := by
    obtain ⟨head, hhead, rfl, -, -⟩ := at?_some h
    obtain ⟨-, hsize, -⟩ := Head.scan_spec hhead
    have hnext : (ofHead offset head).next =
        offset + (head.size + head.displacement + head.immediate) := rfl
    simp only [ofHead, operandAt_eq_some_iff] at ho
    rcases ho with ⟨-, rfl⟩ | ⟨-, rfl⟩
    · show offset < offset + head.size ∧ offset + head.size + head.displacement ≤ _
      omega
    · show offset < offset + head.size + head.displacement ∧
        offset + head.size + head.displacement + head.immediate ≤ _
      omega
  branch {code offset i} h hbranch := by
    obtain ⟨head, hhead, rfl, -, -⟩ := at?_some h
    have hshape : head.shape = .call ∨ head.shape = .jump := by
      simpa [isBranch, ofHead] using hbranch
    obtain ⟨hd, him⟩ := (Head.scan_spec hhead).1.branch hshape
    have hnext : (ofHead offset head).next - 4 = offset + head.size := by
      simp only [next, ofHead, Head.length, hd, him]
      omega
    rw [hnext]
    simp only [ofHead, operandAt, hd, him]
    exact ⟨rfl, rfl⟩
  wide {code offset i o} h him hsize := by
    obtain ⟨head, hhead, rfl, -, -⟩ := at?_some h
    obtain ⟨-, rfl⟩ := operandAt_eq_some_iff.mp him
    have hd := (Head.scan_spec hhead).1.wide hsize
    simp only [ofHead, operandAt, hd, if_true]
  head {code code' offset i} h hreach hagree := by
    obtain ⟨head, hhead, rfl, -, hmax⟩ := at?_some h
    have hfirst := firstOperand_ofHead offset head
    obtain ⟨-, -, hread⟩ := Head.scan_spec hhead
    have hhead' : Head.ofBytes? (code'.drop offset) = some head := by
      apply hread
      intro p hp
      rw [List.getElem?_drop, List.getElem?_drop]
      exact hagree _ (by omega) (by omega)
    have hreach : offset + head.length ≤ code'.length := hreach
    unfold at? ofBytes?
    rw [hhead', Option.bind_some, if_pos]
    rw [List.length_drop]
    exact ⟨by omega, hmax⟩

theorem displacement32_eq {i : Instruction} {o : Operand} (h : i.displacement32 = .ok o) :
    o = i.firstOperand ∧ o.size = 4 := by
  unfold displacement32 at h
  cases hd : i.displacement with
  | none => rw [hd] at h; exact nomatch h
  | some d =>
      simp only [hd] at h
      split at h
      · next hsize =>
          obtain rfl := Except.ok.inj h
          exact ⟨by simp only [firstOperand, hd], hsize⟩
      · exact nomatch h

namespace DecoderLaws

variable {decode : List UInt8 → Nat → Option Instruction} {code code' : List UInt8}
  {offset : Nat} {i : Instruction} {o : Operand}

/-- Where the parts of a decoded instruction lie. -/
theorem bounds (laws : DecoderLaws decode) (hi : decode code offset = some i) :
    i.offset = offset ∧ offset < i.firstOperand.offset ∧
      i.firstOperand.offset + i.firstOperand.size ≤ i.next ∧ i.next ≤ code.length := by
  obtain ⟨hoffset, hnext, hend⟩ := laws.inside hi
  have hfirst : offset < i.firstOperand.offset ∧
      i.firstOperand.offset + i.firstOperand.size ≤ i.next := by
    unfold firstOperand
    cases hd : i.displacement with
    | some o => exact laws.operands hi (.inl hd)
    | none =>
        cases him : i.immediate with
        | some o => exact laws.operands hi (.inr him)
        | none => exact ⟨hnext, Nat.le_refl _⟩
  exact ⟨hoffset, hfirst.1, hfirst.2, hend⟩

/-- Code of the same length that agrees up to the first operand decodes alike. -/
theorem congr (laws : DecoderLaws decode) (hi : decode code offset = some i)
    (hlen : code'.length = code.length)
    (hagree : ∀ p, offset ≤ p → p < i.firstOperand.offset → code'[p]? = code[p]?) :
    decode code' offset = some i := by
  obtain ⟨-, -, hend⟩ := laws.inside hi
  exact laws.head hi (by rwa [hlen]) hagree

theorem branchOperand_eq (laws : DecoderLaws decode) (hi : decode code offset = some i)
    (h : i.branchOperand = .ok o) : o = i.firstOperand ∧ o.size = 4 ∧ i.isBranch := by
  obtain ⟨_, hbranch, h⟩ := Checked.bind_ok h
  obtain rfl := Checked.pure_ok h
  have hbranch : i.isBranch = true := require_ok hbranch
  obtain ⟨hd, him⟩ := laws.branch hi hbranch
  refine ⟨?_, rfl, hbranch⟩
  simp only [firstOperand, hd, him]

theorem immediate64_eq (laws : DecoderLaws decode) (hi : decode code offset = some i)
    (h : i.immediate64 = .ok o) : o = i.firstOperand ∧ o.size = 8 := by
  unfold immediate64 at h
  cases him : i.immediate with
  | none => rw [him] at h; exact nomatch h
  | some immediate =>
      simp only [him] at h
      split at h
      · next hsize =>
          obtain rfl := Except.ok.inj h
          refine ⟨?_, hsize⟩
          simp only [firstOperand, laws.wide hi him hsize, him]
      · exact nomatch h

end DecoderLaws

end Instruction

end ManagedCode
