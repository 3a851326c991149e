import ManagedCode.Proofs.Imprint

/-! # Decoding patched code

    Code is decoded again and again while it is patched: by the sites that share an instruction, by
    a move, by whoever looks at installed code.  This works because a patch writes an operand, and
    no operand takes part in the decoding.  Where the code stands takes no part in it either, as
    long as the place of the instruction is an address at all.

* **`Instruction.decodeAt_eq`** — decoding at any base, by the decoder that knows no base.
* **`Instruction.DecoderLaws.decode_overwrite`** — under the laws of a decoder, a patched operand
  leaves the instruction as it was.
* **`Instruction.patching_keeps_decoding`** — what the decoder depends on, all together. -/

namespace ManagedCode

/-- Writing a number into an operand replaces its bytes. -/
theorem Blob.exists_bytes_of_write {b b' : Blob} {o : Operand}
    (h : (∃ value, b.write32 o value = .ok b') ∨ ∃ value, b.write64 o value = .ok b') :
    ∃ bytes : List UInt8, bytes.length = o.size ∧ b'.code = overwrite b.code o.offset bytes := by
  rcases h with ⟨value, h⟩ | ⟨value, h⟩
  · obtain ⟨_, hsize, h⟩ := Checked.bind_ok h
    obtain ⟨-, -, rfl⟩ := writeBytes_ok h
    refine ⟨Word.toBytes 4 (value % Word.limit32).toNat, ?_, rfl⟩
    rw [Word.length_toBytes, show o.size = 4 from require_ok hsize]
  · obtain ⟨_, hsize, h⟩ := Checked.bind_ok h
    obtain ⟨-, -, rfl⟩ := writeBytes_ok h
    refine ⟨Word.toBytes 8 value.toNat, ?_, rfl⟩
    rw [Word.length_toBytes, show o.size = 8 from require_ok hsize]

namespace Instruction

variable {code code' : List UInt8} {offset : Nat} {base : UInt64} {i : Instruction} {o : Operand}

/-- **An instruction decodes alike at every base** where it has an address. -/
theorem decodeAt_eq (hi : at? code offset = some i) (base : UInt64) :
    decodeAt code offset base = (Address.advance base offset).map fun _ => i := by
  obtain ⟨-, hnext, hend⟩ := at?_laws.inside hi
  have hin : offset < code.length := Nat.lt_of_lt_of_le hnext hend
  have hbytes : ofBytes? offset (code.drop offset) = some i := hi
  rw [decodeAt, require_met hin, Checked.ok_bind]
  simp only [hbytes]
  cases Address.advance base offset with
  | error fault => rfl
  | ok address => rfl

theorem decodeAt_ok_of_lt (hi : at? code offset = some i)
    (haddress : base.toNat + offset < Word.limit) : decodeAt code offset base = .ok i := by
  rw [decodeAt_eq hi, Address.advance, Size.add_of_lt haddress]
  rfl

/-- An operand that is patched: the target of a branch, a wide immediate, or a displacement of four
    bytes. -/
def IsPatched (i : Instruction) (o : Operand) : Prop :=
  i.branchOperand = .ok o ∨ i.immediate64 = .ok o ∨ i.displacement32 = .ok o

namespace DecoderLaws

variable {decode : List UInt8 → Nat → Option Instruction}

theorem patched_eq (laws : DecoderLaws decode) (hi : decode code offset = some i)
    (ho : i.IsPatched o) : o = i.firstOperand := by
  rcases ho with hbranch | himmediate | hdisplacement
  · exact (laws.branchOperand_eq hi hbranch).1
  · exact (laws.immediate64_eq hi himmediate).1
  · exact (displacement32_eq hdisplacement).1

theorem patched_within (laws : DecoderLaws decode) (hi : decode code offset = some i)
    (ho : i.IsPatched o) : offset < o.offset ∧ o.offset + o.size ≤ i.next := by
  obtain ⟨-, hstart, hoperand, -⟩ := laws.bounds hi
  rw [laws.patched_eq hi ho]
  exact ⟨hstart, hoperand⟩

/-- **A patched operand leaves the instruction as it was**, whatever is put into it. -/
theorem decode_overwrite {bytes : List UInt8} (laws : DecoderLaws decode)
    (hi : decode code offset = some i) (ho : i.IsPatched o) (hbytes : bytes.length = o.size) :
    decode (Blob.overwrite code o.offset bytes) offset = some i := by
  obtain ⟨-, -, hend⟩ := laws.inside hi
  obtain ⟨-, hwithin⟩ := laws.patched_within hi ho
  have hroom : o.offset + bytes.length ≤ code.length := by omega
  apply laws.congr hi (Blob.length_overwrite hroom)
  intro p hlo hhi
  rw [← laws.patched_eq hi ho] at hhi
  rw [Blob.getElem?_overwrite hroom, if_neg (by omega)]

end DecoderLaws

/-- **Patching keeps decoding.** The operands of a decoded instruction are parts of it, and it is a
    part of the code. Whatever is written into an operand that is patched, the instruction decodes
    at every base as before: to the same, wherever it has an address. And nothing behind the
    instruction matters, not even whether there is anything. -/
theorem patching_keeps_decoding (h : decodeAt code offset base = .ok i) :
    i.offset = offset ∧ i.next ≤ code.length ∧
    (∀ o, i.displacement = some o ∨ i.immediate = some o ∨ i.branchOperand = .ok o →
      offset ≤ o.offset ∧ o.offset + o.size ≤ i.next) ∧
    (i.isBranch = true → ∃ o, i.branchOperand = .ok o) ∧
    (∀ o, i.IsPatched o → ∀ bytes : List UInt8, bytes.length = o.size → ∀ base',
      decodeAt (Blob.overwrite code o.offset bytes) offset base' = decodeAt code offset base' ∧
      (base'.toNat + offset < Word.limit →
        decodeAt (Blob.overwrite code o.offset bytes) offset base' = .ok i)) ∧
    (∀ (b b' : Blob) (o : Operand), b.code = code → i.IsPatched o →
      (∃ value, b.write32 o value = .ok b') ∨ (∃ value, b.write64 o value = .ok b') → ∀ base',
      decodeAt b'.code offset base' = decodeAt code offset base') ∧
    ∀ code' : List UInt8, i.next ≤ code'.length →
      (∀ p, offset ≤ p → p < i.next → code'[p]? = code[p]?) → ∀ base',
      decodeAt code' offset base' = decodeAt code offset base' := by
  obtain ⟨hi, -⟩ := decodeAt_ok h
  obtain ⟨hoffset, -, hoperand, hend⟩ := at?_laws.bounds hi
  refine ⟨hoffset, hend, ?_, ?_, ?_, ?_, ?_⟩
  · intro o ho
    have hwithin : offset < o.offset ∧ o.offset + o.size ≤ i.next := by
      rcases ho with hd | him | hbranch
      · exact at?_laws.operands hi (.inl hd)
      · exact at?_laws.operands hi (.inr him)
      · exact at?_laws.patched_within hi (.inl hbranch)
    exact ⟨Nat.le_of_lt hwithin.1, hwithin.2⟩
  · intro hbranch
    refine ⟨⟨i.next - 4, 4⟩, ?_⟩
    rw [branchOperand, require_met hbranch]
    rfl
  · intro o ho bytes hbytes base'
    have hi' := at?_laws.decode_overwrite hi ho hbytes
    refine ⟨?_, decodeAt_ok_of_lt hi'⟩
    rw [decodeAt_eq hi', decodeAt_eq hi]
  · intro b b' o hcode ho hwrite base'
    obtain ⟨bytes, hbytes, hpatched⟩ := Blob.exists_bytes_of_write hwrite
    rw [hpatched, hcode, decodeAt_eq (at?_laws.decode_overwrite hi ho hbytes), decodeAt_eq hi]
  · intro code' hreach hagree base'
    have hi' : at? code' offset = some i := by
      apply at?_laws.head hi hreach
      intro p hlo hhi
      exact hagree p hlo (by omega)
    rw [decodeAt_eq hi', decodeAt_eq hi]

-- ── A patched store ─────────────────────────────────────────────────────────────

/-- A store of an immediate to a place beside the instruction, with both operands of four bytes,
    behind a no-operation. -/
def sampleStore : List UInt8 := [0x90, 0xc7, 0x05, 0, 0, 0, 0, 0x2a, 0, 0, 0]

/-- The displacement is patched with bytes that would be a call, the code goes on, and it stands
    elsewhere. -/
theorem patching_keeps_decoding_store :
    ∃ i, decodeAt sampleStore 1 0x1000 = .ok i ∧ i.next = 11 ∧
      i.displacement32 = .ok ⟨3, 4⟩ ∧ i.immediate = some ⟨7, 4⟩ ∧
      decodeAt (Blob.overwrite sampleStore 3 [0xe8, 0xff, 0xff, 0xff]) 1 0x7f000000 = .ok i ∧
      decodeAt (sampleStore ++ [0xc3]) 1 0x1000 = .ok i := by
  have h : decodeAt sampleStore 1 0x1000 =
      .ok ⟨1, 10, .other, some ⟨3, 4⟩, some ⟨7, 4⟩, none, true⟩ := rfl
  obtain ⟨-, -, -, -, hpatch, -, hbehind⟩ := patching_keeps_decoding h
  refine ⟨_, h, rfl, rfl, rfl, ?_, ?_⟩
  · exact (hpatch ⟨3, 4⟩ (.inr (.inr rfl)) [0xe8, 0xff, 0xff, 0xff] rfl 0x7f000000).2 (by decide)
  · rw [hbehind (sampleStore ++ [0xc3]) (by decide) ?_, h]
    intro p _ hp
    have hlength : p < sampleStore.length := Nat.lt_of_lt_of_le hp (by decide)
    exact List.getElem?_append_left hlength

end Instruction

end ManagedCode
