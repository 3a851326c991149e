import Mathlib.Data.Int.ModEq
import ManagedCode.Proofs.BlobHistory

/-! # Distances and their targets

    A distance is a number of 32 bits between addresses that wrap around at the end of the address
    space.  It exists exactly if a number of that range leads from one address to the other, and
    then no other number does: the range is smaller than the address space.  So a distance can be
    written into the code, read back, and computed anew for another place, and still names the
    address it was computed for.

* **`Address.displace_eq_iff`** — where a number leads to, modulo the address space.
* **`Address.distance_eq_ok_iff`** — the distance is the number of 32 bits that leads to the target.
* **`Blob.write32_read32`** — what is written into an operand is read back.
* **`Blob.retarget_distance`** — one relocation of a move, from operand to operand.
* **`Address.distances_lead_back`** — all of it together. -/

namespace ManagedCode

namespace Word

/-- A number is its own 32 bit reading within the range of 32 bits. -/
theorem signed32_eq_iff {n : Int} : signed32 n = n ↔ -0x80000000 ≤ n ∧ n < 0x80000000 := by
  simp only [signed32, Int.bmod, limit32]
  omega

/-- The word of a number of 32 bits is read as that number. -/
theorem signed64_ofInt {n : Int} (hlo : -0x80000000 ≤ n) (hhi : n < 0x80000000) :
    signed64 (ofInt n) = n := by
  rw [signed64, toNat_ofInt, Int.emod_bmod]
  simp only [Int.bmod, limit]
  omega

end Word

namespace Address

variable {target next : UInt64} {d : Int}

/-- **Where a number leads to**: to the address congruent to the sum. -/
theorem displace_eq_iff :
    displace next d = target ↔ (target.toNat : Int) ≡ next.toNat + d [ZMOD Word.limit] := by
  have hword := Word.toNat_ofInt d
  have hsum : (displace next d).toNat = (next.toNat + (Word.ofInt d).toNat) % 2 ^ 64 :=
    UInt64.toNat_add ..
  have htarget := target.toNat_lt
  simp only [Word.limit] at hword
  constructor
  · rintro rfl
    show _ % _ = _ % _
    simp only [Word.limit]
    omega
  · intro hcongr
    change _ % _ = _ % _ at hcongr
    simp only [Word.limit] at hcongr
    apply UInt64.toNat.inj
    omega

/-- **The distance is the number of 32 bits that leads to the target**, and there is none where no
    such number does. -/
theorem distance_eq_ok_iff :
    distance target next = .ok d ↔
      (-0x80000000 ≤ d ∧ d < 0x80000000) ∧ displace next d = target := by
  constructor
  · intro h
    obtain ⟨hvalue, hfits⟩ := distance_ok h
    refine ⟨Word.signed32_eq_iff.mp hfits.symm, ?_⟩
    rw [hvalue]
    exact displace_signed64 next target
  · rintro ⟨⟨hlo, hhi⟩, rfl⟩
    have hword : displace next d - next = Word.ofInt d := by
      rw [displace, UInt64.add_comm, UInt64.add_sub_cancel]
    have hvalue : Word.signed64 (displace next d - next) = d := by
      rw [hword, Word.signed64_ofInt hlo hhi]
    have hfits : d = Word.signed32 d := (Word.signed32_eq_iff.mpr ⟨hlo, hhi⟩).symm
    simp only [distance, hvalue, require_met hfits]
    rfl

end Address

namespace Blob

variable {b : Blob} {o : Operand} {d : Int}

/-- An operand of four bytes within the code can be written, whatever the value. -/
theorem exists_write32 (hsize : o.size = 4) (hinside : o.offset + 4 ≤ b.code.length)
    (hrange : o.offset + 4 < Word.limit) (value : Int) : ∃ b', b.write32 o value = .ok b' := by
  rw [write32, checkWidth_of_eq hsize]
  exact ⟨_, writeBytes_eq hinside hrange _⟩

/-- A number of 32 bits that is written into an operand is read back. -/
theorem write32_read32 {b' : Blob} (hlo : -0x80000000 ≤ d) (hhi : d < 0x80000000)
    (h : b.write32 o d = .ok b') : b'.read32 o = .ok d := by
  have hd : (Int32.ofInt d).toInt = d := Int32.toInt_ofInt_of_le hlo hhi
  have hstore : (Written.word32 o (Int32.ofInt d)).store b = .ok b' := by
    show b.write32 o (Int32.ofInt d).toInt = .ok b'
    rw [hd]
    exact h
  have hread : b'.read32 o = .ok (Int32.ofInt d).toInt := (Written.store_ok hstore).1.readBack
  rwa [hd] at hread

/-- An operand that can be read lies within the code. -/
theorem read32_ok (h : b.read32 o = .ok d) :
    o.size = 4 ∧ o.offset + 4 ≤ b.code.length ∧ o.offset + 4 < Word.limit := by
  obtain ⟨_, hsize, h⟩ := Checked.bind_ok h
  obtain ⟨_, hbytes, -⟩ := Checked.bind_ok h
  obtain ⟨_, hcheck, -⟩ := Checked.bind_ok hbytes
  exact ⟨require_ok hsize, checkAccess_ok hcheck⟩

/-- **A relocation is resolved anew**: its operand holds the distance to the old target from the
    new place. -/
theorem retarget_distance {newBase next next' : UInt64} {r : Relocation} {i : Instruction}
    {moved : Int} (hr : r.isPositional = true) (hi : b.instructionAt r.offset = .ok i)
    (ho : positionalOperand r i = .ok o) (hread : b.read32 o = .ok d)
    (hnext : Address.advance b.base i.next = .ok next)
    (hnext' : Address.advance newBase i.next = .ok next')
    (hmoved : Address.distance (Address.displace next d) next' = .ok moved) :
    ∃ b', retarget newBase b r = .ok b' ∧ b'.read32 o = .ok moved := by
  obtain ⟨hsize, hinside, hrange⟩ := read32_ok hread
  obtain ⟨⟨hlo, hhi⟩, -⟩ := Address.distance_eq_ok_iff.mp hmoved
  obtain ⟨b', hwrite⟩ := exists_write32 hsize hinside hrange moved
  refine ⟨b', ?_, write32_read32 hlo hhi hwrite⟩
  rw [retarget, if_pos hr, hi, Checked.ok_bind, ho, Checked.ok_bind, hread, Checked.ok_bind, hnext,
    Checked.ok_bind, hnext', Checked.ok_bind, hmoved, Checked.ok_bind]
  exact hwrite

end Blob

open Blob Address in
/-- **Distances lead back to their targets.** The distance to a target from the address behind an
    instruction is the number of 32 bits whose sum with that address is congruent to the target, and
    it exists exactly if there is one. Written into an operand, it is read back, and leads to the
    target. The distance to where it leads, computed for another address, leads to the target from
    there; and that is the distance in the operand after a relocation is resolved anew. -/
theorem Address.distances_lead_back (target next : UInt64) :
    (∀ d, distance target next = .ok d ↔
      (-0x80000000 ≤ d ∧ d < 0x80000000) ∧
        (target.toNat : Int) ≡ next.toNat + d [ZMOD Word.limit]) ∧
    ∀ d, distance target next = .ok d →
      (∀ (b : Blob) (o : Operand), o.size = 4 → o.offset + 4 ≤ b.code.length →
        b.code.length < Word.limit →
        ∃ b', b.write32 o d = .ok b' ∧ b'.read32 o = .ok d ∧ displace next d = target) ∧
      (∀ next' moved, distance (displace next d) next' = .ok moved →
        displace next' moved = target) ∧
      ∀ (newBase next' : UInt64) (b : Blob) (r : Relocation) (i : Instruction) (o : Operand),
        r.isPositional = true → b.instructionAt r.offset = .ok i →
        positionalOperand r i = .ok o → b.read32 o = .ok d → advance b.base i.next = .ok next →
        advance newBase i.next = .ok next' → ∀ moved, distance target next' = .ok moved →
        ∃ b', retarget newBase b r = .ok b' ∧ b'.read32 o = .ok moved ∧
          displace next' moved = target := by
  refine ⟨fun d => ?_, fun d hd => ?_⟩
  · rw [distance_eq_ok_iff, displace_eq_iff]
  · obtain ⟨⟨hlo, hhi⟩, rfl⟩ := distance_eq_ok_iff.mp hd
    refine ⟨?_, ?_, ?_⟩
    · intro b o hsize hinside hlength
      obtain ⟨b', hwrite⟩ := exists_write32 hsize hinside (Nat.lt_of_le_of_lt hinside hlength) d
      exact ⟨b', hwrite, write32_read32 hlo hhi hwrite, rfl⟩
    · intro next' moved hmoved
      exact (distance_eq_ok_iff.mp hmoved).2
    · intro newBase next' b r i o hr hi ho hread hnext hnext' moved hmoved
      obtain ⟨b', hretarget, hread'⟩ := retarget_distance hr hi ho hread hnext hnext' hmoved
      exact ⟨b', hretarget, hread', (distance_eq_ok_iff.mp hmoved).2⟩

-- ── A call across the end of the address space ──────────────────────────────────

/-- A call near the end of the address space, to an address near its start. -/
def Blob.sampleWrapping : Blob where
  layout := ⟨16, 0, 16, 1⟩
  code := [0xe8, 0x1b, 0, 0, 0]
  constants := []
  relocations := [⟨0, .runtimeCall, .call32⟩]
  base := 0xfffffffffffffff0

open Blob Address in
/-- The distance is small and positive, and negative after a move to the start of the space. -/
theorem Address.distances_lead_back_wrapping :
    distance 0x10 0xfffffffffffffff5 = .ok 0x1b ∧
    displace 0xfffffffffffffff5 0x1b = 0x10 ∧
    (∃ b', sampleWrapping.write32 ⟨1, 4⟩ 0x1b = .ok b' ∧ b'.read32 ⟨1, 4⟩ = .ok 0x1b) ∧
    distance (displace 0xfffffffffffffff5 0x1b) 0x25 = .ok (-0x15) ∧
    ∃ b', retarget 0x20 sampleWrapping ⟨0, .runtimeCall, .call32⟩ = .ok b' ∧
      b'.read32 ⟨1, 4⟩ = .ok (-0x15) ∧ displace 0x25 (-0x15) = 0x10 := by
  obtain ⟨hiff, hlead⟩ := distances_lead_back 0x10 0xfffffffffffffff5
  have hd : distance 0x10 0xfffffffffffffff5 = .ok 0x1b := (hiff _).mpr (by decide)
  have hmoved : distance 0x10 0x25 = .ok (-0x15) :=
    ((distances_lead_back 0x10 0x25).1 _).mpr (by decide)
  obtain ⟨hwrite, -, hretarget⟩ := hlead _ hd
  obtain ⟨b₁, hwritten, hread, hback⟩ := hwrite sampleWrapping ⟨1, 4⟩ rfl (by decide) (by decide)
  have hoperand : sampleWrapping.read32 ⟨1, 4⟩ = .ok 0x1b :=
    Written.In.readBack (w := .word32 ⟨1, 4⟩ 0x1b) ⟨rfl, by decide, by decide, rfl⟩
  obtain ⟨b₂, hb₂, hread₂, hback₂⟩ := hretarget 0x20 0x25 sampleWrapping
    ⟨0, .runtimeCall, .call32⟩ _ ⟨1, 4⟩ rfl rfl rfl hoperand rfl rfl _ hmoved
  refine ⟨hd, hback, ⟨b₁, hwritten, hread⟩, ?_, b₂, hb₂, hread₂, hback₂⟩
  rw [hback]
  exact hmoved

end ManagedCode
