import Mathlib.Algebra.Group.Nat.Defs
import ManagedCode.Code.Blob

/-! # Words in code

    Code is a list of bytes, and a patch replaces a few of them.  Here is what can be read after
    such a replacement, and how distances between addresses come back from the four bytes they
    are written to.

* **`ofBytes_toBytes`**, **`toBytes_ofBytes`** — words and their bytes determine each other.
* **`Blob.getElem?_overwrite`** — the byte-wise view of a replacement; everything else about
  `overwrite` is read off it.
* **`Address.displace_signed64`** — a distance leads back to its target. -/

namespace ManagedCode

namespace Word

theorem ofBytes_lt (bytes : List UInt8) : ofBytes bytes < 256 ^ bytes.length := by
  induction bytes with
  | nil => exact Nat.one_pos
  | cons b rest ih =>
      have hb := b.toNat_lt
      simp only [ofBytes, List.length_cons, Nat.pow_succ]
      omega

/-- The bytes of a number stand for its low bits. -/
theorem ofBytes_toBytes (width n : Nat) : ofBytes (toBytes width n) = n % 256 ^ width := by
  induction width generalizing n with
  | zero => rw [Nat.pow_zero, Nat.mod_one]; rfl
  | succ width ih =>
      have hbyte : (UInt8.ofNat n).toNat = n % 256 := UInt8.toNat_ofNat'
      rw [toBytes, ofBytes, ih, hbyte, Nat.pow_succ, Nat.mul_comm (256 ^ width) 256, Nat.mod_mul]

/-- Bytes are the bytes of the number they stand for. -/
theorem toBytes_ofBytes (bytes : List UInt8) : toBytes bytes.length (ofBytes bytes) = bytes := by
  induction bytes with
  | nil => rfl
  | cons b rest ih =>
      have hb := b.toNat_lt
      have hq : (b.toNat + 256 * ofBytes rest) / 256 = ofBytes rest := by omega
      simp only [ofBytes, List.length_cons, toBytes, hq, ih, List.cons.injEq, and_true]
      apply UInt8.toNat.inj
      rw [UInt8.toNat_ofNat']
      omega

theorem signed32_emod (n : Int) : signed32 n % limit32 = n % limit32 := Int.bmod_emod

theorem signed32_bounds (n : Int) : -0x80000000 ≤ signed32 n ∧ signed32 n < 0x80000000 := by
  have hlo := Int.le_bmod (x := n) (m := limit32) (by decide)
  have hhi := Int.bmod_lt (x := n) (m := limit32) (by decide)
  unfold signed32
  simp only [limit32] at hlo hhi ⊢
  omega

/-- A number that is not negative is its own 32 bit reading below 2 ^ 31. -/
theorem signed32_eq_self_iff {n : Int} (hn : 0 ≤ n) : signed32 n = n ↔ n < 0x80000000 := by
  simp only [signed32, Int.bmod, limit32]
  omega

/-- A number written to four bytes is read back modulo their range. -/
theorem signed32_ofBytes_toBytes (n : Int) :
    signed32 (ofBytes (toBytes 4 (n % limit32).toNat)) = signed32 n := by
  have hpos : 0 ≤ n % (limit32 : Int) := Int.emod_nonneg _ (by decide)
  have hlt : n % (limit32 : Int) < limit32 := Int.emod_lt_of_pos _ (by decide)
  have hval : ((ofBytes (toBytes 4 (n % limit32).toNat) : Nat) : Int) = n % limit32 := by
    rw [ofBytes_toBytes, Nat.mod_eq_of_lt]
    · exact Int.toNat_of_nonneg hpos
    · simp only [limit32] at hlt ⊢
      omega
  rw [signed32, hval, Int.emod_bmod, signed32]

theorem toNat_ofInt (n : Int) : ((ofInt n).toNat : Int) = n % limit := by
  have hpos : 0 ≤ n % (limit : Int) := Int.emod_nonneg _ (by decide)
  have hlt : n % (limit : Int) < limit := Int.emod_lt_of_pos _ (by decide)
  rw [ofInt, UInt64.toNat_ofNat', Nat.mod_eq_of_lt, Int.toNat_of_nonneg hpos]
  simp only [limit] at hlt ⊢
  omega

/-- The signed reading of a word names that word. -/
theorem ofInt_signed64 (w : UInt64) : ofInt (signed64 w) = w := by
  apply UInt64.toNat.inj
  have hw : (w.toNat : Int) < limit := by
    have := w.toNat_lt
    simp only [limit]
    omega
  have h := toNat_ofInt (signed64 w)
  rw [signed64, Int.bmod_emod, Int.emod_eq_of_lt (Int.natCast_nonneg _) hw] at h
  exact Int.ofNat.inj h

end Word

namespace Address

/-- The distance to a target leads to it. -/
theorem displace_signed64 (base target : UInt64) :
    displace base (Word.signed64 (target - base)) = target := by
  rw [displace, Word.ofInt_signed64, UInt64.add_comm, UInt64.sub_add_cancel]

/-- Where both distances fit four bytes, the difference is exact. -/
theorem displace_sub_eq (old new next : UInt64) {d moved : Int} (hd : d = Word.signed32 d)
    (hmoved : moved = Word.signed64 (displace (old + next) d - (new + next)))
    (hfits : moved = Word.signed32 moved) : moved = d + Word.signed64 (old - new) := by
  have hword : displace (old + next) d - (new + next) = Word.ofInt d + (old - new) := by
    rw [displace]
    generalize Word.ofInt d = e
    grind
  have hm : moved = ((Word.ofInt d + (old - new)).toNat : Int).bmod Word.limit := by
    rw [hmoved, hword, Word.signed64]
  have hof := Word.toNat_ofInt d
  have hlo := Word.signed32_bounds d
  have hhi := Word.signed32_bounds moved
  rw [← hd] at hlo
  rw [← hfits] at hhi
  rw [UInt64.toNat_add] at hm
  unfold Word.signed64
  have hlt := (old - new).toNat_lt
  simp only [Int.bmod, Word.limit] at hm hof ⊢
  omega

/-- And where the sum fits four bytes, it is the distance. -/
theorem displace_sub_of_fits (old new next : UInt64) {d : Int}
    (hfits : d + Word.signed64 (old - new) = Word.signed32 (d + Word.signed64 (old - new))) :
    Word.signed64 (displace (old + next) d - (new + next)) = d + Word.signed64 (old - new) := by
  have hword : displace (old + next) d - (new + next) = Word.ofInt d + (old - new) := by
    rw [displace]
    generalize Word.ofInt d = e
    grind
  have hof := Word.toNat_ofInt d
  have hbounds := Word.signed32_bounds (d + Word.signed64 (old - new))
  rw [← hfits] at hbounds
  rw [hword, Word.signed64, UInt64.toNat_add]
  unfold Word.signed64 at hbounds ⊢
  have hlt := (old - new).toNat_lt
  simp only [Int.bmod, Word.limit] at hof hbounds ⊢
  omega

end Address

namespace Blob

variable {code bytes : List UInt8} {offset : Nat}

/-- The bytes after a replacement: the new ones in its range, the old ones elsewhere. -/
theorem getElem?_overwrite (h : offset + bytes.length ≤ code.length) (p : Nat) :
    (overwrite code offset bytes)[p]? =
      if offset ≤ p ∧ p < offset + bytes.length then bytes[p - offset]? else code[p]? := by
  have htake : (code.take offset).length = offset := by
    rw [List.length_take]
    omega
  unfold overwrite
  by_cases hlo : p < offset
  · rw [if_neg (by omega), List.append_assoc, List.getElem?_append_left (by omega),
      List.getElem?_take_of_lt hlo]
  · by_cases hhi : p < offset + bytes.length
    · rw [if_pos (by omega), List.getElem?_append_left (by rw [List.length_append]; omega),
        List.getElem?_append_right (by omega), htake]
    · rw [if_neg (by omega), List.getElem?_append_right (by rw [List.length_append]; omega),
        List.length_append, htake, List.getElem?_drop]
      congr 1
      omega

theorem length_overwrite (h : offset + bytes.length ≤ code.length) :
    (overwrite code offset bytes).length = code.length := by
  unfold overwrite
  simp only [List.length_append, List.length_take, List.length_drop]
  omega

/-- The bytes just written are found again. -/
theorem slice_overwrite (h : offset + bytes.length ≤ code.length) :
    ((overwrite code offset bytes).drop offset).take bytes.length = bytes := by
  apply List.ext_getElem?
  intro p
  by_cases hp : p < bytes.length
  · rw [List.getElem?_take_of_lt hp, List.getElem?_drop, getElem?_overwrite h,
      if_pos (by omega), Nat.add_sub_cancel_left]
  · rw [List.getElem?_eq_none (by rw [List.length_take]; omega),
      List.getElem?_eq_none (by omega)]

/-- A slice depends on its own bytes only. -/
theorem slice_congr {code' : List UInt8} {width : Nat}
    (h : ∀ p, offset ≤ p → p < offset + width → code[p]? = code'[p]?) :
    (code.drop offset).take width = (code'.drop offset).take width := by
  apply List.ext_getElem?
  intro p
  by_cases hp : p < width
  · rw [List.getElem?_take_of_lt hp, List.getElem?_take_of_lt hp, List.getElem?_drop,
      List.getElem?_drop]
    exact h _ (by omega) (by omega)
  · rw [List.getElem?_eq_none (by rw [List.length_take]; omega),
      List.getElem?_eq_none (by rw [List.length_take]; omega)]

/-- Replacements that do not touch can be made in either order. -/
theorem overwrite_comm {bytes' : List UInt8} {offset' : Nat}
    (h : offset + bytes.length ≤ code.length) (h' : offset' + bytes'.length ≤ code.length)
    (hapart : offset + bytes.length ≤ offset' ∨ offset' + bytes'.length ≤ offset) :
    overwrite (overwrite code offset bytes) offset' bytes' =
      overwrite (overwrite code offset' bytes') offset bytes := by
  apply List.ext_getElem?
  intro p
  rw [getElem?_overwrite (by rw [length_overwrite h]; exact h'), getElem?_overwrite h,
    getElem?_overwrite (by rw [length_overwrite h']; exact h), getElem?_overwrite h']
  split <;> split <;> first | rfl | omega

/-- The later of two replacements of the same bytes counts. -/
theorem overwrite_overwrite {bytes' : List UInt8} (hlen : bytes.length = bytes'.length)
    (h : offset + bytes.length ≤ code.length) :
    overwrite (overwrite code offset bytes) offset bytes' = overwrite code offset bytes' := by
  apply List.ext_getElem?
  intro p
  rw [getElem?_overwrite (by rw [length_overwrite h, ← hlen]; exact h), getElem?_overwrite h,
    getElem?_overwrite (by rw [← hlen]; exact h), hlen]
  split <;> rfl

end Blob

end ManagedCode
