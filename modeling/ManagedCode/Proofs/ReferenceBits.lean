import ManagedCode.Compiled.RefBits
import ManagedCode.Proofs.Steps

/-! # Reference bits as sets of indices

    A bit vector is read through its words, but it stands for a set: the indices of the bits that
    are set.  Word and shift of an index are quotient and remainder of the same division, so two
    indices share a bit only if they are the same; that is all there is to setting a bit.

* **`RefBits.ext_testBit`** — a vector is determined by its size and its bits.
* **`RefBits.set_ok`**, **`RefBits.set_beyond`** — setting one bit, within the vector and beyond.
* **`RefBits.setAll_ok`**, **`RefBits.setAll_beyond`** — setting the bits of a list.
* **`RefBits.ofSetBits_cases`** — what is set in a vector made from a list of indices, and when
  there is none.
* **`RefBits.bits_are_index_sets`** — vectors as sets. -/

namespace ManagedCode.RefBits

variable {b b' : RefBits} {i j : Nat} {indices : List Nat}

-- ── Words and indices ───────────────────────────────────────────────────────────

theorem lt_words_iff : i / wordBits < b.words.length ↔ i < b.size := by
  simp only [size, wordBits]
  omega

theorem lt_size_of_testBit (h : b.testBit i = true) : i < b.size := by
  simp only [testBit] at h
  split at h
  · next word hword => exact lt_words_iff.mp (List.getElem?_eq_some_iff.mp hword).1
  · exact nomatch h

theorem isSet_eq (hi : i < b.size) : b.isSet i = .ok (b.testBit i) := by
  rw [isSet, require_met (lt_words_iff.mpr hi)]
  rfl

theorem isSet_beyond (hi : b.size ≤ i) : b.isSet i = .error .bitOutside := by
  have hword : ¬ i / wordBits < b.words.length := mt lt_words_iff.mp (Nat.not_lt.mpr hi)
  rw [isSet, require_unmet hword]
  rfl

/-- A word with one more bit in it. -/
theorem testBit_or_shift (word : UInt64) {k : Nat} (hk : k < wordBits) (p : Nat) :
    (word ||| UInt64.ofNat (1 <<< k)).toNat.testBit p = (word.toNat.testBit p || decide (p = k)) := by
  have hfits : 2 ^ k < 2 ^ 64 := Nat.pow_lt_pow_right (by decide) hk
  have hbit : (UInt64.ofNat (1 <<< k)).toNat = 2 ^ k := by
    rw [UInt64.toNat_ofNat', Nat.one_shiftLeft, Nat.mod_eq_of_lt hfits]
  rw [UInt64.toNat_or, hbit, Nat.testBit_or, Nat.testBit_two_pow]
  simp only [eq_comm]

/-- **A vector is determined by its size and its bits.** -/
theorem ext_testBit (hsize : b.size = b'.size) (h : ∀ i, b.testBit i = b'.testBit i) : b = b' := by
  obtain ⟨words⟩ := b
  obtain ⟨words'⟩ := b'
  have hlength : words.length = words'.length :=
    Nat.eq_of_mul_eq_mul_right (show 0 < wordBits by decide) hsize
  congr 1
  apply List.ext_getElem hlength
  intro k hk hk'
  apply UInt64.toNat.inj
  apply Nat.eq_of_testBit_eq
  intro p
  by_cases hp : p < wordBits
  · -- bit `p` of word `k` is the bit of this index
    have hbit := h (k * wordBits + p)
    have hquotient : (k * wordBits + p) / wordBits = k := by
      simp only [wordBits] at hp ⊢
      omega
    have hremainder : (k * wordBits + p) % wordBits = p := by
      simp only [wordBits] at hp ⊢
      omega
    simpa only [testBit, hquotient, hremainder, List.getElem?_eq_getElem hk,
      List.getElem?_eq_getElem hk'] using hbit
  · have hclear : ∀ word : UInt64, word.toNat.testBit p = false := by
      intro word
      apply Nat.testBit_lt_two_pow
      exact Nat.lt_of_lt_of_le word.toNat_lt (Nat.pow_le_pow_right (by decide) (Nat.not_lt.mp hp))
    rw [hclear, hclear]

-- ── Setting bits ────────────────────────────────────────────────────────────────

/-- **Setting a bit of the vector** sets it, and neither another bit nor the size changes. -/
theorem set_ok (hi : i < b.size) :
    ∃ b', b.set i = .ok b' ∧ b'.size = b.size ∧
      ∀ j, b'.testBit j = (b.testBit j || decide (j = i)) := by
  have hword := lt_words_iff.mpr hi
  refine ⟨⟨b.words.modify (i / wordBits) fun word =>
    word ||| UInt64.ofNat (1 <<< (i % wordBits))⟩, ?_, ?_, ?_⟩
  · rw [set, require_met hword]
    rfl
  · simp only [size, List.length_modify]
  · intro j
    have hshift : i % wordBits < wordBits := Nat.mod_lt _ (by decide)
    simp only [testBit, List.getElem?_modify]
    by_cases hsame : i / wordBits = j / wordBits
    · rw [← hsame, List.getElem?_eq_getElem hword]
      -- in the same word, the indices are the same if the shifts are
      have hindex : j % wordBits = i % wordBits ↔ j = i := by
        simp only [wordBits] at hsame ⊢
        omega
      simp only [Option.map_eq_map, Option.map_some, if_true, testBit_or_shift _ hshift, hindex]
    · have hne : ¬ j = i := by
        rintro rfl
        exact hsame rfl
      simp only [if_neg hsame, hne, decide_false, Bool.or_false, Option.map_eq_map, Option.map_id']

theorem set_beyond (hi : b.size ≤ i) : b.set i = .error .bitOutside := by
  have hword : ¬ i / wordBits < b.words.length := mt lt_words_iff.mp (Nat.not_lt.mpr hi)
  rw [set, require_unmet hword]
  rfl

/-- **Setting the bits of a list** within the vector adds its elements to what is set. -/
theorem setAll_ok (hindices : ∀ i ∈ indices, i < b.size) :
    ∃ b', indices.foldlM set b = .ok b' ∧ b'.size = b.size ∧
      ∀ j, b'.testBit j = (b.testBit j || decide (j ∈ indices)) := by
  induction indices generalizing b with
  | nil =>
      refine ⟨b, rfl, rfl, ?_⟩
      intro j
      simp
  | cons first rest ih =>
      obtain ⟨hfirst, hrest⟩ := List.forall_mem_cons.mp hindices
      obtain ⟨b₁, hset, hsize, hbits⟩ := set_ok hfirst
      obtain ⟨b', hall, hsize', hbits'⟩ := ih (b := b₁) (by rwa [hsize])
      refine ⟨b', ?_, hsize'.trans hsize, ?_⟩
      · rw [List.foldlM_cons, hset]
        exact hall
      · intro j
        rw [hbits', hbits, Bool.or_assoc]
        simp [List.mem_cons]

/-- A list with an index beyond the vector is refused, wherever that index stands. -/
theorem setAll_beyond (hindices : ∃ i ∈ indices, b.size ≤ i) :
    indices.foldlM set b = .error .bitOutside := by
  induction indices generalizing b with
  | nil =>
      obtain ⟨i, hi, -⟩ := hindices
      exact nomatch hi
  | cons first rest ih =>
      rw [List.foldlM_cons]
      by_cases hfirst : first < b.size
      · obtain ⟨b₁, hset, hsize, -⟩ := set_ok hfirst
        obtain ⟨i, hi, hbeyond⟩ := hindices
        have hrest : i ∈ rest := by
          rcases List.mem_cons.mp hi with rfl | hrest
          · exact absurd hfirst (Nat.not_lt.mpr hbeyond)
          · exact hrest
        rw [hset]
        exact ih ⟨i, hrest, by rwa [hsize]⟩
      · rw [set_beyond (Nat.not_lt.mp hfirst)]
        rfl

-- ── Vectors made from indices ───────────────────────────────────────────────────

/-- How many bits a vector of at least `bits` bits has: the least multiple of the word size that is
    not below. -/
def roundedSize (bits : Nat) : Nat := (bits + (wordBits - 1)) / wordBits * wordBits

theorem roundedSize_least (bits : Nat) :
    wordBits ∣ roundedSize bits ∧ bits ≤ roundedSize bits ∧ roundedSize bits < bits + wordBits := by
  refine ⟨Nat.dvd_mul_left .., ?_, ?_⟩
  · simp only [roundedSize, wordBits]
    omega
  · simp only [roundedSize, wordBits]
    omega

theorem clear_ok {bits : Nat} (hbits : bits + wordBits < Word.limit) :
    ∃ b, clear bits = .ok b ∧ b.size = roundedSize bits ∧ ∀ i, b.testBit i = false := by
  refine ⟨⟨List.replicate ((bits + wordBits - 1) / wordBits) 0⟩, ?_, ?_, ?_⟩
  · rw [clear, Size.add_of_lt hbits]
    rfl
  · simp only [size, List.length_replicate]
    rfl
  · intro i
    simp only [testBit, List.getElem?_replicate]
    split
    · next word hword =>
        split at hword
        · obtain rfl := Option.some.inj hword
          simp
        · exact nomatch hword
    · rfl

/-- **A vector is made from indices** or not: one of them is beyond it, or its bits are those of the
    list. -/
theorem ofSetBits_cases {bits : Nat} (hbits : bits + wordBits < Word.limit) (indices : List Nat) :
    (∃ i ∈ indices, roundedSize bits ≤ i) ∧ ofSetBits bits indices = .error .bitOutside ∨
      (∀ i ∈ indices, i < roundedSize bits) ∧
        ∃ b, ofSetBits bits indices = .ok b ∧ b.size = roundedSize bits ∧
          ∀ j, b.testBit j = decide (j ∈ indices) := by
  obtain ⟨empty, hclear, hsize, hunset⟩ := clear_ok hbits
  have hmake : ofSetBits bits indices = indices.foldlM set empty := by
    rw [ofSetBits, hclear]
    rfl
  by_cases hbeyond : ∃ i ∈ indices, roundedSize bits ≤ i
  · refine Or.inl ⟨hbeyond, ?_⟩
    rw [hmake]
    exact setAll_beyond (by rwa [hsize])
  · have hin : ∀ i ∈ indices, i < roundedSize bits := by
      intro i hi
      exact Nat.lt_of_not_le fun hle => hbeyond ⟨i, hi, hle⟩
    obtain ⟨b, hall, hsize', hset⟩ := setAll_ok (b := empty) (by rwa [hsize])
    refine Or.inr ⟨hin, b, hmake.trans hall, hsize'.trans hsize, ?_⟩
    intro j
    rw [hset, hunset, Bool.false_or]

/-- **Lists with the same elements** make the same vector, or none. -/
theorem ofSetBits_congr {bits : Nat} {indices' : List Nat} (hbits : bits + wordBits < Word.limit)
    (hsame : ∀ i, i ∈ indices' ↔ i ∈ indices) :
    ofSetBits bits indices' = ofSetBits bits indices := by
  rcases ofSetBits_cases hbits indices with ⟨⟨i, hi, hle⟩, hrefused⟩ | ⟨hin, b, hmade, hsize, hset⟩
  · rcases ofSetBits_cases hbits indices' with ⟨-, hrefused'⟩ | ⟨hin', -⟩
    · rw [hrefused, hrefused']
    · exact absurd (hin' i ((hsame i).mpr hi)) (Nat.not_lt.mpr hle)
  · rcases ofSetBits_cases hbits indices' with ⟨⟨i, hi, hle⟩, -⟩ | ⟨-, b', hmade', hsize', hset'⟩
    · exact absurd (hin i ((hsame i).mp hi)) (Nat.not_lt.mpr hle)
    · rw [hmade, hmade']
      congr 1
      apply ext_testBit (hsize'.trans hsize.symm)
      intro i
      rw [hset, hset']
      simp only [hsame]

/-- **Reference bits are sets of indices.** A vector of at least `bits` bits is refused exactly if
    one of its indices is at or above the size it is rounded up to. If it is made, its bits are the
    indices of the list, whatever their order and however often they occur, and no bit beyond it can
    be read. Setting a bit of any vector adds this index and leaves the others and the size alone. -/
theorem bits_are_index_sets (bits : Nat) (indices : List Nat)
    (hbits : bits + wordBits < Word.limit) :
    (wordBits ∣ roundedSize bits ∧ bits ≤ roundedSize bits ∧ roundedSize bits < bits + wordBits) ∧
    ((∃ fault, ofSetBits bits indices = .error fault) ↔ ∃ i ∈ indices, roundedSize bits ≤ i) ∧
    (∀ b, ofSetBits bits indices = .ok b →
      b.size = roundedSize bits ∧
      (∀ i, i < b.size → b.isSet i = .ok (decide (i ∈ indices))) ∧
      ∀ i, b.size ≤ i → b.isSet i = .error .bitOutside) ∧
    (∀ indices', (∀ i, i ∈ indices' ↔ i ∈ indices) →
      ofSetBits bits indices' = ofSetBits bits indices) ∧
    ∀ (b : RefBits) (i : Nat), i < b.size →
      ∃ b', b.set i = .ok b' ∧ b'.size = b.size ∧ b'.isSet i = .ok true ∧
        ∀ j, j ≠ i → b'.isSet j = b.isSet j := by
  refine ⟨roundedSize_least bits, ?_, ?_, ?_, ?_⟩
  · rcases ofSetBits_cases hbits indices with ⟨hbeyond, hrefused⟩ | ⟨hin, b, hmade, -⟩
    · exact iff_of_true ⟨_, hrefused⟩ hbeyond
    · refine iff_of_false ?_ ?_
      · rintro ⟨fault, hfault⟩
        exact nomatch hfault.symm.trans hmade
      · rintro ⟨i, hi, hle⟩
        exact absurd (hin i hi) (Nat.not_lt.mpr hle)
  · intro b hmade
    rcases ofSetBits_cases hbits indices with ⟨-, hrefused⟩ | ⟨-, b₁, hmade₁, hsize, hset⟩
    · exact nomatch hmade.symm.trans hrefused
    · obtain rfl : b = b₁ := Except.ok.inj (hmade.symm.trans hmade₁)
      refine ⟨hsize, ?_, fun i => isSet_beyond⟩
      intro i hi
      rw [isSet_eq hi, hset]
  · intro indices' hsame
    exact ofSetBits_congr hbits hsame
  · intro b i hi
    obtain ⟨b', hset, hsize, hbits'⟩ := set_ok hi
    refine ⟨b', hset, hsize, ?_, ?_⟩
    · rw [isSet_eq (by rwa [hsize]), hbits']
      simp
    · intro j hj
      by_cases hlt : j < b.size
      · rw [isSet_eq hlt, isSet_eq (by rwa [hsize]), hbits']
        simp [hj]
      · have hbeyond := Nat.not_lt.mp hlt
        rw [isSet_beyond hbeyond, isSet_beyond (by rwa [hsize])]

/-- Bits on both sides of the first word's end, given once or twice, and an index beyond the third
    word. -/
theorem bits_are_index_sets_three_words :
    130 + wordBits < Word.limit ∧ ∃ b b',
      ofSetBits 130 [0, 63, 64, 129] = .ok b ∧ b.size = 192 ∧
      b.isSet 129 = .ok true ∧ b.isSet 128 = .ok false ∧ b.isSet 192 = .error .bitOutside ∧
      ofSetBits 130 [64, 129, 63, 0, 64] = .ok b ∧
      (∃ fault, ofSetBits 130 [0, 192] = .error fault) ∧
      b.set 128 = .ok b' ∧ b'.isSet 128 = .ok true ∧ b'.isSet 129 = .ok true := by
  have hbits : 130 + wordBits < Word.limit := by decide
  obtain ⟨-, -, hmade, horder, hset⟩ := bits_are_index_sets 130 [0, 63, 64, 129] hbits
  obtain ⟨-, hrefused, -⟩ := bits_are_index_sets 130 [0, 192] hbits
  have hb : ofSetBits 130 [0, 63, 64, 129] = .ok ⟨[0x8000000000000001, 1, 2]⟩ := rfl
  obtain ⟨hsize, hread, hbeyond⟩ := hmade _ hb
  obtain ⟨b', hb', -, hadded, hothers⟩ := hset ⟨[0x8000000000000001, 1, 2]⟩ 128 (by decide)
  refine ⟨hbits, _, b', hb, hsize, hread 129 (by decide), hread 128 (by decide),
    hbeyond 192 (by decide), ?_, ?_, hb', hadded, ?_⟩
  · rw [horder _ (by intro i; simp; omega), hb]
  · exact hrefused.mpr ⟨192, by decide, by decide⟩
  · rw [hothers 129 (by decide)]
    exact hread 129 (by decide)

/-- The sum behind the rounding is checked before anything is subtracted from it, so the largest
    multiple of the word size is refused as a size, although it is its own rounding. -/
theorem largest_rounded_size_refused :
    ¬ ∀ (bits : Nat) (indices : List Nat), bits + 63 < Word.limit →
      ((∃ fault, ofSetBits bits indices = .error fault) ↔
        ∃ i ∈ indices, roundedSize bits ≤ i) := by
  intro hrefused
  have hfault : ofSetBits 0xffffffffffffffc0 [] = .error .overflow := rfl
  obtain ⟨i, hi, -⟩ := (hrefused 0xffffffffffffffc0 [] (by decide)).mp ⟨_, hfault⟩
  exact nomatch hi

end ManagedCode.RefBits
