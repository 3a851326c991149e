import Mathlib.Data.List.Nodup
import Mathlib.Data.Set.Function
import ManagedCode.Proofs.Clean
import ManagedCode.Proofs.ReferenceBits

/-! # Reference maps and reference bits

    The reference map of a suspension point is built by three loops with bounds of their own: the
    check of the register bits goes up to the number of known registers, the recording of registers
    up to the number of general ones, and the recording of the frame up to the frame bits there are.
    What the loops make together is said here without them, place by place.

* **`RefMap.recordAll_ok`** — different places are recorded one after the other.
* **`RefMap.Misplaced`** — the set bits that stop the map, and
  **`RefMap.ofBits_of_not_misplaced`**, the entries that are made without them.
* **`RefMap.expected`** — what the bits say about a place, and **`map_read_off_reference_bits`**,
  that the map says the same.
* **`references_biject_known_bits`** — set bits against listed references, and the bits that are
  lost: those of a register beyond the known ones. -/

namespace ManagedCode

/-- A loop of checks goes through if each of them does. -/
theorem Checked.forM_ok_iff {α : Type} {f : α → Checked Unit} {xs : List α} :
    xs.forM f = .ok () ↔ ∀ x ∈ xs, f x = .ok () := by
  induction xs with
  | nil => simp [pure, Except.pure]
  | cons x rest ih =>
      show (f x >>= fun _ => rest.forM f) = .ok () ↔ _
      rw [List.forall_mem_cons, ← ih]
      constructor
      · intro h
        obtain ⟨_, hfirst, hrest⟩ := Checked.bind_ok h
        exact ⟨hfirst, hrest⟩
      · rintro ⟨hfirst, hrest⟩
        rw [hfirst]
        exact hrest

namespace RefMap

variable {m m' : RefMap} {place : Place} {content : Content} {frameSize parameterCount : Nat}
  {registerBits : Option RefBits} {frameBits : RefBits} {i : Nat}

-- ── Recording places ────────────────────────────────────────────────────────────

/-- Records places with their contents, one after the other. -/
def recordAll (items : List (Place × Content)) (m : RefMap) : Checked RefMap :=
  items.foldlM (fun m item => m.record item.1 item.2) m

theorem perm_insertEntry (place : Place) (content : Content) (entries : List (Place × Content)) :
    (insertEntry place content entries).Perm ((place, content) :: entries) := by
  induction entries with
  | nil => exact .refl _
  | cons entry rest ih =>
      simp only [insertEntry]
      split
      · exact .refl _
      · exact (ih.cons entry).trans (.swap ..)

/-- **Different places** that are not recorded yet are recorded without a fault, and nothing else
    is. -/
theorem recordAll_ok {items : List (Place × Content)} (hdistinct : (items.map Prod.fst).Nodup)
    (hnew : ∀ item ∈ items, m.get? item.1 = none) :
    ∃ entries, recordAll items m = .ok { m with entries } ∧
      entries.Perm (items ++ m.entries) := by
  induction items generalizing m with
  | nil => exact ⟨m.entries, rfl, .refl _⟩
  | cons item rest ih =>
      obtain ⟨place, content⟩ := item
      obtain ⟨hfirst, hrest⟩ := List.forall_mem_cons.mp hnew
      rw [List.map_cons, List.nodup_cons] at hdistinct
      obtain ⟨hplace, hdistinct⟩ := hdistinct
      have hfree : ∀ item ∈ rest,
          get? { m with entries := insertEntry place content m.entries } item.1 = none := by
        intro item hitem
        have hne : item.1 ≠ place := by
          rintro rfl
          have hmem : item.1 ∈ rest.map Prod.fst := List.mem_map_of_mem hitem
          exact hplace hmem
        exact (lookup_insertEntry_of_ne hne m.entries).trans (hrest item hitem)
      obtain ⟨entries, hentries, hperm⟩ := ih hdistinct hfree
      refine ⟨entries, ?_, ?_⟩
      · simp only [recordAll, List.foldlM_cons, record, hfirst]
        exact hentries
      · have hinserted := (perm_insertEntry place content m.entries).append_left rest
        exact hperm.trans (hinserted.trans List.perm_middle)

theorem registerBit_eq (bits : Option RefBits) (i : Nat) :
    registerBit bits i = .ok (bits.any fun bits => bits.testBit i) := by
  cases bits with
  | none => rfl
  | some bits =>
      simp only [registerBit, Option.any_some]
      split
      · next hi => exact RefBits.isSet_eq hi
      · next hi =>
          have hclear : bits.testBit i = false :=
            Bool.eq_false_iff.mpr fun hset => hi (RefBits.lt_size_of_testBit hset)
          rw [hclear]

/-- The general registers with their contents. -/
def registerItems (bits : Option RefBits) : List (Place × Content) :=
  (List.range Register.generalCount).map fun i =>
    (.register (registerAt i), contentOfBit (bits.any fun bits => bits.testBit i))

/-- The stack words of frame bits with their contents, of those within the frame. -/
def frameItems (frameSize : Nat) (bits : RefBits) (indices : List Nat) : List (Place × Content) :=
  (indices.filter fun i => i < frameSize / stackWord).map fun i =>
    (.stack (slotOfBit i), contentOfBit (bits.testBit i))

theorem number_registerAt (hi : i < Register.generalCount) : (registerAt i).number.toNat = i := by
  simp only [Register.generalCount] at hi
  simp only [registerAt, UInt8.toNat_ofNat']
  omega

theorem isStack_of_mem_registerItems {bits : Option RefBits} {item : Place × Content}
    (hitem : item ∈ registerItems bits) : item.1.isStack = false := by
  obtain ⟨i, -, rfl⟩ := List.mem_map.mp hitem
  rfl

theorem isStack_of_mem_frameItems {bits : RefBits} {indices : List Nat} {item : Place × Content}
    (hitem : item ∈ frameItems frameSize bits indices) : item.1.isStack = true := by
  obtain ⟨i, -, rfl⟩ := List.mem_map.mp hitem
  rfl

theorem nodup_registerItems (bits : Option RefBits) :
    ((registerItems bits).map Prod.fst).Nodup := by
  simp only [registerItems, List.map_map]
  refine List.Nodup.map_on (fun i hi j hj heq => ?_) List.nodup_range
  exact registerAt_inj (List.mem_range.mp hi) (List.mem_range.mp hj) (Place.register.inj heq)

theorem nodup_frameItems (hframe : frameSize / stackWord * 2 ≤ Word.limit32) (bits : RefBits)
    {indices : List Nat} (hdistinct : indices.Nodup) :
    ((frameItems frameSize bits indices).map Prod.fst).Nodup := by
  simp only [frameItems, List.map_map]
  refine List.Nodup.map_on (fun i hi j hj heq => ?_) (hdistinct.filter _)
  exact slotOfBit_inj hframe (of_decide_eq_true (List.mem_filter.mp hi).2)
    (of_decide_eq_true (List.mem_filter.mp hj).2) (Place.stack.inj heq)

theorem recordRegisters_eq (bits : Option RefBits) (m : RefMap) :
    recordRegisters bits m = recordAll (registerItems bits) m := by
  simp only [recordRegisters, recordAll, registerItems, List.foldlM_map, registerBit_eq]
  rfl

theorem recordFrameBit_eq (hi : i < frameBits.size) (m : RefMap) :
    recordFrameBit frameBits m i =
      if i < m.frameSize / stackWord then
        m.record (.stack (slotOfBit i)) (contentOfBit (frameBits.testBit i))
      else if frameBits.testBit i then .error (.table (.referenceOutsideFrame i m.frameSize))
      else .ok m := by
  simp only [recordFrameBit, RefBits.isSet_eq hi]
  rfl

/-- Recording frame bits is recording the stack words within the frame, if no bit beyond it is
    set. -/
theorem foldlM_recordFrameBit_eq {indices : List Nat} (hm : m.frameSize = frameSize)
    (hindices : ∀ i ∈ indices, i < frameBits.size)
    (hwithin : ∀ i, frameBits.testBit i = true → i < frameSize / stackWord) :
    indices.foldlM (recordFrameBit frameBits) m =
      recordAll (frameItems frameSize frameBits indices) m := by
  induction indices generalizing m with
  | nil => rfl
  | cons i rest ih =>
      obtain ⟨hi, hrest⟩ := List.forall_mem_cons.mp hindices
      rw [List.foldlM_cons, recordFrameBit_eq hi, hm]
      by_cases hin : i < frameSize / stackWord
      · rw [if_pos hin]
        simp only [frameItems, List.filter_cons, decide_eq_true hin, if_true, List.map_cons,
          recordAll, List.foldlM_cons]
        cases hrecord : m.record (.stack (slotOfBit i)) (contentOfBit (frameBits.testBit i)) with
        | error fault => rfl
        | ok m₁ => exact ih ((record_ok hrecord).1.trans hm) hrest
      · have hclear : frameBits.testBit i = false :=
          Bool.eq_false_iff.mpr fun hset => hin (hwithin i hset)
        rw [if_neg hin, hclear, if_neg Bool.false_ne_true]
        simp only [frameItems, List.filter_cons, decide_eq_false hin]
        exact ih hm hrest

-- ── Bits that stop the map ──────────────────────────────────────────────────────

/-- A reference bit is set where no reference may be: on the stack pointer, the frame pointer, the
    scratch register or a vector register, or on a stack word beyond the frame. -/
def Misplaced (frameSize : Nat) (registerBits : Option RefBits) (frameBits : RefBits) : Prop :=
  (∃ bits i, registerBits = some bits ∧ i < 32 ∧ bits.testBit i = true ∧
    (i = 4 ∨ i = 5 ∨ i = 10 ∨ 16 ≤ i)) ∨
  ∃ i, frameSize / 8 ≤ i ∧ frameBits.testBit i = true

/-- The known registers that may hold no reference. -/
theorem registerAt_mayHoldReference (hi : i < 32) :
    (registerAt i).mayHoldReference = false ↔ i = 4 ∨ i = 5 ∨ i = 10 ∨ 16 ≤ i := by
  decide +revert

theorem checkRegisters_ok_iff {bits : RefBits} :
    checkRegisters bits = .ok () ↔
      ∀ i < 32, bits.testBit i = true → (registerAt i).mayHoldReference = true := by
  have hstep : ∀ i < bits.size, (do
      if (← bits.isSet i) && !(registerAt i).mayHoldReference then
        let name ← (registerAt i).text
        .error (.table (.referenceInRegister name)) : Checked Unit) = .ok () ↔
      (bits.testBit i = true → (registerAt i).mayHoldReference = true) := by
    intro i hi
    rw [RefBits.isSet_eq hi]
    show (if (bits.testBit i && !(registerAt i).mayHoldReference) = true then
      (registerAt i).text >>= fun name => .error (.table (.referenceInRegister name))
      else .ok ()) = Except.ok () ↔ _
    split
    · next hset =>
        simp only [Bool.and_eq_true, Bool.not_eq_true'] at hset
        simp only [hset, forall_const, Bool.false_eq_true, iff_false]
        intro h
        obtain ⟨name, -, h⟩ := Checked.bind_ok h
        exact nomatch h
    · next hset => simpa using hset
  simp only [checkRegisters, Checked.forM_ok_iff, List.mem_range, Register.count]
  constructor
  · intro h i hi hset
    have hsize := RefBits.lt_size_of_testBit hset
    exact (hstep i hsize).mp (h i (by omega)) hset
  · intro h i hi
    exact (hstep i (by omega)).mpr (h i (by omega))

theorem within_of_foldlM_recordFrameBit {indices : List Nat} (hm : m.frameSize = frameSize)
    (hindices : ∀ i ∈ indices, i < frameBits.size)
    (h : indices.foldlM (recordFrameBit frameBits) m = .ok m') :
    ∀ i ∈ indices, frameBits.testBit i = true → i < frameSize / stackWord := by
  induction indices generalizing m with
  | nil => exact nofun
  | cons i rest ih =>
      obtain ⟨hi, hrest⟩ := List.forall_mem_cons.mp hindices
      obtain ⟨m₁, hfirst, h⟩ := Checked.bind_ok h
      rw [recordFrameBit_eq hi, hm] at hfirst
      have hstep : (frameBits.testBit i = true → i < frameSize / stackWord) ∧
          m₁.frameSize = frameSize := by
        split at hfirst
        · next hin => exact ⟨fun _ => hin, (record_ok hfirst).1.trans hm⟩
        · split at hfirst
          · exact nomatch hfirst
          · next hclear =>
              rw [← Except.ok.inj hfirst]
              exact ⟨fun hset => absurd hset hclear, hm⟩
      exact List.forall_mem_cons.mpr ⟨hstep.1, ih hstep.2 hrest h⟩

/-- A map that is built has no set bit misplaced. -/
theorem not_misplaced_of_ofBits
    (h : ofBits frameSize parameterCount registerBits frameBits = .ok m) :
    ¬ Misplaced frameSize registerBits frameBits := by
  obtain ⟨_, hcheck, h⟩ := Checked.bind_ok h
  obtain ⟨m₁, hregisters, hframe⟩ := Checked.bind_ok h
  rintro (⟨bits, i, rfl, hi, hset, hplace⟩ | ⟨i, hi, hset⟩)
  · have hmay := checkRegisters_ok_iff.mp hcheck i hi hset
    rw [(registerAt_mayHoldReference hi).mpr hplace] at hmay
    exact nomatch hmay
  · have hsize : m₁.frameSize = frameSize :=
      Checked.foldlM_keeps (P := fun m => m.frameSize = frameSize) (fun m i m' hm hstep => by
        obtain ⟨_, -, hstep⟩ := Checked.bind_ok hstep
        exact (record_ok hstep).1.trans hm) rfl hregisters
    have hwithin := within_of_foldlM_recordFrameBit hsize (fun i => List.mem_range.mp) hframe i
      (List.mem_range.mpr (RefBits.lt_size_of_testBit hset)) hset
    simp only [stackWord] at hwithin
    omega

/-- Without such a bit the map is built, and lists the general registers and the stack words of
    the frame bits within the frame. -/
theorem ofBits_of_not_misplaced (parameterCount : Nat)
    (hframe : frameSize / stackWord * 2 ≤ Word.limit32)
    (hplaced : ¬ Misplaced frameSize registerBits frameBits) :
    ∃ entries, ofBits frameSize parameterCount registerBits frameBits =
        .ok { frameSize, parameterCount, entries } ∧
      (entries.map Prod.fst).Nodup ∧
      entries.Perm (frameItems frameSize frameBits (List.range frameBits.size) ++
        registerItems registerBits) := by
  have hcheck : registerBits.forM checkRegisters = .ok () := by
    cases registerBits with
    | none => rfl
    | some bits =>
        refine checkRegisters_ok_iff.mpr fun i hi hset => ?_
        rw [← Bool.not_eq_false, registerAt_mayHoldReference hi]
        exact fun hplace => hplaced (.inl ⟨bits, i, rfl, hi, hset, hplace⟩)
  have hwithin : ∀ i, frameBits.testBit i = true → i < frameSize / stackWord := by
    intro i hset
    by_contra hout
    exact hplaced (.inr ⟨i, Nat.le_of_not_lt hout, hset⟩)
  obtain ⟨first, hfirst, hregisters⟩ := recordAll_ok (m := { frameSize, parameterCount })
    (nodup_registerItems registerBits) (fun _ _ => rfl)
  rw [List.append_nil] at hregisters
  have hfree : ∀ item ∈ frameItems frameSize frameBits (List.range frameBits.size),
      get? { frameSize, parameterCount, entries := first } item.1 = none := by
    intro item hitem
    refine List.lookup_eq_none_iff.mpr fun entry hentry => bne_iff_ne.mpr fun heq => ?_
    have hstack := isStack_of_mem_frameItems hitem
    rw [heq, isStack_of_mem_registerItems (hregisters.mem_iff.mp hentry)] at hstack
    exact Bool.false_ne_true hstack
  obtain ⟨entries, hentries, hperm⟩ := recordAll_ok
    (nodup_frameItems hframe frameBits List.nodup_range) hfree
  have hall := hperm.trans (hregisters.append_left _)
  refine ⟨entries, ?_, ?_, hall⟩
  · have hsteps : ofBits frameSize parameterCount registerBits frameBits =
        (registerBits.forM checkRegisters >>= fun _ =>
          recordRegisters registerBits { frameSize, parameterCount } >>=
          recordFrame frameBits) := rfl
    rw [hsteps, hcheck, recordRegisters_eq, hfirst]
    exact (foldlM_recordFrameBit_eq rfl (fun i => List.mem_range.mp) hwithin).trans hentries
  · rw [(hall.map Prod.fst).nodup_iff, List.map_append, List.nodup_append]
    refine ⟨nodup_frameItems hframe frameBits List.nodup_range, nodup_registerItems registerBits,
      ?_⟩
    rintro place hplace _ hother rfl
    obtain ⟨entry, hentry, rfl⟩ := List.mem_map.mp hplace
    obtain ⟨other, hother, heq⟩ := List.mem_map.mp hother
    have hstack := isStack_of_mem_frameItems hentry
    rw [← heq, isStack_of_mem_registerItems hother] at hstack
    exact Bool.false_ne_true hstack

/-- The stack words of a frame have different slots. -/
theorem slots_distinct (hframe : frameSize ≤ 0x7fffffff + 8) :
    frameSize / stackWord * 2 ≤ Word.limit32 := by
  simp only [stackWord, Word.limit32]
  omega

-- ── What a map says about a place ───────────────────────────────────────────────

/-- What the reference bits say about a place. A general register without a bit of its own holds
    no reference; of the stack, only the even slots of the frame bits within the frame are
    known. -/
def expected (frameSize : Nat) (registerBits : Option RefBits) (frameBits : RefBits) :
    Place → Option Content
  | .register r =>
      if r.isGeneral then
        some (contentOfBit (registerBits.any fun bits => bits.testBit r.number.toNat))
      else none
  | .stack slot =>
      if slot % 2 = 0 ∧ slot / 2 < min frameBits.size (frameSize / 8) then
        some (contentOfBit (frameBits.testBit (slot / 2)))
      else none

/-- With every place listed once, the entry of a place is what is found for it. -/
theorem lookup_eq_some_of_nodup {entries : List (Place × Content)}
    (hdistinct : (entries.map Prod.fst).Nodup) :
    entries.lookup place = some content ↔ (place, content) ∈ entries := by
  induction entries with
  | nil => simp
  | cons entry rest ih =>
      obtain ⟨first, found⟩ := entry
      rw [List.map_cons, List.nodup_cons] at hdistinct
      obtain ⟨hfirst, hdistinct⟩ := hdistinct
      rw [List.lookup_cons, List.mem_cons]
      by_cases hplace : place = first
      · subst hplace
        have hrest : (place, content) ∉ rest := fun hmem =>
          hfirst (List.mem_map.mpr ⟨(place, content), hmem, rfl⟩)
        simp [hrest, eq_comm]
      · rw [beq_false_of_ne hplace]
        simp [ih hdistinct, hplace]

theorem mem_registerItems_iff {bits : Option RefBits} :
    (place, content) ∈ registerItems bits ↔ ∃ r : Register, r.isGeneral = true ∧
      place = .register r ∧
      contentOfBit (bits.any fun bits => bits.testBit r.number.toNat) = content := by
  simp only [registerItems, List.mem_map, List.mem_range, Prod.mk.injEq]
  constructor
  · rintro ⟨i, hi, rfl, rfl⟩
    have hnumber : (registerAt i).number.toNat = i := number_registerAt hi
    refine ⟨registerAt i, ?_, rfl, ?_⟩
    · simp only [Register.isGeneral, hnumber, decide_eq_true hi]
    · rw [hnumber]
  · rintro ⟨r, hr, rfl, rfl⟩
    refine ⟨r.number.toNat, of_decide_eq_true hr, ?_, rfl⟩
    simp only [registerAt, UInt8.ofNat_toNat]

theorem mem_frameItems_iff (hframe : frameSize / stackWord * 2 ≤ Word.limit32) :
    (place, content) ∈ frameItems frameSize frameBits (List.range frameBits.size) ↔
      ∃ i < min frameBits.size (frameSize / stackWord), place = .stack (2 * i) ∧
        contentOfBit (frameBits.testBit i) = content := by
  simp only [frameItems, List.mem_map, List.mem_filter, List.mem_range, Prod.mk.injEq,
    decide_eq_true_eq]
  have hslot : ∀ i < frameSize / stackWord, slotOfBit i = 2 * i := fun i hi =>
    Nat.mod_eq_of_lt (by omega)
  constructor
  · rintro ⟨i, ⟨hi, hin⟩, rfl, rfl⟩
    exact ⟨i, by omega, by rw [hslot i hin], rfl⟩
  · rintro ⟨i, hi, rfl, rfl⟩
    exact ⟨i, ⟨by omega, by omega⟩, by rw [hslot i (by omega)], rfl⟩

theorem expected_eq_some_iff :
    expected frameSize registerBits frameBits place = some content ↔
      (∃ i < min frameBits.size (frameSize / stackWord), place = .stack (2 * i) ∧
        contentOfBit (frameBits.testBit i) = content) ∨
      ∃ r : Register, r.isGeneral = true ∧ place = .register r ∧
        contentOfBit (registerBits.any fun bits => bits.testBit r.number.toNat) = content := by
  cases place with
  | register r => simp [expected, stackWord]
  | stack slot =>
      simp only [expected, stackWord, reduceCtorEq, false_and, and_false, exists_false, or_false,
        Place.stack.injEq]
      constructor
      · intro h
        split at h
        · next hslot => exact ⟨slot / 2, hslot.2, by omega, Option.some.inj h⟩
        · exact nomatch h
      · rintro ⟨i, hi, rfl, rfl⟩
        have hhalf : 2 * i / 2 = i := by omega
        rw [hhalf, if_pos ⟨by omega, hi⟩]

/-- **What a map says about a place** is what the reference bits say about it. -/
theorem get?_ofBits (hframe : frameSize / stackWord * 2 ≤ Word.limit32)
    (h : ofBits frameSize parameterCount registerBits frameBits = .ok m) :
    m.frameSize = frameSize ∧ m.parameterCount = parameterCount ∧
      (m.entries.map Prod.fst).Nodup ∧
      ∀ place, m.get? place = expected frameSize registerBits frameBits place := by
  obtain ⟨entries, hentries, hdistinct, hperm⟩ :=
    ofBits_of_not_misplaced parameterCount hframe (not_misplaced_of_ofBits h)
  obtain rfl := Except.ok.inj (hentries.symm.trans h)
  refine ⟨rfl, rfl, hdistinct, fun place => Option.ext fun content => ?_⟩
  simp only [get?]
  rw [lookup_eq_some_of_nodup hdistinct, hperm.mem_iff, List.mem_append,
    mem_frameItems_iff hframe, mem_registerItems_iff, expected_eq_some_iff]

end RefMap

open RefMap in
/-- **A map is read off the reference bits.** It is refused exactly for a bit set where no reference
    may be. Otherwise it says of every place what the bits say, and nothing of a place they do not
    cover. -/
theorem map_read_off_reference_bits {frameSize : Nat} (hframe : frameSize ≤ 0x7fffffff + 8)
    (parameterCount : Nat) (registerBits : Option RefBits) (frameBits : RefBits) :
    ((∃ fault, ofBits frameSize parameterCount registerBits frameBits = .error fault) ↔
      Misplaced frameSize registerBits frameBits) ∧
    ∀ m, ofBits frameSize parameterCount registerBits frameBits = .ok m →
      m.frameSize = frameSize ∧ m.parameterCount = parameterCount ∧
        ∀ place, m.get? place = expected frameSize registerBits frameBits place := by
  have hslots := slots_distinct hframe
  refine ⟨⟨?_, ?_⟩, ?_⟩
  · rintro ⟨fault, hfault⟩
    by_contra hplaced
    obtain ⟨entries, hentries, -⟩ :=
      ofBits_of_not_misplaced parameterCount hslots hplaced
    exact nomatch hfault.symm.trans hentries
  · intro hplaced
    cases hmap : ofBits frameSize parameterCount registerBits frameBits with
    | error fault => exact ⟨fault, rfl⟩
    | ok m => exact absurd hplaced (not_misplaced_of_ofBits hmap)
  · intro m hmap
    obtain ⟨hsize, hcount, -, hplaces⟩ := get?_ofBits hslots hmap
    exact ⟨hsize, hcount, hplaces⟩

/-- A frame of three words with references in `rbx` and in the first and third word. -/
theorem map_of_three_word_frame :
    24 ≤ 0x7fffffff + 8 ∧ ∃ m, RefMap.ofBits 24 0 (some ⟨[0b1000]⟩) ⟨[0b101]⟩ = .ok m ∧
      m.get? (.register ⟨3⟩) = some .reference ∧ m.get? (.register ⟨16⟩) = none ∧
      m.get? (.stack 2) = some .plain ∧ m.get? (.stack 4) = some .reference ∧
      m.get? (.stack 5) = none ∧ m.get? (.stack 6) = none := by
  have hframe : 24 ≤ 0x7fffffff + 8 := by decide
  obtain ⟨-, hbuilt⟩ := map_read_off_reference_bits hframe 0 (some ⟨[0b1000]⟩) ⟨[0b101]⟩
  cases hmap : RefMap.ofBits 24 0 (some ⟨[0b1000]⟩) ⟨[0b101]⟩ with
  | error fault => exact nomatch hmap
  | ok m =>
      obtain ⟨-, -, hplaces⟩ := hbuilt m hmap
      refine ⟨hframe, m, rfl, ?_⟩
      rw [hplaces, hplaces, hplaces, hplaces, hplaces, hplaces]
      decide

-- ── Set bits and listed references ──────────────────────────────────────────────

/-- A reference bit of a suspension point: that of a register, or that of a stack word. -/
inductive ReferenceBit where
  | register (index : Nat)
  | frame (index : Nat)

namespace ReferenceBit

/-- The place a reference bit stands for. A stack word is two slots. -/
def place : ReferenceBit → Place
  | register i => .register (RefMap.registerAt i)
  | frame i => .stack (2 * i)

/-- Whether a reference bit is set. -/
def IsSet (registerBits : Option RefBits) (frameBits : RefBits) : ReferenceBit → Prop
  | register i => ∃ bits, registerBits = some bits ∧ bits.testBit i = true
  | frame i => frameBits.testBit i = true

/-- Whether a reference bit is that of a stack word or of one of the 32 known registers. -/
def IsKnown : ReferenceBit → Prop
  | register i => i < 32
  | frame _ => True

end ReferenceBit

namespace RefMap

variable {m : RefMap} {place : Place} {frameSize parameterCount : Nat}
  {registerBits : Option RefBits} {frameBits : RefBits} {i : Nat}

theorem contentOfBit_eq_reference {isSet : Bool} :
    contentOfBit isSet = .reference ↔ isSet = true := by
  cases isSet <;> decide

/-- A known register with its bit set is a general one, if no bit is misplaced. -/
theorem general_of_isSet (hplaced : ¬ Misplaced frameSize registerBits frameBits)
    (hset : (ReferenceBit.register i).IsSet registerBits frameBits) (hi : i < 32) :
    i < Register.generalCount := by
  obtain ⟨bits, hbits, hset⟩ := hset
  by_contra hvector
  simp only [Register.generalCount] at hvector
  exact hplaced (.inl ⟨bits, i, hbits, hi, hset, by omega⟩)

/-- The references of a map that was built are the places of the known bits that are set. -/
theorem mem_references_ofBits (hframe : frameSize / stackWord * 2 ≤ Word.limit32)
    (h : ofBits frameSize parameterCount registerBits frameBits = .ok m) :
    place ∈ m.references ↔ ∃ bit : ReferenceBit,
      (bit.IsSet registerBits frameBits ∧ bit.IsKnown) ∧ bit.place = place := by
  have hplaced := not_misplaced_of_ofBits h
  obtain ⟨-, -, hdistinct, hplaces⟩ := get?_ofBits hframe h
  have hlisted : place ∈ m.references ↔ (place, Content.reference) ∈ m.entries := by
    simp [references]
  rw [hlisted, ← lookup_eq_some_of_nodup hdistinct]
  show m.get? place = _ ↔ _
  rw [hplaces, expected_eq_some_iff]
  simp only [contentOfBit_eq_reference]
  constructor
  · rintro (⟨i, -, rfl, hset⟩ | ⟨r, hr, rfl, hset⟩)
    · exact ⟨.frame i, ⟨hset, trivial⟩, rfl⟩
    · obtain ⟨bits, hbits, hset⟩ := (Option.any_eq_true _ _).mp hset
      have hnumber : r.number.toNat < 32 := Nat.lt_trans (of_decide_eq_true hr) (by decide)
      refine ⟨.register r.number.toNat, ⟨⟨bits, hbits, hset⟩, hnumber⟩, ?_⟩
      simp only [ReferenceBit.place, registerAt, UInt8.ofNat_toNat]
  · rintro ⟨i | i, ⟨hset, hknown⟩, rfl⟩
    · have hi := general_of_isSet hplaced hset hknown
      obtain ⟨bits, rfl, hset⟩ := hset
      have hnumber : (registerAt i).number.toNat = i := number_registerAt hi
      refine .inr ⟨registerAt i, ?_, rfl, ?_⟩
      · simp only [Register.isGeneral, hnumber, decide_eq_true hi]
      · rw [Option.any_some, hnumber]
        exact hset
    · have hin : i < frameSize / 8 := by
        by_contra hout
        exact hplaced (.inr ⟨i, Nat.le_of_not_lt hout, hset⟩)
      exact .inl ⟨i, Nat.lt_min.mpr ⟨RefBits.lt_size_of_testBit hset, hin⟩, rfl, hset⟩

/-- Known bits that are set stand for different places. -/
theorem injOn_known (hplaced : ¬ Misplaced frameSize registerBits frameBits) :
    Set.InjOn ReferenceBit.place
      {bit | bit.IsSet registerBits frameBits ∧ bit.IsKnown} := by
  rintro (i | i) ⟨hset, hi⟩ (j | j) ⟨hset', hj⟩ heq
  · have hij := registerAt_inj (general_of_isSet hplaced hset hi)
      (general_of_isSet hplaced hset' hj) (Place.register.inj heq)
    rw [hij]
  · exact nomatch heq
  · exact nomatch heq
  · have hij := Place.stack.inj heq
    rw [show i = j by omega]

theorem nodup_references (hdistinct : (m.entries.map Prod.fst).Nodup) : m.references.Nodup :=
  hdistinct.sublist (List.filter_sublist.map Prod.fst)

end RefMap

open RefMap in
/-- **Known bits and references correspond** one to one: the set bits of the 32 known registers and
    of the stack words, and the places that the map lists. With the other set bits they do so only
    if there are none: the bit of a register beyond the known ones is passed over. -/
theorem references_biject_known_bits {frameSize parameterCount : Nat}
    {registerBits : Option RefBits} {frameBits : RefBits} {m : RefMap}
    (hframe : frameSize ≤ 0x7fffffff + 8)
    (h : ofBits frameSize parameterCount registerBits frameBits = .ok m) :
    m.references.Nodup ∧
    Set.BijOn ReferenceBit.place {bit | bit.IsSet registerBits frameBits ∧ bit.IsKnown}
      {place | place ∈ m.references} ∧
    (Set.BijOn ReferenceBit.place {bit | bit.IsSet registerBits frameBits}
      {place | place ∈ m.references} ↔
        ∀ bit : ReferenceBit, bit.IsSet registerBits frameBits → bit.IsKnown) := by
  have hslots := slots_distinct hframe
  have himage : {place | place ∈ m.references} = ReferenceBit.place ''
      {bit | bit.IsSet registerBits frameBits ∧ bit.IsKnown} :=
    Set.ext fun place => mem_references_ofBits hslots h
  have hknown : Set.BijOn ReferenceBit.place
      {bit | bit.IsSet registerBits frameBits ∧ bit.IsKnown} {place | place ∈ m.references} := by
    rw [himage]
    exact (injOn_known (not_misplaced_of_ofBits h)).bijOn_image
  refine ⟨nodup_references (get?_ofBits hslots h).2.2.1, hknown, ?_, ?_⟩
  · intro hall bit hset
    obtain ⟨other, ⟨hother, hlisted⟩, heq⟩ := (mem_references_ofBits hslots h).mp (hall.mapsTo hset)
    rw [← hall.injOn hother hset heq]
    exact hlisted
  · intro hall
    have hsets : {bit : ReferenceBit | bit.IsSet registerBits frameBits} =
        {bit | bit.IsSet registerBits frameBits ∧ bit.IsKnown} :=
      Set.ext fun bit => ⟨fun hset => ⟨hset, hall bit hset⟩, And.left⟩
    rw [hsets]
    exact hknown

/-- The references of a frame of two words, of `rbx` and of the second word. -/
theorem references_of_two_word_frame :
    ∃ m, RefMap.ofBits 16 0 (some ⟨[0b1000]⟩) ⟨[0b10]⟩ = .ok m ∧ 16 ≤ 0x7fffffff + 8 ∧
      Set.BijOn ReferenceBit.place
        {bit | bit.IsSet (some ⟨[0b1000]⟩) ⟨[0b10]⟩ ∧ bit.IsKnown}
        {place | place ∈ m.references} := by
  cases hmap : RefMap.ofBits 16 0 (some ⟨[0b1000]⟩) ⟨[0b10]⟩ with
  | error fault => exact nomatch hmap
  | ok m => exact ⟨m, rfl, by decide, (references_biject_known_bits (by decide) hmap).2.1⟩

/-- The bit of register 32 is set, and the map that is built lists nothing. -/
theorem unknown_register_bit_lost :
    ¬ ∀ (frameSize parameterCount : Nat) (registerBits : Option RefBits) (frameBits : RefBits)
      (m : RefMap), frameSize ≤ 0x7fffffff + 8 →
      RefMap.ofBits frameSize parameterCount registerBits frameBits = .ok m →
      Set.BijOn ReferenceBit.place {bit | bit.IsSet registerBits frameBits}
        {place | place ∈ m.references} := by
  intro hall
  cases hmap : RefMap.ofBits 16 0 (some ⟨[0x100000000]⟩) ⟨[]⟩ with
  | error fault => exact nomatch hmap
  | ok m =>
      have hempty : m.references = [] := by
        rw [← Except.ok.inj hmap]
        decide
      have hset : ReferenceBit.register 32 ∈
          {bit : ReferenceBit | bit.IsSet (some ⟨[0x100000000]⟩) ⟨[]⟩} := ⟨_, rfl, by decide⟩
      have hlisted : Place.register (RefMap.registerAt 32) ∈ m.references :=
        (hall 16 0 _ _ m (by decide) hmap).mapsTo hset
      rw [hempty] at hlisted
      exact nomatch hlisted

end ManagedCode
