import ManagedCode.Proofs.Installing

/-! # Where installed code is placed

    Blocks of the code space are aligned by their address, while the space counts what is used from
    a base that need not be aligned.  A block thus starts at the first suitable address behind all
    blocks before it, and whether it fits is decided by the distance of that address from the base.

* **`Size.alignUp_ok`** — rounding up to a power of two.
* **`CodeSpace.allocate_ok`**, **`CodeSpace.allocates_iff`** — one block, and when there is one.
* **`CodeTable.Filled`** — tables as units are registered one after the other.
* **`CodeTable.Filled.placed`** — the invariant of such tables.
* **`registered_units_placed`** — where the units of a table are, and what a refusal says. -/

namespace ManagedCode

-- ── Rounding up ─────────────────────────────────────────────────────────────────

namespace Size

theorem exists_pow_of_isPowerOfTwo {n : Nat} (h : isPowerOfTwo n = true) : ∃ k, n = 2 ^ k := by
  refine ⟨n.log2, ?_⟩
  rw [← Nat.one_shiftLeft]
  exact beq_iff_eq.mp h

/-- **Rounding up** gives a multiple of the alignment that is not below the value. -/
theorem alignUp_ok {value alignment n : Nat} (h : alignUp value alignment = .ok n) :
    isPowerOfTwo alignment = true ∧ alignment ∣ n ∧ value ≤ n ∧ n < Word.limit := by
  obtain ⟨_, hpower, h⟩ := Checked.bind_ok h
  have hpower := require_ok hpower
  obtain ⟨sum, hsum, h⟩ := Checked.bind_ok h
  obtain ⟨rfl, hlt⟩ := add_ok hsum
  obtain rfl := Checked.pure_ok h
  obtain ⟨k, rfl⟩ := exists_pow_of_isPowerOfTwo hpower
  have hpos : 0 < 2 ^ k := Nat.two_pow_pos k
  have hsplit := Nat.div_add_mod' (value + 2 ^ k - 1) (2 ^ k)
  have hmod := Nat.mod_lt (value + 2 ^ k - 1) hpos
  refine ⟨hpower, Nat.dvd_mul_left .., ?_, ?_⟩ <;> omega

/-- The larger of two powers of two is a multiple of both. -/
theorem dvd_max_of_isPowerOfTwo {a b : Nat} (ha : isPowerOfTwo a = true)
    (hb : isPowerOfTwo b = true) : a ∣ max a b ∧ b ∣ max a b := by
  obtain ⟨i, rfl⟩ := exists_pow_of_isPowerOfTwo ha
  obtain ⟨j, rfl⟩ := exists_pow_of_isPowerOfTwo hb
  rcases Nat.le_total i j with hij | hji
  · rw [Nat.max_eq_right (Nat.pow_le_pow_right (by decide) hij)]
    exact ⟨Nat.pow_dvd_pow 2 hij, Nat.dvd_refl _⟩
  · rw [Nat.max_eq_left (Nat.pow_le_pow_right (by decide) hji)]
    exact ⟨Nat.dvd_refl _, Nat.pow_dvd_pow 2 hji⟩

end Size

-- ── Blocks of the code space ────────────────────────────────────────────────────

namespace CodeSpace

variable {s s' : CodeSpace} {alignment size start : Nat}

/-- The next block starts at an aligned address behind what is used. -/
theorem nextStart_ok (h : s.nextStart alignment = .ok start) :
    s.used ≤ start ∧ s.base.toNat + start < Word.limit ∧
      max alignment entryAlignment ∣ s.base.toNat + start := by
  obtain ⟨free, hfree, h⟩ := Checked.bind_ok h
  obtain ⟨rfl, -⟩ := Size.add_ok hfree
  obtain ⟨address, haddress, h⟩ := Checked.bind_ok h
  obtain rfl := Checked.pure_ok h
  obtain ⟨-, hdvd, hle, hlt⟩ := Size.alignUp_ok haddress
  have hback : s.base.toNat + (address - s.base.toNat) = address := by omega
  rw [hback]
  exact ⟨by omega, hlt, hdvd⟩

/-- **A block** starts behind what was used, ends what is used then, and is aligned. -/
theorem allocate_ok {address : UInt64} (halignment : Size.isPowerOfTwo alignment = true)
    (h : s.allocate size alignment = .ok (.ok (address, s'))) :
    s' = { s with used := s'.used } ∧ s'.used ≤ s.capacity ∧
      s.base.toNat + s.used ≤ address.toNat ∧ address.toNat + size = s.base.toNat + s'.used ∧
      entryAlignment ∣ address.toNat ∧ alignment ∣ address.toNat := by
  obtain ⟨start, hstart, h⟩ := Checked.bind_ok h
  obtain ⟨last, hlast, h⟩ := Checked.bind_ok h
  obtain ⟨rfl, -⟩ := Size.add_ok hlast
  obtain ⟨hused, hlt, hdvd⟩ := nextStart_ok hstart
  obtain ⟨hentry, hconstants⟩ :=
    Size.dvd_max_of_isPowerOfTwo halignment (show Size.isPowerOfTwo entryAlignment = true from rfl)
  split at h
  · next hfits =>
      obtain ⟨address', haddress, h⟩ := Checked.bind_ok h
      obtain ⟨rfl, rfl⟩ := Prod.mk.inj (Except.ok.inj (Checked.pure_ok h))
      obtain ⟨rfl, -⟩ := Address.advance_ok haddress
      have htoNat : (s.base + UInt64.ofNat start).toNat = s.base.toNat + start := by
        rw [UInt64.toNat_add, UInt64.toNat_ofNat']
        unfold Word.limit at hlt
        omega
      rw [htoNat]
      exact ⟨rfl, hfits, by omega, by dsimp only; omega, Nat.dvd_trans hconstants hdvd,
        Nat.dvd_trans hentry hdvd⟩
  · exact nomatch Checked.pure_ok h

/-- There is a block of the given size exactly if it ends within the space. -/
theorem allocates_iff (hcapacity : s.capacity < Word.limit)
    (hstart : s.nextStart alignment = .ok start) :
    (∃ block, s.allocate size alignment = .ok (.ok block)) ↔ start + size ≤ s.capacity := by
  obtain ⟨-, hlt, -⟩ := nextStart_ok hstart
  constructor
  · rintro ⟨block, h⟩
    obtain ⟨start', hstart', h⟩ := Checked.bind_ok h
    obtain rfl := Except.ok.inj (hstart.symm.trans hstart')
    obtain ⟨last, hlast, h⟩ := Checked.bind_ok h
    obtain ⟨rfl, -⟩ := Size.add_ok hlast
    split at h
    · assumption
    · exact nomatch Checked.pure_ok h
  · intro hfits
    have hlast : Size.add start size = .ok (start + size) := if_pos (by omega)
    have haddress : Address.advance s.base start =
        .ok (UInt64.ofNat (s.base.toNat + start)) := by
      show Size.add s.base.toNat start >>= _ = _
      rw [show Size.add s.base.toNat start = .ok (s.base.toNat + start) from if_pos hlt]
      rfl
    refine ⟨(UInt64.ofNat (s.base.toNat + start), { s with used := start + size }), ?_⟩
    show s.nextStart alignment >>= _ = _
    rw [hstart]
    show Size.add start size >>= _ = _
    rw [hlast]
    show (if start + size ≤ s.capacity then _ else _) = _
    rw [if_pos hfits]
    show Address.advance s.base start >>= _ = _
    rw [haddress]
    rfl

/-- A refused block tells how much is left: exactly the sizes up to it can still be had. -/
theorem allocate_full {full : SpaceFull} (hcapacity : s.capacity < Word.limit)
    (h : s.allocate size alignment = .ok (.error full)) :
    full.requested = size ∧ ∀ wanted, 1 ≤ wanted →
      ((∃ block, s.allocate wanted alignment = .ok (.ok block)) ↔ wanted ≤ full.free) := by
  obtain ⟨start, hstart, h⟩ := Checked.bind_ok h
  obtain ⟨last, hlast, h⟩ := Checked.bind_ok h
  split at h
  · obtain ⟨_, -, h⟩ := Checked.bind_ok h
    exact nomatch Checked.pure_ok h
  · obtain rfl := Except.error.inj (Checked.pure_ok h)
    refine ⟨rfl, fun wanted hwanted => ?_⟩
    rw [allocates_iff hcapacity hstart]
    dsimp only
    omega

end CodeSpace

-- ── Units in their places ───────────────────────────────────────────────────────

namespace Blob

variable {b b' moved : Blob} {newBase : UInt64}

/-- A relocation is left alone, or the operand that it resolves through is written. -/
theorem retarget_done {r : Relocation} (h : retarget newBase b r = .ok b') :
    b' = b ∨ ∃ i o distance, r.isPositional = true ∧ b.instructionAt r.offset = .ok i ∧
      positionalOperand r i = .ok o ∧ b.write32 o distance = .ok b' := by
  unfold retarget at h
  split at h
  · next hpositional =>
      obtain ⟨i, hi, h⟩ := Checked.bind_ok h
      obtain ⟨o, ho, h⟩ := Checked.bind_ok h
      obtain ⟨_, -, h⟩ := Checked.bind_ok h
      obtain ⟨_, -, h⟩ := Checked.bind_ok h
      obtain ⟨_, -, h⟩ := Checked.bind_ok h
      obtain ⟨distance, -, h⟩ := Checked.bind_ok h
      exact Or.inr ⟨i, o, distance, hpositional, hi, ho, h⟩
  · exact Or.inl (Except.ok.inj h).symm

/-- Retargeting changes bytes of the code, and not how many there are. -/
theorem retarget_frame {r : Relocation} (h : retarget newBase b r = .ok b') :
    b' = { b with code := b'.code } ∧ b'.code.length = b.code.length := by
  rcases retarget_done h with rfl | ⟨i, o, distance, -, -, -, hwrite⟩
  · exact ⟨rfl, rfl⟩
  · obtain ⟨_, -, hwrite⟩ := Checked.bind_ok hwrite
    have hlength := (writeBytes_frame hwrite).1
    obtain ⟨-, -, rfl⟩ := writeBytes_ok hwrite
    exact ⟨rfl, hlength⟩

theorem foldlM_retarget_frame {records : List Relocation}
    (h : records.foldlM (retarget newBase) b = .ok b') :
    b' = { b with code := b'.code } ∧ b'.code.length = b.code.length := by
  refine Checked.foldlM_keeps
    (P := fun b₁ : Blob => b₁ = { b with code := b₁.code } ∧ b₁.code.length = b.code.length)
    (fun b₁ r b₂ hb₁ hstep => ?_) ⟨rfl, rfl⟩ h
  obtain ⟨hframe₁, hlength₁⟩ := hb₁
  obtain ⟨hframe₂, hlength₂⟩ := retarget_frame hstep
  refine ⟨?_, hlength₂.trans hlength₁⟩
  rw [hframe₂, hframe₁]

/-- Moving a blob changes nothing but its code and its base. -/
theorem moveTo_frame (h : b.moveTo newBase = .ok moved) :
    moved = { b with code := moved.code, base := newBase } := by
  obtain ⟨b', hmoved, h⟩ := Checked.bind_ok h
  obtain rfl := Checked.pure_ok h
  rw [(foldlM_retarget_frame hmoved).1]

/-- Moving a blob keeps the size of its code. -/
theorem length_moveTo (h : b.moveTo newBase = .ok moved) :
    moved.code.length = b.code.length := by
  obtain ⟨b', hmoved, h⟩ := Checked.bind_ok h
  obtain rfl := Checked.pure_ok h
  exact (foldlM_retarget_frame hmoved).2

end Blob

/-- The unit takes a stretch of addresses between `base` and `stop`, at an address that suits
    instructions and its own constants. -/
structure Code.Placed (base stop : Nat) (code : Code) : Prop where
  within : ∃ size, code.blob.size = .ok size ∧ base ≤ code.address.toNat ∧
    code.address.toNat + size ≤ stop
  entry : CodeSpace.entryAlignment ∣ code.address.toNat
  constants : code.blob.layout.constantsAlignment ∣ code.address.toNat

/-- The addresses of a unit end before those of another start. -/
def Code.Before (a b : Code) : Prop :=
  ∃ size, a.blob.size = .ok size ∧ a.address.toNat + size ≤ b.address.toNat

theorem Code.Placed.mono {base stop stop' : Nat} {code : Code} (h : code.Placed base stop)
    (hstop : stop ≤ stop') : code.Placed base stop' := by
  obtain ⟨size, hsize, hbase, hle⟩ := h.within
  exact ⟨⟨size, hsize, hbase, Nat.le_trans hle hstop⟩, h.entry, h.constants⟩

namespace CodeTable

/-- A registered unit is moved to a block of the code space. -/
theorem register_allocates {t t' : CodeTable} {code : Code} {installed : InstalledCode}
    (h : t.register code = .ok (.ok (installed, t'))) :
    ∃ size, installed.code.blob.size = .ok size ∧ t'.codes = t.codes ++ [installed.code] ∧
      Size.isPowerOfTwo installed.code.blob.layout.constantsAlignment = true ∧
      t.space.allocate size installed.code.blob.layout.constantsAlignment =
        .ok (.ok (installed.code.address, t'.space)) := by
  obtain ⟨-, -, -, -, -, hcodes⟩ := register_ok h
  obtain ⟨size, hsize, h⟩ := Checked.bind_ok h
  obtain ⟨full | ⟨address, space⟩, hallocate, h⟩ := Checked.bind_ok h
  · exact nomatch Checked.pure_ok h
  obtain ⟨moved, hmoved, h⟩ := Checked.bind_ok h
  obtain ⟨rfl, rfl⟩ := Prod.mk.inj (Except.ok.inj (Checked.pure_ok h))
  have hframe := Blob.moveTo_frame hmoved
  have hpower : Size.isPowerOfTwo code.blob.layout.constantsAlignment = true := by
    obtain ⟨start, hstart, -⟩ := Checked.bind_ok hsize
    exact (Size.alignUp_ok hstart).1
  refine ⟨size, ?_, hcodes, ?_, ?_⟩
  · show moved.size = .ok size
    rw [hframe]
    exact hsize
  · show Size.isPowerOfTwo moved.layout.constantsAlignment = true
    rw [hframe]
    exact hpower
  · show t.space.allocate size moved.layout.constantsAlignment = .ok (.ok (moved.base, _))
    rw [space_enter, hframe]
    exact hallocate

/-- The tables over a code space that come about by registering units, some of them refused. The
    registered ones are listed in order, as they stand in their places. -/
inductive Filled (base : UInt64) (capacity : Nat) : List Code → CodeTable → Prop
  | empty : Filled base capacity [] { space := { base, capacity } }
  | registered {log : List Code} {t t' : CodeTable} {code : Code} {installed : InstalledCode}
      (ht : Filled base capacity log t) (h : t.register code = .ok (.ok (installed, t'))) :
      Filled base capacity (log ++ [installed.code]) t'
  | full {log : List Code} {t : CodeTable} {code : Code} {full : SpaceFull}
      (ht : Filled base capacity log t) (h : t.register code = .ok (.error full)) :
      Filled base capacity log t

/-- **What registering preserves.** The units lie one behind the other in what is used of the
    space. -/
theorem Filled.placed {base : UInt64} {capacity : Nat} {log : List Code} {t : CodeTable}
    (ht : Filled base capacity log t) :
    t.codes = log ∧ t.space.base = base ∧ t.space.capacity = capacity ∧ t.space.used ≤ capacity ∧
      (∀ code ∈ log, code.Placed base.toNat (base.toNat + t.space.used)) ∧
      log.Pairwise Code.Before := by
  induction ht with
  | empty => exact ⟨rfl, rfl, rfl, Nat.zero_le _, fun _ h => absurd h List.not_mem_nil, .nil⟩
  | full ht h ih => exact ih
  | @registered log t t' code installed ht h ih =>
      obtain ⟨rfl, rfl, rfl, -, hplaced, hordered⟩ := ih
      obtain ⟨size, hsize, hcodes, hpower, hallocate⟩ := register_allocates h
      obtain ⟨hspace, hused, hbehind, hends, hentry, hconstants⟩ :=
        CodeSpace.allocate_ok hpower hallocate
      have hnew : installed.code.Placed t.space.base.toNat
          (t.space.base.toNat + t'.space.used) :=
        ⟨⟨size, hsize, by omega, Nat.le_of_eq hends⟩, hentry, hconstants⟩
      refine ⟨hcodes, ?_, ?_, hused, ?_, ?_⟩
      · rw [hspace]
      · rw [hspace]
      · intro other hother
        rcases List.mem_append.mp hother with hother | hother
        · exact (hplaced other hother).mono (by omega)
        · rw [List.mem_singleton.mp hother]
          exact hnew
      · refine List.pairwise_append.mpr ⟨hordered, List.pairwise_singleton .., ?_⟩
        intro other hother last hlast
        obtain ⟨size', hsize', -, hle⟩ := (hplaced other hother).within
        rw [List.mem_singleton.mp hlast]
        exact ⟨size', hsize', Nat.le_trans hle hbehind⟩

/-- A refused unit asked for its size, and the space answers for every other size. -/
theorem register_full {t : CodeTable} {code : Code} {full : SpaceFull}
    (hcapacity : t.space.capacity < Word.limit) (h : t.register code = .ok (.error full)) :
    code.blob.size = .ok full.requested ∧ ∀ wanted, 1 ≤ wanted →
      ((∃ block, t.space.allocate wanted code.blob.layout.constantsAlignment = .ok (.ok block)) ↔
        wanted ≤ full.free) := by
  obtain ⟨size, hsize, h⟩ := Checked.bind_ok h
  obtain ⟨refused | ⟨address, space⟩, hallocate, h⟩ := Checked.bind_ok h
  · obtain rfl := Except.error.inj (Checked.pure_ok h)
    obtain ⟨rfl, hfree⟩ := CodeSpace.allocate_full hcapacity hallocate
    exact ⟨hsize, hfree⟩
  · obtain ⟨_, -, h⟩ := Checked.bind_ok h
    exact nomatch Checked.pure_ok h

end CodeTable

/-- A unit that is refused for want of space leaves the table and its space as they were. -/
theorem commit_spaceFull {r r' : Runtime} {code : Code} {full : SpaceFull}
    (h : commit r code = .ok (.error (.spaceFull full), r')) : r'.codes = r.codes := by
  rcases commit_done h with ⟨refusal, handles, -, -, rfl⟩ | ⟨installed, codes, hok, -⟩
  · rfl
  · exact nomatch hok

/-- **Registered units are placed one behind the other.** Whatever the base and the capacity of the
    code space, and whatever was registered and refused: the addresses of the units lie within the
    space, those of an earlier unit before those of a later one, each at an address that suits
    instructions and the constants of the unit. A unit that does not fit leaves the table as it is,
    and is told the size up to which blocks of its alignment can still be had. -/
theorem registered_units_placed {base : UInt64} {capacity : Nat} {log : List Code} {t : CodeTable}
    (hcapacity : capacity < Word.limit) (ht : CodeTable.Filled base capacity log t) :
    t.codes = log ∧ (∀ code ∈ log, code.Placed base.toNat (base.toNat + capacity)) ∧
    log.Pairwise Code.Before ∧
    ∀ code full, t.register code = .ok (.error full) →
      (∀ r r', r.codes = t → commit r code = .ok (.error (.spaceFull full), r') → r'.codes = t) ∧
      code.blob.size = .ok full.requested ∧
      ∀ wanted, 1 ≤ wanted →
        ((∃ block, t.space.allocate wanted code.blob.layout.constantsAlignment =
          .ok (.ok block)) ↔ wanted ≤ full.free) := by
  obtain ⟨hcodes, -, rfl, hused, hplaced, hordered⟩ := ht.placed
  refine ⟨hcodes, fun code hcode => (hplaced code hcode).mono (by omega), hordered, ?_⟩
  intro code full hfull
  refine ⟨?_, CodeTable.register_full hcapacity hfull⟩
  rintro r r' rfl hcommit
  exact commit_spaceFull hcommit

-- ── Three units ─────────────────────────────────────────────────────────────────

/-- A unit without code to run, whose constants have the given alignment. -/
def Code.sampleBlock (alignment : Nat) : Code where
  name := "block"
  blob :=
    { layout := ⟨10, 0, alignment, 0⟩, code := [], constants := [], relocations := [], base := 0 }

/-- The table after a unit was registered. -/
def CodeTable.next? (t : CodeTable) (code : Code) : Option CodeTable :=
  match t.register code with
  | .ok (.ok (_, t')) => some t'
  | _ => none

/-- What a unit that does not fit is told. -/
def CodeTable.full? (t : CodeTable) (code : Code) : Option SpaceFull :=
  match t.register code with
  | .ok (.error full) => some full
  | _ => none

theorem CodeTable.Filled.next {base : UInt64} {capacity : Nat} {log : List Code} {t t' : CodeTable}
    {code : Code} (ht : Filled base capacity log t) (h : t.next? code = some t') :
    ∃ placed, Filled base capacity (log ++ [placed]) t' := by
  unfold next? at h
  split at h
  · next installed _ hregister =>
      obtain rfl := Option.some.inj h
      exact ⟨installed.code, ht.registered hregister⟩
  · exact nomatch h

theorem CodeTable.register_of_full? {t : CodeTable} {code : Code} {full : SpaceFull}
    (h : t.full? code = some full) : t.register code = .ok (.error full) := by
  unfold full? at h
  split at h
  · next hregister =>
      obtain rfl := Option.some.inj h
      exact hregister
  · exact nomatch h

/-- The base of the space is not aligned, so that the first block does not start there; the second
    one is aligned further, and the third unit finds 8 bytes left. -/
theorem registered_units_placed_sample : ∃ log t,
    CodeTable.Filled 0x7f000010 0xf8 log t ∧ log.length = 2 ∧
    (∀ code ∈ log, code.Placed 0x7f000010 (0x7f000010 + 0xf8)) ∧ log.Pairwise Code.Before ∧
    t.register (.sampleBlock 16) = .ok (.error ⟨16, 8⟩) ∧
    ∀ wanted, 1 ≤ wanted →
      ((∃ block, t.space.allocate wanted 16 = .ok (.ok block)) ↔ wanted ≤ 8) := by
  let t₀ : CodeTable := { space := { base := 0x7f000010, capacity := 0xf8 } }
  have hrun : ((t₀.next? (.sampleBlock 16)).bind fun t₁ => (t₁.next? (.sampleBlock 128)).bind
      fun t₂ => t₂.full? (.sampleBlock 16)) = some ⟨16, 8⟩ := by decide +kernel
  obtain ⟨t₁, h₁, hrun⟩ := Option.bind_eq_some_iff.mp hrun
  obtain ⟨t₂, h₂, hrun⟩ := Option.bind_eq_some_iff.mp hrun
  obtain ⟨first, hfilled⟩ := CodeTable.Filled.empty.next h₁
  obtain ⟨second, hfilled⟩ := hfilled.next h₂
  have hfull := CodeTable.register_of_full? hrun
  obtain ⟨-, hplaced, hordered, hleft⟩ := registered_units_placed (by decide) hfilled
  exact ⟨_, t₂, hfilled, rfl, hplaced, hordered, hfull, (hleft _ _ hfull).2.2⟩

end ManagedCode
