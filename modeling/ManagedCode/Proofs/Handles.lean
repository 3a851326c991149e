import ManagedCode.Proofs.Steps

/-! # Tables of handles

    Handles are made in free slots and given back into them, so that the address of a handle says
    nothing about when it was made.  What counts is which handles are live and what they refer to.

* **`HandleTable.Sound`** — the free slots are distinct, and are all that is not live.
* **`HandleTable.make_ok`**, **`HandleTable.release_ok`** — what one step does to a sound table.
* **`HandleTable.Gains`** — a table that has, besides what another has, a list of new handles.
* **`HandleTable.Gains.releaseAll`** — giving all of them back leads to what was there before. -/

namespace ManagedCode.HandleTable

variable {t t' t₀ : HandleTable} {handle : Handle} {object : ObjectAddress} {slot : Nat}

-- ── Slots and addresses ─────────────────────────────────────────────────────────

theorem slotOf?_handleOf (h : handleOf slot = .ok handle) : slotOf? handle = some slot := by
  obtain ⟨address, haddress, h⟩ := Checked.bind_ok h
  obtain ⟨rfl, hlt⟩ := Size.add_ok haddress
  obtain rfl := Checked.pure_ok h
  have htoNat : (UInt64.ofNat (base + stride * slot)).toNat = base + stride * slot :=
    UInt64.toNat_ofNat_of_lt hlt
  unfold slotOf?
  dsimp only
  rw [htoNat, if_pos (by unfold stride; omega)]
  unfold stride
  congr 1
  omega

theorem slotOf?_inj {other : Handle} (h : slotOf? handle = some slot)
    (h' : slotOf? other = some slot) : other = handle := by
  unfold slotOf? at h h'
  dsimp only at h h'
  split at h
  · split at h'
    · have haddress : other.address.toNat = handle.address.toNat := by
        have hslot := Option.some.inj h
        have hslot' := Option.some.inj h'
        unfold stride at *
        omega
      cases handle
      cases other
      exact congrArg Handle.mk (UInt64.toNat_inj.mp haddress)
    · exact nomatch h'
  · exact nomatch h

/-- A table that differs in one slot resolves the handle of that slot differently. -/
theorem resolve?_update {value : Option ObjectAddress} (hslot : slotOf? handle = some slot)
    (hslots : ∀ i, (t'.slots[i]?).join = if i = slot then value else (t.slots[i]?).join)
    (other : Handle) :
    t'.resolve? other = if other = handle then value else t.resolve? other := by
  unfold resolve?
  cases hother : slotOf? other with
  | none =>
      rw [if_neg (by rintro rfl; exact nomatch hslot.symm.trans hother)]
      rfl
  | some i =>
      show (t'.slots[i]?).join = _
      rw [hslots]
      by_cases hi : i = slot
      · rw [if_pos hi, if_pos (slotOf?_inj hslot (hi ▸ hother))]
      · rw [if_neg hi, if_neg]
        · rfl
        · rintro rfl
          exact hi (Option.some.inj (hother.symm.trans hslot))

-- ── One step ────────────────────────────────────────────────────────────────────

/-- The free slots are empty and distinct, and every other slot holds an object. -/
structure Sound (t : HandleTable) : Prop where
  empty : ∀ slot ∈ t.free, t.slots[slot]? = some none
  distinct : t.free.Nodup
  counted : t.free.length + t.slots.countP Option.isSome = t.slots.length

theorem sound_empty : Sound {} := ⟨nofun, List.nodup_nil, rfl⟩

theorem Sound.live_eq (ht : t.Sound) : t.live = t.slots.countP Option.isSome := by
  have := ht.counted
  unfold live
  omega

/-- What it means to fill an empty slot, whichever way the slot is found. -/
theorem Sound.filled (ht : t.Sound) (ht' : t'.Sound) (hslot : slotOf? handle = some slot)
    (hempty : (t.slots[slot]?).join = none)
    (hcount : t'.slots.countP Option.isSome = t.slots.countP Option.isSome + 1)
    (hslots : ∀ i, (t'.slots[i]?).join =
      if i = slot then some object else (t.slots[i]?).join) :
    t'.Sound ∧ t.resolve? handle = none ∧ t'.live = t.live + 1 ∧
      ∀ other, t'.resolve? other = if other = handle then some object else t.resolve? other := by
  refine ⟨ht', ?_, ?_, resolve?_update hslot hslots⟩
  · unfold resolve?
    rw [hslot]
    exact hempty
  · rw [ht'.live_eq, ht.live_eq]
    exact hcount

/-- A new handle was not live, and refers to its object; all others stay as they are. -/
theorem make_ok (ht : t.Sound) (h : t.make object = .ok (handle, t')) :
    t'.Sound ∧ t.resolve? handle = none ∧ t'.live = t.live + 1 ∧
      ∀ other, t'.resolve? other = if other = handle then some object else t.resolve? other := by
  have hcounted := ht.counted
  unfold make at h
  split at h
  · next slot free hfree =>
      obtain ⟨_, -, h⟩ := Checked.bind_ok h
      obtain ⟨made, hmade, h⟩ := Checked.bind_ok h
      obtain ⟨rfl, rfl⟩ := Prod.mk.inj (Checked.pure_ok h)
      have hempty := ht.empty slot (by rw [hfree]; exact List.mem_cons_self ..)
      obtain ⟨hin, hnone⟩ := List.getElem?_eq_some_iff.mp hempty
      have hdistinct := ht.distinct
      rw [hfree, List.nodup_cons] at hdistinct
      have hcount : (t.slots.set slot (some object)).countP Option.isSome =
          t.slots.countP Option.isSome + 1 := by
        rw [List.countP_set hin, hnone]
        rfl
      have hsound : Sound ⟨t.slots.set slot (some object), free⟩ := by
        refine ⟨fun i hi => ?_, hdistinct.2, ?_⟩
        · show (t.slots.set slot (some object))[i]? = _
          rw [List.getElem?_set_ne (by rintro rfl; exact hdistinct.1 hi)]
          exact ht.empty i (by rw [hfree]; exact List.mem_cons_of_mem _ hi)
        · rw [hfree, List.length_cons] at hcounted
          show free.length + (t.slots.set slot (some object)).countP Option.isSome =
            (t.slots.set slot (some object)).length
          rw [hcount, List.length_set]
          omega
      refine ht.filled hsound (slotOf?_handleOf hmade) (by rw [hempty]; rfl) hcount fun i => ?_
      show ((t.slots.set slot (some object))[i]?).join = _
      rw [List.getElem?_set]
      by_cases hi : slot = i
      · rw [if_pos hi, if_pos hin, if_pos hi.symm]
        rfl
      · rw [if_neg hi, if_neg (fun h => hi h.symm)]
  · next hfree =>
      obtain ⟨made, hmade, h⟩ := Checked.bind_ok h
      obtain ⟨rfl, rfl⟩ := Prod.mk.inj (Checked.pure_ok h)
      have hcount : (t.slots ++ [some object]).countP Option.isSome =
          t.slots.countP Option.isSome + 1 := List.countP_append
      have hsound : Sound ⟨t.slots ++ [some object], []⟩ := by
        refine ⟨nofun, List.nodup_nil, ?_⟩
        rw [hfree, List.length_nil] at hcounted
        show 0 + (t.slots ++ [some object]).countP Option.isSome =
          (t.slots ++ [some object]).length
        rw [hcount, List.length_append, List.length_singleton]
        omega
      refine ht.filled hsound (slotOf?_handleOf hmade) ?_ hcount fun i => ?_
      · rw [List.getElem?_eq_none (Nat.le_refl _)]
        rfl
      · show ((t.slots ++ [some object])[i]?).join = _
        by_cases hi : i = t.slots.length
        · rw [if_pos hi, hi, List.getElem?_concat_length]
          rfl
        · rw [if_neg hi]
          by_cases hlt : i < t.slots.length
          · rw [List.getElem?_append_left hlt]
          · rw [List.getElem?_eq_none (by simp; omega), List.getElem?_eq_none (by omega)]

/-- Only live handles are given back. -/
theorem resolve?_of_release (h : t.release handle = .ok t') :
    ∃ object, t.resolve? handle = some object := by
  unfold release at h
  unfold resolve?
  split at h
  · exact nomatch h
  · next slot hslot =>
      split at h
      · exact nomatch h
      · exact nomatch h
      · next object hobject =>
          rw [hslot]
          exact ⟨object, congrArg Option.join hobject⟩

/-- A live handle can be given back, and is not live then; all others stay as they are. -/
theorem release_ok (ht : t.Sound) (hlive : t.resolve? handle = some object) :
    ∃ t', t.release handle = .ok t' ∧ t'.Sound ∧ t'.live + 1 = t.live ∧
      ∀ other, t'.resolve? other = if other = handle then none else t.resolve? other := by
  obtain ⟨slot, hslot, hobject⟩ := Option.bind_eq_some_iff.mp hlive
  have hheld : t.slots[slot]? = some (some object) := Option.join_eq_some_iff.mp hobject
  obtain ⟨hin, hsome⟩ := List.getElem?_eq_some_iff.mp hheld
  have hpos : 0 < t.slots.countP Option.isSome :=
    List.countP_pos_iff.mpr ⟨some object, List.mem_of_getElem? hheld, rfl⟩
  have hcount : (t.slots.set slot none).countP Option.isSome + 1 =
      t.slots.countP Option.isSome := by
    rw [List.countP_set hin, hsome]
    show t.slots.countP Option.isSome - 1 + 0 + 1 = _
    omega
  have hsound : Sound ⟨t.slots.set slot none, slot :: t.free⟩ := by
    refine ⟨fun i hi => ?_, List.nodup_cons.mpr ⟨fun hfree => ?_, ht.distinct⟩, ?_⟩
    · show (t.slots.set slot none)[i]? = _
      rw [List.getElem?_set]
      by_cases hsi : slot = i
      · rw [if_pos hsi, if_pos hin]
      · rw [if_neg hsi]
        exact ht.empty i ((List.mem_cons.mp hi).resolve_left fun h => hsi h.symm)
    · exact nomatch hheld.symm.trans (ht.empty slot hfree)
    · have hcounted := ht.counted
      show (slot :: t.free).length + (t.slots.set slot none).countP Option.isSome =
        (t.slots.set slot none).length
      rw [List.length_cons, List.length_set]
      omega
  refine ⟨⟨t.slots.set slot none, slot :: t.free⟩, ?_, hsound, ?_,
    resolve?_update hslot fun i => ?_⟩
  · unfold release
    rw [hslot]
    dsimp only
    rw [hheld]
  · rw [hsound.live_eq, ht.live_eq]
    exact hcount
  · show ((t.slots.set slot none)[i]?).join = _
    rw [List.getElem?_set]
    by_cases hi : slot = i
    · rw [if_pos hi, if_pos hin, if_pos hi.symm]
      rfl
    · rw [if_neg hi, if_neg (fun h => hi h.symm)]

theorem Sound.release (ht : t.Sound) (h : t.release handle = .ok t') : t'.Sound := by
  obtain ⟨object, hlive⟩ := resolve?_of_release h
  obtain ⟨t₁, h₁, hsound, -⟩ := release_ok ht hlive
  obtain rfl := Except.ok.inj (h.symm.trans h₁)
  exact hsound

-- ── New handles ─────────────────────────────────────────────────────────────────

/-- The table `t` has what `t₀` has, and besides exactly the given new handles. -/
structure Gains (t₀ : HandleTable) (handles : List Handle) (t : HandleTable) : Prop where
  sound : t.Sound
  distinct : handles.Nodup
  fresh : ∀ h ∈ handles, t₀.resolve? h = none
  held : ∀ h ∈ handles, t.resolve? h ≠ none
  others : ∀ h, h ∉ handles → t.resolve? h = t₀.resolve? h
  live : t.live = t₀.live + handles.length

theorem Gains.refl (ht : t.Sound) : t.Gains [] t :=
  ⟨ht, List.nodup_nil, nofun, nofun, fun _ _ => rfl, rfl⟩

/-- What is live stays live with the same object. -/
theorem Gains.keeps {handles : List Handle} (hgains : t₀.Gains handles t)
    (h : t₀.resolve? handle = some object) : t.resolve? handle = some object := by
  rw [hgains.others handle, h]
  intro hmem
  exact nomatch h.symm.trans (hgains.fresh handle hmem)

theorem Gains.trans {handles more : List Handle} (hfirst : t₀.Gains handles t)
    (hthen : t.Gains more t') : t₀.Gains (handles ++ more) t' := by
  have hapart : ∀ h ∈ handles, h ∉ more := fun h hmem hmore =>
    hfirst.held h hmem (hthen.fresh h hmore)
  refine ⟨hthen.sound, ?_, fun h hmem => ?_, fun h hmem => ?_, fun h hnot => ?_, ?_⟩
  · refine List.nodup_append.mpr ⟨hfirst.distinct, hthen.distinct, ?_⟩
    rintro h hmem _ hmore rfl
    exact hapart h hmem hmore
  · rcases List.mem_append.mp hmem with hmem | hmore
    · exact hfirst.fresh h hmem
    · rw [← hfirst.others h fun hmem => hapart h hmem hmore]
      exact hthen.fresh h hmore
  · rcases List.mem_append.mp hmem with hmem | hmore
    · rw [hthen.others h (hapart h hmem)]
      exact hfirst.held h hmem
    · exact hthen.held h hmore
  · obtain ⟨hnot, hnot'⟩ := not_or.mp (mt List.mem_append.mpr hnot)
    exact (hthen.others h hnot').trans (hfirst.others h hnot)
  · rw [hthen.live, hfirst.live, List.length_append, Nat.add_assoc]

/-- Making a handle gains that handle. -/
theorem make_gains (ht : t.Sound) (h : t.make object = .ok (handle, t')) :
    t.Gains [handle] t' ∧ t'.resolve? handle = some object := by
  obtain ⟨hsound, hfresh, hlive, hresolve⟩ := make_ok ht h
  have hobject : t'.resolve? handle = some object := by rw [hresolve, if_pos rfl]
  refine ⟨⟨hsound, List.nodup_cons.mpr ⟨nofun, List.nodup_nil⟩, ?_, ?_, ?_, hlive⟩, hobject⟩
  · intro other hother
    rw [List.mem_singleton.mp hother]
    exact hfresh
  · intro other hother
    rw [List.mem_singleton.mp hother, hobject]
    exact nofun
  · intro other hother
    rw [hresolve, if_neg (mt List.mem_singleton.mpr hother)]

/-- Live handles, each named once, can be given back, and are not live then. -/
theorem releaseAll_ok {handles : List Handle} (ht : t.Sound) (hdistinct : handles.Nodup)
    (hheld : ∀ h ∈ handles, t.resolve? h ≠ none) :
    ∃ t', t.releaseAll handles = .ok t' ∧ t'.Sound ∧ t'.live + handles.length = t.live ∧
      ∀ h, t'.resolve? h = if h ∈ handles then none else t.resolve? h := by
  induction handles generalizing t with
  | nil => exact ⟨t, rfl, ht, rfl, fun h => (if_neg nofun).symm⟩
  | cons first rest ih =>
      obtain ⟨hnot, hrest⟩ := List.nodup_cons.mp hdistinct
      obtain ⟨object, hobject⟩ :=
        Option.ne_none_iff_exists'.mp (hheld first (List.mem_cons_self ..))
      obtain ⟨t₁, hrelease, hsound, hlive, hresolve⟩ := release_ok ht hobject
      have hheld₁ : ∀ h ∈ rest, t₁.resolve? h ≠ none := by
        intro h hmem
        rw [hresolve, if_neg (by rintro rfl; exact hnot hmem)]
        exact hheld h (List.mem_cons_of_mem _ hmem)
      obtain ⟨t', hall, hsound', hlive', hresolve'⟩ := ih hsound hrest hheld₁
      refine ⟨t', ?_, hsound', ?_, fun h => ?_⟩
      · show t.release first >>= _ = _
        rw [hrelease]
        exact hall
      · rw [List.length_cons]
        omega
      · rw [hresolve', hresolve]
        simp only [List.mem_cons]
        by_cases hfirst : h = first <;> by_cases hmem : h ∈ rest <;> simp [hfirst, hmem]

/-- **Giving back what was gained** always succeeds, and leads to what was there before. -/
theorem Gains.releaseAll {handles : List Handle} (hgains : t₀.Gains handles t) :
    ∃ t', t.releaseAll handles = .ok t' ∧ t₀.Gains [] t' := by
  obtain ⟨t', hrelease, hsound, hlive, hresolve⟩ :=
    releaseAll_ok hgains.sound hgains.distinct hgains.held
  refine ⟨t', hrelease, hsound, List.nodup_nil, nofun, nofun, fun h _ => ?_, ?_⟩
  · rw [hresolve]
    split
    · next hmem => exact (hgains.fresh h hmem).symm
    · next hnot => exact hgains.others h hnot
  · have := hgains.live
    rw [List.length_nil]
    omega

end ManagedCode.HandleTable
