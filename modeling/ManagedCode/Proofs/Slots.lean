import ManagedCode.Proofs.Lowering
import ManagedCode.World.Sample

/-! # Slots against the values of a frame

    A wide value takes two slots, and the placeholder behind it takes none, so the slots of a frame
    are as many as its values.  A frame is rebuilt by the index of a slot: index by index, the slots
    have to be those of the values.  The loop moves by one or by two and chooses the part of a slot
    by the index of the value alone, so the placeholder of the last value of a part is one of the
    first of the next part.

* **`lowerWith_second`** — a second slot is given exactly for wide values.
* **`Frame.isPlaceholder`** — the indices that belong to the wide value in front of them.
* **`FrameSlots.AlignedFrom`** — the slots from an index on, with **`FrameSlots.AlignedFrom.push`**
  for the slots of one value and **`lowerSlots_aligned`** for all of them.
* **`Scope.AlignedWith`**, **`scope_aligned_with_frame`** — the scope of a frame, index by index. -/

namespace ManagedCode

section Seconds

variable {ctx : ValueContext} {t t' : Lowering} {l : Lowered}

-- ── Second slots ────────────────────────────────────────────────────────────────

theorem lowerRegister_second {r : Register} {kind : Kind} (h : lowerRegister r kind = .ok l) :
    l.second.isSome = kind.isWide := by
  unfold lowerRegister at h
  dsimp only at h
  split at h
  · split at h
    · rw [← Checked.pure_ok h]
      rfl
    · rw [← Checked.pure_ok h]
      rfl
    · obtain ⟨_, -, h⟩ := Checked.bind_ok h
      exact nomatch h
    · obtain ⟨_, -, h⟩ := Checked.bind_ok h
      exact nomatch h
    · next hlong _ hdouble _ =>
        rw [← Checked.pure_ok h]
        cases kind with
        | long => exact absurd rfl hlong
        | double => exact absurd rfl hdouble
        | _ => rfl
  · split at h
    · rw [← Checked.pure_ok h]
      rfl
    · rw [← Checked.pure_ok h]
      rfl
    · obtain ⟨_, -, h⟩ := Checked.bind_ok h
      exact nomatch h

theorem lowerStackSlot_second {offset : Int} {addFrameSize : Bool} {kind : Kind}
    (h : lowerStackSlot ctx offset addFrameSize kind = .ok l) :
    l.second.isSome = kind.isWide := by
  obtain ⟨place, -, h⟩ := Checked.bind_ok h
  dsimp only at h
  split at h
  · next hwide =>
      rw [← Checked.pure_ok h, hwide]
      rfl
  · next hnarrow =>
      rw [← Checked.pure_ok h, Bool.eq_false_iff.mpr hnarrow]
      rfl

theorem lowerConstant_second {c : Constant} (h : (lowerConstant c).run t = .ok (l, t')) :
    l.second.isSome = c.kind.isWide := by
  obtain ⟨_, _, -, h⟩ := Lower.bind_ok h
  obtain ⟨references, _, -, h⟩ := Lower.bind_ok h
  obtain ⟨_, _, -, h⟩ := Lower.bind_ok h
  obtain ⟨kind, bits, object⟩ := c
  cases kind with
  | object =>
      cases object with
      | none =>
          obtain ⟨rfl, -⟩ := Lower.pure_ok h
          rfl
      | some object =>
          cases object with
          | heap object =>
              obtain ⟨handle, t₂, -, h⟩ := Lower.bind_ok h
              obtain ⟨rfl, -⟩ := Lower.pure_ok h
              rfl
          | type id => exact (Lower.throw_ok h).elim
          | remark text => exact (Lower.throw_ok h).elim
  | illegal => exact (Lower.throw_ok h).elim
  | long | double | word | boolean | byte | char | short | int | float =>
      obtain ⟨rfl, -⟩ := Lower.pure_ok h
      rfl

/-- **A second slot** is given exactly for the values of the wide kinds. -/
theorem lowerWith_second {object : Int → Lower Nat} {v : Value}
    (h : (lowerWith ctx object v).run t = .ok (l, t')) : l.second.isSome = v.kind.isWide := by
  cases v with
  | illegal =>
      obtain ⟨rfl, -⟩ := Lower.pure_ok h
      rfl
  | register number kind =>
      obtain ⟨r, _, -, h⟩ := Lower.bind_ok h
      exact lowerRegister_second (Lower.lift_ok h).1
  | stackSlot offset addFrameSize kind => exact lowerStackSlot_second (Lower.lift_ok h).1
  | constant c => exact lowerConstant_second h
  | virtualObject id =>
      obtain ⟨position, t₁, -, h⟩ := Lower.bind_ok h
      obtain ⟨rfl, -⟩ := Lower.pure_ok h
      rfl
  | stackLock owner slot eliminated => exact (Lower.throw_ok h).elim

theorem Lowered.slots_pos (l : Lowered) : 0 < l.slots.length := by
  rw [Lowered.slots]
  split
  · exact Nat.zero_lt_two
  · exact Nat.zero_lt_one

theorem lowerWith_slots_length {object : Int → Lower Nat} {v : Value}
    (h : (lowerWith ctx object v).run t = .ok (l, t')) :
    l.slots.length = if v.kind.isWide then 2 else 1 := by
  rw [← lowerWith_second h, Lowered.slots]
  cases l.second <;> rfl

/-- An index between a value and the next one is that of the placeholder of a wide value. -/
theorem lower_between {v : Value} {i j next : Nat} (h : (lower ctx v).run t = .ok (l, t'))
    (hnext : next = i + l.slots.length) (hij : i < j) (hjn : j < next) :
    j = i + 1 ∧ next = i + 2 ∧ v.kind.isWide = true := by
  rw [hnext, lowerWith_slots_length h] at hjn ⊢
  split at hjn
  · next hwide => exact ⟨by omega, by rw [if_pos hwide], hwide⟩
  · omega

end Seconds

-- ── Placeholders ────────────────────────────────────────────────────────────────

namespace Frame

variable {frame : Frame} {i : Nat} {v : Value}

/-- The number of values that are locals or expressions. -/
def slotCount (frame : Frame) : Nat := frame.localCount + frame.stackCount

/-- Whether the value at an index is the placeholder of the one in front of it: of a wide local or
    expression that is not a placeholder itself. -/
def isPlaceholder (frame : Frame) : Nat → Bool
  | 0 => false
  | i + 1 => i < frame.slotCount && (frame.values[i]?.any fun v => v.kind.isWide) &&
      !frame.isPlaceholder i

/-- The indices of the locks from `i` on, without a placeholder that stands among them. -/
def lockIndicesFrom (frame : Frame) (i : Nat) : List Nat :=
  (List.range' i (frame.values.length - i)).filter fun j =>
    frame.slotCount ≤ j && !frame.isPlaceholder j

theorem isPlaceholder_succ (hi : i < frame.slotCount) (hv : frame.values[i]? = some v)
    (hplace : frame.isPlaceholder i = false) : frame.isPlaceholder (i + 1) = v.kind.isWide := by
  simp only [isPlaceholder, decide_eq_true hi, hv, Option.any_some, hplace, Bool.true_and,
    Bool.not_false, Bool.and_true]

theorem ne_of_isPlaceholder {j : Nat} (hi : frame.isPlaceholder i = false)
    (hj : frame.isPlaceholder j = true) : i ≠ j := by
  rintro rfl
  exact Bool.false_ne_true (hi.symm.trans hj)

/-- A placeholder is followed by a value of its own. -/
theorem isPlaceholder_add_two (hplace : frame.isPlaceholder (i + 1) = true) :
    frame.isPlaceholder (i + 2) = false := by
  rw [isPlaceholder, hplace, Bool.not_true, Bool.and_false]

theorem isPlaceholder_succ_of_lock (hi : ¬ i < frame.slotCount) :
    frame.isPlaceholder (i + 1) = false := by
  rw [isPlaceholder, decide_eq_false hi, Bool.false_and, Bool.false_and]

theorem lockIndicesFrom_of_not_lock (hi : i < frame.slotCount ∨ frame.isPlaceholder i = true) :
    frame.lockIndicesFrom i = frame.lockIndicesFrom (i + 1) := by
  simp only [lockIndicesFrom]
  by_cases hend : i < frame.values.length
  · have hcount : frame.values.length - i = frame.values.length - (i + 1) + 1 := by omega
    have hdropped : (decide (frame.slotCount ≤ i) && !frame.isPlaceholder i) = false := by
      rcases hi with hi | hi
      · rw [decide_eq_false (Nat.not_le_of_lt hi), Bool.false_and]
      · rw [hi, Bool.not_true, Bool.and_false]
    rw [hcount, List.range'_succ, List.filter_cons, hdropped, if_neg Bool.false_ne_true]
  · rw [Nat.sub_eq_zero_of_le (by omega), Nat.sub_eq_zero_of_le (by omega)]
    rfl

theorem lockIndicesFrom_of_lock (hi : ¬ i < frame.slotCount) (hend : i < frame.values.length)
    (hplace : frame.isPlaceholder i = false) :
    frame.lockIndicesFrom i = i :: frame.lockIndicesFrom (i + 1) := by
  have hcount : frame.values.length - i = frame.values.length - (i + 1) + 1 := by omega
  have hkept : (decide (frame.slotCount ≤ i) && !frame.isPlaceholder i) = true := by
    rw [decide_eq_true (Nat.le_of_not_lt hi), hplace]
    rfl
  simp only [lockIndicesFrom]
  rw [hcount, List.range'_succ, List.filter_cons, hkept, if_pos rfl]

end Frame

-- ── Slots from an index on ──────────────────────────────────────────────────────

/-- Tables by index: `t` up to the value at `i`, and the later ones from the value at `next` on. -/
def tablesFrom (i next : Nat) (t : Lowering) (tables : Nat → Lowering) (k : Nat) : Lowering :=
  if k ≤ i then t else tables (max k next)

theorem tablesFrom_start (i next : Nat) (t : Lowering) (tables : Nat → Lowering) :
    tablesFrom i next t tables i = t := if_pos (Nat.le_refl i)

theorem tablesFrom_of_lt {i next k : Nat} (hi : i < k) (t : Lowering) (tables : Nat → Lowering) :
    tablesFrom i next t tables k = tables (max k next) := if_neg (Nat.not_le_of_lt hi)

theorem tablesFrom_of_le {i next k : Nat} {t : Lowering} {tables : Nat → Lowering} (hi : i < next)
    (hk : next ≤ k) : tablesFrom i next t tables k = tables k := by
  rw [tablesFrom_of_lt (Nat.lt_of_lt_of_le hi hk), Nat.max_eq_left hk]

/-- The locals and expressions of a frame, in order. -/
def FrameSlots.cells (f : FrameSlots) : List ScopeValue := f.locals ++ f.expressions

/-- The slots of the values from index `i` on are aligned with them. `tables k` are the tables in
    front of the value at `k`. -/
structure FrameSlots.AlignedFrom (ctx : ValueContext) (frame : Frame) (tables : Nat → Lowering)
    (i : Nat) (f : FrameSlots) : Prop where
  parts : f.From frame i
  length : f.cells.length + f.monitors.length + i = frame.values.length
  locals : i ≤ frame.localCount → f.locals.length + i =
    frame.localCount + if frame.isPlaceholder frame.localCount then 1 else 0
  placeholder : ∀ j, i ≤ j → frame.isPlaceholder j = true →
    frame.values[j]? = some .illegal ∧ tables (j + 1) = tables j
  value : ∀ j v, i ≤ j → j < frame.slotCount → frame.isPlaceholder j = false →
    frame.values[j]? = some v → ∃ l, (lower ctx v).run (tables j) = .ok (l, tables (j + 1)) ∧
      l.slots <+: f.cells.drop (j - i)
  monitors : List.Forall₂ (fun j m => i ≤ j ∧ ∃ v, frame.values[j]? = some v ∧
    (lowerMonitor ctx v).run (tables j) = .ok (m, tables (j + 1)))
    (frame.lockIndicesFrom i) f.monitors

section Aligned

variable {ctx : ValueContext} {frame : Frame} {i next : Nat} {t t' : Lowering} {f : FrameSlots}
  {v : Value} {l : Lowered} {tables : Nat → Lowering}

theorem FrameSlots.From.push_cells (hf : f.From frame next) (slots : List ScopeValue)
    (hnext : i ≤ next) : (f.push frame i slots).cells = slots ++ f.cells := by
  simp only [FrameSlots.push, FrameSlots.cells]
  split
  · rw [List.append_assoc]
  · rw [hf.locals (by omega), List.nil_append, List.nil_append]

theorem FrameSlots.push_monitors (f : FrameSlots) (frame : Frame) (i : Nat)
    (slots : List ScopeValue) : (f.push frame i slots).monitors = f.monitors := by
  simp only [FrameSlots.push]
  split <;> rfl

/-- The locals end where the frame says, with the slots of one more value in front. -/
theorem FrameSlots.AlignedFrom.push_locals (hf : f.AlignedFrom ctx frame tables next)
    (hi : i < frame.slotCount) (hv : frame.values[i]? = some v)
    (hplace : frame.isPlaceholder i = false) (hl : (lower ctx v).run t = .ok (l, t'))
    (hnext : next = i + l.slots.length) (hlocal : i ≤ frame.localCount) :
    (f.push frame i l.slots).locals.length + i =
      frame.localCount + if frame.isPlaceholder frame.localCount then 1 else 0 := by
  have hpos := l.slots_pos
  simp only [FrameSlots.push]
  split
  · next hinside =>
      rw [List.length_append]
      by_cases hn : next ≤ frame.localCount
      · have hlocals := hf.locals hn
        omega
      · -- the last local is wide, and takes its placeholder from the expressions
        obtain ⟨hlast, htwo, hwide⟩ := lower_between hl hnext hinside (by omega)
        have hsucc := Frame.isPlaceholder_succ hi hv hplace
        rw [hf.parts.locals (by omega), hlast, hsucc, if_pos hwide, List.length_nil]
        omega
  · next houtside =>
      have hlast : frame.localCount = i := by omega
      rw [hf.parts.locals (by omega), hlast, hplace, if_neg Bool.false_ne_true, List.length_nil]
      omega

/-- The slots of a value stand for no lock. -/
theorem lockIndicesFrom_push (hi : i < frame.slotCount) (hv : frame.values[i]? = some v)
    (hplace : frame.isPlaceholder i = false) (hl : (lower ctx v).run t = .ok (l, t'))
    (hnext : next = i + l.slots.length) :
    frame.lockIndicesFrom i = frame.lockIndicesFrom next := by
  have hpos := l.slots_pos
  rw [Frame.lockIndicesFrom_of_not_lock (.inl hi)]
  by_cases hn : next = i + 1
  · rw [hn]
  · obtain ⟨-, htwo, hwide⟩ := lower_between hl hnext (Nat.lt_succ_self i) (by omega)
    have hsucc := Frame.isPlaceholder_succ hi hv hplace
    rw [Frame.lockIndicesFrom_of_not_lock (.inr (hsucc.trans hwide)), htwo]

/-- **The slots of one value** in front of aligned ones are aligned. The next value is as far away
    as the value has slots. -/
theorem FrameSlots.AlignedFrom.push (hf : f.AlignedFrom ctx frame tables next)
    (hi : i < frame.slotCount) (hv : frame.values[i]? = some v)
    (hplace : frame.isPlaceholder i = false)
    (hl : (lower ctx v).run t = .ok (l, tables next)) (hnext : next = i + l.slots.length)
    (hillegal : v.kind.isWide = true → frame.values[i + 1]? = some .illegal) :
    (f.push frame i l.slots).AlignedFrom ctx frame (tablesFrom i next t tables) i := by
  have hsucc := Frame.isPlaceholder_succ hi hv hplace
  have hpos : i < next := by
    rw [hnext]
    exact Nat.lt_add_of_pos_right l.slots_pos
  have hcells := hf.parts.push_cells l.slots (Nat.le_of_lt hpos)
  refine ⟨(hf.parts.push (Nat.le_of_lt hpos) hi).1, ?_, ?_, ?_, ?_, ?_⟩
  · have hlength := hf.length
    rw [hcells, push_monitors, List.length_append]
    omega
  · intro hlocal
    exact hf.push_locals hi hv hplace hl hnext hlocal
  · intro j hij hj
    have hne := Frame.ne_of_isPlaceholder hplace hj
    by_cases hjn : next ≤ j
    · rw [tablesFrom_of_le hpos hjn, tablesFrom_of_le hpos (Nat.le_succ_of_le hjn)]
      exact hf.placeholder j hjn hj
    · obtain ⟨rfl, rfl, hwide⟩ := lower_between hl hnext (by omega : i < j) (by omega)
      refine ⟨hillegal hwide, ?_⟩
      rw [tablesFrom_of_lt (by omega), tablesFrom_of_lt (by omega)]
      congr 1
      omega
  · intro j w hij hj hjplace hw
    rcases Nat.lt_or_ge j next with hjn | hjn
    · by_cases hne : i = j
      · subst hne
        obtain rfl := Option.some.inj (hv.symm.trans hw)
        refine ⟨l, ?_, ?_⟩
        · rw [tablesFrom_start, tablesFrom_of_lt (Nat.lt_succ_self i),
            Nat.max_eq_right hpos]
          exact hl
        · rw [hcells, Nat.sub_self, List.drop_zero]
          exact List.prefix_append ..
      · obtain ⟨rfl, -, hwide⟩ := lower_between hl hnext (by omega : i < j) hjn
        rw [hsucc, hwide] at hjplace
        exact nomatch hjplace
    · obtain ⟨lowered, hlowered, hprefix⟩ := hf.value j w hjn hj hjplace hw
      refine ⟨lowered, ?_, ?_⟩
      · rw [tablesFrom_of_le hpos hjn, tablesFrom_of_le hpos (Nat.le_succ_of_le hjn)]
        exact hlowered
      · have hdistance : j - i = l.slots.length + (j - next) := by omega
        rw [hcells, hdistance, List.drop_length_add_append]
        exact hprefix
  · rw [push_monitors, lockIndicesFrom_push hi hv hplace hl hnext]
    refine hf.monitors.imp fun j m hm => ?_
    obtain ⟨hjn, w, hw, hrun⟩ := hm
    refine ⟨Nat.le_of_lt (Nat.lt_of_lt_of_le hpos hjn), w, hw, ?_⟩
    rw [tablesFrom_of_le hpos hjn, tablesFrom_of_le hpos (Nat.le_succ_of_le hjn)]
    exact hrun

/-- The slot of one lock in front of aligned ones is aligned. -/
theorem FrameSlots.AlignedFrom.lock {m : Monitor} (hf : f.AlignedFrom ctx frame tables (i + 1))
    (hi : ¬ i < frame.slotCount) (hv : frame.values[i]? = some v)
    (hplace : frame.isPlaceholder i = false)
    (hm : (lowerMonitor ctx v).run t = .ok (m, tables (i + 1))) :
    FrameSlots.AlignedFrom ctx frame (tablesFrom i (i + 1) t tables) i
      { f with monitors := m :: f.monitors } := by
  have hend : i < frame.values.length := (List.getElem?_eq_some_iff.mp hv).1
  have hlocks : frame.localCount + frame.stackCount ≤ i := Nat.le_of_not_lt hi
  have hlocals := hf.parts.locals (by omega)
  have hexpressions := hf.parts.expressions (by omega)
  have hnext : i < i + 1 := Nat.lt_succ_self i
  refine ⟨⟨fun _ => hlocals, fun _ => hexpressions⟩, ?_, ?_, ?_, ?_, ?_⟩
  · have hlength := hf.length
    simp only [FrameSlots.cells, List.length_cons] at hlength ⊢
    omega
  · intro hlocal
    have hlast : frame.localCount = i := by omega
    show f.locals.length + i = _
    rw [hlocals, hlast, hplace, if_neg Bool.false_ne_true, List.length_nil]
    omega
  · intro j hij hj
    have hne := Frame.ne_of_isPlaceholder hplace hj
    rw [tablesFrom_of_le hnext (by omega), tablesFrom_of_le hnext (by omega)]
    exact hf.placeholder j (by omega) hj
  · intro j w hij hj
    exact absurd (Nat.lt_of_le_of_lt hij hj) hi
  · rw [Frame.lockIndicesFrom_of_lock hi hend hplace]
    refine .cons ⟨Nat.le_refl i, v, hv, ?_⟩ (hf.monitors.imp fun j m hm => ?_)
    · rw [tablesFrom_start, tablesFrom_of_le hnext (Nat.le_refl _)]
      exact hm
    · obtain ⟨hjn, w, hw, hrun⟩ := hm
      refine ⟨by omega, w, hw, ?_⟩
      rw [tablesFrom_of_le hnext hjn, tablesFrom_of_le hnext (Nat.le_succ_of_le hjn)]
      exact hrun

theorem getElem?_of_drop {α : Type} {xs rest : List α} {x : α} {i : Nat}
    (h : xs.drop i = x :: rest) : xs[i]? = some x ∧ xs.drop (i + 1) = rest := by
  constructor
  · have hhead := congrArg (fun ys => ys[0]?) h
    simpa using hhead
  · rw [← List.drop_drop, h, List.drop_succ_cons, List.drop_zero]

/-- Behind the last value there is nothing to align. -/
theorem alignedFrom_end (hcount : frame.slotCount ≤ frame.values.length)
    (hplace : frame.isPlaceholder frame.values.length = false) :
    FrameSlots.AlignedFrom ctx frame (fun _ => t) frame.values.length {} := by
  have hslots : frame.localCount + frame.stackCount ≤ frame.values.length := hcount
  refine ⟨⟨fun _ => rfl, fun _ => rfl⟩, ?_, ?_, ?_, ?_, ?_⟩
  · exact Nat.zero_add _
  · intro hlocal
    have hlast : frame.localCount = frame.values.length := by omega
    rw [hlast, hplace, if_neg Bool.false_ne_true]
    exact Nat.zero_add _
  · intro j hij hj
    cases j with
    | zero => exact nomatch hj
    | succ j =>
        have hslot : j < frame.slotCount := by
          simp only [Frame.isPlaceholder, Bool.and_eq_true, decide_eq_true_eq] at hj
          exact hj.1.1
        have hlast : frame.values.length = j + 1 := by omega
        rw [hlast, hj] at hplace
        exact nomatch hplace
  · intro j w hij hj hjplace hw
    have hend := (List.getElem?_eq_some_iff.mp hw).1
    omega
  · rw [Frame.lockIndicesFrom, Nat.sub_self]
    exact .nil

/-- **The slots from a value on** are aligned, if it is no placeholder. -/
theorem lowerSlots_aligned {values : List Value} (hvalues : frame.values.drop i = values)
    (hi : i ≤ frame.values.length) (hcount : frame.slotCount ≤ frame.values.length)
    (hplace : frame.isPlaceholder i = false)
    (h : (lowerSlots ctx frame i values).run t = .ok (f, t')) :
    ∃ tables, tables i = t ∧ tables frame.values.length = t' ∧
      f.AlignedFrom ctx frame tables i := by
  induction i, values using lowerSlots.induct frame generalizing t f with
  | case1 i =>
      obtain ⟨rfl, rfl⟩ := Lower.pure_ok h
      obtain rfl := Nat.le_antisymm hi (List.drop_eq_nil_iff.mp hvalues)
      exact ⟨fun _ => t, rfl, rfl, alignedFrom_end hcount hplace⟩
  | case2 i v rest hslot ih ihWide =>
      rw [lowerSlots, if_pos hslot] at h
      obtain ⟨l, t₁, hl, h⟩ := Lower.bind_ok h
      obtain ⟨hv, hrest⟩ := getElem?_of_drop hvalues
      have hend : i < frame.values.length := (List.getElem?_eq_some_iff.mp hv).1
      have hwide := lowerWith_second hl
      have hsucc := Frame.isPlaceholder_succ hslot hv hplace
      cases hsecond : l.second with
      | none =>
          rw [hsecond] at h hwide
          obtain ⟨f', t₂, hslots, h⟩ := Lower.bind_ok h
          obtain ⟨rfl, rfl⟩ := Lower.pure_ok h
          obtain ⟨tables, rfl, hlast, hf⟩ := ih hrest hend (hsucc.trans hwide.symm) hslots
          refine ⟨tablesFrom i (i + 1) t tables, tablesFrom_start .., ?_, ?_⟩
          · rw [tablesFrom_of_lt hend, Nat.max_eq_left hend]
            exact hlast
          · refine hf.push hslot hv hplace hl ?_ fun hkind => ?_
            · rw [Lowered.slots, hsecond]
              rfl
            · exact (Bool.false_ne_true (hwide.trans hkind)).elim
      | some second =>
          rw [hsecond] at h hwide
          rcases rest with _ | ⟨_ | _ | _ | _ | _ | _, rest⟩
          case cons.illegal =>
            obtain ⟨f', t₂, hslots, h⟩ := Lower.bind_ok h
            obtain ⟨rfl, rfl⟩ := Lower.pure_ok h
            obtain ⟨hillegal, hrest⟩ := getElem?_of_drop hrest
            have hend : i + 2 ≤ frame.values.length := (List.getElem?_eq_some_iff.mp hillegal).1
            obtain ⟨tables, rfl, hlast, hf⟩ := ihWide hrest hend
              (Frame.isPlaceholder_add_two (hsucc.trans hwide.symm)) hslots
            refine ⟨tablesFrom i (i + 2) t tables, tablesFrom_start .., ?_, ?_⟩
            · rw [tablesFrom_of_lt (by omega), Nat.max_eq_left hend]
              exact hlast
            · refine hf.push hslot hv hplace hl ?_ fun _ => hillegal
              rw [Lowered.slots, hsecond]
              rfl
          all_goals exact (Lower.throw_ok h).elim
  | case3 i v rest hlock ih =>
      rw [lowerSlots, if_neg hlock] at h
      obtain ⟨m, t₁, hm, h⟩ := Lower.bind_ok h
      obtain ⟨f', t₂, hslots, h⟩ := Lower.bind_ok h
      obtain ⟨rfl, rfl⟩ := Lower.pure_ok h
      obtain ⟨hv, hrest⟩ := getElem?_of_drop hvalues
      have hend : i < frame.values.length := (List.getElem?_eq_some_iff.mp hv).1
      obtain ⟨tables, rfl, hlast, hf⟩ :=
        ih hrest hend (Frame.isPlaceholder_succ_of_lock hlock) hslots
      refine ⟨tablesFrom i (i + 1) t tables, tablesFrom_start .., ?_, ?_⟩
      · rw [tablesFrom_of_lt hend, Nat.max_eq_left hend]
        exact hlast
      · exact hf.lock hlock hv hplace hm

end Aligned

-- ── The scope of a frame ────────────────────────────────────────────────────────

/-- A scope is aligned with the values of its frame. `tables k` are the tables in front of the
    value at `k`, so that lowering the value at `k` leads from there to `tables (k + 1)`. -/
structure Scope.AlignedWith (ctx : ValueContext) (frame : Frame) (tables : Nat → Lowering)
    (scope : Scope) : Prop where
  counts : frame.localCount + frame.stackCount + frame.lockCount = frame.values.length
  /-- There are as many slots as values. -/
  length : scope.locals.length + scope.expressions.length + scope.monitors.length =
    frame.values.length
  /-- The locals end where the frame says, or behind the placeholder of the last one. -/
  locals : scope.locals.length =
    frame.localCount + if frame.isPlaceholder frame.localCount then 1 else 0
  /-- A placeholder is not lowered. -/
  placeholder : ∀ i, frame.isPlaceholder i = true →
    frame.values[i]? = some .illegal ∧ tables (i + 1) = tables i
  /-- A narrow value has its slot at its index. -/
  narrow : ∀ i v, i < frame.localCount + frame.stackCount → frame.isPlaceholder i = false →
    frame.values[i]? = some v → v.kind.isWide = false →
    ∃ slot, (lower ctx v).run (tables i) = .ok (.single slot, tables (i + 1)) ∧
      (scope.locals ++ scope.expressions)[i]? = some slot
  /-- A wide value has its second slot at its index and its primary one at that of the
      placeholder. -/
  wide : ∀ i v, i < frame.localCount + frame.stackCount → frame.isPlaceholder i = false →
    frame.values[i]? = some v → v.kind.isWide = true →
    frame.values[i + 1]? = some .illegal ∧ ∃ primary second,
      (lower ctx v).run (tables i) = .ok (⟨primary, some second⟩, tables (i + 1)) ∧
      (scope.locals ++ scope.expressions)[i]? = some second ∧
      (scope.locals ++ scope.expressions)[i + 1]? = some primary
  /-- The locks are those behind the expressions, without a placeholder that stands there. -/
  monitors : List.Forall₂ (fun i m => ∃ v, frame.values[i]? = some v ∧
      (lowerMonitor ctx v).run (tables i) = .ok (m, tables (i + 1)))
    ((List.range frame.values.length).filter fun i =>
      frame.localCount + frame.stackCount ≤ i && !frame.isPlaceholder i) scope.monitors

section Scopes

variable {ctx : ValueContext} {frame : Frame} {t t' : Lowering}

theorem prefix_getElem? {α : Type} {xs ys : List α} {i j : Nat} (h : xs <+: ys.drop i)
    (hj : j < xs.length) : ys[i + j]? = xs[j]? := by
  obtain ⟨rest, hrest⟩ := h
  rw [← List.getElem?_drop, ← hrest, List.getElem?_append_left hj]

theorem Frame.checkCounts_ok (h : frame.checkCounts = .ok ()) :
    frame.localCount + frame.stackCount + frame.lockCount = frame.values.length := by
  obtain ⟨slots, hslots, h⟩ := Checked.bind_ok h
  obtain ⟨count, hcount, h⟩ := Checked.bind_ok h
  rw [← (Size.add_ok hslots).1, ← (Size.add_ok hcount).1]
  exact require_ok h

/-- Aligned slots of all values are an aligned scope. -/
theorem FrameSlots.AlignedFrom.scope {f : FrameSlots} {tables : Nat → Lowering} {scope : Scope}
    (hf : f.AlignedFrom ctx frame tables 0)
    (hcounts : frame.localCount + frame.stackCount + frame.lockCount = frame.values.length)
    (hlocals : scope.locals = f.locals) (hexpressions : scope.expressions = f.expressions)
    (hmonitors : scope.monitors = f.monitors) : scope.AlignedWith ctx frame tables := by
  have hcells : scope.locals ++ scope.expressions = f.cells := by
    rw [hlocals, hexpressions, FrameSlots.cells]
  have hslot : ∀ i v, i < frame.localCount + frame.stackCount → frame.isPlaceholder i = false →
      frame.values[i]? = some v → ∃ l, (lower ctx v).run (tables i) = .ok (l, tables (i + 1)) ∧
        ∀ j, j < l.slots.length → f.cells[i + j]? = l.slots[j]? := by
    intro i v hi hplace hv
    obtain ⟨l, hl, hslots⟩ := hf.value i v (Nat.zero_le i) hi hplace hv
    exact ⟨l, hl, fun j hj => prefix_getElem? hslots hj⟩
  refine ⟨hcounts, ?_, ?_, ?_, ?_, ?_, ?_⟩
  · have hlength := hf.length
    rw [← hcells, List.length_append] at hlength
    rw [hmonitors]
    exact hlength
  · rw [hlocals]
    exact hf.locals (Nat.zero_le _)
  · exact fun i => hf.placeholder i (Nat.zero_le i)
  · intro i v hi hplace hv hkind
    obtain ⟨⟨primary, second⟩, hl, hslots⟩ := hslot i v hi hplace hv
    have hsecond := lowerWith_second hl
    rw [hkind] at hsecond
    obtain rfl := Option.isNone_iff_eq_none.mp (Option.isSome_eq_false_iff.mp hsecond)
    refine ⟨primary, hl, ?_⟩
    rw [hcells]
    exact hslots 0 Nat.zero_lt_one
  · intro i v hi hplace hv hkind
    obtain ⟨⟨primary, second⟩, hl, hslots⟩ := hslot i v hi hplace hv
    have hsecond := lowerWith_second hl
    rw [hkind] at hsecond
    obtain ⟨second, rfl⟩ := Option.isSome_iff_exists.mp hsecond
    have hillegal := (hf.placeholder (i + 1) (Nat.zero_le _)
      ((Frame.isPlaceholder_succ hi hv hplace).trans hkind)).1
    refine ⟨hillegal, primary, second, hl, ?_, ?_⟩
    · rw [hcells]
      exact hslots 0 Nat.zero_lt_two
    · rw [hcells]
      exact hslots 1 Nat.one_lt_two
  · have hindices := hf.monitors.imp fun _ _ hm => hm.2
    rw [Frame.lockIndicesFrom, Nat.sub_zero, ← List.range_eq_range'] at hindices
    rw [hmonitors]
    exact hindices

theorem lowerFrame_aligned {scope : Scope} (h : (lowerFrame ctx frame).run t = .ok (scope, t')) :
    ∃ tables, tables 0 =
        { t with references := (t.references.addMetadata (.method frame.method)).2 } ∧
      tables frame.values.length = t' ∧ scope.AlignedWith ctx frame tables := by
  obtain ⟨_, t₁, hmodify, h⟩ := Lower.bind_ok h
  obtain ⟨-, rfl⟩ := Prod.mk.inj (Except.ok.inj hmodify)
  obtain ⟨_, _, hlift, h⟩ := Lower.bind_ok h
  obtain ⟨hcounts, rfl⟩ := Lower.lift_ok hlift
  obtain ⟨slots, t₂, hslots, h⟩ := Lower.bind_ok h
  obtain ⟨rfl, rfl⟩ := Lower.pure_ok h
  have hcounts := Frame.checkCounts_ok hcounts
  have hcount : frame.slotCount ≤ frame.values.length := by
    rw [Frame.slotCount]
    omega
  obtain ⟨tables, hfirst, hlast, hf⟩ :=
    lowerSlots_aligned List.drop_zero (Nat.zero_le _) hcount rfl hslots
  exact ⟨tables, hfirst, hlast, hf.scope hcounts rfl rfl rfl⟩

end Scopes

/-- **A scope is aligned with its frame.** Whenever a frame and its callers are described, its
    scope is described inside of theirs, and index by index its slots are those of the values of
    the frame. -/
theorem scope_aligned_with_frame {ctx : ValueContext} {pc : Nat} {log log' : SafepointLog}
    {callers : List Frame} {frame : Frame} {t t' : Lowering}
    (h : (describeFrames ctx pc log (callers ++ [frame])).run t = .ok (log', t')) :
    ∃ scope log₁ t₁ tables, (describeFrames ctx pc log callers).run t = .ok (log₁, t₁) ∧
      log₁.describe pc scope = .ok log' ∧
      tables 0 = { t₁ with references := (t₁.references.addMetadata (.method frame.method)).2 } ∧
      tables frame.values.length = t' ∧ scope.AlignedWith ctx frame tables := by
  rw [describeFrames, List.foldlM_append] at h
  obtain ⟨log₁, t₁, hcallers, h⟩ := Lower.bind_ok h
  rw [List.foldlM_cons] at h
  obtain ⟨log₂, t₂, hframe, h⟩ := Lower.bind_ok h
  obtain ⟨rfl, rfl⟩ := Lower.pure_ok h
  obtain ⟨scope, t₃, hscope, hlift⟩ := Lower.bind_ok hframe
  obtain ⟨hdescribe, rfl⟩ := Lower.lift_ok hlift
  obtain ⟨tables, hfirst, hlast, haligned⟩ := lowerFrame_aligned hscope
  exact ⟨scope, log₁, t₁, tables, hcallers, hdescribe, hfirst, hlast, haligned⟩

/-- A frame whose last local and last expression are wide, so that the placeholder of each stands
    in the part behind. -/
def Frame.sampleStraddling : Frame where
  method := ⟨0x3000⟩
  bci := 3
  values :=
    [.stackSlot 16 false .long, .illegal, .register 1 .int, .stackSlot 8 false .double, .illegal,
     .stackLock (.register 3 .object) (.stackSlot 24 false .long) false]
  localCount := 1
  stackCount := 3
  lockCount := 2

/-- A suspension point without objects, in a frame of 32 bytes. -/
def ValueContext.samplePlain : ValueContext := ⟨Description.sample, .little, 32, []⟩

/-- A log whose only safepoint is open. -/
def SafepointLog.sampleOpened : SafepointLog := { current := some { pc := 4, leafGraphId := -1 } }

theorem scope_aligned_with_frame_straddling :
    ∃ out, (describeFrames .samplePlain 4 .sampleOpened ([] ++ [Frame.sampleStraddling])).run {} =
        .ok out ∧
      ∃ scope tables, SafepointLog.sampleOpened.describe 4 scope = .ok out.1 ∧
        scope.AlignedWith .samplePlain Frame.sampleStraddling tables ∧
        scope.locals.length = 2 ∧ scope.expressions.length = 3 ∧ scope.monitors.length = 1 := by
  have hok : ((describeFrames .samplePlain 4 .sampleOpened ([] ++ [Frame.sampleStraddling])).run
      {}).isOk = true := by
    decide +kernel
  cases hrun : (describeFrames .samplePlain 4 .sampleOpened
      ([] ++ [Frame.sampleStraddling])).run {} with
  | error fault =>
      rw [hrun] at hok
      exact nomatch hok
  | ok out =>
      obtain ⟨scope, log₁, t₁, tables, hcallers, hdescribe, -, -, haligned⟩ :=
        scope_aligned_with_frame hrun
      obtain ⟨rfl, rfl⟩ := Lower.pure_ok hcallers
      have hlocals : scope.locals.length = 2 := haligned.locals
      have hmonitors : 1 = scope.monitors.length := haligned.monitors.length_eq
      have hlength : scope.locals.length + scope.expressions.length + scope.monitors.length = 6 :=
        haligned.length
      exact ⟨out, rfl, scope, tables, hdescribe, haligned, hlocals, by omega, by omega⟩

end ManagedCode
