import ManagedCode.Proofs.Overlay

/-! # Shifting distances

    Moving code adds the same number to every distance that has a positional record, once for each
    record.  This file is about that addition alone: what it does to an operand, to the rest of the
    code, and to code that was filled for another base.

* **`shift`**, **`shifts`** — one addition, and one after another; **`ShiftsFit`** says that no
  sum leaves the range of four bytes.
* **`shifts_render`** — filling for one base and shifting is filling for the other, if nothing is
  filled again after a distance.
* **`eq_of_shifts_render`** — and if something is, the bases have to be the same. -/

namespace ManagedCode

/-- Two operands have no byte in common. -/
def Operand.Apart (o p : Operand) : Prop :=
  o.offset + o.size ≤ p.offset ∨ p.offset + p.size ≤ o.offset

/-- The signed number in the four bytes of an operand. -/
def Operand.value (code : List UInt8) (o : Operand) : Int :=
  Word.signed32 (Word.ofBytes ((code.drop o.offset).take 4))

/-- The four bytes of a number. -/
def fourBytes (n : Int) : List UInt8 := Word.toBytes 4 (n % Word.limit32).toNat

@[simp] theorem length_fourBytes (n : Int) : (fourBytes n).length = 4 := Word.length_toBytes 4 _

/-- Adds `delta` to the number in an operand. -/
def shift (delta : Int) (code : List UInt8) (o : Operand) : List UInt8 :=
  Blob.overwrite code o.offset (fourBytes (o.value code + delta))

/-- Adds `delta` to the numbers in operands, one after another. -/
def shifts (delta : Int) (code : List UInt8) (operands : List Operand) : List UInt8 :=
  operands.foldl (shift delta) code

/-- Every sum on the way is within the range of four bytes, and every operand within the code. -/
def ShiftsFit (delta : Int) : List UInt8 → List Operand → Prop
  | _, [] => True
  | code, o :: rest =>
      o.value code + delta = Word.signed32 (o.value code + delta) ∧ o.size = 4 ∧
        o.offset + 4 ≤ code.length ∧ ShiftsFit delta (shift delta code o) rest

/-- The operands filled with distances. -/
def distances (edits : List Edit) : List Operand :=
  (edits.filter fun e => e.filling.isDistance).map Edit.operand

section

variable {delta : Int} {code bytes : List UInt8} {o p : Operand}

-- ── Values ──────────────────────────────────────────────────────────────────────

theorem value_overwrite (hin : o.offset + 4 ≤ code.length) (n : Int) :
    o.value (Blob.overwrite code o.offset (fourBytes n)) = Word.signed32 n := by
  have hroom : o.offset + (fourBytes n).length ≤ code.length := by
    rw [length_fourBytes]
    exact hin
  have hslice := Blob.slice_overwrite hroom
  rw [length_fourBytes] at hslice
  unfold Operand.value
  rw [hslice]
  exact Word.signed32_ofBytes_toBytes n

/-- The number of an operand depends on its own bytes. -/
theorem value_congr {code' : List UInt8}
    (h : ∀ q, o.offset ≤ q → q < o.offset + 4 → code[q]? = code'[q]?) :
    o.value code = o.value code' := by
  unfold Operand.value
  rw [Blob.slice_congr h]

theorem value_overwrite_apart {offset : Nat} (hin : offset + bytes.length ≤ code.length)
    (hapart : offset + bytes.length ≤ o.offset ∨ o.offset + 4 ≤ offset) :
    o.value (Blob.overwrite code offset bytes) = o.value code := by
  apply value_congr
  intro q hlo hhi
  rw [Blob.getElem?_overwrite hin, if_neg (by omega)]

/-- Four bytes are those of the number they stand for. -/
theorem fourBytes_value (hin : o.offset + 4 ≤ code.length) :
    fourBytes (o.value code) = (code.drop o.offset).take 4 := by
  have hlen : ((code.drop o.offset).take 4).length = 4 := by
    rw [List.length_take, List.length_drop]
    omega
  have hlt := Word.ofBytes_lt ((code.drop o.offset).take 4)
  have hback := Word.toBytes_ofBytes ((code.drop o.offset).take 4)
  rw [hlen] at hlt hback
  unfold fourBytes Operand.value
  rw [Word.signed32_emod, Int.emod_eq_of_lt (Int.natCast_nonneg _), Int.toNat_natCast, hback]
  simp only [Word.limit32]
  omega

-- ── One shift ───────────────────────────────────────────────────────────────────

theorem length_shift (hin : o.offset + 4 ≤ code.length) :
    (shift delta code o).length = code.length :=
  Blob.length_overwrite (by rw [length_fourBytes]; exact hin)

theorem value_shift (hin : o.offset + 4 ≤ code.length)
    (hfits : o.value code + delta = Word.signed32 (o.value code + delta)) :
    o.value (shift delta code o) = o.value code + delta := by
  unfold shift
  rw [value_overwrite hin, ← hfits]

theorem value_shift_apart (hin : p.offset + 4 ≤ code.length) (hsize : p.size = 4)
    (ho : o.size = 4) (hapart : p.Apart o) : o.value (shift delta code p) = o.value code := by
  unfold Operand.Apart at hapart
  unfold shift
  refine value_overwrite_apart ?_ ?_ <;> rw [length_fourBytes] <;> omega

/-- Adding nothing changes nothing. -/
theorem shift_zero (hin : o.offset + 4 ≤ code.length) : shift 0 code o = code := by
  unfold shift
  rw [Int.add_zero, fourBytes_value hin]
  apply List.ext_getElem?
  intro q
  have hlen : ((code.drop o.offset).take 4).length = 4 := by
    rw [List.length_take, List.length_drop]
    omega
  rw [Blob.getElem?_overwrite (by rw [hlen]; exact hin), hlen]
  by_cases hq : o.offset ≤ q ∧ q < o.offset + 4
  · rw [if_pos hq, List.getElem?_take_of_lt (by omega), List.getElem?_drop]
    congr 1
    omega
  · rw [if_neg hq]

/-- Shifting one operand and filling another can be done in either order. -/
theorem shift_apply {base : UInt64} {e : Edit} (hin : o.offset + 4 ≤ code.length)
    (hsize : o.size = 4) (he : e.Fits base code.length) (hapart : o.Apart e.operand) :
    shift delta (e.apply base code) o = e.apply base (shift delta code o) := by
  unfold Operand.Apart at hapart
  have hinside : e.operand.offset + (e.filling.bytes base).length ≤ code.length := by
    rw [he.width]
    exact he.inside
  have hvalue : o.value (e.apply base code) = o.value code := by
    refine value_overwrite_apart hinside ?_
    rw [he.width]
    omega
  unfold shift
  rw [hvalue]
  unfold Edit.apply
  refine Blob.overwrite_comm hinside (by rw [length_fourBytes]; exact hin) ?_
  rw [he.width, length_fourBytes]
  omega

theorem shift_render {base : UInt64} {edits : List Edit} (hin : o.offset + 4 ≤ code.length)
    (hsize : o.size = 4) (hfits : ∀ e ∈ edits, e.Fits base code.length)
    (hapart : ∀ e ∈ edits, o.Apart e.operand) :
    shift delta (render base code edits) o = render base (shift delta code o) edits := by
  induction edits generalizing code with
  | nil => rfl
  | cons e rest ih =>
      have he := hfits e (List.mem_cons_self ..)
      have hlen := Edit.length_apply he
      show shift delta (render base (e.apply base code) rest) o =
        render base (e.apply base (shift delta code o)) rest
      rw [ih (by rw [hlen]; exact hin)
          (fun e' he' => by rw [hlen]; exact hfits e' (List.mem_cons_of_mem _ he'))
          fun e' he' => hapart e' (List.mem_cons_of_mem _ he'),
        shift_apply hin hsize he (hapart e (List.mem_cons_self ..))]

-- ── Filling for one base and shifting ───────────────────────────────────────────

variable {old new : UInt64} {edits : List Edit}

/-- A distance filled for one base becomes the distance for the other. -/
theorem shift_apply_distance {target : UInt64} {next : Nat} {e : Edit}
    (he : e.filling = .distance target next) (hfits : e.Fits old code.length)
    (hsum : e.operand.value (e.apply old code) + Word.signed64 (old - new) =
      Word.signed32 (e.operand.value (e.apply old code) + Word.signed64 (old - new))) :
    shift (Word.signed64 (old - new)) (e.apply old code) e.operand = e.apply new code ∧
      e.Fits new code.length := by
  have hsize : e.operand.size = 4 := by
    have hwidth := hfits.width
    rw [he] at hwidth
    exact hwidth.symm
  have hin : e.operand.offset + 4 ≤ code.length := by
    have hinside := hfits.inside
    rw [hsize] at hinside
    exact hinside
  have happly : ∀ base, e.apply base code = Blob.overwrite code e.operand.offset
      (fourBytes (Filling.distanceAt base target next)) := by
    intro base
    unfold Edit.apply
    rw [he]
    rfl
  have hold : Filling.distanceAt old target next =
      Word.signed32 (Filling.distanceAt old target next) := by
    have hdistance := hfits.filling
    rw [he] at hdistance
    exact hdistance
  have hvalue : e.operand.value (e.apply old code) = Filling.distanceAt old target next := by
    rw [happly, value_overwrite hin, ← hold]
  rw [hvalue] at hsum
  have hnew : Filling.distanceAt new target next =
      Filling.distanceAt old target next + Word.signed64 (old - new) := by
    have hshifted := Address.displace_sub_of_fits old new (UInt64.ofNat next) hsum
    unfold Filling.distanceAt at hshifted ⊢
    rw [Address.displace_signed64] at hshifted
    exact hshifted
  have hroom : e.operand.offset +
      (fourBytes (Filling.distanceAt old target next)).length ≤ code.length := by
    rw [length_fourBytes]
    exact hin
  constructor
  · unfold shift
    rw [hvalue, ← hnew, happly, happly, Blob.overwrite_overwrite _ hroom]
    rw [length_fourBytes, length_fourBytes]
  · refine ⟨?_, hfits.inside, hfits.inRange, ?_⟩
    · rw [he, hsize]
      exact length_fourBytes _
    · rw [he]
      show Filling.distanceAt new target next = Word.signed32 (Filling.distanceAt new target next)
      rw [hnew]
      exact hsum

theorem distances_cons (e : Edit) (rest : List Edit) : distances (e :: rest) =
    if e.filling.isDistance then e.operand :: distances rest else distances rest := by
  unfold distances
  rw [List.filter_cons]
  split <;> rfl

/-- **Filling and shifting is filling for the new base**, if nothing is filled again after a
    distance: what follows a distance leaves its operand alone, so that the shift of it can be
    made before everything that follows. -/
theorem shifts_render (hfits : ∀ e ∈ edits, e.Fits old code.length)
    (honce : edits.Pairwise fun e e' =>
      e.filling.isDistance = true → e.operand.Apart e'.operand)
    (hshift : ShiftsFit (Word.signed64 (old - new)) (render old code edits) (distances edits)) :
    shifts (Word.signed64 (old - new)) (render old code edits) (distances edits) =
        render new code edits ∧
      ∀ e ∈ edits, e.Fits new code.length := by
  induction edits generalizing code with
  | nil => exact ⟨rfl, fun e he => (List.not_mem_nil he).elim⟩
  | cons e rest ih =>
      rw [List.pairwise_cons] at honce
      have he := hfits e (List.mem_cons_self ..)
      have hrest : ∀ e' ∈ rest, e'.Fits old (e.apply old code).length := by
        intro e' he'
        rw [Edit.length_apply he]
        exact hfits e' (List.mem_cons_of_mem _ he')
      change ShiftsFit _ (render old (e.apply old code) rest) _ at hshift
      show shifts _ (render old (e.apply old code) rest) _ =
        render new (e.apply new code) rest ∧ _
      cases hdistance : e.filling.isDistance with
      | false =>
          have hdistances : distances (e :: rest) = distances rest := by
            rw [distances_cons, hdistance]
            rfl
          have hbytes := Filling.bytes_eq hdistance new old
          have hnew : e.Fits new code.length := by
            refine ⟨?_, he.inside, he.inRange, he.filling.of_not_distance hdistance new⟩
            rw [hbytes]
            exact he.width
          have happly : e.apply new code = e.apply old code := by
            unfold Edit.apply
            rw [hbytes]
          rw [hdistances] at hshift ⊢
          obtain ⟨hcode, hlater⟩ := ih hrest honce.2 hshift
          rw [happly]
          refine ⟨hcode, fun e' he' => ?_⟩
          rcases List.mem_cons.mp he' with rfl | he'
          · exact hnew
          · rw [← Edit.length_apply he]
            exact hlater e' he'
      | true =>
          obtain ⟨target, next, hfilling⟩ := Filling.exists_of_isDistance hdistance
          have hdistances : distances (e :: rest) = e.operand :: distances rest := by
            rw [distances_cons, hdistance]
            rfl
          rw [hdistances] at hshift ⊢
          obtain ⟨hsum, hsize, hin, hshift⟩ := hshift
          rw [length_render hrest, Edit.length_apply he] at hin
          have hapart : ∀ e' ∈ rest, e.operand.Apart e'.operand := fun e' he' =>
            honce.1 e' he' hdistance
          have hvalue : e.operand.value (render old (e.apply old code) rest) =
              e.operand.value (e.apply old code) := by
            refine value_congr fun q hlo hhi => getElem?_render hrest fun e' he' => ?_
            have := hapart e' he'
            unfold Operand.Apart at this
            omega
          rw [hvalue] at hsum
          obtain ⟨happly, hnew⟩ := shift_apply_distance hfilling he hsum
          have hcommute : shift (Word.signed64 (old - new))
              (render old (e.apply old code) rest) e.operand =
              render old (e.apply new code) rest := by
            rw [shift_render (by rw [Edit.length_apply he]; exact hin) hsize hrest hapart, happly]
          rw [hcommute] at hshift
          have hrest' : ∀ e' ∈ rest, e'.Fits old (e.apply new code).length := by
            intro e' he'
            rw [Edit.length_apply hnew]
            exact hfits e' (List.mem_cons_of_mem _ he')
          obtain ⟨hcode, hlater⟩ := ih hrest' honce.2 hshift
          refine ⟨?_, fun e' he' => ?_⟩
          · show shifts _ (shift _ _ e.operand) (distances rest) = _
            rw [hcommute, hcode]
          · rcases List.mem_cons.mp he' with rfl | he'
            · exact hnew
            · rw [← Edit.length_apply hnew]
              exact hlater e' he'

theorem shifts_zero {operands : List Operand} (h : ShiftsFit 0 code operands) :
    shifts 0 code operands = code := by
  induction operands generalizing code with
  | nil => rfl
  | cons o rest ih =>
      obtain ⟨-, -, hin, hrest⟩ := h
      show shifts 0 (shift 0 code o) rest = code
      rw [ih hrest, shift_zero hin]

-- ── Filling again after a distance ──────────────────────────────────────────────

/-- Each shift of an operand adds `delta` to it; shifts of other operands do not matter. -/
theorem value_shifts {operands : List Operand} (hsize : o.size = 4)
    (hother : ∀ p ∈ operands, p = o ∨ p.Apart o) (h : ShiftsFit delta code operands) :
    o.value (shifts delta code operands) = o.value code + operands.count o * delta := by
  induction operands generalizing code with
  | nil => rw [List.count_nil, Int.natCast_zero, Int.zero_mul, Int.add_zero]; rfl
  | cons p rest ih =>
      obtain ⟨hsum, hp, hin, hrest⟩ := h
      show o.value (shifts delta (shift delta code p) rest) = _
      rw [ih (fun q hq => hother q (List.mem_cons_of_mem _ hq)) hrest]
      rcases hother p (List.mem_cons_self ..) with rfl | hapart
      · rw [value_shift hin hsum, List.count_cons_self, Int.natCast_add, Int.add_mul,
          Int.natCast_one, Int.one_mul]
        omega
      · have hne : p ≠ o := by
          rintro rfl
          unfold Operand.Apart at hapart
          omega
        rw [value_shift_apart hin hp hsize hapart, List.count_cons_of_ne hne]

/-- The last edit of an operand decides what is in it. -/
theorem value_render {base : UInt64} {before after : List Edit} {e : Edit}
    (hfits : ∀ e' ∈ before ++ e :: after, e'.Fits base code.length) (hsize : e.operand.size = 4)
    (hafter : ∀ e' ∈ after, e'.operand.Apart e.operand) :
    e.operand.value (render base code (before ++ e :: after)) =
      Word.signed32 (Word.ofBytes (e.filling.bytes base)) := by
  have hbefore := length_render fun e' he' => hfits e' (List.mem_append_left _ he')
  have he : e.Fits base (render base code before).length := by
    rw [hbefore]
    exact hfits e (List.mem_append_right _ (List.mem_cons_self ..))
  have hroom : e.operand.offset + (e.filling.bytes base).length ≤
      (render base code before).length := by
    rw [he.width]
    exact he.inside
  have hslice := Blob.slice_overwrite hroom
  rw [he.width, hsize] at hslice
  rw [render_append]
  show e.operand.value (render base (e.apply base (render base code before)) after) = _
  have hkept : e.operand.value (render base (e.apply base (render base code before)) after) =
      e.operand.value (e.apply base (render base code before)) := by
    refine value_congr fun q hlo hhi => getElem?_render (fun e' he' => ?_) fun e' he' => ?_
    · rw [Edit.length_apply he, hbefore]
      exact hfits e' (List.mem_append_right _ (List.mem_cons_of_mem _ he'))
    · have := hafter e' he'
      unfold Operand.Apart at this
      omega
  rw [hkept]
  unfold Operand.value Edit.apply
  rw [hslice]

theorem distances_append (first second : List Edit) :
    distances (first ++ second) = distances first ++ distances second := by
  unfold distances
  rw [List.filter_append, List.map_append]

theorem exists_last_edit {later : List Edit} (h : ∃ e ∈ later, e.operand = o) :
    ∃ before e after, later = before ++ e :: after ∧ e.operand = o ∧
      ∀ e' ∈ after, e'.operand ≠ o := by
  induction later with
  | nil =>
      obtain ⟨e, he, -⟩ := h
      exact (List.not_mem_nil he).elim
  | cons x rest ih =>
      by_cases hrest : ∃ e ∈ rest, e.operand = o
      · obtain ⟨before, e, after, rfl, he, hafter⟩ := ih hrest
        exact ⟨x :: before, e, after, rfl, he, hafter⟩
      · obtain ⟨e, he, heo⟩ := h
        rcases List.mem_cons.mp he with rfl | he
        · exact ⟨[], e, rest, rfl, heo, fun e' he' heo' => hrest ⟨e', he', heo'⟩⟩
        · exact (hrest ⟨e, he, heo⟩).elim

theorem eq_of_signed64_sub (h : Word.signed64 (old - new) = 0) : old = new := by
  have hword := Word.ofInt_signed64 (old - new)
  rw [h] at hword
  have hzero : old - new = 0 := hword.symm
  grind

/-- A filling is off at another base by the difference of the bases if it is a distance, and not at
    all otherwise. Where it is shifted more often than that, there is no difference. -/
theorem signed64_eq_zero_of_shifted {filling : Filling} {count : Nat} (hold : filling.Fits old)
    (hnew : filling.Fits new) (hcount : (if filling.isDistance then 2 else 1) ≤ count)
    (hvalue : Word.signed32 (Word.ofBytes (filling.bytes new)) =
      Word.signed32 (Word.ofBytes (filling.bytes old)) +
        (count : Int) * Word.signed64 (old - new)) :
    Word.signed64 (old - new) = 0 := by
  cases hdistance : filling.isDistance with
  | false =>
      rw [hdistance] at hcount
      rw [Filling.bytes_eq hdistance new old] at hvalue
      have hzero : (count : Int) * Word.signed64 (old - new) = 0 := by omega
      rcases Int.mul_eq_zero.mp hzero with h | h
      · change 1 ≤ count at hcount
        omega
      · exact h
  | true =>
      rw [hdistance] at hcount
      obtain ⟨target, next, rfl⟩ := Filling.exists_of_isDistance hdistance
      change Filling.distanceAt old target next = _ at hold
      change Filling.distanceAt new target next = _ at hnew
      have hexact : Filling.distanceAt new target next =
          Filling.distanceAt old target next + Word.signed64 (old - new) := by
        refine Address.displace_sub_eq old new (UInt64.ofNat next) hold ?_ hnew
        unfold Filling.distanceAt
        rw [Address.displace_signed64]
      simp only [Filling.bytes, Word.signed32_ofBytes_toBytes] at hvalue
      rw [← hold, ← hnew, hexact] at hvalue
      have hzero : ((count : Int) - 1) * Word.signed64 (old - new) = 0 := by
        rw [Int.sub_mul, Int.one_mul]
        omega
      rcases Int.mul_eq_zero.mp hzero with h | h
      · change 2 ≤ count at hcount
        omega
      · exact h

/-- **A distance whose operand is filled again is shifted once too often**, so filling and shifting
    is filling for the new base only where there is nothing to shift. -/
theorem eq_of_shifts_render {before later : List Edit} {x : Edit}
    (hold : ∀ e ∈ before ++ x :: later, e.Fits old code.length)
    (hnew : ∀ e ∈ before ++ x :: later, e.Fits new code.length)
    (hx : x.filling.isDistance = true) (hagain : ∃ e ∈ later, e.operand = x.operand)
    (hother : ∀ e ∈ before ++ x :: later, e.operand = x.operand ∨ e.operand.Apart x.operand)
    (hshift : ShiftsFit (Word.signed64 (old - new)) (render old code (before ++ x :: later))
      (distances (before ++ x :: later)))
    (heq : shifts (Word.signed64 (old - new)) (render old code (before ++ x :: later))
        (distances (before ++ x :: later)) =
      render new code (before ++ x :: later)) : old = new := by
  apply eq_of_signed64_sub
  have hsize : x.operand.size = 4 := by
    have hwidth := (hold x (List.mem_append_right _ (List.mem_cons_self ..))).width
    obtain ⟨target, next, hfilling⟩ := Filling.exists_of_isDistance hx
    rw [hfilling] at hwidth
    exact hwidth.symm
  obtain ⟨between, e, after, rfl, he, hafter⟩ := exists_last_edit hagain
  have hsplit : before ++ x :: (between ++ e :: after) =
      (before ++ x :: between) ++ e :: after := by
    rw [List.append_assoc, List.cons_append]
  have hapart : ∀ e' ∈ after, e'.operand.Apart e.operand := by
    intro e' he'
    have hmem : e' ∈ before ++ x :: (between ++ e :: after) := by
      rw [hsplit]
      exact List.mem_append_right _ (List.mem_cons_of_mem _ he')
    rw [he]
    exact (hother e' hmem).resolve_left (hafter e' he')
  -- how often the operand is shifted
  have hcount : (if e.filling.isDistance then 2 else 1) ≤
      (distances (before ++ x :: (between ++ e :: after))).count x.operand := by
    rw [distances_append, distances_cons, if_pos hx, distances_append, distances_cons,
      List.count_append, List.count_cons_self, List.count_append]
    split
    · rw [he, List.count_cons_self]
      omega
    · omega
  have hdistances : ∀ p ∈ distances (before ++ x :: (between ++ e :: after)),
      p = x.operand ∨ p.Apart x.operand := by
    intro p hp
    obtain ⟨e', he', rfl⟩ := List.mem_map.mp hp
    exact hother e' (List.mem_filter.mp he').1
  have hvalue := value_shifts hsize hdistances hshift
  rw [heq] at hvalue
  rw [hsplit] at hvalue hold hnew hcount
  rw [← he] at hsize hvalue hcount
  rw [value_render hold hsize hapart, value_render hnew hsize hapart] at hvalue
  have hlast : e ∈ before ++ x :: between ++ e :: after :=
    List.mem_append_right _ (List.mem_cons_self ..)
  exact signed64_eq_zero_of_shifted (hold e hlast).filling (hnew e hlast).filling hcount hvalue

end

end ManagedCode
