import ManagedCode.Install.Install

/-! # Reading a finished run backwards

    A run that went through is taken apart step by step: a `Checked` computation that gave a
    result, a lowering that gave a state, a `Patch` that ended in a draft.  Everything later is
    about finished runs, so these are the only places where the monads themselves are opened.

* **`Checked.bind_ok`**, **`Checked.foldlM_keeps`** and **`Checked.foldlM_appends`** for loops,
  **`require_ok`**, and one lemma per checked operation on sizes and addresses;
  **`Checked.bind_error`** and **`require_error`** where a fault is read backwards.
* **`Checked.ok_bind`**, **`require_met`**, **`require_unmet`** and **`Size.add_of_lt`**, where a
  step is known to go through or not.
* **`Lower.bind_ok`** for the lowering of values.
* **`Patch.bind_ok`** for a step that went through, **`Patch.bind_done`** for one that went
  through or was refused, and one equation per primitive step over a draft. -/

namespace ManagedCode

-- ── Checked computations ────────────────────────────────────────────────────────

theorem Checked.bind_ok {α β : Type} {x : Checked α} {f : α → Checked β} {b : β}
    (h : x >>= f = .ok b) : ∃ a, x = .ok a ∧ f a = .ok b := by
  cases x with
  | error e => exact nomatch h
  | ok a => exact ⟨a, rfl, h⟩

theorem Checked.ok_bind {α β : Type} (a : α) (f : α → Checked β) :
    ((.ok a : Checked α) >>= f) = f a := rfl

/-- A fault of two steps is one of the first, or of the second behind a first that went through. -/
theorem Checked.bind_error {α β : Type} {x : Checked α} {f : α → Checked β} {fault : Fault}
    (h : x >>= f = .error fault) : x = .error fault ∨ ∃ a, x = .ok a ∧ f a = .error fault := by
  cases x with
  | error e => exact Or.inl (congrArg Except.error (Except.error.inj h))
  | ok a => exact Or.inr ⟨a, rfl, h⟩

theorem map_eq_ok {ε α β : Type} {x : Except ε α} {f : α → β} {b : β}
    (h : x.map f = .ok b) : ∃ a, x = .ok a ∧ f a = b := by
  cases x with
  | error e => exact nomatch h
  | ok a => exact ⟨a, rfl, Except.ok.inj h⟩

theorem Checked.pure_ok {α : Type} {a b : α} (h : (pure a : Checked α) = .ok b) : a = b :=
  Except.ok.inj h

/-- What every step of a loop keeps, a loop that goes through keeps. -/
theorem Checked.foldlM_keeps {α β : Type} {step : β → α → Checked β} {P : β → Prop}
    (hstep : ∀ b x b', P b → step b x = .ok b' → P b') {xs : List α} {b b' : β} (hb : P b)
    (h : xs.foldlM step b = .ok b') : P b' := by
  induction xs generalizing b with
  | nil =>
      obtain rfl := Checked.pure_ok h
      exact hb
  | cons x rest ih =>
      obtain ⟨b₁, hfirst, hrest⟩ := Checked.bind_ok h
      exact ih (hstep b x b₁ hb hfirst) hrest

/-- What every step of a loop appends, a loop that goes through appends in order. -/
theorem Checked.foldlM_appends {α β γ : Type} {step : β → α → Checked β} {f : β → List γ}
    {g : α → List γ} (hstep : ∀ b x b', step b x = .ok b' → f b' = f b ++ g x) {xs : List α}
    {b b' : β} (h : xs.foldlM step b = .ok b') : f b' = f b ++ xs.flatMap g := by
  induction xs generalizing b with
  | nil =>
      obtain rfl := Checked.pure_ok h
      exact (List.append_nil _).symm
  | cons x rest ih =>
      obtain ⟨b₁, hfirst, hrest⟩ := Checked.bind_ok h
      rw [ih hrest, hstep b x b₁ hfirst, List.flatMap_cons, List.append_assoc]

theorem require_ok {p : Prop} [Decidable p] {fault : Fault} {u : Unit}
    (h : require p fault = .ok u) : p := by
  unfold require at h
  split at h
  · assumption
  · exact nomatch h

theorem require_error {p : Prop} [Decidable p] {fault fault' : Fault}
    (h : require p fault = .error fault') : ¬p ∧ fault' = fault := by
  unfold require at h
  split at h
  · exact nomatch h
  · exact ⟨by assumption, (Except.error.inj h).symm⟩

theorem require_met {p : Prop} [Decidable p] {fault : Fault} (h : p) :
    require p fault = .ok () := if_pos h

theorem require_unmet {p : Prop} [Decidable p] {fault : Fault} (h : ¬p) :
    require p fault = .error fault := if_neg h

theorem Size.check_ok {n m : Nat} (h : Size.check n = .ok m) : m = n ∧ n < Word.limit := by
  unfold Size.check at h
  split at h
  · exact ⟨(Except.ok.inj h).symm, by assumption⟩
  · exact nomatch h

theorem Size.add_ok {a b n : Nat} (h : Size.add a b = .ok n) :
    n = a + b ∧ a + b < Word.limit := Size.check_ok h

theorem Size.add_of_lt {a b : Nat} (h : a + b < Word.limit) : Size.add a b = .ok (a + b) :=
  if_pos h

theorem Address.advance_ok {base a : UInt64} {offset : Nat}
    (h : Address.advance base offset = .ok a) :
    a = base + UInt64.ofNat offset ∧ base.toNat + offset < Word.limit := by
  obtain ⟨n, hn, h⟩ := Checked.bind_ok h
  obtain ⟨rfl, hlt⟩ := Size.add_ok hn
  refine ⟨?_, hlt⟩
  rw [← Checked.pure_ok h, UInt64.ofNat_add, UInt64.ofNat_toNat]

theorem Address.distance_ok {target next : UInt64} {d : Int}
    (h : Address.distance target next = .ok d) :
    d = Word.signed64 (target - next) ∧ d = Word.signed32 d := by
  obtain ⟨_, hd, h⟩ := Checked.bind_ok h
  have h := Checked.pure_ok h
  subst h
  exact ⟨rfl, require_ok hd⟩

-- ── Lowerings ───────────────────────────────────────────────────────────────────

namespace Lower

theorem bind_ok {α β : Type} {x : Lower α} {f : α → Lower β} {t t' : Lowering} {b : β}
    (h : (x >>= f).run t = .ok (b, t')) :
    ∃ a t₁, x.run t = .ok (a, t₁) ∧ (f a).run t₁ = .ok (b, t') := by
  obtain ⟨⟨a, t₁⟩, hx, h⟩ := Checked.bind_ok (x := x.run t) h
  exact ⟨a, t₁, hx, h⟩

theorem pure_ok {α : Type} {a b : α} {t t' : Lowering}
    (h : (pure a : Lower α).run t = .ok (b, t')) : a = b ∧ t = t' :=
  Prod.mk.inj (Except.ok.inj h)

theorem get_ok {t t' s : Lowering} (h : (get : Lower Lowering).run t = .ok (s, t')) :
    t = s ∧ t = t' :=
  Prod.mk.inj (Except.ok.inj h)

theorem run_get_bind {α : Type} (f : Lowering → Lower α) (t : Lowering) :
    (get >>= f).run t = (f t).run t := rfl

theorem set_ok {s t t' : Lowering} {u : PUnit}
    (h : (set s : Lower PUnit).run t = .ok (u, t')) : s = t' :=
  (Prod.mk.inj (Except.ok.inj h)).2

theorem lift_ok {α : Type} {x : Checked α} {a : α} {t t' : Lowering}
    (h : (liftM x : Lower α).run t = .ok (a, t')) : x = .ok a ∧ t = t' := by
  cases x with
  | error e => exact nomatch h
  | ok b =>
      obtain ⟨hb, ht⟩ := Prod.mk.inj (Except.ok.inj h)
      exact ⟨congrArg Except.ok hb, ht⟩

theorem throw_ok {α : Type} {e : Fault} {a : α} {t t' : Lowering}
    (h : (throw e : Lower α).run t = .ok (a, t')) : False := nomatch h

end Lower

-- ── Steps over a draft ──────────────────────────────────────────────────────────

namespace Patch

variable {α β : Type} {d d' : Draft}

/-- A step followed by another goes through when both do; what the first refuses stays refused. -/
theorem runOn_bind (x : Patch α) (f : α → Patch β) (d : Draft) :
    (x >>= f).runOn d = (x.runOn d >>= fun out => match out with
      | (.ok a, d₁) => (f a).runOn d₁
      | (.error e, d₁) => .ok (.error e, d₁)) := by
  show (ExceptT.run x).run d >>= _ = (ExceptT.run x).run d >>= _
  congr 1
  funext out
  obtain ⟨_ | _, _⟩ := out <;> rfl

/-- How a sequence ends: the first step is refused, or it goes through and the second ends. -/
theorem bind_done {x : Patch α} {f : α → Patch β} {out : Except Overflow β}
    (h : (x >>= f).runOn d = .ok (out, d')) :
    (∃ e, out = .error e ∧ x.runOn d = .ok (.error e, d')) ∨
      ∃ a d₁, x.runOn d = .ok (.ok a, d₁) ∧ (f a).runOn d₁ = .ok (out, d') := by
  rw [runOn_bind] at h
  obtain ⟨⟨first, d₁⟩, hx, h⟩ := Checked.bind_ok h
  cases first with
  | ok a => exact Or.inr ⟨a, d₁, hx, h⟩
  | error e =>
      obtain ⟨rfl, rfl⟩ := Prod.mk.inj (Except.ok.inj h)
      exact Or.inl ⟨e, rfl, hx⟩

theorem bind_ok {x : Patch α} {f : α → Patch β} {b : β}
    (h : (x >>= f).runOn d = .ok (.ok b, d')) :
    ∃ a d₁, x.runOn d = .ok (.ok a, d₁) ∧ (f a).runOn d₁ = .ok (.ok b, d') := by
  rcases bind_done h with ⟨e, he, -⟩ | hok
  · exact nomatch he
  · exact hok

theorem runOn_get_bind (f : Draft → Patch β) (d : Draft) :
    (get >>= f).runOn d = (f d).runOn d := rfl

theorem runOn_set_bind (s : Draft) (f : PUnit → Patch β) (d : Draft) :
    (set s >>= f).runOn d = (f ⟨⟩).runOn s := rfl

theorem runOn_blob_bind (f : Blob → Patch β) (d : Draft) :
    (blob >>= f).runOn d = (f d.blob).runOn d := rfl

theorem runOn_lift (x : Checked α) (d : Draft) :
    (liftM x : Patch α).runOn d = x >>= fun a => .ok (.ok a, d) := by
  cases x <;> rfl

theorem runOn_lift_bind (x : Checked α) (f : α → Patch β) (d : Draft) :
    ((liftM x : Patch α) >>= f).runOn d = x >>= fun a => (f a).runOn d := by
  cases x <;> rfl

theorem runOn_liftExcept (result : Except Overflow α) (d : Draft) :
    (liftExcept result : Patch α).runOn d = .ok (result, d) := by
  cases result <;> rfl

theorem runOn_modifyBlob (f : Blob → Checked Blob) (d : Draft) :
    (modifyBlob f).runOn d = f d.blob >>= fun b => .ok (.ok (), { d with blob := b }) := by
  unfold modifyBlob
  rw [runOn_get_bind, runOn_lift_bind]
  rfl

theorem runOn_modifyLog (f : SafepointLog → Checked SafepointLog) (d : Draft) :
    (modifyLog f).runOn d = f d.log >>= fun log => .ok (.ok (), { d with log }) := by
  unfold modifyLog
  rw [runOn_get_bind, runOn_lift_bind]
  rfl

theorem runOn_relocate (offset : Nat) (kind : RelocationKind) (format : OperandFormat)
    (d : Draft) :
    (relocate offset kind format).runOn d = d.blob.relocate offset kind format >>= fun out =>
      .ok (out.1, { d with blob := out.2 }) := by
  rw [relocate, runOn_get_bind, runOn_lift_bind]
  congr 1
  funext ⟨result, b⟩
  rw [runOn_set_bind, runOn_liftExcept]

theorem runOn_appendConstant (bytes : List UInt8) (alignment : Nat) (d : Draft) :
    (appendConstant bytes alignment).runOn d =
      d.blob.appendConstant bytes alignment >>= fun out =>
        .ok (out.1, { d with blob := out.2 }) := by
  rw [appendConstant, runOn_get_bind, runOn_lift_bind]
  congr 1
  funext ⟨result, b⟩
  rw [runOn_set_bind, runOn_liftExcept]

theorem runOn_lowering (step : Lower α) (d : Draft) :
    (lowering step).runOn d =
      step.run { references := d.references, handles := d.handles } >>= fun out =>
        .ok (.ok out.1,
          { d with references := out.2.references, handles := out.2.handles }) := by
  unfold lowering
  rw [runOn_get_bind, runOn_lift_bind]
  rfl

end Patch

end ManagedCode
