import Mathlib.Data.List.Forall2
import ManagedCode.Proofs.Recording

/-! # Invariants of the lowering

    The lowering of a suspension point goes through its frames, the slots of each frame and the
    objects that these refer to.  A rule says what it may do to the tables on the way.  Whoever
    shows it for single values gets it for locks, slots, frames and whole chains from here.

* **`Value.LowersBy`**, **`lowerWith_ok`** — the three ways a value is lowered.
* **`enterObject_ok`**, **`meetObject_ok`** — what finding or making an object does.
* **`Lowering.Rule`** — what lowering may do to the tables, with **`Lowering.Rule.mapM_ok`** for the
  elements of a list.
* **`Lowering.Account`** — a rule that values keep to, with what it says about a slot in the place
  of a value.
* **`Lowering.Account.chain`** — the frames of a chain keep to it. -/

namespace ManagedCode

-- ── Values ──────────────────────────────────────────────────────────────────────

/-- The object without a place of its own that a value names. A lock names its owner. -/
def Value.object? : Value → Option Int
  | virtualObject id => some id
  | stackLock owner _ _ => owner.object?
  | _ => none

/-- A scope value that refers to nothing: to no object of the pool, and through no handle. -/
def ScopeValue.IsPlain : ScopeValue → Prop
  | object _ => False
  | reference (some _) => False
  | _ => True

/-- A lowered value without a slot that refers to something. -/
structure Lowered.IsPlain (l : Lowered) : Prop where
  primary : l.primary.IsPlain
  second : ∀ s, l.second = some s → s.IsPlain

/-- The ways a value is lowered, given how to find or make the object of an identity. -/
inductive Value.LowersBy (object : Int → Lower Nat) (t : Lowering) :
    Value → Lowered → Lowering → Prop
  /-- An object is where it was found or put. -/
  | object {id : Int} {position : Nat} {t' : Lowering}
      (hobject : (object id).run t = .ok (position, t')) :
      LowersBy object t (.virtualObject id) (.single (.object position)) t'
  /-- A heap object is referred to through a handle made for it. -/
  | handle {c : Constant} {heap : ObjectAddress} {handle : Handle} {references : ReferenceRecorder}
      {t' : Lowering} (hkind : c.kind = .object) (hobject : c.object = some (.heap heap))
      (hhandles : references.handleTable = t.references.handleTable)
      (hmake : (makeHandle heap).run { t with references } = .ok (handle, t')) :
      LowersBy object t (.constant c) (.single (.reference (some handle))) t'
  /-- Anything else refers to nothing, and at most metadata is recorded. -/
  | plain {v : Value} {l : Lowered} {references : ReferenceRecorder} (hv : v.object? = none)
      (hplain : l.IsPlain) (hhandles : references.handleTable = t.references.handleTable) :
      LowersBy object t v l { t with references }

section Values

variable {ctx : ValueContext} {t t' : Lowering} {l : Lowered}

theorem Lowered.IsPlain.single {s : ScopeValue} (hs : s.IsPlain) : (Lowered.single s).IsPlain :=
  ⟨hs, nofun⟩

theorem Lowered.IsPlain.wide (location : Location) :
    (Lowered.wide (.location location)).IsPlain := by
  refine ⟨trivial, fun s hs => ?_⟩
  obtain rfl := Option.some.inj hs
  trivial

theorem Lowered.IsPlain.slots (hl : l.IsPlain) : ∀ s ∈ l.slots, s.IsPlain := by
  intro s hs
  cases hsecond : l.second with
  | none =>
      rw [Lowered.slots, hsecond] at hs
      rw [List.mem_singleton.mp hs]
      exact hl.primary
  | some second =>
      rw [Lowered.slots, hsecond] at hs
      rcases List.mem_cons.mp hs with rfl | hs
      · exact hl.second s hsecond
      · rw [List.mem_singleton.mp hs]
        exact hl.primary

theorem lowerRegister_plain {r : Register} {kind : Kind} (h : lowerRegister r kind = .ok l) :
    l.IsPlain := by
  unfold lowerRegister at h
  dsimp only at h
  split at h
  · split at h
    · rw [← Checked.pure_ok h]
      exact .wide _
    · rw [← Checked.pure_ok h]
      exact .single trivial
    · obtain ⟨_, -, h⟩ := Checked.bind_ok h
      exact nomatch h
    · obtain ⟨_, -, h⟩ := Checked.bind_ok h
      exact nomatch h
    · rw [← Checked.pure_ok h]
      exact .single trivial
  · split at h
    · rw [← Checked.pure_ok h]
      exact .single trivial
    · rw [← Checked.pure_ok h]
      exact .wide _
    · obtain ⟨_, -, h⟩ := Checked.bind_ok h
      exact nomatch h

theorem lowerStackSlot_plain {offset : Int} {addFrameSize : Bool} {kind : Kind}
    (h : lowerStackSlot ctx offset addFrameSize kind = .ok l) : l.IsPlain := by
  obtain ⟨place, -, h⟩ := Checked.bind_ok h
  dsimp only at h
  split at h
  · rw [← Checked.pure_ok h]
    exact .wide _
  · rw [← Checked.pure_ok h]
    exact .single trivial

theorem ReferenceRecorder.addConstant_handleTable {r r' : ReferenceRecorder} {c : Constant}
    (h : r.addConstant c = .ok r') : r'.handleTable = r.handleTable := by
  unfold addConstant at h
  split at h
  · split at h
    · obtain ⟨_, -, h⟩ := Checked.bind_ok h
      rw [← Checked.pure_ok h]
      rfl
    · exact nomatch h
    · rw [← Except.ok.inj h]
    · rw [← Except.ok.inj h]
  · rw [← Except.ok.inj h]

/-- A constant records the type it embeds, and is plain or gets a handle. -/
theorem lowerConstant_ok {object : Int → Lower Nat} {c : Constant}
    (h : (lowerConstant c).run t = .ok (l, t')) : (Value.constant c).LowersBy object t l t' := by
  obtain ⟨_, _, hget, h⟩ := Lower.bind_ok h
  obtain ⟨rfl, rfl⟩ := Lower.get_ok hget
  obtain ⟨references, _, hlift, h⟩ := Lower.bind_ok h
  obtain ⟨hreferences, rfl⟩ := Lower.lift_ok hlift
  obtain ⟨_, _, hset, h⟩ := Lower.bind_ok h
  obtain rfl := Lower.set_ok hset
  have hhandles := ReferenceRecorder.addConstant_handleTable hreferences
  obtain ⟨kind, bits, object⟩ := c
  cases kind with
  | object =>
      cases object with
      | none =>
          obtain ⟨rfl, rfl⟩ := Lower.pure_ok h
          exact .plain rfl (.single trivial) hhandles
      | some object =>
          cases object with
          | heap object =>
              obtain ⟨handle, t₂, hmake, h⟩ := Lower.bind_ok h
              obtain ⟨rfl, rfl⟩ := Lower.pure_ok h
              exact .handle rfl rfl hhandles hmake
          | type id => exact (Lower.throw_ok h).elim
          | remark text => exact (Lower.throw_ok h).elim
  | long | double =>
      obtain ⟨rfl, rfl⟩ := Lower.pure_ok h
      refine .plain rfl ⟨trivial, fun s hs => ?_⟩ hhandles
      obtain rfl := Option.some.inj hs
      trivial
  | illegal => exact (Lower.throw_ok h).elim
  | word | boolean | byte | char | short | int | float =>
      obtain ⟨rfl, rfl⟩ := Lower.pure_ok h
      exact .plain rfl (.single trivial) hhandles

/-- **A value is lowered in one of three ways.** -/
theorem lowerWith_ok {object : Int → Lower Nat} {v : Value}
    (h : (lowerWith ctx object v).run t = .ok (l, t')) : v.LowersBy object t l t' := by
  cases v with
  | illegal =>
      obtain ⟨rfl, rfl⟩ := Lower.pure_ok h
      exact .plain rfl (.single trivial) rfl
  | register number kind =>
      obtain ⟨r, _, hr, h⟩ := Lower.bind_ok h
      obtain ⟨-, rfl⟩ := Lower.lift_ok hr
      obtain ⟨hl, rfl⟩ := Lower.lift_ok h
      exact .plain rfl (lowerRegister_plain hl) rfl
  | stackSlot offset addFrameSize kind =>
      obtain ⟨hl, rfl⟩ := Lower.lift_ok h
      exact .plain rfl (lowerStackSlot_plain hl) rfl
  | constant c => exact lowerConstant_ok h
  | virtualObject id =>
      obtain ⟨position, t₁, hposition, h⟩ := Lower.bind_ok h
      obtain ⟨rfl, rfl⟩ := Lower.pure_ok h
      exact .object hposition
  | stackLock owner slot eliminated => exact (Lower.throw_ok h).elim

-- ── Objects ─────────────────────────────────────────────────────────────────────

theorem ValueContext.describe?_ok {id : Int} {object : VirtualObject}
    (h : ctx.describe? id = some object) : object ∈ ctx.virtualObjects ∧ object.id = id :=
  ⟨List.mem_of_find?_eq_some h, by simpa using List.find?_some h⟩

/-- An object is entered behind all others, with the mirror of its type and without fields. -/
theorem enterObject_ok {object : VirtualObject} {position : Nat}
    (h : (enterObject ctx object).run t = .ok (position, t')) :
    ∃ mirror handle t₁, ctx.world.mirror object.type = .ok mirror ∧
      (makeHandle mirror).run t = .ok (handle, t₁) ∧ position = t₁.pool.size ∧
      t' = { t₁ with
        pool := t₁.pool.allocate object.id (.reference (some handle))
        seen := (object.id, t₁.pool.size) :: t₁.seen } := by
  obtain ⟨mirror, _, hlift, h⟩ := Lower.bind_ok h
  obtain ⟨hmirror, rfl⟩ := Lower.lift_ok hlift
  obtain ⟨handle, t₁, hmake, h⟩ := Lower.bind_ok h
  obtain ⟨_, _, hget, h⟩ := Lower.bind_ok h
  obtain ⟨rfl, rfl⟩ := Lower.get_ok hget
  obtain ⟨_, _, hset, h⟩ := Lower.bind_ok h
  obtain rfl := Lower.set_ok hset
  obtain ⟨rfl, rfl⟩ := Lower.pure_ok h
  exact ⟨mirror, handle, t₁, hmirror, hmake, rfl, rfl⟩

theorem ObjectPool.setFields_ok {pool pool' : ObjectPool} {position : Nat}
    {fields : List ScopeValue} (h : pool.setFields position fields = .ok pool') :
    ∃ p, pool.objects[position]? = some p ∧
      pool' = ⟨pool.objects.set position { p with fields }⟩ := by
  obtain ⟨p, hget, h⟩ := Checked.bind_ok h
  obtain ⟨_, -, h⟩ := Checked.bind_ok h
  refine ⟨p, ?_, (Checked.pure_ok h).symm⟩
  unfold ObjectPool.get at hget
  split at hget
  · next object hobject =>
      rw [← Except.ok.inj hget]
      exact hobject
  · exact nomatch hget

/-- A function of the result of each step is a function of all results. -/
theorem Lower.mapM_map_ok {α β γ : Type} {f : α → Lower β} {g : β → γ} {xs : List α}
    {zs : List γ} (h : (xs.mapM fun a => do return g (← f a)).run t = .ok (zs, t')) :
    ∃ ys, (xs.mapM f).run t = .ok (ys, t') ∧ zs = ys.map g := by
  induction xs generalizing t zs with
  | nil =>
      obtain ⟨rfl, rfl⟩ := Lower.pure_ok h
      exact ⟨[], rfl, rfl⟩
  | cons x rest ih =>
      rw [List.mapM_cons] at h
      obtain ⟨z, t₁, hz, h⟩ := Lower.bind_ok h
      obtain ⟨y, _, hy, hz⟩ := Lower.bind_ok hz
      obtain ⟨rfl, rfl⟩ := Lower.pure_ok hz
      obtain ⟨zs, t₂, hzs, h⟩ := Lower.bind_ok h
      obtain ⟨rfl, rfl⟩ := Lower.pure_ok h
      obtain ⟨ys, hys, rfl⟩ := ih hzs
      refine ⟨y :: ys, ?_, rfl⟩
      rw [List.mapM_cons]
      show (f x).run t >>= _ = _
      rw [hy]
      show (List.mapM f rest).run _ >>= _ = _
      rw [hys]
      rfl

/-- The slots of a field are those of its value, and a zero in the other half of a long element. -/
theorem mem_fieldSlots {object : VirtualObject} {s : ScopeValue}
    (hs : s ∈ fieldSlots ctx object l) : s ∈ l.slots ∨ s = .int 0 := by
  unfold fieldSlots at hs
  split at hs
  · unfold Lowered.asLongElement at hs
    split at hs
    · exact Or.inl hs
    · next hsecond _ =>
        rw [Lowered.slots, hsecond]
        rcases List.mem_cons.mp hs with hs | hs
        · exact Or.inr hs
        · exact Or.inl hs
    · next hsecond _ =>
        rw [Lowered.slots, hsecond]
        rcases List.mem_cons.mp hs with rfl | hs
        · exact Or.inl (List.mem_singleton.mpr rfl)
        · exact Or.inr (List.mem_singleton.mp hs)
  · exact Or.inl hs

/-- An object has been met before, or it is entered and gets the slots of its values as fields. -/
theorem meetObject_ok {object : Int → Lower Nat} {id : Int} {position : Nat}
    (h : (meetObject ctx object id).run t = .ok (position, t')) :
    (t.seen.lookup id = some position ∧ t' = t) ∨
    ∃ described t₁ parts t₂ pool, t.seen.lookup id = none ∧
      ctx.describe? id = some described ∧ described.id = id ∧
      (enterObject ctx described).run t = .ok (position, t₁) ∧
      (described.values.mapM (lowerWith ctx object)).run t₁ = .ok (parts, t₂) ∧
      t₂.pool.setFields position (parts.map (fieldSlots ctx described)).flatten = .ok pool ∧
      t' = { t₂ with pool } := by
  obtain ⟨_, _, hget, h⟩ := Lower.bind_ok h
  obtain ⟨rfl, rfl⟩ := Lower.get_ok hget
  split at h
  · next met hmet =>
      obtain ⟨rfl, rfl⟩ := Lower.pure_ok h
      exact Or.inl ⟨hmet, rfl⟩
  · next hnew =>
      split at h
      · exact (Lower.throw_ok h).elim
      · next described hdescribed =>
          obtain ⟨place, t₁, henter, h⟩ := Lower.bind_ok h
          obtain ⟨fields, t₂, hfields, h⟩ := Lower.bind_ok h
          obtain ⟨_, _, hget₂, h⟩ := Lower.bind_ok h
          obtain ⟨rfl, rfl⟩ := Lower.get_ok hget₂
          obtain ⟨pool, _, hlift, h⟩ := Lower.bind_ok h
          obtain ⟨hpool, rfl⟩ := Lower.lift_ok hlift
          obtain ⟨_, _, hset, h⟩ := Lower.bind_ok h
          obtain rfl := Lower.set_ok hset
          obtain ⟨rfl, rfl⟩ := Lower.pure_ok h
          obtain ⟨parts, hparts, rfl⟩ := Lower.mapM_map_ok hfields
          exact Or.inr ⟨described, t₁, parts, t₂, pool, hnew, hdescribed,
            (ValueContext.describe?_ok hdescribed).2, henter, hparts, hpool, rfl⟩

/-- With no object left to open, an object has been met before. -/
theorem lowerObject_zero_ok {id : Int} {position : Nat}
    (h : (lowerObject ctx 0 id).run t = .ok (position, t')) :
    t.seen.lookup id = some position ∧ t' = t := by
  obtain ⟨_, _, hget, h⟩ := Lower.bind_ok h
  obtain ⟨rfl, rfl⟩ := Lower.get_ok hget
  split at h
  · next met hmet =>
      obtain ⟨rfl, rfl⟩ := Lower.pure_ok h
      exact ⟨hmet, rfl⟩
  · exact (Lower.throw_ok h).elim

end Values

-- ── Rules ───────────────────────────────────────────────────────────────────────

/-- What lowering does to the tables: it leads from tables in order to tables in order, and what it
    does in two steps it may do in one. -/
structure Lowering.Rule where
  Valid : Lowering → Prop
  Leads : Lowering → Lowering → Prop
  refl : ∀ {t}, Valid t → Leads t t
  trans : ∀ {t t₁ t'}, Leads t t₁ → Leads t₁ t' → Leads t t'
  valid : ∀ {t t'}, Leads t t' → Valid t'

/-- Lowering the elements of a list, each with a result that later steps keep. -/
theorem Lowering.Rule.mapM_ok (rule : Lowering.Rule) {α β : Type} {f : α → Lower β}
    {xs : List α} {ys : List β} {P : Lowering → α → β → Prop} {t t' : Lowering}
    (hmono : ∀ t t' a b, rule.Leads t t' → P t a b → P t' a b)
    (hf : ∀ a ∈ xs, ∀ b t t', rule.Valid t → (f a).run t = .ok (b, t') →
      rule.Leads t t' ∧ P t' a b)
    (ht : rule.Valid t) (h : (xs.mapM f).run t = .ok (ys, t')) :
    rule.Leads t t' ∧ List.Forall₂ (P t') xs ys := by
  induction xs generalizing t ys with
  | nil =>
      obtain ⟨rfl, rfl⟩ := Lower.pure_ok h
      exact ⟨rule.refl ht, .nil⟩
  | cons x rest ih =>
      rw [List.mapM_cons] at h
      obtain ⟨y, t₁, hy, h⟩ := Lower.bind_ok h
      obtain ⟨ys, t₂, hys, h⟩ := Lower.bind_ok h
      obtain ⟨rfl, rfl⟩ := Lower.pure_ok h
      obtain ⟨hfirst, hP⟩ := hf x (List.mem_cons_self ..) y t t₁ ht hy
      obtain ⟨hrest, hPs⟩ :=
        ih (fun a ha => hf a (List.mem_cons_of_mem _ ha)) (rule.valid hfirst) hys
      exact ⟨rule.trans hfirst hrest, .cons (hmono _ _ _ _ hrest hP) hPs⟩

/-- What every result says about its element, the results of a list say about its elements. -/
theorem Lower.mapM_forall₂ {α β : Type} {f : α → Lower β} {xs : List α} {ys : List β}
    {P : α → β → Prop} {t t' : Lowering}
    (hf : ∀ a b t t', (f a).run t = .ok (b, t') → P a b)
    (h : (xs.mapM f).run t = .ok (ys, t')) : List.Forall₂ P xs ys := by
  obtain ⟨-, hP⟩ := Lowering.Rule.mapM_ok
    ⟨fun _ => True, fun _ _ => True, id, fun _ => id, id⟩ (P := fun _ => P)
    (fun _ _ _ _ _ hP => hP) (fun a _ b t t' _ hrun => ⟨trivial, hf a b t t' hrun⟩) trivial h
  exact hP

/-- The values in whose places the slots of a lowered value stand. A value of two slots is followed
    by a placeholder. -/
def Lowered.places (l : Lowered) (v : Value) : List Value :=
  match l.second with
  | none => [v]
  | some _ => [v, .illegal]

theorem Lowered.forall₂_places {l : Lowered} {v : Value} {P : Value → ScopeValue → Prop}
    (hnarrow : l.second = none → P v l.primary)
    (hwide : ∀ second, l.second = some second → P v second ∧ P .illegal l.primary) :
    List.Forall₂ P (l.places v) l.slots := by
  unfold Lowered.places Lowered.slots
  cases hsecond : l.second with
  | none => exact .cons (hnarrow hsecond) .nil
  | some second =>
      obtain ⟨hfirst, hplaceholder⟩ := hwide second hsecond
      exact .cons hfirst (.cons hplaceholder .nil)

/-- A rule that values keep to, if they are among those covered, with what it says about a slot in
    the place of a value. -/
structure Lowering.Account (ctx : ValueContext) extends Lowering.Rule where
  Covers : Value → Prop
  Fills : Lowering → Value → ScopeValue → Prop
  /-- What is said about a slot stays true. -/
  mono : ∀ {t t' v s}, Leads t t' → Fills t v s → Fills t' v s
  /-- Recording metadata keeps to the rule. -/
  metadata : ∀ {t references}, Valid t →
    references.handleTable = t.references.handleTable → Leads t { t with references }
  /-- Values keep to the rule. -/
  value : ∀ {t t' v l}, Covers v → Valid t → (lower ctx v).run t = .ok (l, t') →
    Leads t t' ∧ List.Forall₂ (Fills t') (l.places v) l.slots
  /-- A lock is its owner. -/
  owner : ∀ {owner slot eliminated}, Covers (.stackLock owner slot eliminated) → Covers owner
  lock : ∀ {t owner slot eliminated s}, Fills t owner s →
    Fills t (.stackLock owner slot eliminated) s

-- ── Frames ──────────────────────────────────────────────────────────────────────

/-- The values of a scope in the order of its frame: locals, expressions, owners of locks. -/
def Scope.slots (s : Scope) : List ScopeValue :=
  s.locals ++ s.expressions ++ s.monitors.map Monitor.owner

/-- The values of the slots of a frame, in the order of the frame. -/
def FrameSlots.all (f : FrameSlots) : List ScopeValue :=
  f.locals ++ f.expressions ++ f.monitors.map Monitor.owner

/-- The parts of the slots from index `i` on: no locals behind the locals, no expressions behind
    the expressions. -/
structure FrameSlots.From (frame : Frame) (i : Nat) (f : FrameSlots) : Prop where
  locals : frame.localCount ≤ i → f.locals = []
  expressions : frame.localCount + frame.stackCount ≤ i → f.expressions = []

/-- Pushing the slots of the value at `i` puts them in front of all later ones. -/
theorem FrameSlots.From.push {frame : Frame} {i j : Nat} {f : FrameSlots}
    {slots : List ScopeValue} (hf : f.From frame j) (hij : i ≤ j)
    (hi : i < frame.localCount + frame.stackCount) :
    (f.push frame i slots).From frame i ∧ (f.push frame i slots).all = slots ++ f.all := by
  unfold FrameSlots.push FrameSlots.all
  split
  · refine ⟨⟨fun h => by omega, fun h => by omega⟩, ?_⟩
    simp only [List.append_assoc]
  · next hlocal =>
      have hlocals := hf.locals (by omega)
      refine ⟨⟨fun _ => hlocals, fun h => by omega⟩, ?_⟩
      simp only [hlocals, List.nil_append, List.append_assoc]

namespace Lowering.Account

variable {ctx : ValueContext} (account : Account ctx) {t t' : Lowering}

/-- A lock has its owner in its place. The record of a lock is a location of two slots, so that
    lowering it does nothing but record metadata. -/
theorem monitor {v : Value} {m : Monitor} (hv : account.Covers v) (ht : account.Valid t)
    (h : (lowerMonitor ctx v).run t = .ok (m, t')) :
    account.Leads t t' ∧ account.Fills t' v m.owner := by
  cases v with
  | stackLock owner slot eliminated =>
      obtain ⟨lowered, t₁, howner, h⟩ := Lower.bind_ok h
      obtain ⟨_, _, hlift, h⟩ := Lower.bind_ok h
      obtain ⟨hnarrow, rfl⟩ := Lower.lift_ok hlift
      obtain ⟨lock, t₂, hlock, h⟩ := Lower.bind_ok h
      obtain ⟨_, _, hlift₂, h⟩ := Lower.bind_ok h
      obtain ⟨hwide, rfl⟩ := Lower.lift_ok hlift₂
      obtain ⟨howned, hfills⟩ := account.value (account.owner hv) ht howner
      have hlocked : account.Leads t₁ t₂ := by
        have hwide := require_ok hwide
        cases lowerWith_ok hlock with
        | object hobject => exact nomatch hwide
        | handle hkind hobject hhandles hmake => exact nomatch hwide
        | plain hv hplain hhandles => exact account.metadata (account.valid howned) hhandles
      split at h
      · obtain ⟨rfl, rfl⟩ := Lower.pure_ok h
        rw [Lowered.places, Lowered.slots, require_ok hnarrow] at hfills
        obtain ⟨hfill, -⟩ := List.forall₂_cons.mp hfills
        exact ⟨account.trans howned hlocked, account.lock (account.mono hlocked hfill)⟩
      · obtain ⟨_, _, -, h⟩ := Lower.bind_ok h
        exact (Lower.throw_ok h).elim
  | illegal => exact (Lower.throw_ok h).elim
  | register number kind => exact (Lower.throw_ok h).elim
  | stackSlot offset addFrameSize kind => exact (Lower.throw_ok h).elim
  | constant c => exact (Lower.throw_ok h).elim
  | virtualObject id => exact (Lower.throw_ok h).elim

/-- **Every slot of a frame** fills the place of a value of the frame, in order. -/
theorem slots {frame : Frame} {i : Nat} {values : List Value} {f : FrameSlots}
    (hvalues : ∀ v ∈ values, account.Covers v) (ht : account.Valid t)
    (h : (lowerSlots ctx frame i values).run t = .ok (f, t')) :
    account.Leads t t' ∧ f.From frame i ∧ List.Forall₂ (account.Fills t') values f.all := by
  induction i, values using lowerSlots.induct frame generalizing t f with
  | case1 i =>
      obtain ⟨rfl, rfl⟩ := Lower.pure_ok h
      exact ⟨account.refl ht, ⟨fun _ => rfl, fun _ => rfl⟩, .nil⟩
  | case2 i v rest hi ih ihWide =>
      rw [lowerSlots, if_pos hi] at h
      obtain ⟨l, t₁, hl, h⟩ := Lower.bind_ok h
      obtain ⟨hv, hrest⟩ := List.forall_mem_cons.mp hvalues
      obtain ⟨hfirst, hfills⟩ := account.value hv ht hl
      cases hsecond : l.second with
      | none =>
          rw [hsecond] at h
          obtain ⟨f', t₂, hslots, h⟩ := Lower.bind_ok h
          obtain ⟨rfl, rfl⟩ := Lower.pure_ok h
          obtain ⟨hleads, hfrom, hall⟩ := ih hrest (account.valid hfirst) hslots
          obtain ⟨hpush, hpushed⟩ := hfrom.push (Nat.le_succ i) hi
          rw [Lowered.places, hsecond] at hfills
          rw [hpushed]
          exact ⟨account.trans hfirst hleads, hpush,
            List.rel_append (hfills.imp fun _ _ => account.mono hleads) hall⟩
      | some second =>
          rw [hsecond] at h
          rcases rest with _ | ⟨_ | _ | _ | _ | _ | _, rest⟩
          case cons.illegal =>
            obtain ⟨f', t₂, hslots, h⟩ := Lower.bind_ok h
            obtain ⟨rfl, rfl⟩ := Lower.pure_ok h
            obtain ⟨hleads, hfrom, hall⟩ :=
              ihWide (List.forall_mem_cons.mp hrest).2 (account.valid hfirst) hslots
            obtain ⟨hpush, hpushed⟩ := hfrom.push (by omega) hi
            rw [Lowered.places, hsecond] at hfills
            rw [hpushed]
            exact ⟨account.trans hfirst hleads, hpush,
              List.rel_append (hfills.imp fun _ _ => account.mono hleads) hall⟩
          all_goals exact (Lower.throw_ok h).elim
  | case3 i v rest hi ih =>
      rw [lowerSlots, if_neg hi] at h
      obtain ⟨m, t₁, hm, h⟩ := Lower.bind_ok h
      obtain ⟨f', t₂, hslots, h⟩ := Lower.bind_ok h
      obtain ⟨rfl, rfl⟩ := Lower.pure_ok h
      obtain ⟨hv, hrest⟩ := List.forall_mem_cons.mp hvalues
      obtain ⟨hfirst, howner⟩ := account.monitor hv ht hm
      obtain ⟨hleads, hfrom, hall⟩ := ih hrest (account.valid hfirst) hslots
      -- behind the expressions there are only locks
      have hlocals := hfrom.locals (by omega)
      have hexpressions := hfrom.expressions (by omega)
      refine ⟨account.trans hfirst hleads, ⟨fun _ => hlocals, fun _ => hexpressions⟩, ?_⟩
      unfold FrameSlots.all at hall ⊢
      dsimp only
      rw [hlocals, hexpressions] at hall ⊢
      exact .cons (account.mono hleads howner) hall

theorem frame {frame : Frame} {scope : Scope} (hvalues : ∀ v ∈ frame.values, account.Covers v)
    (ht : account.Valid t) (h : (lowerFrame ctx frame).run t = .ok (scope, t')) :
    account.Leads t t' ∧ List.Forall₂ (account.Fills t') frame.values scope.slots := by
  obtain ⟨_, t₁, hmodify, h⟩ := Lower.bind_ok h
  obtain ⟨-, rfl⟩ := Prod.mk.inj (Except.ok.inj hmodify)
  obtain ⟨_, _, hlift, h⟩ := Lower.bind_ok h
  obtain ⟨-, rfl⟩ := Lower.lift_ok hlift
  obtain ⟨slots, t₂, hslots, h⟩ := Lower.bind_ok h
  obtain ⟨rfl, rfl⟩ := Lower.pure_ok h
  have hmethod : account.Leads t
      { t with references := (t.references.addMetadata (.method frame.method)).2 } :=
    account.metadata ht rfl
  obtain ⟨hleads, -, hall⟩ := account.slots hvalues (account.valid hmethod) hslots
  exact ⟨account.trans hmethod hleads, hall⟩

/-- **The frames of a chain** keep to the rule, and the slots of each scope fill the places of the
    values of its frame. -/
theorem chain {frames : List Frame} {scopes : List Scope}
    (hvalues : ∀ frame ∈ frames, ∀ v ∈ frame.values, account.Covers v) (ht : account.Valid t)
    (h : (frames.mapM (lowerFrame ctx)).run t = .ok (scopes, t')) :
    account.Leads t t' ∧ List.Forall₂ (fun frame scope =>
      List.Forall₂ (account.Fills t') frame.values scope.slots) frames scopes := by
  have hmono : ∀ (t t' : Lowering) (frame : Frame) (scope : Scope), account.Leads t t' →
      List.Forall₂ (account.Fills t) frame.values scope.slots →
      List.Forall₂ (account.Fills t') frame.values scope.slots := by
    intro t t' frame scope hleads hfills
    exact hfills.imp fun _ _ hfill => account.mono hleads hfill
  exact account.mapM_ok hmono
    (fun frame hframe scope t t' => account.frame (hvalues frame hframe)) ht h

end Lowering.Account

end ManagedCode
