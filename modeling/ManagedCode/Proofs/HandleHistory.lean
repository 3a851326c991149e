import Mathlib.Data.List.Perm.Subperm
import ManagedCode.Proofs.Handles

/-! # The history of a table of handles

    A released slot is the next to be used again, so the same handle refers to different objects
    over time.  What a handle refers to is told by its own history alone: the object of the latest
    make that returned it, unless it was released since.  The slots and the list of free ones are
    an implementation of this.

* **`HandleTable.History`** — a table after makes and releases, with what happened to it.
* **`HandleTable.held?`** — what a handle refers to, by its history.
* **`HandleTable.Sound.mem_free_iff`** — the free slots are the empty ones.
* **`HandleTable.handles_follow_history`** — the table agrees with its history. -/

namespace ManagedCode.HandleTable

-- ── What happened to a table ────────────────────────────────────────────────────

/-- Something that happened to a table: an object got a handle, or a handle was given back. -/
inductive Event where
  | made (object : ObjectAddress) (handle : Handle)
  | released (handle : Handle)
deriving DecidableEq, Repr

namespace Event

/-- The handle that an event is about. -/
def handle : Event → Handle
  | made _ handle => handle
  | released handle => handle

/-- The object that the handle of an event refers to from then on. -/
def object? : Event → Option ObjectAddress
  | made object _ => some object
  | released _ => none

/-- Whether an event makes a handle. -/
def isMake (e : Event) : Bool := e.object?.isSome

/-- Whether an event gives a handle back. -/
def isRelease (e : Event) : Bool := e.object?.isNone

end Event

/-- A table after makes and releases on an empty one, all of which went through, and what happened
    to it, in order. -/
inductive History : List Event → HandleTable → Prop
  | empty : History [] {}
  | make {events : List Event} {t t' : HandleTable} {object : ObjectAddress} {handle : Handle}
      (hpast : History events t) (h : t.make object = .ok (handle, t')) :
      History (events ++ [.made object handle]) t'
  | release {events : List Event} {t t' : HandleTable} {handle : Handle}
      (hpast : History events t) (h : t.release handle = .ok t') :
      History (events ++ [.released handle]) t'

/-- What a handle refers to by its history: the object that the latest event about it names. -/
def held? (events : List Event) (handle : Handle) : Option ObjectAddress :=
  ((events.filter fun e => e.handle = handle).getLast?).bind Event.object?

theorem held?_append (events : List Event) (e : Event) (handle : Handle) :
    held? (events ++ [e]) handle =
      if e.handle = handle then e.object? else held? events handle := by
  unfold held?
  rw [List.filter_append, List.filter_singleton]
  by_cases he : e.handle = handle
  · rw [if_pos he, decide_eq_true he, cond_true, List.getLast?_concat]
    rfl
  · rw [if_neg he, decide_eq_false he, cond_false, List.append_nil]

-- ── The free slots ──────────────────────────────────────────────────────────────

variable {t t' : HandleTable} {events : List Event}

/-- Distinct empty slots are at most as many as there are empty slots. -/
theorem length_le_countP_isNone {slots : List (Option ObjectAddress)} {free : List Nat}
    (hdistinct : free.Nodup) (hempty : ∀ slot ∈ free, slots[slot]? = some none) :
    free.length ≤ slots.countP Option.isNone := by
  have hsub : free ⊆ slots.findIdxs Option.isNone := by
    intro slot hslot
    obtain ⟨hin, hnone⟩ := List.getElem?_eq_some_iff.mp (hempty slot hslot)
    exact List.mem_findIdxs_iff_exists_getElem_pos.mpr ⟨hin, by rw [hnone]; rfl⟩
  have hle := (hdistinct.subperm hsub).length_le
  rwa [List.length_findIdxs] at hle

/-- **The free slots of a sound table are exactly its empty ones**, since they are as many. -/
theorem Sound.mem_free_iff (ht : t.Sound) (slot : Nat) :
    slot ∈ t.free ↔ t.slots[slot]? = some none := by
  refine ⟨ht.empty slot, fun hempty => Classical.byContradiction fun hnot => ?_⟩
  have hle := length_le_countP_isNone (List.nodup_cons.mpr ⟨hnot, ht.distinct⟩)
    (List.forall_mem_cons.mpr ⟨hempty, ht.empty⟩)
  have hcounted := ht.counted
  have hsplit := List.length_eq_countP_add_countP Option.isSome (l := t.slots)
  have hnone : t.slots.countP (fun o => ¬ o.isSome) = t.slots.countP Option.isNone := by
    congr 1
    funext o
    cases o <;> rfl
  rw [hnone] at hsplit
  rw [List.length_cons] at hle
  omega

/-- A handle can be made as long as the addresses of the slots are words. -/
theorem Sound.exists_make (ht : t.Sound) (object : ObjectAddress)
    (hroom : base + stride * t.slots.length < Word.limit) : ∃ made, t.make object = .ok made := by
  have hhandle : ∀ slot ≤ t.slots.length, ∃ handle, handleOf slot = .ok handle := by
    intro slot hle
    have hlt : base + stride * slot < Word.limit :=
      Nat.lt_of_le_of_lt (Nat.add_le_add_left (Nat.mul_le_mul_left _ hle) _) hroom
    refine ⟨⟨UInt64.ofNat (base + stride * slot)⟩, ?_⟩
    unfold handleOf Size.add Size.check
    rw [if_pos hlt]
    rfl
  unfold make
  split
  · next slot free hfree =>
      have hempty := ht.empty slot (by rw [hfree]; exact List.mem_cons_self ..)
      have hin := (List.getElem?_eq_some_iff.mp hempty).1
      obtain ⟨handle, hmade⟩ := hhandle slot (Nat.le_of_lt hin)
      unfold require
      rw [if_pos hin, hmade]
      exact ⟨_, rfl⟩
  · obtain ⟨handle, hmade⟩ := hhandle _ (Nat.le_refl _)
    rw [hmade]
    exact ⟨_, rfl⟩

/-- Giving back a handle stops with a fault exactly where the handle refers to nothing. -/
theorem Sound.release_error_iff (ht : t.Sound) (handle : Handle) :
    (∃ fault, t.release handle = .error fault) ↔ t.resolve? handle = none := by
  cases hresolve : t.resolve? handle with
  | none =>
      refine iff_of_true ?_ rfl
      cases hrelease : t.release handle with
      | error fault => exact ⟨fault, rfl⟩
      | ok t' =>
          obtain ⟨object, hobject⟩ := resolve?_of_release hrelease
          exact nomatch hresolve.symm.trans hobject
  | some object =>
      refine iff_of_false ?_ nofun
      obtain ⟨t', hrelease, -⟩ := release_ok ht hresolve
      rintro ⟨fault, hfault⟩
      exact nomatch hrelease.symm.trans hfault

-- ── The table and its history ───────────────────────────────────────────────────

/-- **What a history preserves.** The table is sound, each handle refers to what its history says,
    and the live handles are the makes that are not released. -/
theorem History.agrees (h : History events t) :
    t.Sound ∧ (∀ handle, t.resolve? handle = held? events handle) ∧
      t.live + events.countP Event.isRelease = events.countP Event.isMake := by
  induction h with
  | empty => exact ⟨sound_empty, fun handle => by unfold resolve?; cases slotOf? handle <;> rfl, rfl⟩
  | @make events t t' object handle hpast h ih =>
      obtain ⟨ht, hheld, hlive⟩ := ih
      obtain ⟨ht', -, hlive', hresolve⟩ := make_ok ht h
      refine ⟨ht', fun other => ?_, ?_⟩
      · rw [hresolve, held?_append, hheld]
        exact if_congr eq_comm rfl rfl
      · rw [List.countP_append, List.countP_append]
        show t'.live + (_ + 0) = _ + 1
        omega
  | @release events t t' handle hpast h ih =>
      obtain ⟨ht, hheld, hlive⟩ := ih
      obtain ⟨object, hobject⟩ := resolve?_of_release h
      obtain ⟨t₁, h₁, ht', hlive', hresolve⟩ := release_ok ht hobject
      obtain rfl := Except.ok.inj (h.symm.trans h₁)
      refine ⟨ht', fun other => ?_, ?_⟩
      · rw [hresolve, held?_append, hheld]
        exact if_congr eq_comm rfl rfl
      · rw [List.countP_append, List.countP_append]
        show t'.live + (_ + 1) = _ + 0
        omega

/-- **The table of handles agrees with its history.** After any makes and releases that went
    through, the free slots are the empty ones, each once; as many handles are live as were made
    and not released; and a handle refers to the object of the latest make that returned it if it
    was not released since, while every other address refers to nothing. A make goes through as
    long as there are addresses and never returns a live handle, and a release goes through exactly
    for the live ones. -/
theorem handles_follow_history (h : History events t) :
    t.free.Nodup ∧ (∀ slot, slot ∈ t.free ↔ t.slots[slot]? = some none) ∧
    t.live + t.free.length = t.slots.length ∧
    t.live + events.countP Event.isRelease = events.countP Event.isMake ∧
    (∀ handle, t.resolve? handle = held? events handle) ∧
    (∀ object handle t', t.make object = .ok (handle, t') → held? events handle = none) ∧
    (∀ object, base + stride * t.slots.length < Word.limit →
      ∃ made, t.make object = .ok made) ∧
    ∀ handle, (∃ fault, t.release handle = .error fault) ↔ held? events handle = none := by
  obtain ⟨ht, hheld, hlive⟩ := h.agrees
  refine ⟨ht.distinct, ht.mem_free_iff, ?_, hlive, hheld, fun object handle t' hmake => ?_,
    fun object => ht.exists_make object, fun handle => ?_⟩
  · have hcounted := ht.counted
    unfold live
    omega
  · obtain ⟨-, hfresh, -⟩ := make_ok ht hmake
    exact (hheld handle).symm.trans hfresh
  · rw [ht.release_error_iff, hheld]

-- ── A slot used twice ───────────────────────────────────────────────────────────

/-- Two handles are made, and the slot of the first is used again before the second is released. -/
def Event.sampleReuse : List Event :=
  [.made ⟨0x5000⟩ ⟨0x100000⟩, .made ⟨0x6000⟩ ⟨0x100008⟩, .released ⟨0x100000⟩,
    .made ⟨0x7000⟩ ⟨0x100000⟩, .released ⟨0x100008⟩]

theorem Event.sampleReuse_history : History sampleReuse ⟨[some ⟨0x7000⟩, none], [1]⟩ := by
  have first := @History.make _ _ ⟨[some ⟨0x5000⟩], []⟩ ⟨0x5000⟩ ⟨0x100000⟩ .empty rfl
  have both := @History.make _ _ ⟨[some ⟨0x5000⟩, some ⟨0x6000⟩], []⟩ ⟨0x6000⟩ ⟨0x100008⟩ first rfl
  have second := @History.release _ _ ⟨[none, some ⟨0x6000⟩], [0]⟩ ⟨0x100000⟩ both rfl
  have again := @History.make _ _ ⟨[some ⟨0x7000⟩, some ⟨0x6000⟩], []⟩ ⟨0x7000⟩ ⟨0x100000⟩ second rfl
  exact @History.release _ _ _ ⟨0x100008⟩ again rfl

/-- The first handle refers to its second object, and the other one cannot be released again. -/
theorem handles_follow_history_reuse :
    ∃ t, History Event.sampleReuse t ∧ t.free = [1] ∧ t.live = 1 ∧
      t.resolve? ⟨0x100000⟩ = some ⟨0x7000⟩ ∧ t.resolve? ⟨0x100004⟩ = none ∧
      (∃ made, t.make ⟨0x8000⟩ = .ok made) ∧
      ∃ fault, t.release ⟨0x100008⟩ = .error fault := by
  obtain ⟨-, -, -, hlive, hheld, -, hmake, hrelease⟩ :=
    handles_follow_history Event.sampleReuse_history
  exact ⟨_, Event.sampleReuse_history, rfl, Nat.add_right_cancel hlive, hheld _, hheld _,
    hmake _ (by decide), (hrelease _).mpr rfl⟩

end ManagedCode.HandleTable
