import ManagedCode.Proofs.Suspension

/-! # Runs of the safepoint log

    The log of safepoints is a protocol over two tables that are updated at different times: the
    reference map of a safepoint is entered when it is opened, the safepoint itself when it is
    closed.  Calls that go through fall into sections, one for each safepoint: it is opened,
    described, and closed, and the last one may still be open.  The tables can be read off the
    sections.

* **`SafepointLog.run`** — calls in any order, with any offsets.
* **`SafepointLog.Section`** — the calls about one safepoint.
* **`SafepointLog.Tells`** — the invariant: the tables stand for the sections so far.
* **`SafepointLog.Tells.run`** — calls that go through are sections, which the tables stand for.
* **`SafepointLog.tables_in_step`** — what this says of the tables and of the faults of the log. -/

namespace ManagedCode.SafepointLog

-- ── Calls and sections ──────────────────────────────────────────────────────────

/-- What can be asked of a log of safepoints. -/
inductive Call where
  | start (pc : Nat) (leafGraphId : Int) (map : RefMap)
  | describe (pc : Nat) (scope : Scope)
  | setObjects (pc : Nat) (objects : ObjectPool)
  | finish (pc : Nat)
deriving DecidableEq, Repr

namespace Call

/-- The scope that a call describes. -/
def scope? : Call → Option Scope
  | describe _ scope => some scope
  | _ => none

/-- The objects that a call gives. -/
def objects? : Call → Option ObjectPool
  | setObjects _ objects => some objects
  | _ => none

/-- Whether a call opens a safepoint. -/
def isStart : Call → Bool
  | start _ _ _ => true
  | _ => false

/-- Whether a call closes a safepoint. -/
def isFinish : Call → Bool
  | finish _ => true
  | _ => false

/-- A call adds to what is known of the safepoint at an offset. -/
inductive Notes (pc : Nat) : Call → Prop
  | scope (scope : Scope) : Notes pc (.describe pc scope)
  | objects (objects : ObjectPool) : Notes pc (.setObjects pc objects)

theorem Notes.inside {pc : Nat} {c : Call} (h : c.Notes pc) :
    c.isStart = false ∧ c.isFinish = false := by
  cases h <;> exact ⟨rfl, rfl⟩

end Call

/-- One call to a log. -/
def perform (log : SafepointLog) : Call → Checked SafepointLog
  | .start pc leafGraphId map => log.start pc leafGraphId map
  | .describe pc scope => log.describe pc scope
  | .setObjects pc objects => log.setObjects pc objects
  | .finish pc => log.finish pc

/-- Calls one after the other. -/
def run (log : SafepointLog) (calls : List Call) : Checked SafepointLog := calls.foldlM perform log

/-- The calls about one safepoint: what it is opened with, and what is called before its end. -/
structure Section where
  pc : Nat
  leafGraphId : Int
  map : RefMap
  notes : List Call

namespace Section

/-- The calls of a section up to its end. -/
def opening (s : Section) : List Call := .start s.pc s.leafGraphId s.map :: s.notes

/-- All calls of a section. -/
def calls (s : Section) : List Call := s.opening ++ [.finish s.pc]

/-- What a section says: the scopes in the order they are described, and the objects given last. -/
def safepoint (s : Section) : Safepoint where
  pc := s.pc
  leafGraphId := s.leafGraphId
  described := s.notes.filterMap Call.scope?
  objects := ((s.notes.filterMap Call.objects?).getLast?).getD {}

/-- The calls between start and end are notes about the safepoint. -/
def Proper (s : Section) : Prop := ∀ c ∈ s.notes, c.Notes s.pc

/-- A section with one more note. -/
def note (s : Section) (c : Call) : Section := { s with notes := s.notes ++ [c] }

theorem note_proper {s : Section} {c : Call} (h : s.Proper) (hc : c.Notes s.pc) :
    (s.note c).Proper :=
  List.forall_mem_append.mpr ⟨h, List.forall_mem_singleton.mpr hc⟩

/-- A described scope is the innermost one so far. -/
theorem note_describe (s : Section) (scope : Scope) :
    (s.note (.describe s.pc scope)).safepoint =
      { s.safepoint with described := s.safepoint.described ++ [scope] } := by
  unfold note safepoint
  rw [List.filterMap_append, List.filterMap_append]
  show Safepoint.mk _ _ _ ((_ ++ []).getLast?.getD {}) = _
  rw [List.append_nil]
  rfl

/-- Objects that are given replace those given before. -/
theorem note_setObjects (s : Section) (objects : ObjectPool) :
    (s.note (.setObjects s.pc objects)).safepoint = { s.safepoint with objects } := by
  unfold note safepoint
  rw [List.filterMap_append, List.filterMap_append]
  show Safepoint.mk _ _ (_ ++ []) ((_ ++ [objects]).getLast?.getD {}) = _
  rw [List.append_nil, List.getLast?_concat]
  rfl

theorem Proper.countP_isStart {s : Section} (h : s.Proper) : s.opening.countP Call.isStart = 1 := by
  have hnotes : s.notes.countP Call.isStart = 0 :=
    List.countP_eq_zero.mpr fun c hc => by simp [(h c hc).inside.1]
  rw [opening, List.countP_cons, hnotes]
  rfl

theorem Proper.countP_isFinish {s : Section} (h : s.Proper) : s.opening.countP Call.isFinish = 0 := by
  have hnotes : s.notes.countP Call.isFinish = 0 :=
    List.countP_eq_zero.mpr fun c hc => by simp [(h c hc).inside.2]
  rw [opening, List.countP_cons, hnotes]
  rfl

/-- In closed sections, what each has once is there once for each. -/
theorem countP_flatMap_calls {sections : List Section} {p : Call → Bool}
    (h : ∀ s ∈ sections, s.calls.countP p = 1) :
    (sections.flatMap calls).countP p = sections.length := by
  induction sections with
  | nil => rfl
  | cons s rest ih =>
      rw [List.flatMap_cons, List.countP_append, h s (List.mem_cons_self ..),
        ih fun s' hs' => h s' (List.mem_cons_of_mem _ hs'), List.length_cons, Nat.add_comm]

theorem Proper.countP_isStart_calls {s : Section} (h : s.Proper) : s.calls.countP Call.isStart = 1 := by
  rw [calls, List.countP_append, h.countP_isStart]
  rfl

theorem Proper.countP_isFinish_calls {s : Section} (h : s.Proper) : s.calls.countP Call.isFinish = 1 := by
  rw [calls, List.countP_append, h.countP_isFinish]
  rfl

end Section

-- ── The tables along a run ──────────────────────────────────────────────────────

/-- The tables stand for closed sections and maybe an open one behind them: a safepoint for each,
    and the reference map that each was opened with, by strictly ascending offset. -/
structure Tells (log : SafepointLog) (sections : List Section) (last : Option Section) : Prop where
  closed : log.closed = sections.map Section.safepoint
  current : log.current = last.map Section.safepoint
  maps : log.maps.maps = (sections ++ last.toList).map fun s => (s.pc, s.map)
  ascending : ((sections ++ last.toList).map Section.pc).Pairwise (· < ·)
  proper : ∀ s ∈ sections ++ last.toList, s.Proper

/-- The calls that closed sections and an open one amount to. -/
def callsOf (sections : List Section) (last : Option Section) : List Call :=
  sections.flatMap Section.calls ++ last.elim [] Section.opening

theorem callsOf_note (sections : List Section) (present : Section) (c : Call) :
    callsOf sections (some (present.note c)) = callsOf sections (some present) ++ [c] := by
  unfold callsOf
  rw [List.append_assoc]
  rfl

theorem callsOf_finish (sections : List Section) (present : Section) :
    callsOf (sections ++ [present]) none =
      callsOf sections (some present) ++ [.finish present.pc] := by
  unfold callsOf
  rw [List.flatMap_append, List.flatMap_singleton, List.append_assoc, List.append_assoc]
  exact congrArg _ (List.append_nil _)

namespace Tells

variable {log log' : SafepointLog} {sections : List Section} {last : Option Section} {pc : Nat}

theorem empty : Tells {} [] none := ⟨rfl, rfl, rfl, .nil, nofun⟩

/-- The closed safepoints have the offsets of the closed sections. -/
theorem closed_pcs (h : log.Tells sections last) :
    log.closed.map Safepoint.pc = sections.map Section.pc := by
  rw [h.closed, List.map_map]
  rfl

theorem closed_ascending (h : log.Tells sections last) :
    log.closed.Pairwise fun a b => a.pc < b.pc := by
  have hascending := h.ascending
  rw [List.map_append, ← h.closed_pcs] at hascending
  exact List.pairwise_map.mp (List.pairwise_append.mp hascending).1

/-- The offsets of the maps are those of the closed safepoints and of the open one. -/
theorem keys (h : log.Tells sections last) :
    log.maps.maps.map Prod.fst = (log.closed ++ log.current.toList).map Safepoint.pc := by
  rw [h.maps, h.closed, h.current, List.map_map, List.map_append, List.map_append, List.map_map]
  cases last <;> rfl

/-- While no safepoint is open, the maps are those of the closed ones. -/
theorem closed_keys (h : log.Tells sections none) :
    log.maps.maps.map Prod.fst = log.closed.map Safepoint.pc := by
  rw [h.keys, h.current]
  exact congrArg _ (List.append_nil _)

/-- The open safepoint is behind the closed ones. -/
theorem lt_open (h : log.Tells sections last) :
    ∀ s ∈ log.closed, ∀ present ∈ log.current, s.pc < present.pc := by
  intro s hs present hpresent
  have hascending := h.ascending
  rw [List.map_append, ← h.closed_pcs, List.pairwise_append] at hascending
  rw [h.current] at hpresent
  obtain ⟨current, rfl, rfl⟩ := Option.map_eq_some_iff.mp hpresent
  exact hascending.2.2 s.pc (List.mem_map_of_mem hs) current.pc (List.mem_singleton.mpr rfl)

theorem eq_none (h : log.Tells sections last) (hidle : log.current = none) : last = none :=
  Option.map_eq_none_iff.mp (h.current.symm.trans hidle)

/-- Opening a safepoint begins a section, with nothing said about it so far. -/
theorem start (h : log.Tells sections last) {leafGraphId : Int} {map : RefMap}
    (hstart : log.start pc leafGraphId map = .ok log') :
    last = none ∧ log'.Tells sections (some ⟨pc, leafGraphId, map, []⟩) := by
  obtain ⟨hidle, hlast, -, rfl⟩ := start_ok hstart
  obtain rfl := h.eq_none hidle
  have hbehind := lt_of_last h.closed_ascending hlast
  refine ⟨rfl, h.closed, rfl, ?_, ?_, ?_⟩
  · show RefMapTable.insertMap pc map log.maps.maps = _
    rw [RefMapTable.insertMap_of_lt (keys_lt h.closed_keys hbehind), h.maps, Option.toList_none,
      List.append_nil, List.map_append]
    rfl
  · rw [List.map_append, ← h.closed_pcs, List.pairwise_append]
    refine ⟨List.pairwise_map.mpr h.closed_ascending, List.pairwise_singleton .., ?_⟩
    rintro _ hother _ hpc
    obtain ⟨s, hs, rfl⟩ := List.mem_map.mp hother
    rw [List.mem_singleton.mp hpc]
    exact hbehind s hs
  · refine List.forall_mem_append.mpr ⟨fun s hs => h.proper s (List.mem_append_left _ hs), ?_⟩
    exact List.forall_mem_singleton.mpr nofun

/-- The safepoint that is open is that of the open section. -/
theorem exists_open (h : log.Tells sections last) {s : Safepoint}
    (hs : log.currentAt pc = .ok s) :
    ∃ present, last = some present ∧ present.safepoint = s ∧ present.pc = pc := by
  obtain ⟨hcurrent, hpc⟩ := currentAt_ok hs
  obtain ⟨present, hlast, rfl⟩ := Option.map_eq_some_iff.mp (h.current.symm.trans hcurrent)
  exact ⟨present, hlast, rfl, hpc⟩

/-- What is noted about the open safepoint is added to its section. -/
theorem note {present : Section} (h : log.Tells sections (some present)) {c : Call}
    (hc : c.Notes present.pc) :
    Tells { log with current := some (present.note c).safepoint } sections
      (some (present.note c)) := by
  obtain ⟨hbefore, hpresent⟩ := List.forall_mem_append.mp h.proper
  have hnote := Section.note_proper (hpresent _ (List.mem_singleton.mpr rfl)) hc
  refine ⟨h.closed, rfl, ?_, ?_, List.forall_mem_append.mpr ⟨hbefore, ?_⟩⟩
  · rw [List.map_append]
    exact h.maps.trans List.map_append
  · have hascending := h.ascending
    rw [List.map_append] at hascending ⊢
    exact hascending
  · exact List.forall_mem_singleton.mpr hnote

/-- Closing the safepoint closes its section. -/
theorem finish {present : Section} (h : log.Tells sections (some present)) :
    Tells { log with closed := log.closed ++ [present.safepoint], current := none }
      (sections ++ [present]) none := by
  have hsections : (sections ++ [present]) ++ Option.toList none = sections ++ [present] :=
    List.append_nil _
  refine ⟨?_, rfl, ?_, ?_, ?_⟩
  · rw [List.map_append, ← h.closed]
    rfl
  · rw [hsections]
    exact h.maps
  · rw [hsections]
    exact h.ascending
  · rw [hsections]
    exact h.proper

/-- **A call that goes through is the next call of the sections**, and the tables follow. -/
theorem perform (h : log.Tells sections last) {c : Call} (hc : log.perform c = .ok log') :
    ∃ sections' last', callsOf sections' last' = callsOf sections last ++ [c] ∧
      log'.Tells sections' last' := by
  cases c with
  | start pc leafGraphId map =>
      obtain ⟨rfl, hlog'⟩ := h.start hc
      refine ⟨sections, _, ?_, hlog'⟩
      unfold callsOf
      rw [List.append_assoc]
      rfl
  | describe pc scope =>
      obtain ⟨s, hs, hc⟩ := Checked.bind_ok hc
      obtain rfl := Checked.pure_ok hc
      obtain ⟨present, rfl, rfl, rfl⟩ := h.exists_open hs
      refine ⟨sections, some (present.note (.describe present.pc scope)), callsOf_note .., ?_⟩
      rw [← Section.note_describe]
      exact h.note (.scope scope)
  | setObjects pc objects =>
      obtain ⟨s, hs, hc⟩ := Checked.bind_ok hc
      obtain rfl := Checked.pure_ok hc
      obtain ⟨present, rfl, rfl, rfl⟩ := h.exists_open hs
      refine ⟨sections, some (present.note (.setObjects present.pc objects)), callsOf_note .., ?_⟩
      rw [← Section.note_setObjects]
      exact h.note (.objects objects)
  | finish pc =>
      obtain ⟨s, hs, hc⟩ := Checked.bind_ok hc
      obtain rfl := Checked.pure_ok hc
      obtain ⟨present, rfl, rfl, rfl⟩ := h.exists_open hs
      exact ⟨sections ++ [present], none, callsOf_finish .., h.finish⟩

/-- **The sections of a run**: by induction on its calls. -/
theorem run {calls : List Call} (h : log.Tells sections last) (hrun : log.run calls = .ok log') :
    ∃ sections' last', callsOf sections' last' = callsOf sections last ++ calls ∧
      log'.Tells sections' last' := by
  induction calls generalizing log sections last with
  | nil =>
      obtain rfl := Checked.pure_ok hrun
      exact ⟨sections, last, (List.append_nil _).symm, h⟩
  | cons c rest ih =>
      obtain ⟨log₁, hc, hrest⟩ := Checked.bind_ok hrun
      obtain ⟨sections₁, last₁, hcalls₁, h₁⟩ := h.perform hc
      obtain ⟨sections', last', hcalls', h'⟩ := ih h₁ hrest
      refine ⟨sections', last', ?_, h'⟩
      rw [hcalls', hcalls₁, List.append_assoc]
      rfl

-- ── What the tables say ─────────────────────────────────────────────────────────

/-- As many safepoints were closed as there are closed ones, and one more was opened if one is
    open. -/
theorem counts (h : log.Tells sections last) :
    log.closed.length = (callsOf sections last).countP Call.isFinish ∧
      (callsOf sections last).countP Call.isStart =
        log.closed.length + log.current.toList.length := by
  obtain ⟨hbefore, hlast⟩ := List.forall_mem_append.mp h.proper
  have hstarts := Section.countP_flatMap_calls fun s hs => (hbefore s hs).countP_isStart_calls
  have hends := Section.countP_flatMap_calls fun s hs => (hbefore s hs).countP_isFinish_calls
  rw [h.closed, h.current, List.length_map]
  unfold callsOf
  rw [List.countP_append, List.countP_append, hstarts, hends]
  cases last with
  | none => exact ⟨rfl, rfl⟩
  | some present =>
      have hpresent := hlast present (List.mem_singleton.mpr rfl)
      show _ = _ + present.opening.countP _ ∧ _ + present.opening.countP _ = _
      rw [hpresent.countP_isStart, hpresent.countP_isFinish]
      exact ⟨rfl, rfl⟩

/-- A closed safepoint was opened, described and closed by the calls of its section. -/
theorem exists_calls (h : log.Tells sections last) {k : Nat} {s : Safepoint}
    (hs : log.closed[k]? = some s) :
    ∃ before map between after,
      callsOf sections last =
        before ++ .start s.pc s.leafGraphId map :: between ++ .finish s.pc :: after ∧
      before.countP Call.isStart = k ∧ (∀ c ∈ between, c.Notes s.pc) ∧
      s.scopes = (between.filterMap Call.scope?).reverse ∧
      s.objects = ((between.filterMap Call.objects?).getLast?).getD {} ∧
      log.maps.maps[k]? = some (s.pc, map) := by
  rw [h.closed, List.getElem?_map, Option.map_eq_some_iff] at hs
  obtain ⟨present, hpresent, rfl⟩ := hs
  have hproper := (List.forall_mem_append.mp h.proper).1
  obtain ⟨hk, hget⟩ := List.getElem?_eq_some_iff.mp hpresent
  have hsplit : sections = sections.take k ++ present :: sections.drop (k + 1) := by
    rw [← hget, List.getElem_cons_drop, List.take_append_drop]
  refine ⟨(sections.take k).flatMap Section.calls, present.map, present.notes,
    callsOf (sections.drop (k + 1)) last, ?_, ?_, hproper _ (List.mem_of_getElem? hpresent), rfl,
    rfl, ?_⟩
  · unfold callsOf
    conv => lhs; rw [hsplit, List.flatMap_append, List.flatMap_cons]
    unfold Section.calls Section.opening
    simp only [List.append_assoc, List.cons_append, List.nil_append]
    rfl
  · rw [Section.countP_flatMap_calls fun s hs =>
      (hproper s (List.mem_of_mem_take hs)).countP_isStart_calls, List.length_take]
    exact Nat.min_eq_left (Nat.le_of_lt hk)
  · rw [h.maps, List.getElem?_map, List.getElem?_append_left hk, hpresent]
    rfl

/-- A lookup finds the one closed safepoint of an offset. -/
theorem find?_iff (h : log.Tells sections last) {s : Safepoint} :
    log.find? pc = some s ↔ s ∈ log.closed ∧ s.pc = pc := by
  unfold find?
  constructor
  · intro hfind
    have hpc := List.find?_some hfind
    exact ⟨List.mem_of_find?_eq_some hfind, beq_iff_eq.mp hpc⟩
  · rintro ⟨hs, rfl⟩
    obtain ⟨before, after, hclosed⟩ := List.append_of_mem hs
    have hascending := h.closed_ascending
    rw [hclosed, List.pairwise_append] at hascending
    refine List.find?_eq_some_iff_append.mpr ⟨beq_self_eq_true _, before, after, hclosed, ?_⟩
    intro other hother
    have hlt := hascending.2.2 other hother s (List.mem_cons_self ..)
    exact bne_iff_ne.mpr (Nat.ne_of_lt hlt)

/-- What goes wrong at the open safepoint is that there is none, or another one. -/
theorem currentAt_error {fault : Fault} (h : log.currentAt pc = .error fault) :
    fault = .table (.noSafepointOpen pc) ∨
      ∃ s, log.current = some s ∧ fault = .table (.safepointElsewhere s.pc pc) := by
  unfold currentAt at h
  cases hcurrent : log.current with
  | none =>
      rw [hcurrent] at h
      exact Or.inl (Except.error.inj h).symm
  | some s =>
      rw [hcurrent] at h
      rcases Checked.bind_error h with helsewhere | ⟨_, -, h⟩
      · exact Or.inr ⟨s, rfl, (require_error helsewhere).2⟩
      · exact nomatch h

/-- **How a call can go wrong**: a safepoint is open already or is out of order, or the one that is
    meant is not open.  By then no offset has a second map. -/
theorem perform_error (h : log.Tells sections last) {c : Call} {fault : Fault}
    (hfault : log.perform c = .error fault) :
    (∃ pc, fault = .table (.safepointInProgress pc)) ∨
      (∃ pc previous, fault = .table (.safepointOutOfOrder pc previous)) ∨
      (∃ pc, fault = .table (.noSafepointOpen pc)) ∨
      ∃ present pc, fault = .table (.safepointElsewhere present pc) := by
  have hmissing {α : Type} {pc : Nat} {f : Safepoint → α}
      (hat : (log.currentAt pc >>= fun s => pure (f s)) = .error fault) :
      (∃ pc, fault = .table (.noSafepointOpen pc)) ∨
        ∃ present pc, fault = .table (.safepointElsewhere present pc) := by
    rcases Checked.bind_error hat with hat | ⟨_, -, hat⟩
    · exact (currentAt_error hat).imp (fun h => ⟨pc, h⟩) fun ⟨s, _, h⟩ => ⟨s.pc, pc, h⟩
    · exact nomatch hat
  cases c with
  | start pc leafGraphId map =>
      rcases start_error hfault with ⟨-, hbusy⟩ | ⟨previous, hbefore⟩ | ⟨hlast, hidle, hadd⟩
      · exact Or.inl ⟨pc, hbusy⟩
      · exact Or.inr (Or.inl ⟨pc, previous, hbefore⟩)
      · obtain rfl := h.eq_none hidle
        obtain ⟨maps, hmaps⟩ :=
          exists_add h.closed_keys (lt_of_last h.closed_ascending hlast) map
        exact nomatch hmaps.symm.trans hadd
  | describe pc scope => exact Or.inr (Or.inr (hmissing hfault))
  | setObjects pc objects => exact Or.inr (Or.inr (hmissing hfault))
  | finish pc => exact Or.inr (Or.inr (hmissing hfault))

end Tells

/-- **The tables are in step.** After any calls that went through, the closed safepoints have
    strictly ascending offsets, and there is a reference map for each of them and for the open one,
    which is behind them all.  As many are closed as were; the closed safepoint at an index was
    opened by the start of that index, has the scopes described up to its end, the last one first,
    and the objects given last, if there are any.  A lookup finds the one closed safepoint of an
    offset.  The next call never goes wrong for a second map, and the tables are finished unless
    more safepoints were opened than closed. -/
theorem tables_in_step {calls : List Call} {log : SafepointLog} (h : run {} calls = .ok log) :
    (log.closed.Pairwise fun a b => a.pc < b.pc) ∧
    log.maps.maps.map Prod.fst = (log.closed ++ log.current.toList).map Safepoint.pc ∧
    (∀ s ∈ log.closed, ∀ present ∈ log.current, s.pc < present.pc) ∧
    log.closed.length = calls.countP Call.isFinish ∧
    (∀ k s, log.closed[k]? = some s → ∃ before map between after,
      calls = before ++ .start s.pc s.leafGraphId map :: between ++ .finish s.pc :: after ∧
      before.countP Call.isStart = k ∧ (∀ c ∈ between, c.Notes s.pc) ∧
      s.scopes = (between.filterMap Call.scope?).reverse ∧
      s.objects = ((between.filterMap Call.objects?).getLast?).getD {} ∧
      log.maps.maps[k]? = some (s.pc, map)) ∧
    (∀ pc s, log.find? pc = some s ↔ s ∈ log.closed ∧ s.pc = pc) ∧
    (∀ c pc, log.perform c ≠ .error (.table (.secondMap pc))) ∧
    log.toTables = if calls.countP Call.isFinish < calls.countP Call.isStart then
      .error (.table .safepointLeftOpen) else .ok (log.maps, log.closed) := by
  obtain ⟨sections, last, hcalls, htells⟩ := Tells.empty.run h
  obtain rfl : callsOf sections last = calls := hcalls
  obtain ⟨hends, hstarts⟩ := htells.counts
  refine ⟨htells.closed_ascending, htells.keys, htells.lt_open, hends,
    fun k s => htells.exists_calls, fun pc s => htells.find?_iff, fun c pc hc => ?_, ?_⟩
  · rcases htells.perform_error hc with ⟨_, hc⟩ | ⟨_, _, hc⟩ | ⟨_, hc⟩ | ⟨_, _, hc⟩ <;>
      exact nomatch hc
  · unfold toTables require
    rw [← hends, hstarts]
    cases log.current with
    | none =>
        rw [if_pos rfl, Option.toList_none, List.length_nil, Nat.add_zero,
          if_neg (Nat.lt_irrefl _)]
        rfl
    | some present =>
        rw [if_neg nofun, Option.toList_some, List.length_singleton, if_pos (Nat.lt_add_one _)]
        rfl

-- ── An open safepoint behind two closed ones ────────────────────────────────────

/-- A safepoint with two scopes, one with none, and one that is not closed. -/
def Call.samples : List Call :=
  [.start 4 7 ⟨16, 0, []⟩, .describe 4 { method := ⟨1⟩, bci := 3 },
    .describe 4 { method := ⟨2⟩, bci := 0 }, .setObjects 4 {}, .finish 4,
    .start 9 8 ⟨16, 0, []⟩, .finish 9, .start 12 9 ⟨16, 0, []⟩]

/-- The last safepoint has a map, but the tables are not finished. -/
theorem tables_in_step_samples : ∃ log, run {} Call.samples = .ok log ∧
    log.maps.maps.map Prod.fst = [4, 9, 12] ∧ log.closed.length = 2 ∧
    (∃ s, log.find? 4 = some s ∧ s.scopes.map Scope.bci = [0, 3]) ∧ log.find? 12 = none ∧
    log.toTables = .error (.table .safepointLeftOpen) := by
  obtain ⟨-, hkeys, -, hends, -, hfind, -, htables⟩ := @tables_in_step Call.samples _ rfl
  exact ⟨_, rfl, hkeys, hends, ⟨_, (hfind 4 _).mpr ⟨List.mem_cons_self .., rfl⟩, rfl⟩, rfl, htables⟩

end ManagedCode.SafepointLog
