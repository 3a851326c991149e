import ManagedCode.Proofs.Containment

/-! # Finding exception handlers

    The handler table is one flat list: nothing but its place tells a header from a handler row, and
    a handler may have any numbers in it.  A lookup steps over whole subtables, so it compares
    nothing but headers as long as it starts at one and every header holds the number of its rows.

* **`Subtable`** — the handlers of one instruction, before they are put into the list.
* **`HandlerTable.rowCount_header`** — a header holds the number of its rows, up to 2 ^ 31 of them.
* **`HandlerTable.findRows_flatMap`** — the walk over the list is a search through the subtables.
* **`handlers_found_by_offset`** — what is found in a table, and in that of an installed unit. -/

namespace ManagedCode

/-- The handlers of the instruction at an offset. -/
structure Subtable where
  pc : Int
  handlers : List HandlerRow
deriving DecidableEq, Repr

/-- A subtable in the list: its header and its handlers. -/
def Subtable.rows (s : Subtable) : List HandlerRow :=
  HandlerTable.header s.pc s.handlers :: s.handlers

namespace HandlerTable

/-- The table that subtables are added to one after the other. -/
def addAll (t : HandlerTable) (subtables : List Subtable) : Checked HandlerTable :=
  subtables.foldlM (fun t s => t.add s.pc s.handlers) t

-- ── Adding ──────────────────────────────────────────────────────────────────────

theorem add_eq {s : Subtable} (t : HandlerTable) (h : s.handlers ≠ []) :
    t.add s.pc s.handlers = .ok ⟨t.rows ++ s.rows⟩ := by
  unfold add require
  rw [if_pos h]
  rfl

/-- Subtables that are not empty are put behind one another. -/
theorem addAll_eq {subtables : List Subtable} (h : ∀ s ∈ subtables, s.handlers ≠ [])
    (t : HandlerTable) : t.addAll subtables = .ok ⟨t.rows ++ subtables.flatMap Subtable.rows⟩ := by
  induction subtables generalizing t with
  | nil =>
      rw [List.flatMap_nil, List.append_nil]
      rfl
  | cons s rest ih =>
      unfold addAll
      rw [List.foldlM_cons, add_eq t (h s (List.mem_cons_self ..))]
      have hrest := ih (fun s' hs' => h s' (List.mem_cons_of_mem _ hs')) ⟨t.rows ++ s.rows⟩
      rw [List.append_assoc, ← List.flatMap_cons] at hrest
      exact hrest

-- ── Finding ─────────────────────────────────────────────────────────────────────

/-- **A header holds the number of its rows**: fewer than 2 ^ 31 rows are counted alike as a number
    with a sign and as a word. -/
theorem rowCount_header {handlers : List HandlerRow} (pc : Int)
    (h : handlers.length < 2 ^ 31) : rowCount (header pc handlers) = handlers.length := by
  have hsigned : Word.signed32 handlers.length = handlers.length :=
    (Word.signed32_eq_self_iff (Int.natCast_nonneg _)).mpr (by omega)
  have hword := Word.toNat_ofInt (handlers.length : Int)
  rw [Int.emod_eq_of_lt (Int.natCast_nonneg _) (by unfold Word.limit; omega)] at hword
  unfold rowCount header
  rw [hsigned]
  exact Int.ofNat.inj hword

/-- At a header, the walk takes its rows or steps over them. -/
theorem findRows_header (pc : Int) (position : Nat) {s : Subtable}
    (h : s.handlers.length < 2 ^ 31) (rest : List HandlerRow) :
    findRows pc position (s.rows ++ rest) =
      if s.pc = pc then .ok (some s.handlers)
      else findRows pc (position + 1 + s.handlers.length) rest := by
  have hroom : s.handlers.length ≤ (s.handlers ++ rest).length := by
    rw [List.length_append]
    exact Nat.le_add_right ..
  unfold Subtable.rows
  rw [List.cons_append, findRows, rowCount_header s.pc h, List.take_left, List.drop_left,
    if_pos hroom]
  rfl

/-- **The walk is a search through the subtables.** By induction on them: every step starts at a
    header, whatever the rows look like. -/
theorem findRows_flatMap {subtables : List Subtable}
    (h : ∀ s ∈ subtables, s.handlers.length < 2 ^ 31) (pc : Int) (position : Nat) :
    findRows pc position (subtables.flatMap Subtable.rows) =
      .ok ((subtables.find? fun s => s.pc = pc).map Subtable.handlers) := by
  induction subtables generalizing position with
  | nil => rw [List.flatMap_nil, findRows, List.find?_nil, Option.map_none]
  | cons s rest ih =>
      rw [List.flatMap_cons, findRows_header pc position (h s (List.mem_cons_self ..)),
        ih fun s' hs' => h s' (List.mem_cons_of_mem _ hs')]
      by_cases hpc : s.pc = pc
      · rw [if_pos hpc, List.find?_cons, decide_eq_true hpc]
        rfl
      · rw [if_neg hpc, List.find?_cons, decide_eq_false hpc]

end HandlerTable

-- ── Installed units ─────────────────────────────────────────────────────────────

/-- An exception handler is a subtable of one row. -/
def ExceptionHandler.subtable (h : ExceptionHandler) : Subtable := ⟨h.offset, [⟨-1, h.handler, 0⟩]⟩

/-- The handlers of a unit are added one after the other. -/
theorem CompiledUnit.handlerTable_rows {u : CompiledUnit} {n : Nat} {table : HandlerTable}
    (h : u.handlerTable n = .ok table) :
    table.rows = (u.exceptionHandlers.map ExceptionHandler.subtable).flatMap Subtable.rows := by
  rw [List.flatMap_map]
  refine Checked.foldlM_appends (f := HandlerTable.rows) (fun t handler t' hstep => ?_) h
  obtain ⟨_, -, hstep⟩ := Checked.bind_ok hstep
  obtain ⟨_, -, hstep⟩ := Checked.bind_ok hstep
  obtain ⟨_, -, hstep⟩ := Checked.bind_ok hstep
  rw [← Checked.pure_ok hstep]
  rfl

/-- The handlers of an installed unit are those that were added. -/
theorem Ends.handlers {settings : Settings} {u : CompiledUnit} {r r' : Runtime} {receipt : Receipt}
    (h : Ends settings u r (.ok receipt) r') :
    ∃ n, u.handlerTable n = .ok receipt.installed.code.handlers := by
  cases h.installation with
  | registered _ hfinish hregister =>
      obtain ⟨address, moved, -, hinstalled, -⟩ := CodeTable.register_ok hregister
      have hkept := CompiledUnit.finish_handlers hfinish
      rw [hinstalled]
      exact ⟨_, hkept⟩

/-- **A lookup finds the first handlers of an offset, and never leaves the list.** Whatever rows
    subtables with at least one and fewer than 2 ^ 31 of them are made of, they can be put into one
    table, and there every offset leads to exactly the handlers that were added for it first, or to
    nothing. In an installed unit, an offset leads to the one row of its first exception handler. -/
theorem handlers_found_by_offset :
    (∀ subtables : List Subtable,
      (∀ s ∈ subtables, s.handlers ≠ [] ∧ s.handlers.length < 2 ^ 31) →
      ∃ t, HandlerTable.addAll {} subtables = .ok t ∧ ∀ pc, t.find pc =
        .ok ((subtables.find? fun s => s.pc = pc).map Subtable.handlers)) ∧
    ∀ (settings : Settings) (u : CompiledUnit) (r r' : Runtime) (receipt : Receipt),
      Ends settings u r (.ok receipt) r' → ∀ pc, receipt.installed.code.handlers.find pc =
        .ok ((u.exceptionHandlers.find? fun h => h.offset = pc).map
          fun h => [⟨-1, h.handler, 0⟩]) := by
  constructor
  · intro subtables h
    have hadd := HandlerTable.addAll_eq (fun s hs => (h s hs).1) {}
    rw [List.nil_append] at hadd
    refine ⟨_, hadd, fun pc => ?_⟩
    exact HandlerTable.findRows_flatMap (fun s hs => (h s hs).2) pc 0
  · intro settings u r r' receipt h pc
    obtain ⟨n, htable⟩ := h.handlers
    have hshort : ∀ s ∈ u.exceptionHandlers.map ExceptionHandler.subtable,
        s.handlers.length < 2 ^ 31 := by
      intro s hs
      obtain ⟨handler, -, rfl⟩ := List.mem_map.mp hs
      show 1 < 2 ^ 31
      decide
    unfold HandlerTable.find
    rw [CompiledUnit.handlerTable_rows htable, HandlerTable.findRows_flatMap hshort,
      List.find?_map, Option.map_map]
    rfl

-- ── Rows that look like headers ─────────────────────────────────────────────────

/-- Two subtables of the offset 12, and one of an offset that a row before it holds as well. -/
def Subtable.samples : List Subtable :=
  [⟨12, [⟨2, 20, 0⟩, ⟨-1, 40, 0⟩]⟩, ⟨20, [⟨-1, 60, 0⟩]⟩, ⟨12, [⟨1, 80, 0⟩]⟩]

/-- A unit with two exception handlers for its second instruction, and one for its first. -/
def CompiledUnit.sampleHandlers : CompiledUnit where
  name := "handlers"
  code := [0x90, 0xc3]
  codeSize := 2
  frameSize := 8
  exceptionHandlers := [⟨1, 0⟩, ⟨0, 1⟩, ⟨1, 1⟩]

/-- No row is taken for a header, and the first subtable of an offset counts. -/
theorem handlers_found_by_offset_sample :
    (∃ t, HandlerTable.addAll {} Subtable.samples = .ok t ∧
      t.find 12 = .ok (some [⟨2, 20, 0⟩, ⟨-1, 40, 0⟩]) ∧ t.find 20 = .ok (some [⟨-1, 60, 0⟩]) ∧
      t.find 40 = .ok none) ∧
    ∃ receipt r', Ends {} .sampleHandlers .sample (.ok receipt) r' ∧
      receipt.installed.code.handlers.find 1 = .ok (some [⟨-1, 0, 0⟩]) ∧
      receipt.installed.code.handlers.find 2 = .ok none := by
  obtain ⟨t, hadd, hfind⟩ := handlers_found_by_offset.1 Subtable.samples (by decide)
  refine ⟨⟨t, hadd, hfind 12, hfind 20, hfind 40⟩, ?_⟩
  have hregistered : endsRegistered true (installStub {} .sampleHandlers .sample) = true := by
    unfold installStub assembleAndCommit assemblePaused assemble
    rw [show CompiledUnit.sampleHandlers.sitesInOrder = [] from List.mergeSort_nil]
    decide +kernel
  obtain ⟨receipt, r', hends⟩ := exists_receipt hregistered
  have hunit := handlers_found_by_offset.2 {} .sampleHandlers .sample r' receipt (Or.inr hends)
  exact ⟨receipt, r', Or.inr hends, hunit 1, hunit 2⟩

end ManagedCode
