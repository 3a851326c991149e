import Mathlib.Data.List.Induction
import ManagedCode.Proofs.Ownership

/-! # Installed code as a log

    The table of installed code, its three indexes and the stub table are kept apart and updated at
    different moments of an installation.  Together they are a view of one thing, the log of the
    accepted units: an entry is a place in the log, a lookup finds the last unit of a key, and the
    numbers of stubs count the units without a method.

* **`Numbered`** — the identity that is stored with a unit is its place.
* **`indexBy`** — what an index holds, for any key; **`latest?_indexBy`** — what it finds.
* **`CodeTable.Indexed`** — the units in a table are numbered, and the three indexes are theirs.
* **`Runtime.Logged`** — the tables of a runtime are those of a log.
* **`tables_refine_log`** — they are, after any sequence of installations. -/

namespace ManagedCode

-- ── Identities ──────────────────────────────────────────────────────────────────

/-- The identity that is stored with a unit is its place. -/
def Numbered (entries : List InstalledCode) : Prop :=
  ∀ (i : Nat) e, entries[i]? = some e → e.id = ⟨i⟩

/-- One more unit under the next identity. -/
theorem Numbered.append {entries : List InstalledCode} (h : Numbered entries) (code : Code) :
    Numbered (entries ++ [⟨⟨entries.length⟩, code⟩]) := by
  intro i e he
  rcases getElem?_concat_eq_some_iff.mp he with hold | ⟨rfl, rfl⟩
  · exact h i e hold
  · rfl

-- ── Indexes ─────────────────────────────────────────────────────────────────────

section Index

variable {κ : Type}

/-- The index of units by a key. The latest unit of a key comes first. -/
def indexBy (key : Code → Option κ) (entries : List InstalledCode) : List (κ × CodeId) :=
  (entries.filterMap fun e => (key e.code).map fun k => (k, e.id)).reverse

theorem indexBy_append (key : Code → Option κ) (entries : List InstalledCode)
    (e : InstalledCode) :
    indexBy key (entries ++ [e]) =
      ((key e.code).map fun k => (k, e.id)).toList ++ indexBy key entries := by
  unfold indexBy
  rw [List.filterMap_append, List.reverse_append]
  congr 1
  cases hkey : key e.code <;> simp [hkey]

/-- **An index finds the last unit of a key**, whatever was installed behind the units it knows. -/
theorem latest?_indexBy [BEq κ] [LawfulBEq κ] (key : Code → Option κ) (k : κ)
    {entries rest : List InstalledCode} (h : Numbered (entries ++ rest)) :
    ((indexBy key entries).lookup k).bind (fun id => (entries ++ rest)[id.index]?) =
      (entries.filter fun e => key e.code == some k).getLast? := by
  induction entries using List.reverseRecOn generalizing rest with
  | nil => rfl
  | append_singleton entries e ih =>
      rw [List.append_assoc] at h
      have hid : e.id = ⟨entries.length⟩ := h entries.length e (by simp)
      rw [indexBy_append, List.filter_append, List.append_assoc]
      by_cases hkey : key e.code = some k
      · simp [hkey, hid]
      · have hskip : (((key e.code).map fun k => (k, e.id)).toList ++
            indexBy key entries).lookup k = (indexBy key entries).lookup k := by
          cases hcode : key e.code with
          | none => rfl
          | some k' =>
              have hne : (k == k') = false := by
                rw [beq_eq_false_iff_ne]
                rintro rfl
                exact hkey hcode
              simp [List.lookup_cons, hne]
        rw [hskip, ih h]
        simp [hkey]

end Index

-- ── The indexes of a table ──────────────────────────────────────────────────────

namespace Code

/-- The key of a unit that is entered at the start of its method. -/
def methodKey? (code : Code) : Option MethodId :=
  if code.entryBci = invocationEntryBci then code.method else none

/-- The key of a unit that is entered at a loop of its method. -/
def loopKey? (code : Code) : Option (MethodId × Int) :=
  if code.entryBci = invocationEntryBci then none
  else code.method.map fun method => (method, code.entryBci)

/-- The key of a stub. -/
def stubKey? (code : Code) : Option String :=
  if code.method.isNone then some code.name else none

end Code

namespace CodeTable

/-- The units of a table are numbered, and each index is theirs. -/
structure Indexed (t : CodeTable) : Prop where
  numbered : Numbered t.entries
  byMethod : t.byMethod = indexBy Code.methodKey? t.entries
  byLoopEntry : t.byLoopEntry = indexBy Code.loopKey? t.entries
  byStubName : t.byStubName = indexBy Code.stubKey? t.entries

variable {t : CodeTable}

/-- Entering a unit gives it the next identity, and puts it in front of the one index it belongs
    to. -/
theorem Indexed.enter (ht : t.Indexed) (code : Code) : (t.enter code).Indexed := by
  obtain ⟨hnumbered, hmethod, hloop, hstub⟩ := ht
  refine ⟨?_, ?_, ?_, ?_⟩
  · rw [entries_enter]
    exact hnumbered.append code
  all_goals
    rw [entries_enter, indexBy_append]
    unfold CodeTable.enter nextId
    cases hcode : code.method <;> by_cases hbci : code.entryBci = invocationEntryBci <;>
      simp [Code.methodKey?, Code.loopKey?, Code.stubKey?, hcode, hbci, hmethod, hloop, hstub]

/-- What an index of the units of a table finds. -/
theorem Indexed.latest?_eq {κ : Type} [BEq κ] [LawfulBEq κ] (ht : t.Indexed)
    (key : Code → Option κ) (k : κ) :
    ((indexBy key t.entries).lookup k).bind t.get? =
      (t.entries.filter fun e => key e.code == some k).getLast? := by
  have hnumbered : Numbered (t.entries ++ []) := by
    rw [List.append_nil]
    exact ht.numbered
  have hlatest := latest?_indexBy key k hnumbered
  rw [List.append_nil] at hlatest
  exact hlatest

end CodeTable

-- ── Accepted units ──────────────────────────────────────────────────────────────

section Accepted

variable {settings : Settings} {u : CompiledUnit} {r r' : Runtime} {receipt : Receipt}

/-- Registering a unit enters it under the next identity, into one of the indexes. -/
theorem CodeTable.register_enters {t t' : CodeTable} {code : Code} {installed : InstalledCode}
    (h : t.register code = .ok (.ok (installed, t'))) :
    t'.entries = t.entries ++ [installed] ∧ (t.Indexed → t'.Indexed) := by
  obtain ⟨size, -, h⟩ := Checked.bind_ok h
  obtain ⟨full | ⟨address, space⟩, -, h⟩ := Checked.bind_ok h
  · exact nomatch Checked.pure_ok h
  obtain ⟨moved, -, h⟩ := Checked.bind_ok h
  obtain ⟨rfl, rfl⟩ := Prod.mk.inj (Except.ok.inj (Checked.pure_ok h))
  refine ⟨?_, fun ht => ?_⟩
  · rw [CodeTable.entries_enter]
    rfl
  · have hmoved : ({ t with space } : CodeTable).Indexed :=
      ⟨ht.numbered, ht.byMethod, ht.byLoopEntry, ht.byStubName⟩
    exact hmoved.enter _

/-- A stub gets the next number; a method gets none. -/
theorem Ends.stub_eq (h : Ends settings u r (.ok receipt) r') :
    receipt.stub = if u.method.isNone then some r.stubs.length else none := by
  rcases h with h | h
  · unfold installMethod at h
    split at h
    · exact nomatch h
    · next method hmethod =>
        obtain ⟨dependencies, -, h⟩ := Checked.bind_ok h
        obtain ⟨⟨result, r₁⟩, -, h⟩ := Checked.bind_ok h
        obtain ⟨installed, -, rfl⟩ := map_eq_ok (Prod.mk.inj (Checked.pure_ok h)).1
        rw [hmethod]
        rfl
  · obtain ⟨hmethod, result, r₁, hcommit, h⟩ := installStub_done h
    rcases assembleAndCommit_done hcommit with ⟨refusal, rfl, -⟩ | ⟨installed, rfl, hstubs, -⟩
    · exact nomatch h.1
    · obtain rfl := Except.ok.inj h.1
      rw [hmethod, ← hstubs]
      rfl

/-- **What an accepted unit adds**: an entry that carries its name, method and loop entry, and the
    address of a stub under its number. -/
theorem Ends.accepted (h : Ends settings u r (.ok receipt) r') :
    (r'.codes.entries = r.codes.entries ++ [receipt.installed] ∧
      (r.codes.Indexed → r'.codes.Indexed)) ∧
    (receipt.installed.code.name = u.name ∧ receipt.installed.code.method = u.method ∧
      receipt.installed.code.entryBci = u.entryBci) ∧
    r'.stubs = r.stubs ++ receipt.newStubs := by
  cases h.installation with
  | registered hrun hfinish hregister =>
      obtain ⟨-, handlers, hcode⟩ := CompiledUnit.finish_eq hfinish
      obtain ⟨address, moved, -, hinstalled, -⟩ := CodeTable.register_ok hregister
      refine ⟨CodeTable.register_enters hregister, ?_, rfl⟩
      rw [hinstalled, hcode]
      exact ⟨rfl, rfl, rfl⟩

end Accepted

-- ── The tables of a log ─────────────────────────────────────────────────────────

/-- The number of stubs in a log. -/
def stubsIn (log : List Acceptance) : Nat := log.countP fun a => a.unit.method.isNone

/-- The tables of a runtime that started with the described stubs are those of a log. -/
structure Runtime.Logged (described : List UInt64) (log : List Acceptance) (r : Runtime) :
    Prop where
  entries : r.codes.entries = log.map fun a => a.receipt.installed
  indexed : r.codes.Indexed
  carried : ∀ a ∈ log, a.code.name = a.unit.name ∧ a.code.method = a.unit.method ∧
    a.code.entryBci = a.unit.entryBci
  numbers : log.filterMap (fun a => a.receipt.stub) = List.range' described.length (stubsIn log)
  stubs : r.stubs.length = described.length + stubsIn log
  numbered : ∀ a ∈ log, a.receipt.stub.isSome = a.unit.method.isNone
  addresses : ∀ a ∈ log, ∀ n, a.receipt.stub = some n → r.stubs[n]? = some a.code.address

namespace Runtime

variable {described : List UInt64} {log : List Acceptance} {r r' : Runtime} {settings : Settings}
  {u : CompiledUnit}

/-- An accepted unit is the next one of the log. -/
theorem Logged.accepted {receipt : Receipt} (hr : r.Logged described log)
    (h : Ends settings u r (.ok receipt) r') :
    r'.Logged described (log ++ [⟨settings, u, r, receipt⟩]) := by
  obtain ⟨⟨hentries, hindexed⟩, hcarried, hstubs⟩ := h.accepted
  have hstub := h.stub_eq
  have hcount : stubsIn (log ++ [⟨settings, u, r, receipt⟩]) =
      stubsIn log + if u.method.isNone then 1 else 0 := by
    unfold stubsIn
    rw [List.countP_append, List.countP_singleton]
  refine ⟨?_, hindexed hr.indexed, ?_, ?_, ?_, ?_, ?_⟩
  · rw [hentries, hr.entries, List.map_append]
    rfl
  · intro a ha
    rcases List.mem_append.mp ha with ha | ha
    · exact hr.carried a ha
    · obtain rfl := List.mem_singleton.mp ha
      exact hcarried
  · rw [List.filterMap_append, hr.numbers, hcount]
    by_cases hmethod : u.method.isNone
    · rw [if_pos hmethod, hr.stubs] at hstub
      simp [hmethod, hstub, List.range'_concat]
    · rw [if_neg hmethod] at hstub
      simp [hmethod, hstub]
  · rw [hstubs, hcount, List.length_append, hr.stubs, Receipt.newStubs, hstub]
    by_cases hmethod : u.method.isNone <;> simp [hmethod, Nat.add_assoc]
  · intro a ha
    rcases List.mem_append.mp ha with ha | ha
    · exact hr.numbered a ha
    · obtain rfl := List.mem_singleton.mp ha
      rw [hstub]
      by_cases hmethod : u.method.isNone <;> simp [hmethod]
  · intro a ha n hn
    rw [hstubs]
    rcases List.mem_append.mp ha with ha | ha
    · have hold := hr.addresses a ha n hn
      rw [List.getElem?_append_left (List.getElem?_eq_some_iff.mp hold).1]
      exact hold
    · obtain rfl := List.mem_singleton.mp ha
      change receipt.stub = some n at hn
      by_cases hmethod : u.method.isNone
      · rw [if_pos hmethod, hn] at hstub
        obtain rfl := Option.some.inj hstub
        simp [Receipt.newStubs, hn, Acceptance.code]
      · rw [if_neg hmethod, hn] at hstub
        exact nomatch hstub

/-- A refused unit leaves the tables to the same log. -/
theorem Logged.refused {refusal : Refusal} (hr : r.Logged described log)
    (h : Ends settings u r (.error refusal) r') : r'.Logged described log := by
  rw [h.installation.eq_of_refused]
  exact ⟨hr.entries, hr.indexed, hr.carried, hr.numbers, hr.stubs, hr.numbered,
    hr.addresses⟩

/-- **What a sequence of installations preserves.** -/
theorem Run.logged {start : Runtime} (hstart : start.Logged described [])
    (hrun : start.Run log r) : r.Logged described log := by
  induction hrun with
  | start => exact hstart
  | accepted hrun h ih => exact ih.accepted h
  | refused hrun h ih => exact ih.refused h

/-- Entries stay what they are. -/
theorem Run.get?_of_get? {start : Runtime} {id : CodeId} {installed : InstalledCode}
    (hrun : start.Run log r) (h : start.codes.get? id = some installed) :
    r.codes.get? id = some installed := by
  induction hrun with
  | start => exact h
  | accepted hrun hends ih =>
      unfold CodeTable.get? at ih ⊢
      rw [hends.accepted.1.1, List.getElem?_append_left (List.getElem?_eq_some_iff.mp ih).1]
      exact ih
  | refused hrun hends ih =>
      rw [hends.installation.eq_of_refused]
      exact ih

/-- A fresh runtime has an empty log. -/
theorem logged_of_create {world : Description} (h : Runtime.create world settings = .ok r) :
    r.Logged world.stubs [] := by
  unfold Runtime.create at h
  split at h
  · exact nomatch h
  · rw [← Except.ok.inj h]
    have hnone : stubsIn [] = 0 := List.countP_nil ..
    refine ⟨rfl, ⟨nofun, rfl, rfl, rfl⟩, fun _ ha => absurd ha List.not_mem_nil, ?_, ?_,
      fun _ ha => absurd ha List.not_mem_nil, fun _ ha => absurd ha List.not_mem_nil⟩
    · rw [hnone]
      rfl
    · rw [hnone]
      rfl

/-- A lookup finds the last unit of the log that has the key. -/
theorem Logged.latest? {κ : Type} [BEq κ] [LawfulBEq κ] (hr : r.Logged described log)
    {key : Code → Option κ} {k : κ} {p : Acceptance → Bool}
    (hp : ∀ a ∈ log, (key a.code == some k) = p a) :
    ((indexBy key r.codes.entries).lookup k).bind r.codes.get? =
      ((log.filter p).getLast?).map fun a => a.receipt.installed := by
  rw [hr.indexed.latest?_eq, hr.entries, List.filter_map, List.getLast?_map]
  congr 2
  exact List.filter_congr hp

end Runtime

/-- **The tables are a view of the log of accepted units.** After any sequence of installations on a
    fresh runtime the entries are the accepted units in order, and stay as they are; a lookup finds
    the last accepted unit that answers to it; the stubs are numbered on from the described ones,
    without gaps, and a number leads to the address of its stub. -/
theorem tables_refine_log {world : Description} {settings : Settings} {start r : Runtime}
    {log : List Acceptance} (hcreate : Runtime.create world settings = .ok start)
    (hrun : start.Run log r) :
    r.codes.size = log.length ∧
    (∀ k a, log[k]? = some a →
      r.codes.get? ⟨k⟩ = some a.receipt.installed ∧ a.receipt.installed.id = ⟨k⟩ ∧
      a.code.name = a.unit.name ∧ a.code.method = a.unit.method ∧
      a.code.entryBci = a.unit.entryBci) ∧
    (∀ more r', r.Run more r' → ∀ id installed, r.codes.get? id = some installed →
      r'.codes.get? id = some installed) ∧
    (∀ method, r.codes.forMethod? method =
      ((log.filter fun a => a.unit.method = some method ∧
        a.unit.entryBci = invocationEntryBci).getLast?).map fun a => a.receipt.installed) ∧
    (∀ method bci, bci ≠ invocationEntryBci → r.codes.forLoopEntry? method bci =
      ((log.filter fun a => a.unit.method = some method ∧
        a.unit.entryBci = bci).getLast?).map fun a => a.receipt.installed) ∧
    (∀ name, r.codes.forStub? name =
      ((log.filter fun a => a.unit.method = none ∧
        a.unit.name = name).getLast?).map fun a => a.receipt.installed) ∧
    (∀ a ∈ log, a.receipt.stub.isSome = a.unit.method.isNone) ∧
    log.filterMap (fun a => a.receipt.stub) = List.range' world.stubs.length (stubsIn log) ∧
    ∀ a ∈ log, ∀ n : Nat, a.receipt.stub = some n →
      stubAddress? r.stubs n = some a.code.address := by
  have hr := hrun.logged (Runtime.logged_of_create hcreate)
  refine ⟨?_, fun k a hk => ?_, fun more r' hmore id installed => hmore.get?_of_get?,
    fun method => ?_, fun method bci hbci => ?_, fun name => ?_, hr.numbered, hr.numbers, ?_⟩
  · rw [CodeTable.size, hr.entries, List.length_map]
  · have hget : r.codes.get? ⟨k⟩ = some a.receipt.installed := by
      rw [CodeTable.get?, hr.entries, List.getElem?_map, hk]
      rfl
    exact ⟨hget, hr.indexed.numbered k _ hget, hr.carried a (List.mem_of_getElem? hk)⟩
  · unfold CodeTable.forMethod?
    rw [hr.indexed.byMethod]
    refine hr.latest? fun a ha => ?_
    obtain ⟨-, hmethod, hentry⟩ := hr.carried a ha
    unfold Code.methodKey?
    rw [hmethod, hentry]
    by_cases hbci : a.unit.entryBci = invocationEntryBci <;> simp [hbci, beq_eq_decide]
  · unfold CodeTable.forLoopEntry?
    rw [hr.indexed.byLoopEntry]
    refine hr.latest? fun a ha => ?_
    obtain ⟨-, hmethod, hentry⟩ := hr.carried a ha
    unfold Code.loopKey?
    rw [hmethod, hentry]
    by_cases hentered : a.unit.entryBci = invocationEntryBci
    · simp [hentered, Ne.symm hbci]
    · cases hunit : a.unit.method <;> simp [hentered, beq_eq_decide]
  · unfold CodeTable.forStub?
    rw [hr.indexed.byStubName]
    refine hr.latest? fun a ha => ?_
    obtain ⟨hname, hmethod, -⟩ := hr.carried a ha
    unfold Code.stubKey?
    rw [hmethod, hname]
    cases hunit : a.unit.method <;> simp [beq_eq_decide]
  · intro a ha n hn
    have haddress := hr.addresses a ha n hn
    simpa [stubAddress?] using haddress

-- ── A method installed twice, a refused unit and a stub ─────────────────────────

/-- A unit that returns at once. -/
def CompiledUnit.sampleReturn (method : Option MethodId) : CompiledUnit where
  name := "return"
  method := method
  code := [0xc3]
  codeSize := 1
  frameSize := 8

theorem CompiledUnit.sitesInOrder_sampleReturn (method : Option MethodId) :
    (CompiledUnit.sampleReturn method).sitesInOrder = [] := List.mergeSort_nil

/-- The receipt of a unit, if it is accepted, and the runtime after it. -/
def Runtime.after? (settings : Settings) (u : CompiledUnit) (r : Runtime) :
    Option (Option Receipt × Runtime) :=
  match install settings u r with
  | .ok (out, r') => some (out.toOption, r')
  | .error _ => none

theorem Runtime.Run.after {start r r' : Runtime} {log : List Acceptance} {settings : Settings}
    {u : CompiledUnit} {receipt? : Option Receipt} (hrun : start.Run log r)
    (h : r.after? settings u = some (receipt?, r')) :
    start.Run (log ++ (receipt?.map fun receipt => ⟨settings, u, r, receipt⟩).toList) r' := by
  unfold after? at h
  split at h
  · next out r₁ hinstall =>
      obtain ⟨rfl, rfl⟩ := Prod.mk.inj (Option.some.inj h)
      have hends : Ends settings u r out r₁ := by
        unfold install at hinstall
        split at hinstall
        · exact Or.inl hinstall
        · exact Or.inr hinstall
      cases out with
      | ok receipt => exact hrun.accepted hends
      | error refusal =>
          have hrefused := hrun.refused hends
          rwa [← List.append_nil log] at hrefused
  · exact nomatch h

/-- The second unit of the method is the one found, and the refused load takes no number. -/
theorem tables_refine_log_sample :
    Runtime.create .sample { codeCapacity := 0x100000 } = .ok .sample ∧
    ∃ log r, Runtime.sample.Run log r ∧ r.codes.size = 3 ∧
      r.codes.forMethod? ⟨0x1000⟩ = r.codes.get? ⟨1⟩ ∧ r.codes.forMethod? ⟨0x2000⟩ = none ∧
      r.codes.forStub? "return" = r.codes.get? ⟨2⟩ ∧
      log.filterMap (fun a => a.receipt.stub) = [2] := by
  have hrun : ((Runtime.after? {} (.sampleReturn (some ⟨0x1000⟩)) .sample).bind fun (o₁, r₁) =>
      (r₁.after? { relocationsPerSite := 0 } .sampleLoad).bind fun (o₂, r₂) =>
      (r₂.after? {} (.sampleReturn (some ⟨0x1000⟩))).bind fun (o₃, r₃) =>
      (r₃.after? {} (.sampleReturn none)).map fun (o₄, _) =>
        [o₁.isSome, o₂.isSome, o₃.isSome, o₄.isSome]) = some [true, false, true, true] := by
    unfold Runtime.after? install installMethod installStub assembleAndCommit assemblePaused
      assemble
    rw [CompiledUnit.sitesInOrder_sampleLoad]
    simp only [CompiledUnit.sitesInOrder_sampleReturn]
    decide +kernel
  obtain ⟨⟨o₁, r₁⟩, h₁, hrun⟩ := Option.bind_eq_some_iff.mp hrun
  obtain ⟨⟨o₂, r₂⟩, h₂, hrun⟩ := Option.bind_eq_some_iff.mp hrun
  obtain ⟨⟨o₃, r₃⟩, h₃, hrun⟩ := Option.bind_eq_some_iff.mp hrun
  obtain ⟨⟨o₄, r₄⟩, h₄, hends⟩ := Option.map_eq_some_iff.mp hrun
  simp only [List.cons.injEq, Option.isSome_eq_false_iff, Option.isNone_iff_eq_none,
    Option.isSome_iff_exists, and_true] at hends
  obtain ⟨⟨first, rfl⟩, rfl, ⟨second, rfl⟩, ⟨stub, rfl⟩⟩ := hends
  have hcreate : Runtime.create .sample { codeCapacity := 0x100000 } = .ok .sample := rfl
  have hall := (((Runtime.Run.start.after h₁).after h₂).after h₃).after h₄
  obtain ⟨hsize, hentries, -, hmethod, -, hstub, -, hnumbers, -⟩ := tables_refine_log hcreate hall
  refine ⟨hcreate, _, r₄, hall, hsize, ?_, ?_, ?_, hnumbers⟩
  · rw [hmethod, (hentries 1 _ rfl).1]
    rfl
  · rw [hmethod]
    rfl
  · rw [hstub, (hentries 2 _ rfl).1]
    rfl

end ManagedCode
