import ManagedCode.Proofs.Framing
import ManagedCode.Proofs.Placement
import ManagedCode.Proofs.Targets

/-! # Constants of installed code

    The alignment of a constant is kept through four roundings: of its offset in the constants
    section, of the start of the section behind the code, of the address of the unit, and none of
    the base of the code space.  It holds in the end because each of the first three alignments
    divides the next, and the last one is taken of the address.

* **`Site.loaded?`**, **`PlacedConstant`** — the constants that sites load, and where they are put.
* **`Site.imprint?_constants`** — what a site appends to the constants and to the relocations.
* **`Blob.Stores`** — a blob with constants in their places; **`applySites_stores`** for a run.
* **`installed_constants_in_place`** — where the constants of an installed unit are. -/

namespace ManagedCode

-- ── Loaded constants ────────────────────────────────────────────────────────────

/-- A constant that a load refers to by its distance. -/
structure LoadedConstant where
  /-- The offset of the load. -/
  offset : Nat
  bits : UInt64
  alignment : Nat
deriving DecidableEq, Repr

/-- A loaded constant and its offset in the constants section. -/
structure PlacedConstant where
  loaded : LoadedConstant
  place : Nat
deriving DecidableEq, Repr

/-- The relocation of the load of a constant. -/
def PlacedConstant.record (p : PlacedConstant) : Relocation :=
  ⟨p.loaded.offset, .sectionWord .constants p.place, .displacement32⟩

/-- Whether a relocation refers to a word of a section. -/
def Relocation.isWord (r : Relocation) : Bool :=
  match r.kind with
  | .sectionWord _ _ => true
  | _ => false

/-- The constant that a site loads from the constants section. An object is never put there. -/
def Site.loaded? (site : Site) : Option LoadedConstant :=
  match site.kind with
  | .dataPatch c alignment false =>
      if c.kind = .object then none
      else some ⟨site.offset.toNat, Word.ofInt c.bits, alignment⟩
  | _ => none

theorem Site.offset_of_loaded? {site : Site} {c : LoadedConstant} (h : site.loaded? = some c) :
    c.offset = site.offset.toNat := by
  unfold loaded? at h
  split at h
  · split at h
    · exact nomatch h
    · rw [← Option.some.inj h]
  · exact nomatch h

-- ── What a site appends ─────────────────────────────────────────────────────────

/-- What a site that loads no constant may record: the cache of a call is the one announced, and a
    static call stub serves the call that its mark refers to. -/
def Site.Records (pending : PendingCall) (site : Site) : RelocationKind → Prop
  | .virtualCall cache => pending = .throughCache cache
  | .staticStub call => ∃ id reference, site.kind = .mark id [reference] ∧
      Mark.ofNumber? id = some .staticCallStub ∧ reference.toNat = call
  | .sectionWord _ _ => False
  | _ => True

/-- An imprint appends no constant, and records what its site may. -/
def Imprint.Plain (pending : PendingCall) (site : Site) (imprint : Imprint) : Prop :=
  imprint.constants = [] ∧
    ∀ r ∈ imprint.records, r.offset = site.offset.toNat ∧ site.Records pending r.kind

section Appended

variable {ctx : SiteContext} {b : Blob} {pending : PendingCall} {site : Site} {i : Instruction}
  {imprint : Imprint}

theorem Imprint.plain_of_no_records {edits : List Edit} :
    Imprint.Plain pending site { edits } :=
  ⟨rfl, nofun⟩

theorem Imprint.plain_recording {kind : RelocationKind} {format : OperandFormat}
    {edits : List Edit} (hkind : site.Records pending kind) :
    Imprint.Plain pending site { edits, records := [⟨site.offset.toNat, kind, format⟩] } := by
  refine ⟨rfl, fun r hr => ?_⟩
  rw [List.mem_singleton.mp hr]
  exact ⟨rfl, hkind⟩

theorem Imprint.word?_plain {bits : UInt64} {records : List Relocation}
    (hrecords : ∀ r ∈ records, r.offset = site.offset.toNat ∧ site.Records pending r.kind)
    (h : Imprint.word? i bits records = some imprint) : imprint.Plain pending site := by
  unfold Imprint.word? at h
  split at h
  · obtain rfl := Option.some.inj h
    exact ⟨rfl, hrecords⟩
  · exact nomatch h

theorem Imprint.anchor?_plain {target : UInt64} {kind : RelocationKind} {format : OperandFormat}
    (hi : Instruction.at? b.code site.offset.toNat = some i) (hkind : site.Records pending kind)
    (h : Imprint.anchor? i target kind format = some imprint) : imprint.Plain pending site := by
  unfold Imprint.anchor? at h
  split at h
  · obtain rfl := Option.some.inj h
    rw [(Instruction.at?_laws.bounds hi).1]
    exact plain_recording hkind
  · exact nomatch h

/-- A call is recorded as a call, through the announced cache if there is one. -/
theorem CallTarget.destination?_records {target : CallTarget} {address : UInt64}
    {kind : RelocationKind} (h : target.destination? ctx pending = some (address, kind)) :
    site.Records pending kind := by
  unfold CallTarget.destination? at h
  cases target with
  | runtimeStub id =>
      obtain ⟨stub, -, hpair⟩ := Option.map_eq_some_iff.mp h
      obtain ⟨-, rfl⟩ := Prod.mk.inj hpair
      trivial
  | installedCode id =>
      dsimp only at h
      split at h
      · obtain ⟨-, rfl⟩ := Prod.mk.inj (Option.some.inj h)
        trivial
      · exact nomatch h
  | method ref =>
      cases pending with
      | throughCache cache =>
          obtain ⟨-, rfl⟩ := Prod.mk.inj (Option.some.inj h)
          rfl
      | static | special =>
          obtain ⟨-, rfl⟩ := Prod.mk.inj (Option.some.inj h)
          trivial
      | inlined | none => exact nomatch h

theorem Site.callImprint?_plain {target : CallTarget}
    (h : callImprint? ctx b pending site.offset.toNat target = some imprint) :
    imprint.Plain pending site := by
  unfold callImprint? at h
  split at h
  · obtain rfl := Option.some.inj h
    exact Imprint.plain_of_no_records
  · obtain ⟨⟨address, kind⟩, hdestination, hbind⟩ := Option.bind_eq_some_iff.mp h
    obtain ⟨i, hi, hbound⟩ := Option.bind_eq_some_iff.mp hbind
    have hkind : site.Records pending kind := CallTarget.destination?_records hdestination
    split at hbound
    · refine Imprint.word?_plain (fun r hr => ?_) hbound
      rw [List.mem_singleton.mp hr]
      exact ⟨(Instruction.at?_laws.bounds hi).1, hkind⟩
    · exact Imprint.anchor?_plain hi hkind hbound

theorem Site.markImprint?_plain {id : Int} {references : List Int}
    (hsite : site.kind = .mark id references)
    (h : markImprint? ctx b site.offset.toNat id references = some imprint) :
    imprint.Plain pending site := by
  have hcache : cacheImprint? ctx b site.offset.toNat = some imprint →
      imprint.Plain pending site := by
    intro h
    obtain ⟨i, hi, h⟩ := Option.bind_eq_some_iff.mp h
    split at h
    · exact Imprint.word?_plain (List.forall_mem_nil _) h
    · exact nomatch h
  have hpoll : ∀ kind, site.Records pending kind →
      pollImprint? ctx b site.offset.toNat kind = some imprint → imprint.Plain pending site := by
    intro kind hkind h
    obtain ⟨i, hi, h⟩ := Option.bind_eq_some_iff.mp h
    split at h
    · exact Imprint.anchor?_plain hi hkind h
    · exact nomatch h
  unfold markImprint? at h
  split at h
  · next call hmark =>
      obtain rfl := Option.some.inj h
      refine ⟨rfl, fun r hr => ?_⟩
      rcases List.mem_cons.mp hr with rfl | hr
      · exact ⟨rfl, trivial⟩
      · rw [List.mem_singleton.mp hr]
        exact ⟨rfl, id, call, hsite, hmark, rfl⟩
  · exact hcache h
  · exact hcache h
  · exact hpoll .poll trivial h
  · exact hpoll .pollReturn trivial h
  · obtain rfl := Option.some.inj h
    exact Imprint.plain_recording trivial
  · obtain rfl := Option.some.inj h
    exact Imprint.plain_recording trivial
  · obtain rfl := Option.some.inj h
    exact Imprint.plain_of_no_records
  · exact nomatch h
  · obtain ⟨i, -, h⟩ := Option.bind_eq_some_iff.mp h
    split at h
    · obtain rfl := Option.some.inj h
      exact Imprint.plain_of_no_records
    · exact nomatch h
  · exact nomatch h
  · obtain rfl := Option.some.inj h
    exact Imprint.plain_recording trivial
  · obtain rfl := Option.some.inj h
    exact Imprint.plain_of_no_records

theorem Imprint.constant?_ok {bits : UInt64} {alignment : Nat}
    (h : Imprint.constant? b i bits alignment = some imprint) :
    ∃ start place, b.constantsStart = .ok start ∧ b.constantOffset alignment = .ok place ∧
      imprint.constants =
        List.replicate (place - b.constants.length) 0 ++ Word.toBytes 8 bits.toNat ∧
      imprint.records = [⟨i.offset, .sectionWord .constants place, .displacement32⟩] := by
  unfold Imprint.constant? at h
  split at h
  · next o start place ho hstart hplace =>
      obtain rfl := Option.some.inj h
      exact ⟨start, place, hstart, hplace, rfl, rfl⟩
  · exact nomatch h

/-- **What a site appends.** A load of a constant appends the constant where it may go, and one
    relocation that says where; any other site appends no constant and refers to none. -/
theorem Site.imprint?_constants {handles : HandleTable}
    (h : site.imprint? ctx b pending handles = some imprint) :
    (site.loaded? = none ∧ imprint.Plain pending site) ∨
    ∃ c start place, site.loaded? = some c ∧ b.constantsStart = .ok start ∧
      b.constantOffset c.alignment = .ok place ∧
      imprint.constants =
        List.replicate (place - b.constants.length) 0 ++ Word.toBytes 8 c.bits.toNat ∧
      imprint.records = [PlacedConstant.record ⟨c, place⟩] := by
  obtain ⟨offset, kind⟩ := site
  cases kind with
  | call target info => exact Or.inl ⟨rfl, callImprint?_plain h⟩
  | safepoint info =>
      obtain rfl := Option.some.inj h
      exact Or.inl ⟨rfl, Imprint.plain_of_no_records⟩
  | mark id references => exact Or.inl ⟨rfl, markImprint?_plain rfl h⟩
  | dataPatch c alignment inlined =>
      obtain ⟨i, hi, h⟩ := Option.bind_eq_some_iff.mp h
      have hword : ∀ bits, Imprint.word? i bits [⟨offset.toNat, .reference, .immediate⟩] =
          some imprint → imprint.Plain pending ⟨offset, .dataPatch c alignment inlined⟩ :=
        fun bits => Imprint.word?_plain fun r hr => by
          rw [List.mem_singleton.mp hr]
          exact ⟨rfl, trivial⟩
      have hnone : c.kind = .object → loaded? ⟨offset, .dataPatch c alignment inlined⟩ = none := by
        intro hkind
        cases inlined with
        | true => rfl
        | false => exact if_pos hkind
      split at h
      · next hkind _ =>
          split at h
          · exact Or.inl ⟨hnone hkind, hword _ h⟩
          · exact nomatch h
      · next hkind _ => exact Or.inl ⟨hnone hkind, hword _ h⟩
      · next hkind _ =>
          cases inlined with
          | true => exact Or.inl ⟨rfl, Imprint.word?_plain (List.forall_mem_nil _) h⟩
          | false =>
              rw [if_neg Bool.false_ne_true] at h
              split at h
              · obtain ⟨start, place, hstart, hplace, hconstants, hrecords⟩ :=
                  Imprint.constant?_ok h
                rw [(Instruction.at?_laws.bounds hi).1] at hrecords
                exact Or.inr ⟨_, start, place, if_neg fun hobject => hkind hobject, hstart, hplace,
                  hconstants, hrecords⟩
              · exact nomatch h

end Appended

-- ── Constants in their places ───────────────────────────────────────────────────

/-- The constants section starts with `data`, and behind it the placed constants come one after the
    other, each at a multiple of its alignment; the words that relocations refer to are these. -/
structure Blob.Stores (data : List UInt8) (placed : List PlacedConstant) (b : Blob) : Prop where
  producer : data <+: b.constants
  records : b.relocations.filter Relocation.isWord = placed.map PlacedConstant.record
  bytes : ∀ p ∈ placed,
    (b.constants.drop p.place).take 8 = Word.toBytes 8 p.loaded.bits.toNat
  inside : ∀ p ∈ placed, data.length ≤ p.place ∧ p.place + 8 ≤ b.constants.length
  ascending : placed.Pairwise fun p q => p.place + 8 ≤ q.place
  aligned : ∀ p ∈ placed, 0 < p.loaded.alignment →
    p.loaded.alignment ∣ p.place ∧ p.loaded.alignment ∣ b.layout.constantsAlignment

section Stores

variable {b b' : Blob} {data : List UInt8} {placed : List PlacedConstant}

/-- A constant suits its alignment, and the alignment that of the section. -/
theorem Blob.constantOffset_aligned {start alignment place : Nat}
    (hstart : b.constantsStart = .ok start) (h : b.constantOffset alignment = .ok place)
    (hpos : 0 < alignment) : alignment ∣ place ∧ alignment ∣ b.layout.constantsAlignment := by
  simp only [Blob.constantOffset, if_neg (Nat.ne_of_gt hpos)] at h
  obtain ⟨_, hle, h⟩ := Checked.bind_ok h
  obtain ⟨hpower, hplace, -, -⟩ := Size.alignUp_ok h
  obtain ⟨hsection, -, -, -⟩ := Size.alignUp_ok hstart
  have hmax := (Size.dvd_max_of_isPowerOfTwo hpower hsection).1
  rw [Nat.max_eq_right (require_ok hle)] at hmax
  exact ⟨hplace, hmax⟩

/-- What is stored stays when more is appended, if no further word is referred to. -/
theorem Blob.Stores.append {imprint : Imprint} (h : b.Stores data placed)
    (hrecords : imprint.records.filter Relocation.isWord = []) :
    (imprint.apply b).Stores data placed where
  producer := h.producer.trans (List.prefix_append _ _)
  records := by
    show (b.relocations ++ imprint.records).filter _ = _
    rw [List.filter_append, hrecords, List.append_nil]
    exact h.records
  bytes := by
    intro p hp
    have hinside := (h.inside p hp).2
    show ((b.constants ++ imprint.constants).drop p.place).take 8 = _
    rw [List.drop_append_of_le_length (by omega), List.take_append_of_le_length
      (by rw [List.length_drop]; omega)]
    exact h.bytes p hp
  inside := by
    intro p hp
    obtain ⟨hdata, hinside⟩ := h.inside p hp
    refine ⟨hdata, ?_⟩
    show _ ≤ (b.constants ++ imprint.constants).length
    rw [List.length_append]
    omega
  ascending := h.ascending
  aligned := h.aligned

/-- A constant behind the others is stored, and so are the others. -/
theorem Blob.Stores.place {imprint : Imprint} {c : LoadedConstant} {start place : Nat}
    (h : b.Stores data placed) (hstart : b.constantsStart = .ok start)
    (hplace : b.constantOffset c.alignment = .ok place)
    (hconstants : imprint.constants =
      List.replicate (place - b.constants.length) 0 ++ Word.toBytes 8 c.bits.toNat)
    (hrecords : imprint.records = [PlacedConstant.record ⟨c, place⟩]) :
    (imprint.apply b).Stores data (placed ++ [⟨c, place⟩]) := by
  have hle := Blob.le_constantOffset hplace
  have hkept : Blob.Stores data placed ({ imprint with records := [] }.apply b) := h.append rfl
  have hpadded : (b.constants ++ List.replicate (place - b.constants.length) 0).length = place := by
    rw [List.length_append, List.length_replicate]
    omega
  have hwidth : (Word.toBytes 8 c.bits.toNat).length = 8 := Word.length_toBytes 8 _
  have hall : b.constants ++ imprint.constants =
      (b.constants ++ List.replicate (place - b.constants.length) 0) ++
        Word.toBytes 8 c.bits.toNat := by
    rw [hconstants, List.append_assoc]
  refine ⟨hkept.producer, ?_, ?_, ?_, ?_, ?_⟩
  · show (b.relocations ++ imprint.records).filter _ = _
    rw [List.filter_append, h.records, hrecords, List.map_append]
    rfl
  · intro p hp
    rcases List.mem_append.mp hp with hp | hp
    · exact hkept.bytes p hp
    · obtain rfl := List.mem_singleton.mp hp
      show ((b.constants ++ imprint.constants).drop place).take 8 = Word.toBytes 8 c.bits.toNat
      rw [hall, List.drop_left' hpadded, List.take_of_length_le (Nat.le_of_eq hwidth)]
  · intro p hp
    rcases List.mem_append.mp hp with hp | hp
    · exact hkept.inside p hp
    · obtain rfl := List.mem_singleton.mp hp
      refine ⟨Nat.le_trans h.producer.length_le hle, ?_⟩
      have hlength : (b.constants ++ imprint.constants).length = place + 8 := by
        rw [hall, List.length_append, hpadded, hwidth]
      exact Nat.le_of_eq hlength.symm
  · refine List.pairwise_append.mpr ⟨h.ascending, List.pairwise_singleton .., ?_⟩
    intro p hp q hq
    rw [List.mem_singleton.mp hq]
    exact Nat.le_trans (h.inside p hp).2 hle
  · intro p hp hpos
    rcases List.mem_append.mp hp with hp | hp
    · exact h.aligned p hp hpos
    · obtain rfl := List.mem_singleton.mp hp
      show c.alignment ∣ place ∧ c.alignment ∣ b.layout.constantsAlignment
      exact Blob.constantOffset_aligned hstart hplace hpos

/-- Storing constants is about neither the code nor where it stands. -/
theorem Blob.Stores.congr (h : b.Stores data placed) (hlayout : b'.layout = b.layout)
    (hconstants : b'.constants = b.constants) (hrelocations : b'.relocations = b.relocations) :
    b'.Stores data placed := by
  obtain ⟨producer, records, bytes, inside, ascending, aligned⟩ := h
  rw [← hlayout] at aligned
  rw [← hrelocations] at records
  rw [← hconstants] at producer bytes inside
  exact ⟨producer, records, bytes, inside, ascending, aligned⟩

end Stores

section Run

variable {ctx : SiteContext} {d d' : Draft} {data : List UInt8} {placed : List PlacedConstant}

/-- **One site** stores the constant that it loads, if any, and keeps the others. -/
theorem applySite_stores {site : Site} (hd : d.blob.Stores data placed)
    (h : (applySite ctx site).runOn d = .ok (.ok (), d')) :
    ∃ added, d'.blob.Stores data (placed ++ added) ∧
      added.map PlacedConstant.loaded = site.loaded?.toList := by
  obtain ⟨imprint, himprint, -, hblob, -⟩ := applySite_imprint h
  rw [hblob]
  rcases Site.imprint?_constants himprint with ⟨hnone, -, hrecords⟩ |
    ⟨c, start, place, hsome, hstart, hplace, hconstants, hrecords⟩
  · refine ⟨[], ?_, by rw [hnone]; rfl⟩
    rw [List.append_nil]
    refine hd.append (List.filter_eq_nil_iff.mpr fun r hr => ?_)
    obtain ⟨offset, kind, format⟩ := r
    obtain ⟨-, hkind⟩ := hrecords _ hr
    cases kind with
    | sectionWord name target => exact hkind.elim
    | _ => exact Bool.false_ne_true
  · exact ⟨[⟨c, place⟩], hd.place hstart hplace hconstants hrecords, by rw [hsome]; rfl⟩

/-- **All sites**: the constants stored in the end are those the sites load, in order. -/
theorem applySites_stores {sites : List Site} (hd : d.blob.Stores data placed)
    (h : (applySites ctx sites).runOn d = .ok (.ok (), d')) :
    ∃ added, d'.blob.Stores data (placed ++ added) ∧
      added.map PlacedConstant.loaded = sites.filterMap Site.loaded? := by
  induction sites generalizing d placed with
  | nil =>
      obtain ⟨-, rfl⟩ := Prod.mk.inj (Except.ok.inj h)
      exact ⟨[], by rwa [List.append_nil], rfl⟩
  | cons site rest ih =>
      obtain ⟨_, d₁, hsite, hrest⟩ := Patch.bind_ok h
      obtain ⟨first, hd₁, hfirst⟩ := applySite_stores hd hsite
      obtain ⟨later, hd', hlater⟩ := ih hd₁ hrest
      refine ⟨first ++ later, by rwa [← List.append_assoc], ?_⟩
      rw [List.map_append, hfirst, hlater, List.filterMap_cons]
      cases site.loaded? <;> rfl

end Run

-- ── The blob of a unit ──────────────────────────────────────────────────────────

/-- The constants that the producer laid out. -/
def CompiledUnit.data (u : CompiledUnit) : List UInt8 :=
  match u.dataSection with
  | some part => part.data
  | none => []

/-- The alignment of the constants that the producer laid out. -/
def CompiledUnit.dataAlignment (u : CompiledUnit) : Nat :=
  match u.dataSection with
  | some part => part.alignment
  | none => 0

/-- Nothing is put in front of the first constant. -/
theorem Blob.constantOffset_empty {b : Blob} {alignment offset : Nat} (hempty : b.constants = [])
    (h : b.constantOffset alignment = .ok offset) : offset = 0 := by
  unfold constantOffset at h
  rw [hempty] at h
  split at h
  · exact (Except.ok.inj h).symm
  · obtain ⟨_, -, h⟩ := Checked.bind_ok h
    obtain ⟨_, -, h⟩ := Checked.bind_ok h
    obtain ⟨sum, hsum, h⟩ := Checked.bind_ok h
    obtain ⟨rfl, -⟩ := Size.add_ok hsum
    obtain rfl := Checked.pure_ok h
    rw [List.length_nil, Nat.zero_add, Nat.div_eq_of_lt (by omega), Nat.zero_mul]

/-- What a unit reserves: its code, the producer's constants and a fixed number of bytes and
    relocations for each site. The constants are aligned to the stricter of the two alignments. -/
theorem CompiledUnit.layout_eq {settings : Settings} {u : CompiledUnit} {layout : Layout}
    (h : u.layout settings = .ok layout) :
    layout = {
      codeCapacity := u.codeSize
      constantsCapacity := u.data.length + u.sites.length * settings.constantBytesPerSite
      constantsAlignment := max settings.constantsAlignment u.dataAlignment
      relocationCapacity := u.sites.length * settings.relocationsPerSite } := by
  obtain ⟨reserve, hreserve, h⟩ := Checked.bind_ok h
  obtain ⟨rfl, -⟩ := Size.check_ok hreserve
  obtain ⟨capacity, hcapacity, h⟩ := Checked.bind_ok h
  obtain ⟨rfl, -⟩ := Size.add_ok hcapacity
  obtain ⟨records, hrecords, h⟩ := Checked.bind_ok h
  obtain ⟨rfl, -⟩ := Size.check_ok hrecords
  rw [← Checked.pure_ok h, data, dataAlignment]
  cases u.dataSection <;> rfl

/-- A unit's blob has the reserves of the unit, and its constants are those of the producer. -/
theorem CompiledUnit.blob_layout {settings : Settings} {u : CompiledUnit} {b : Blob}
    (h : u.blob settings = .ok (.ok b)) :
    u.layout settings = .ok b.layout ∧ b.constants = u.data := by
  obtain ⟨layout, hlayout, h⟩ := Checked.bind_ok h
  rw [hlayout]
  dsimp only at h
  split at h
  · exact nomatch Checked.pure_ok h
  · next copied hcopy =>
      have hcopied : copied.layout = layout ∧ copied.constants = [] := by
        rw [Blob.copyCode_ok hcopy]
        exact ⟨rfl, rfl⟩
      unfold data
      cases hdata : u.dataSection with
      | none =>
          rw [hdata] at h
          obtain rfl := Except.ok.inj (Checked.pure_ok h)
          rw [hcopied.1]
          exact ⟨rfl, hcopied.2⟩
      | some part =>
          rw [hdata] at h
          obtain ⟨⟨out, b'⟩, hout, h⟩ := Checked.bind_ok h
          obtain ⟨offset, rfl, rfl⟩ := map_eq_ok (Checked.pure_ok h)
          obtain ⟨hoffset, rfl⟩ := Blob.appendConstant_ok hout
          obtain rfl := Blob.constantOffset_empty hcopied.2 hoffset
          dsimp only
          rw [hcopied.1, hcopied.2]
          exact ⟨rfl, rfl⟩

theorem CompiledUnit.blob_reserves {settings : Settings} {u : CompiledUnit} {b : Blob}
    (h : u.blob settings = .ok (.ok b)) :
    b.layout.codeCapacity = u.codeSize ∧
      b.layout.constantsAlignment = max settings.constantsAlignment u.dataAlignment ∧
      b.constants = u.data := by
  obtain ⟨hlayout, hdata⟩ := blob_layout h
  rw [layout_eq hlayout]
  exact ⟨rfl, rfl, hdata⟩

-- ── Where constants are in the end ──────────────────────────────────────────────

section Address

variable {b : Blob} {start place : Nat}

/-- The address of a constant is counted from the start of the section. -/
theorem Blob.constantAddress_ok {address : UInt64} (hstart : b.constantsStart = .ok start)
    (h : b.constantAddress place = .ok address) :
    address.toNat = b.base.toNat + start + place := by
  obtain ⟨start', hstart', h⟩ := Checked.bind_ok h
  obtain rfl := Except.ok.inj (hstart.symm.trans hstart')
  obtain ⟨sum, hsum, h⟩ := Checked.bind_ok h
  obtain ⟨rfl, -⟩ := Size.add_ok hsum
  obtain ⟨rfl, hlt⟩ := Address.advance_ok h
  rw [UInt64.toNat_add, UInt64.toNat_ofNat']
  unfold Word.limit at hlt
  omega

/-- A constant has an address if that is within the range of words. -/
theorem Blob.exists_constantAddress (hstart : b.constantsStart = .ok start)
    (hlt : b.base.toNat + start + place < Word.limit) :
    ∃ address, b.constantAddress place = .ok address := by
  have hsum : Size.add start place = .ok (start + place) := if_pos (by omega)
  have hend : Size.add b.base.toNat (start + place) = .ok (b.base.toNat + (start + place)) :=
    if_pos (by omega)
  refine ⟨UInt64.ofNat (b.base.toNat + (start + place)), ?_⟩
  show b.constantsStart >>= _ = _
  rw [hstart]
  show Size.add start place >>= _ = _
  rw [hsum]
  show Size.add b.base.toNat (start + place) >>= _ = _
  rw [hend]
  rfl

end Address

/-- A registered unit keeps its reserves and its constants, and takes a block that suits them. -/
theorem CodeTable.register_constants {t t' : CodeTable} {code : Code} {installed : InstalledCode}
    (h : t.register code = .ok (.ok (installed, t'))) :
    installed.code.blob.layout = code.blob.layout ∧
    installed.code.blob.constants = code.blob.constants ∧
    installed.code.blob.relocations = code.blob.relocations ∧
    ∃ start, installed.code.blob.constantsStart = .ok start ∧
      code.blob.layout.constantsAlignment ∣ start ∧
      code.blob.layout.constantsAlignment ∣ installed.code.address.toNat ∧
      installed.code.address.toNat + start + code.blob.constants.length ≤
        t.space.base.toNat + t.space.capacity := by
  obtain ⟨size, hsize, -, hpower, hallocate⟩ := register_allocates h
  obtain ⟨address, moved, hmoved, hcode, -, -⟩ := register_ok h
  have hframe := Blob.moveTo_frame hmoved
  rw [hcode] at hsize hpower hallocate ⊢
  obtain ⟨hspace, hused, -, hend, -, hblock⟩ := CodeSpace.allocate_ok hpower hallocate
  obtain ⟨start, hstart, hsize⟩ := Checked.bind_ok hsize
  obtain ⟨rfl, -⟩ := Size.add_ok hsize
  obtain ⟨-, hsection, -, -⟩ := Size.alignUp_ok hstart
  have hlayout : moved.layout = code.blob.layout := by rw [hframe]
  have hconstants : moved.constants = code.blob.constants := by rw [hframe]
  refine ⟨hlayout, hconstants, by rw [hframe], start, hstart, ?_, ?_, ?_⟩
  · rw [← hlayout]
    exact hsection
  · rw [← hlayout]
    exact hblock
  · rw [← hconstants]
    dsimp only at hend ⊢
    omega

/-- **Constants keep their bytes and alignment.** In every installed unit the constants section
    starts at an address that suits the settings and the producer's constants, which it starts
    with. The constants that the sites load come behind these one after the other, in the order of
    the sites; each has the bits of the constant, is the word that the relocation of its load
    refers to, and is at an address that suits its alignment. Where the code space does not go
    beyond the range of addresses, each has an address. -/
theorem installed_constants_in_place {settings : Settings} {u : CompiledUnit} {r r' : Runtime}
    {receipt : Receipt} (h : Ends settings u r (.ok receipt) r') :
    r'.codes.get? receipt.installed.id = some receipt.installed ∧
    ∃ start placed, receipt.installed.code.blob.constantsStart = .ok start ∧
      max settings.constantsAlignment u.dataAlignment ∣
        receipt.installed.code.address.toNat + start ∧
      receipt.installed.code.blob.Stores u.data placed ∧
      placed.map PlacedConstant.loaded = u.sitesInOrder.filterMap Site.loaded? ∧
      ∀ p ∈ placed,
        (0 < p.loaded.alignment → p.loaded.alignment ∣
          receipt.installed.code.address.toNat + start + p.place) ∧
        (∀ address, receipt.installed.code.blob.constantAddress p.place = .ok address →
          address.toNat = receipt.installed.code.address.toNat + start + p.place) ∧
        (r.codes.space.base.toNat + r.codes.space.capacity ≤ Word.limit →
          ∃ address, receipt.installed.code.blob.constantAddress p.place = .ok address) := by
  cases h.installation with
  | @registered d dependencies code _ codes hrun hfinish hregister =>
      obtain ⟨parameterCount, blob, hblob, hrun⟩ := hrun
      obtain ⟨-, hempty⟩ := CompiledUnit.blob_ok hblob
      obtain ⟨-, halignment, hdata⟩ := CompiledUnit.blob_reserves hblob
      obtain ⟨hfinished, -, -⟩ := CompiledUnit.finish_ok hfinish
      obtain ⟨-, -, -, -, hget, -⟩ := CodeTable.register_ok hregister
      obtain ⟨hlayout, hconstants, hrelocations, start, hstart, hsection, hblock, hend⟩ :=
        CodeTable.register_constants hregister
      have hfirst : ({ blob, handles := r.handles } : Draft).blob.Stores u.data [] :=
        ⟨hdata ▸ List.prefix_rfl, by rw [hempty]; rfl, List.forall_mem_nil _,
          List.forall_mem_nil _, .nil, List.forall_mem_nil _⟩
      obtain ⟨placed, hplaced, hloaded⟩ := applySites_stores hfirst hrun
      rw [List.nil_append, ← hfinished] at hplaced
      have hstores := hplaced.congr hlayout hconstants hrelocations
      have hstrict : max settings.constantsAlignment u.dataAlignment =
          code.blob.layout.constantsAlignment := by
        rw [hfinished, (applySites_frame hrun).layout]
        exact halignment.symm
      refine ⟨hget, start, placed, hstart, ?_, hstores, hloaded, fun p hp => ⟨fun hpos => ?_,
        fun address haddress => Blob.constantAddress_ok hstart haddress, fun hrange => ?_⟩⟩
      · rw [hstrict]
        exact Nat.dvd_add hblock hsection
      · obtain ⟨hplace, hdivides⟩ := hplaced.aligned p hp hpos
        exact Nat.dvd_add (Nat.dvd_add (Nat.dvd_trans hdivides hblock)
          (Nat.dvd_trans hdivides hsection)) hplace
      · have hinside := (hplaced.inside p hp).2
        exact Blob.exists_constantAddress hstart (by
          show receipt.installed.code.address.toNat + start + p.place < Word.limit
          omega)

-- ── Two constants behind those of the producer ──────────────────────────────────

/-- Two loads of constants, the second of which is aligned. The producer's own constants are three
    bytes and aligned further. -/
def CompiledUnit.sampleConstants : CompiledUnit where
  name := "constants"
  code := [0xf2, 0x0f, 0x10, 0x05, 0, 0, 0, 0, 0xf2, 0x0f, 0x10, 0x0d, 0, 0, 0, 0]
  codeSize := 16
  frameSize := 8
  sites := [⟨8, .dataPatch (.double 0x4000000000000000) 16 false⟩,
    ⟨0, .dataPatch (.long 7) 0 false⟩]
  dataSection := some ⟨[1, 2, 3], 32⟩

theorem CompiledUnit.sitesInOrder_sampleConstants :
    CompiledUnit.sampleConstants.sitesInOrder =
      [⟨0, .dataPatch (.long 7) 0 false⟩,
       ⟨8, .dataPatch (.double 0x4000000000000000) 16 false⟩] := by
  simp [CompiledUnit.sitesInOrder, CompiledUnit.sampleConstants, List.mergeSort,
    List.MergeSort.Internal.splitInTwo]

/-- The first constant is right behind the three bytes, the second where it suits its alignment. -/
theorem installed_constants_in_place_sample :
    ∃ receipt r', Ends {} .sampleConstants .sampleInUse (.ok receipt) r' ∧
      receipt.installed.code.blob.relocations.map Relocation.kind =
        [.sectionWord .constants 3, .sectionWord .constants 16] ∧
      ∃ start placed, receipt.installed.code.blob.constantsStart = .ok start ∧
        32 ∣ receipt.installed.code.address.toNat + start ∧
        receipt.installed.code.blob.Stores [1, 2, 3] placed ∧
        placed.map PlacedConstant.loaded = [⟨0, 7, 0⟩, ⟨8, 0x4000000000000000, 16⟩] ∧
        ∀ p ∈ placed, 0 < p.loaded.alignment → ∃ address,
          receipt.installed.code.blob.constantAddress p.place = .ok address ∧
            p.loaded.alignment ∣ address.toNat := by
  have hrecords : ((receipt? (installStub {} .sampleConstants .sampleInUse)).map fun receipt =>
      receipt.installed.code.blob.relocations.map Relocation.kind) =
        some [.sectionWord .constants 3, .sectionWord .constants 16] := by
    unfold installStub assembleAndCommit assemblePaused assemble
    rw [CompiledUnit.sitesInOrder_sampleConstants]
    decide +kernel
  obtain ⟨receipt, hreceipt, hrecords⟩ := Option.map_eq_some_iff.mp hrecords
  obtain ⟨r', hends⟩ := exists_of_receipt? hreceipt
  obtain ⟨-, start, placed, hstart, hsection, hstores, hloaded, hplaced⟩ :=
    installed_constants_in_place (Or.inr hends)
  rw [CompiledUnit.sitesInOrder_sampleConstants] at hloaded
  refine ⟨receipt, r', Or.inr hends, hrecords, start, placed, hstart, hsection, hstores, hloaded,
    ?_⟩
  intro p hp hpos
  obtain ⟨haligned, haddress, hexists⟩ := hplaced p hp
  obtain ⟨address, h⟩ := hexists (by decide)
  exact ⟨address, h, haddress address h ▸ haligned hpos⟩

end ManagedCode
