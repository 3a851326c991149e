import ManagedCode.Install.Settings

/-! # Overrides of settings

    A setting is overridden by its key and a text.  The text is read, the field of the key takes
    the value, and only then the alignment of constants is checked, whatever the key.  So an
    override that is refused may have changed something: an alignment that is no power of two
    stays, and from then on every override is refused and takes effect.

* **`Setting`** — the fields of the settings, with their keys and the values they hold.
* **`Settings.set_cases`** — everything that an override can do.
* **`refused_override_keeps_iff`** — which refused overrides change nothing, and which sequences of
  overrides amount to the accepted ones. -/

namespace ManagedCode

-- ── Settings by name ────────────────────────────────────────────────────────────

/-- A field of the settings. -/
inductive Setting where
  | byteOrder
  | constantsAlignment
  | constantBytesPerSite
  | relocationsPerSite
  | pollOffset
  | codeBase
  | codeCapacity
deriving DecidableEq, Repr

namespace Setting

/-- What a field holds. -/
def Value : Setting → Type
  | byteOrder => ByteOrder
  | codeBase => UInt64
  | _ => Nat

/-- The key that a field is overridden by. -/
def key : Setting → String
  | byteOrder => "byte_order"
  | constantsAlignment => "constants_alignment"
  | constantBytesPerSite => "constant_bytes_per_site"
  | relocationsPerSite => "relocations_per_site"
  | pollOffset => "safepoint_poll_offset"
  | codeBase => "code_cache_base"
  | codeCapacity => "code_cache_capacity"

/-- All fields. -/
def all : List Setting :=
  [byteOrder, constantsAlignment, constantBytesPerSite, relocationsPerSite, pollOffset, codeBase,
    codeCapacity]

/-- The field of a key. -/
def ofKey? (key : String) : Option Setting := all.find? fun f => f.key == key

/-- The value of a field that a text stands for. -/
def read? : (f : Setting) → String → Option f.Value
  | byteOrder => Settings.readByteOrder?
  | codeBase => Settings.readAddress?
  | constantsAlignment | constantBytesPerSite | relocationsPerSite | pollOffset | codeCapacity =>
      Settings.readSize?

end Setting

namespace Settings

/-- The value of a field. -/
def get (s : Settings) : (f : Setting) → f.Value
  | .byteOrder => s.byteOrder
  | .constantsAlignment => s.constantsAlignment
  | .constantBytesPerSite => s.constantBytesPerSite
  | .relocationsPerSite => s.relocationsPerSite
  | .pollOffset => s.pollOffset
  | .codeBase => s.codeBase
  | .codeCapacity => s.codeCapacity

/-- The settings with another value in a field. -/
def put (s : Settings) : (f : Setting) → f.Value → Settings
  | .byteOrder, v => { s with byteOrder := v }
  | .constantsAlignment, v => { s with constantsAlignment := v }
  | .constantBytesPerSite, v => { s with constantBytesPerSite := v }
  | .relocationsPerSite, v => { s with relocationsPerSite := v }
  | .pollOffset, v => { s with pollOffset := v }
  | .codeBase, v => { s with codeBase := v }
  | .codeCapacity, v => { s with codeCapacity := v }

variable {s s' : Settings} {f g : Setting} {key value : String}

/-- There is no more to settings than their fields. -/
theorem ext_get (h : ∀ f, s'.get f = s.get f) : s' = s := by
  cases s
  cases s'
  exact Settings.mk.injEq .. ▸ ⟨h .byteOrder, h .constantsAlignment, h .constantBytesPerSite,
    h .relocationsPerSite, h .pollOffset, h .codeBase, h .codeCapacity⟩

@[simp] theorem get_put (s : Settings) (v : f.Value) : (s.put f v).get f = v := by
  cases f <;> rfl

theorem get_put_of_ne (s : Settings) (v : f.Value) (h : g ≠ f) : (s.put f v).get g = s.get g := by
  cases f <;> cases g <;> first | rfl | exact absurd rfl h

theorem put_eq_self_iff {v : f.Value} : s.put f v = s ↔ s.get f = v := by
  constructor
  · intro h
    rw [← get_put s v, h]
  · rintro rfl
    refine ext_get fun g => ?_
    by_cases hg : g = f
    · obtain rfl := hg
      exact get_put s _
    · exact get_put_of_ne s _ hg

-- ── One override ────────────────────────────────────────────────────────────────

/-- Overriding a setting reads the text as a value of its field and puts it there. -/
theorem assign?_eq (s : Settings) (key value : String) :
    s.assign? key value = (Setting.ofKey? key).map fun f => (f.read? value).map (s.put f) := by
  simp only [assign?]
  split
  · rfl
  · rfl
  · rfl
  · rfl
  · rfl
  · rfl
  · rfl
  · next h₁ h₂ h₃ h₄ h₅ h₆ h₇ =>
      have hnone : Setting.ofKey? key = none := by
        refine List.find?_eq_none.mpr fun f _ hkey => ?_
        obtain rfl := eq_of_beq hkey
        cases f <;> contradiction
      rw [hnone]
      rfl

/-- **What an override can do**: the key is unknown or the text cannot be read, and nothing
    changes; or the value is in place, and it depends on the alignment then what is reported. -/
theorem set_cases (s : Settings) (key value : String) :
    (∃ e, (∀ f, Setting.ofKey? key = some f → f.read? value = none) ∧
      s.set key value = (.error e, s)) ∨
    ∃ f v, Setting.ofKey? key = some f ∧ f.read? value = some v ∧
      s.set key value =
        (if Size.isPowerOfTwo (s.put f v).constantsAlignment then .ok ()
          else .error (.invalidValue key value), s.put f v) := by
  rw [set]
  rw [assign?_eq]
  cases hkey : Setting.ofKey? key with
  | none => exact Or.inl ⟨.unknownKey key, nofun, rfl⟩
  | some f =>
      cases hread : f.read? value with
      | none =>
          refine Or.inl ⟨.invalidValue key value, ?_, ?_⟩
          · intro g hg
            obtain rfl := Option.some.inj hg
            exact hread
          · rw [Option.map_some, hread]
            rfl
      | some v =>
          refine Or.inr ⟨f, v, rfl, hread, ?_⟩
          rw [Option.map_some, hread, Option.map_some]
          dsimp only
          split <;> rfl

/-- A refused override changes nothing exactly if the text cannot be read for the key, or stands for
    the value that the field holds already. -/
theorem set_refused {e : SettingsError} (h : s.set key value = (.error e, s')) :
    s' = s ↔ ∀ f v, Setting.ofKey? key = some f → f.read? value = some v → s.get f = v := by
  rcases set_cases s key value with ⟨e', hread, hset⟩ | ⟨f, v, hkey, hread, hset⟩
  · obtain ⟨-, rfl⟩ := Prod.mk.inj (h.symm.trans hset)
    refine iff_of_true rfl fun f v hf hv => ?_
    exact nomatch (hread f hf).symm.trans hv
  · obtain ⟨-, rfl⟩ := Prod.mk.inj (h.symm.trans hset)
    rw [put_eq_self_iff]
    constructor
    · intro hheld g w hg hw
      obtain rfl := Option.some.inj (hkey.symm.trans hg)
      exact hheld.trans (Option.some.inj (hread.symm.trans hw))
    · exact fun hheld => hheld f v hkey hread

/-- An accepted override changes the field of its key to the value of its text, no other one, and
    leaves an alignment that is a power of two. -/
theorem set_accepted (h : s.set key value = (.ok (), s')) :
    Size.isPowerOfTwo s'.constantsAlignment ∧
    ∃ f v, Setting.ofKey? key = some f ∧ f.read? value = some v ∧ s'.get f = v ∧
      ∀ g, g ≠ f → s'.get g = s.get g := by
  rcases set_cases s key value with ⟨e', -, hset⟩ | ⟨f, v, hkey, hread, hset⟩
  · exact nomatch (Prod.mk.inj (h.symm.trans hset)).1
  · obtain ⟨hok, rfl⟩ := Prod.mk.inj (h.symm.trans hset)
    split at hok
    · next hpower =>
        exact ⟨hpower, f, v, hkey, hread, get_put s v, fun g hg => get_put_of_ne s v hg⟩
    · exact nomatch hok

/-- The override asks for an alignment that is a power of two, if it asks for one at all. -/
def AlignsWell (call : String × String) : Prop :=
  ∀ n, Setting.ofKey? call.1 = some .constantsAlignment → readSize? call.2 = some n →
    Size.isPowerOfTwo n = true

/-- Where the alignment is a power of two, a refused override changes nothing exactly if it does
    not ask for another alignment. -/
theorem set_refused_of_power {e : SettingsError} (hs : Size.isPowerOfTwo s.constantsAlignment)
    (h : s.set key value = (.error e, s')) : s' = s ↔ AlignsWell (key, value) := by
  rcases set_cases s key value with ⟨e', hread, hset⟩ | ⟨f, v, hkey, hread, hset⟩
  · obtain ⟨-, rfl⟩ := Prod.mk.inj (h.symm.trans hset)
    refine iff_of_true rfl fun n hf hn => ?_
    exact nomatch (hread _ hf).symm.trans hn
  · obtain ⟨herror, rfl⟩ := Prod.mk.inj (h.symm.trans hset)
    split at herror
    · exact nomatch herror
    · next hpower =>
        -- the check fails, so the value has gone to the alignment
        by_cases hf : f = .constantsAlignment
        · obtain rfl := hf
          refine iff_of_false (fun hkept => hpower ?_) fun hwell => hpower (hwell v hkey hread)
          rw [hkept]
          exact hs
        · have hkept := get_put_of_ne s v (Ne.symm hf)
          exact absurd ((congrArg Size.isPowerOfTwo hkept).trans hs) hpower

-- ── Sequences of overrides ──────────────────────────────────────────────────────

/-- The settings after a sequence of overrides, each of them made whatever became of the others. -/
def setAll (s : Settings) (calls : List (String × String)) : Settings :=
  calls.foldl (fun s call => (s.set call.1 call.2).2) s

/-- The overrides of a sequence that are accepted. -/
def accepted (s : Settings) : List (String × String) → List (String × String)
  | [] => []
  | call :: rest =>
      match s.set call.1 call.2 with
      | (.ok (), s') => call :: s'.accepted rest
      | (.error _, s') => s'.accepted rest

/-- Each override of the sequence that is refused changes nothing. -/
def KeepsRefused (s : Settings) : List (String × String) → Prop
  | [] => True
  | call :: rest =>
      (∀ e s', s.set call.1 call.2 = (.error e, s') → s' = s) ∧
        (s.set call.1 call.2).2.KeepsRefused rest

section Sequences

variable {call : String × String} {rest p : List (String × String)}

theorem setAll_cons {result : Except SettingsError Unit}
    (h : s.set call.1 call.2 = (result, s')) : s.setAll (call :: rest) = s'.setAll rest := by
  show (s.set call.1 call.2).2.setAll rest = _
  rw [h]

theorem accepted_of_ok (h : s.set call.1 call.2 = (.ok (), s')) :
    s.accepted (call :: rest) = call :: s'.accepted rest := by
  rw [accepted, h]

theorem accepted_of_error {e : SettingsError} (h : s.set call.1 call.2 = (.error e, s')) :
    s.accepted (call :: rest) = s'.accepted rest := by
  rw [accepted, h]

theorem keepsRefused_of_ok (h : s.set call.1 call.2 = (.ok (), s')) :
    s.KeepsRefused (call :: rest) ↔ s'.KeepsRefused rest := by
  rw [KeepsRefused, h]
  exact ⟨fun hkeeps => hkeeps.2, fun hkeeps => ⟨nofun, hkeeps⟩⟩

theorem keepsRefused_of_error {e : SettingsError} (h : s.set call.1 call.2 = (.error e, s')) :
    s.KeepsRefused (call :: rest) ↔ s' = s ∧ s'.KeepsRefused rest := by
  rw [KeepsRefused, h]
  refine and_congr_left fun _ => ⟨fun hkept => hkept e s' rfl, fun hkept _ _ heq => ?_⟩
  rw [← (Prod.mk.inj heq).2]
  exact hkept

end Sequences

/-- **A sequence amounts to its accepted overrides**, wherever it is cut off, exactly if each that
    is refused changes nothing. -/
theorem setAll_accepted_iff (s : Settings) (calls : List (String × String)) :
    (∀ p, p <+: calls → s.setAll p = s.setAll (s.accepted p)) ↔ s.KeepsRefused calls := by
  induction calls generalizing s with
  | nil =>
      refine iff_of_true (fun p hp => ?_) trivial
      rw [List.prefix_nil.mp hp]
      rfl
  | cons call rest ih =>
      -- cut off in front of the first override, or somewhere behind it
      have hcut : (∀ p, p <+: call :: rest → s.setAll p = s.setAll (s.accepted p)) ↔
          ∀ p, p <+: rest → s.setAll (call :: p) = s.setAll (s.accepted (call :: p)) := by
        constructor
        · exact fun h p hp => h _ (List.cons_prefix_cons.mpr ⟨rfl, hp⟩)
        · intro h p hp
          rcases List.prefix_cons_iff.mp hp with rfl | ⟨p', rfl, hp'⟩
          · rfl
          · exact h p' hp'
      rw [hcut]
      rcases hset : s.set call.1 call.2 with ⟨e | _, s'⟩
      · rw [keepsRefused_of_error hset, ← ih s']
        simp only [setAll_cons hset, accepted_of_error hset]
        constructor
        · intro h
          obtain rfl : s' = s := h [] (List.nil_prefix ..)
          exact ⟨rfl, h⟩
        · rintro ⟨rfl, h⟩
          exact h
      · rw [keepsRefused_of_ok hset, ← ih s']
        simp only [accepted_of_ok hset, setAll_cons hset]

/-- From an alignment that is a power of two, each refused override changes nothing exactly if none
    asks for another alignment. -/
theorem keepsRefused_iff (hs : Size.isPowerOfTwo s.constantsAlignment)
    (calls : List (String × String)) :
    s.KeepsRefused calls ↔ ∀ call ∈ calls, AlignsWell call := by
  induction calls generalizing s with
  | nil => exact iff_of_true trivial nofun
  | cons call rest ih =>
      rw [List.forall_mem_cons]
      rcases hset : s.set call.1 call.2 with ⟨e | _, s'⟩
      · rw [keepsRefused_of_error hset, set_refused_of_power hs hset]
        refine and_congr_right fun hwell => ih ?_
        rw [(set_refused_of_power hs hset).mpr hwell]
        exact hs
      · obtain ⟨hpower, f, v, hkey, hread, hget, -⟩ := set_accepted hset
        have hwell : AlignsWell call := by
          intro n hf hn
          obtain rfl := Option.some.inj (hf.symm.trans hkey)
          obtain rfl : n = v := Option.some.inj (hn.symm.trans hread)
          exact hget ▸ hpower
        rw [keepsRefused_of_ok hset, ih hpower]
        exact ⟨fun h => ⟨hwell, h⟩, fun h => h.2⟩

end Settings

open Settings in
/-- **A refused override changes nothing** exactly if its text cannot be read for its key, or stands
    for the value that is held; an accepted one changes the field of its key and no other. So a
    sequence amounts to its accepted overrides, wherever it is cut off, exactly if every refused
    one changes nothing; and from an alignment that is a power of two, exactly if none asks for an
    alignment that is not. -/
theorem refused_override_keeps_iff (s : Settings) :
    (∀ key value e s', s.set key value = (.error e, s') →
      (s' = s ↔ ∀ f v, Setting.ofKey? key = some f → f.read? value = some v → s.get f = v)) ∧
    (∀ key value s', s.set key value = (.ok (), s') →
      ∃ f v, Setting.ofKey? key = some f ∧ f.read? value = some v ∧ s'.get f = v ∧
        ∀ g, g ≠ f → s'.get g = s.get g) ∧
    (∀ calls, (∀ p, p <+: calls → s.setAll p = s.setAll (s.accepted p)) ↔
      s.KeepsRefused calls) ∧
    (Size.isPowerOfTwo s.constantsAlignment → ∀ calls,
      (∀ p, p <+: calls → s.setAll p = s.setAll (s.accepted p)) ↔
        ∀ call ∈ calls, AlignsWell call) := by
  refine ⟨fun key value e s' h => set_refused h, fun key value s' h => (set_accepted h).2,
    setAll_accepted_iff s, fun hs calls => ?_⟩
  exact (setAll_accepted_iff s calls).trans (keepsRefused_iff hs calls)

/-- Asking for an alignment of 12 is refused, and the constants are aligned to 12 from then on. -/
theorem refused_override_stays :
    ¬ ∀ (s : Settings) (key value : String) (e : SettingsError) (s' : Settings),
      s.set key value = (.error e, s') → s' = s := by
  intro hkeeps
  have hset : ({} : Settings).set "constants_alignment" "12" =
      (.error (.invalidValue "constants_alignment" "12"), { constantsAlignment := 12 }) := by
    rfl
  have hkept : ({ constantsAlignment := 12 } : Settings) = {} := hkeeps _ _ _ _ _ hset
  exact absurd hkept (by decide)

end ManagedCode
