import ManagedCode.Proofs.Announcing

/-! # Calls behind the load of their target

    Where a call is too far for a relative target, the target is loaded into a register and the
    register is called.  The site stands at the load.  Of the call behind it only two bytes are
    looked at, the extension byte and the opcode; the third says whether these are a call at all,
    where it takes its target from and how long it is.

* **`Register.callBytes`** — the call of a register, in three bytes.
* **`callsThrough_iff`** — the bytes that decode to a call of a register are these.
* **`loaded_call_iff`** — what is known of the bytes behind a load, and when they are its call. -/

namespace ManagedCode

-- ── Loads ───────────────────────────────────────────────────────────────────────

namespace Form

/-- Whether a load names one of the eight registers that an opcode has room for. -/
def loadsLow (f : Form) : Bool :=
  match f.role with
  | .load register => register < 8
  | _ => true

theorem all_loadsLow_ofOpcode (opcode : Nat) : (ofOpcode opcode).all loadsLow := by
  have harithmetic : (arithmetic opcode).all loadsLow := by
    rw [arithmetic]
    split <;> rfl
  rw [ofOpcode]
  refine all_ite harithmetic ?_
  repeat' apply all_ite
  all_goals first
    | rfl
    | exact decide_eq_true (Nat.mod_lt opcode (Nat.succ_pos 7))

theorem all_loadsLow_ofEscaped (opcode : Nat) : (ofEscaped opcode).all loadsLow := by
  rw [ofEscaped]
  repeat' apply all_ite
  all_goals rfl

end Form

namespace Head

theorem ofForm?_load {m : Modifiers} {size : Nat} {f : Form} {rest : List UInt8} {h : Head}
    (hf : f.loadsLow) (hh : ofForm? m size f rest = some h) (hshape : h.shape = .movLiteral) :
    ∃ n < 16, h.register = registerOf n := by
  obtain ⟨addressed, immediate, role⟩ := f
  rw [ofForm?] at hh
  split at hh
  · obtain ⟨a, -, rfl⟩ := Option.map_eq_some_iff.mp hh
    rw [Head.addressed] at hshape
    dsimp only at hshape
    repeat' split at hshape
    all_goals exact nomatch hshape
  · obtain rfl := Option.some.inj hh
    simp only [Head.unaddressed] at hshape ⊢
    cases role with
    | load register =>
        have hlow : register < 8 := of_decide_eq_true hf
        have hbase : m.registerBase ≤ 8 := by
          rw [Modifiers.registerBase]
          split <;> omega
        dsimp only at hshape ⊢
        split at hshape
        · next hwide =>
            rw [if_pos hwide]
            exact ⟨m.registerBase + register, by omega, rfl⟩
        · exact nomatch hshape
    | _ => exact nomatch hshape

/-- A load of a wide literal goes to a general register. -/
theorem scan_load {m : Modifiers} {size : Nat} {code : List UInt8} {h : Head}
    (hh : scan m size code = some h) (hshape : h.shape = .movLiteral) :
    ∃ n < 16, h.register = registerOf n := by
  induction code generalizing m size with
  | nil => exact nomatch hh
  | cons byte rest ih =>
      rw [scan.eq_def] at hh
      cases hm : m.extend? byte.toNat with
      | some m₁ =>
          simp only [hm] at hh
          exact ih hh
      | none =>
          simp only [hm] at hh
          split at hh
          · cases rest with
            | nil => exact nomatch hh
            | cons escaped rest =>
                obtain ⟨f, hf, hh⟩ := Option.bind_eq_some_iff.mp hh
                have hlow := Form.all_loadsLow_ofEscaped escaped.toNat
                rw [hf] at hlow
                exact ofForm?_load hlow hh hshape
          · obtain ⟨f, hf, hh⟩ := Option.bind_eq_some_iff.mp hh
            have hlow := Form.all_loadsLow_ofOpcode byte.toNat
            rw [hf] at hlow
            exact ofForm?_load hlow hh hshape

end Head

theorem Instruction.at?_load {code : List UInt8} {offset : Nat} {i : Instruction}
    (h : at? code offset = some i) (hshape : i.shape = .movLiteral) :
    ∃ n < 16, i.register = some ⟨UInt8.ofNat n⟩ := by
  obtain ⟨head, hhead, rfl, -, -⟩ := at?_some h
  exact Head.scan_load hhead hshape

-- ── Calls of a register ─────────────────────────────────────────────────────────

/-- The call of a general register: extension byte, opcode and addressing byte. -/
def Register.callBytes (r : Register) : List UInt8 :=
  [0x40 + r.number / 8, 0xff, 0xd0 + r.number % 8]

/-- What stands at an offset of the code is a call of the register, three bytes long. -/
def Instruction.CallsThrough (code : List UInt8) (offset : Nat) (r : Register) : Prop :=
  ∃ call, at? code offset = some call ∧ call.shape = .callRegister ∧
    call.length = registerCallSize ∧ call.register = some r

/-- Only an addressing byte of the last quarter names a register. -/
theorem Addressing.ofBytes?_direct {first : UInt8} {rest : List UInt8} {a : Addressing}
    (h : Addressing.ofBytes? (first :: rest) = some a) :
    (first.toNat / 64 = 3 ∧ a = ⟨1, first.toNat / 8 % 8, some (first.toNat % 8), 0, false⟩) ∨
      (first.toNat / 64 ≠ 3 ∧ a.direct = none) := by
  simp only [ofBytes?] at h
  split at h
  · next hmode => exact Or.inl ⟨hmode, (Option.some.inj h).symm⟩
  · next hmode =>
      refine Or.inr ⟨hmode, ?_⟩
      repeat' split at h
      all_goals cases h <;> rfl

/-- What is read behind one of the two extension bytes and the opcode of the group. -/
def Head.indirect (extension : UInt8) (a : Addressing) : Head :=
  .addressed { extension := extension.toNat % 16 } 2 ⟨true, .absent, .indirect⟩ a

theorem Head.ofBytes?_indirect {extension member : UInt8} {rest : List UInt8}
    (hextension : extension = 0x40 ∨ extension = 0x41) :
    Head.ofBytes? (extension :: 0xff :: member :: rest) =
      (Addressing.ofBytes? (member :: rest)).map (Head.indirect extension) := by
  rcases hextension with rfl | rfl <;> rfl

/-- A head of the group is a call of a register only if its operand is a register, and the third
    member of the group is the call. -/
theorem Head.indirect_call {extension : UInt8} {a : Addressing}
    (hextension : extension = 0x40 ∨ extension = 0x41)
    (hshape : (Head.indirect extension a).shape = .callRegister) :
    a.member = 2 ∧ ∃ low, a.direct = some low ∧ (Head.indirect extension a).register =
      registerOf (8 * (extension.toNat % 2) + low) := by
  have hbase : ({ extension := extension.toNat % 16 } : Modifiers).registerBase =
      8 * (extension.toNat % 2) := by
    rcases hextension with rfl | rfl <;> rfl
  simp only [Head.indirect, Head.addressed] at hshape ⊢
  cases hdirect : a.direct with
  | none =>
      rw [hdirect] at hshape
      exact nomatch hshape
  | some low =>
      rw [hdirect] at hshape
      dsimp only at hshape ⊢
      by_cases hmember : a.member = 2
      · refine ⟨hmember, low, rfl, ?_⟩
        rw [if_pos hmember, hbase]
      · rw [if_neg hmember] at hshape
        exact nomatch hshape

/-- The three bytes of a call name its register, and the register names them. -/
theorem Register.callBytes_eq_iff {r : Register} (hr : r.number.toNat < 16)
    {extension member : UInt8} (hextension : extension = 0x40 ∨ extension = 0x41) :
    r.callBytes = [extension, 0xff, member] ↔
      member.toNat / 64 = 3 ∧ member.toNat / 8 % 8 = 2 ∧
        r.number.toNat = 8 * (extension.toNat % 2) + member.toNat % 8 := by
  have hmember := member.toNat_lt
  have hbytes : r.callBytes = [extension, 0xff, member] ↔
      0x40 + r.number.toNat / 8 = extension.toNat ∧
        0xd0 + r.number.toNat % 8 = member.toNat := by
    simp only [callBytes, List.cons.injEq, and_true, true_and, ← UInt8.toNat_inj,
      UInt8.toNat_add, UInt8.toNat_div, UInt8.toNat_mod, UInt8.reduceToNat]
    omega
  rw [hbytes]
  rcases hextension with rfl | rfl <;> simp only [UInt8.reduceToNat] <;> omega

/-- **A call of a register** is decoded behind one of the two extension bytes and the opcode exactly
    if the three bytes are those of the call. -/
theorem callsThrough_iff {code : List UInt8} {offset : Nat} {r : Register}
    {extension member : UInt8} {rest : List UInt8} (hr : r.number.toNat < 16)
    (hextension : extension = 0x40 ∨ extension = 0x41)
    (hcode : code.drop offset = extension :: 0xff :: member :: rest) :
    Instruction.CallsThrough code offset r ↔ r.callBytes = [extension, 0xff, member] := by
  have hhead : Head.ofBytes? (code.drop offset) =
      (Addressing.ofBytes? (member :: rest)).map (Head.indirect extension) := by
    rw [hcode]
    exact Head.ofBytes?_indirect hextension
  rw [Register.callBytes_eq_iff hr hextension]
  constructor
  · rintro ⟨call, hcall, hshape, -, hregister⟩
    obtain ⟨head, hfound, rfl, -, -⟩ := Instruction.at?_some hcall
    obtain ⟨a, ha, rfl⟩ := Option.map_eq_some_iff.mp (hhead.symm.trans hfound)
    obtain ⟨hgroup, low, hdirect, hnamed⟩ := Head.indirect_call hextension hshape
    rcases Addressing.ofBytes?_direct ha with ⟨hmode, rfl⟩ | ⟨-, hnone⟩
    · obtain rfl := Option.some.inj hdirect
      refine ⟨hmode, hgroup, ?_⟩
      have hr' : r = ⟨UInt8.ofNat (8 * (extension.toNat % 2) + member.toNat % 8)⟩ :=
        Option.some.inj (hregister.symm.trans hnamed)
      have hlt : 8 * (extension.toNat % 2) + member.toNat % 8 < 256 := by omega
      rw [hr', UInt8.toNat_ofNat_of_lt' hlt]
    · exact nomatch hdirect.symm.trans hnone
  · rintro ⟨hmode, hgroup, hnumber⟩
    have hregister : Head.registerOf r.number.toNat = some r := by
      rw [Head.registerOf, UInt8.ofNat_toNat]
    have hcall : Head.ofBytes? (code.drop offset) =
        some ⟨3, .callRegister, 0, 0, some r, false⟩ := by
      rw [hhead, Addressing.ofBytes?, if_pos hmode, hgroup, ← hregister, hnumber]
      rcases hextension with rfl | rfl <;> rfl
    have hlength : 3 ≤ (code.drop offset).length := by
      rw [hcode]
      exact Nat.le_add_left 3 rest.length
    refine ⟨.ofHead offset ⟨3, .callRegister, 0, 0, some r, false⟩, ?_, rfl, rfl, rfl⟩
    rw [Instruction.at?, Instruction.ofBytes?, hcall, Option.bind_some, if_pos]
    exact ⟨hlength, Nat.le_of_ble_eq_true rfl⟩

-- ── The call behind a load ──────────────────────────────────────────────────────

theorem Blob.read8_ok {b : Blob} {offset : Nat} {value : UInt8}
    (h : b.read8 offset = .ok value) : b.code[offset]? = some value := by
  obtain ⟨n, hn, h⟩ := Checked.bind_ok h
  obtain ⟨_, hcheck, hn⟩ := Checked.bind_ok hn
  obtain ⟨hle, -⟩ := checkAccess_ok hcheck
  obtain rfl := Checked.pure_ok h
  obtain rfl := Checked.pure_ok hn
  rw [List.drop_eq_getElem_cons hle, List.getElem?_eq_getElem hle]
  show some _ = some (UInt8.ofNat (_ + 256 * 0))
  rw [Nat.mul_zero, Nat.add_zero, UInt8.ofNat_toNat]

/-- A call at a load ends three bytes behind it, where an extension byte and the opcode of the
    group are followed by one more byte. -/
theorem callEnd_load {b : Blob} {target : CallTarget} {i : Instruction} {pc : Nat}
    (hshape : i.shape = .movLiteral) (h : callEnd b target i = .ok pc) :
    pc = i.next + registerCallSize ∧ ∃ extension member rest,
      (extension = 0x40 ∨ extension = 0x41) ∧
      b.code.drop i.next = extension :: 0xff :: member :: rest := by
  simp only [callEnd, hshape] at h
  obtain ⟨_, hroom, h⟩ := Checked.bind_ok h
  obtain ⟨extension, hextension, h⟩ := Checked.bind_ok h
  obtain ⟨opcode, hopcode, h⟩ := Checked.bind_ok h
  obtain ⟨_, hbytes, h⟩ := Checked.bind_ok h
  obtain rfl := Checked.pure_ok h
  obtain ⟨hlegal, rfl⟩ := require_ok hbytes
  have hroom : i.next + 3 ≤ b.code.length := require_ok hroom
  refine ⟨rfl, extension, b.code[i.next + 2], b.code.drop (i.next + 3), hlegal, ?_⟩
  have hfirst := Blob.read8_ok hextension
  have hsecond := Blob.read8_ok hopcode
  rw [List.getElem?_eq_getElem (by omega)] at hfirst hsecond
  rw [List.drop_eq_getElem_cons (by omega), List.drop_eq_getElem_cons (by omega),
    List.drop_eq_getElem_cons (by omega), Option.some.inj hfirst, Option.some.inj hsecond]

variable {ctx : SiteContext} {d d' : Draft} {out : Except Overflow Unit} {offset : Int}
  {target : CallTarget} {info : Option DebugInfo} {i : Instruction}

/-- **A call at a load** is recognized by two of the three bytes behind it. They are a call of the
    register that is loaded exactly if the third agrees, and the extension byte with it; in any
    case execution is suspended behind the three bytes. -/
theorem loaded_call_iff (h : (applySite ctx ⟨offset, .call target info⟩).runOn d = .ok (out, d'))
    (hi : d.blob.instructionAt offset.toNat = .ok i) (hshape : i.shape = .movLiteral) :
    ∃ r extension member rest, i.register = some r ∧
      (extension = 0x40 ∨ extension = 0x41) ∧
      d.blob.code.drop i.next = extension :: 0xff :: member :: rest ∧
      (Instruction.CallsThrough d.blob.code i.next r ↔ r.callBytes = [extension, 0xff, member]) ∧
      (out = .ok () → info.isSome →
        ∃ s, d'.log.closed = d.log.closed ++ [s] ∧ s.pc = i.next + registerCallSize) := by
  obtain ⟨hoffset, -, hcall⟩ := applySite_done h
  obtain ⟨j, pc, hj, hpc, hbound⟩ := applyCall_done hcall
  obtain rfl := Except.ok.inj (hi.symm.trans hj)
  obtain ⟨hat, -⟩ := Instruction.decodeAt_ok hi
  obtain ⟨n, hn, hregister⟩ := Instruction.at?_load hat hshape
  obtain ⟨rfl, extension, member, rest, hextension, hcode⟩ := callEnd_load hshape hpc
  have hgeneral : (⟨UInt8.ofNat n⟩ : Register).number.toNat < 16 := by
    have hlt : n < 256 := by omega
    show (UInt8.ofNat n).toNat < 16
    rwa [UInt8.toNat_ofNat_of_lt' hlt]
  refine ⟨⟨UInt8.ofNat n⟩, extension, member, rest, hregister, hextension, hcode,
    callsThrough_iff hgeneral hextension hcode, ?_⟩
  intro hout hinfo
  obtain ⟨info, rfl⟩ := Option.isSome_iff_exists.mp hinfo
  -- a jump to installed code has no suspension point, but it is not made at a load
  have hsuspension : Site.suspension? ⟨offset, .call target (some info)⟩ =
      some (info, info.frame.leafGraphId) := by
    cases target with
    | installedCode id =>
        obtain ⟨_, hjump, -⟩ := Checked.bind_ok ((Patch.runOn_lift_bind ..).symm.trans hbound)
        exact nomatch hshape.symm.trans (require_ok hjump)
    | runtimeStub id => rfl
    | method ref => rfl
  obtain ⟨scopes, t, -, -, hclosed⟩ := applySite_records h
  obtain ⟨pc, hends, hlog⟩ := hclosed hout
  rw [hsuspension] at hends hlog
  have hpc : pc = i.next + registerCallSize := by
    cases hends (Option.some_ne_none _) with
    | call hi' hshape' =>
        obtain rfl := Except.ok.inj (hi.symm.trans hi')
        rw [hshape] at hshape'
        rcases hshape' with hother | hother | hother <;> exact nomatch hother
    | loadedCall hi' _ =>
        obtain rfl := Except.ok.inj (hi.symm.trans hi')
        rfl
  cases scopes with
  | none => exact hlog.elim
  | some scopes => exact ⟨_, hlog.closed, hpc⟩

-- ── A call of a register and a call through memory ──────────────────────────────

/-- The load of a runtime stub into a register, with three bytes behind it and one more. -/
def Blob.sampleLoaded (load call : List UInt8) : Blob where
  layout := ⟨14, 0, 16, 1⟩
  code := load ++ [0, 0, 0, 0, 0, 0, 0, 0] ++ call
  constants := []
  relocations := []
  base := 0x7f000000

/-- A call of a runtime stub that execution may be suspended in. -/
def Site.sampleStubCall : Site :=
  ⟨0, .call (.runtimeStub 0) (some {
    frame := {
      method := ⟨0x1000⟩, bci := 0, values := []
      localCount := 0, stackCount := 0, lockCount := 0 }
    frameBits := ⟨[]⟩ })⟩

/-- `mov r10, imm64` and `call r10`. -/
def Blob.sampleLoadedCall : Blob := .sampleLoaded [0x49, 0xba] [0x41, 0xff, 0xd2, 0xc3]

/-- `mov rax, imm64` and `call [rax + 8]`, which is four bytes long. -/
def Blob.sampleMemoryCall : Blob := .sampleLoaded [0x48, 0xb8] [0x40, 0xff, 0x50, 0x08]

/-- The call of the register is found behind its load, and execution is suspended behind it. -/
theorem loaded_call_iff_register :
    ∃ d' i, (applySite .sample .sampleStubCall).runOn { blob := .sampleLoadedCall } =
        .ok (.ok (), d') ∧
      Blob.sampleLoadedCall.instructionAt 0 = .ok i ∧ i.shape = .movLiteral ∧
      Instruction.CallsThrough Blob.sampleLoadedCall.code i.next ⟨10⟩ ∧
      ∃ s, d'.log.closed = [s] ∧ s.pc = 13 := by
  obtain ⟨d', hrun⟩ : ∃ d', (applySite .sample .sampleStubCall).runOn
      { blob := .sampleLoadedCall } = .ok (.ok (), d') := exists_draft (by decide +kernel)
  obtain ⟨i, hi, hnext, hshape, hregister⟩ : ∃ i,
      Blob.sampleLoadedCall.instructionAt 0 = .ok i ∧ i.next = 10 ∧ i.shape = .movLiteral ∧
        i.register = some ⟨10⟩ := ⟨_, rfl, rfl, rfl, rfl⟩
  obtain ⟨r, extension, member, rest, hr, -, hcode, hcalls, hclosed⟩ :=
    loaded_call_iff hrun hi hshape
  obtain rfl := Option.some.inj (hregister.symm.trans hr)
  rw [hnext] at hcode
  have hcode : [0x41, 0xff, 0xd2, 0xc3] = extension :: 0xff :: member :: rest := hcode
  obtain ⟨rfl, htail⟩ := List.cons.inj hcode
  obtain ⟨rfl, -⟩ := List.cons.inj (List.cons.inj htail).2
  obtain ⟨s, hs, hpc⟩ := hclosed rfl rfl
  rw [hnext] at hpc
  exact ⟨d', i, hrun, hi, hshape, hcalls.mpr rfl, s, hs, hpc⟩

/-- **A call through memory passes for the call of a register**, and execution is suspended in the
    middle of it. -/
theorem memory_call_behind_load :
    ¬ ∀ (ctx : SiteContext) (d d' : Draft) (out : Except Overflow Unit) (offset : Int)
        (target : CallTarget) (info : Option DebugInfo) (i : Instruction),
        (applySite ctx ⟨offset, .call target info⟩).runOn d = .ok (out, d') →
        d.blob.instructionAt offset.toNat = .ok i → i.shape = .movLiteral →
        ∃ r, i.register = some r ∧ Instruction.CallsThrough d.blob.code i.next r := by
  intro h
  obtain ⟨d', hrun⟩ : ∃ d', (applySite .sample .sampleStubCall).runOn
      { blob := .sampleMemoryCall } = .ok (.ok (), d') := exists_draft (by decide +kernel)
  obtain ⟨i, hi, hnext, hshape, hregister⟩ : ∃ i,
      Blob.sampleMemoryCall.instructionAt 0 = .ok i ∧ i.next = 10 ∧ i.shape = .movLiteral ∧
        i.register = some ⟨0⟩ := ⟨_, rfl, rfl, rfl, rfl⟩
  obtain ⟨r, hr, hcalls⟩ := h _ _ _ _ _ _ _ i hrun hi hshape
  obtain rfl := Option.some.inj (hregister.symm.trans hr)
  rw [hnext] at hcalls
  have hbytes := (callsThrough_iff (show (0 : UInt8).toNat < 16 by decide) (Or.inl rfl)
    (show Blob.sampleMemoryCall.code.drop 10 = [0x40, 0xff, 0x50, 0x08] from rfl)).mp hcalls
  exact absurd hbytes (by decide)

end ManagedCode
