import Mathlib
import Armv4T.Proofs.Exec.Made
import Armv4T.Proofs.Registers.Status
import Armv4T.Proofs.Step.Jump

/-!
# Writing a status word under a mask

An instruction that writes a status word names the fields that it writes: the flags, the control
byte, or both. Of the current status word it can change the condition flags, and in privileged modes
the interrupt masks and the mode (`Arm.permitted`). Writing the flags and entering the mode are two
changes of the register file, made one after the other; together they take exactly the permitted
bits from the value and leave the rest of the status word (`Registers.statusMerged_of_unprivileged`,
`Registers.statusMerged_of_privileged`). Where the mode does not exist nothing is written, since it
is looked up ahead of both (`Arm.writeCurrent_of_unnamed`).

The bits of the status word are compared through the parts that it is packed from, as when it is
loaded (`Registers.packStatus_eq_and`).
-/

namespace Armv4T

/-- All modes but User and System have a saved status word. -/
lemma Mode.hasSpsr_iff (m : Mode) : m.hasSpsr = true ↔ ¬(m = .user ∨ m = .system) := by
  cases m <;> decide

/-! ### Words under a mask -/

namespace Word

/-- Under a mask, each bit is taken from the one word or from the other. -/
lemma bit_mergeStatus (old value mask : Word) {n : Word} (h : n.toNat < 32) :
    (Arm.mergeStatus old value mask).bit n =
      if mask.bit n then value.bit n else old.bit n := by
  rw [Arm.mergeStatus, bit_or _ _ h, bit_and _ _ h, bit_and _ _ h, bit_not _ h]
  cases mask.bit n <;> simp

/-- What is taken from two words under a mask, under another mask. -/
lemma mergeStatus_and (old value mask m : Word) :
    Arm.mergeStatus old value mask &&& m =
      (old &&& (~~~mask &&& m)) ||| (value &&& (mask &&& m)) := by
  rw [Arm.mergeStatus, or_and_distrib, UInt32.and_assoc, UInt32.and_assoc]

end Word

namespace Arm

open Registers (conditionMask controlMask)

/-- The bits of the current status word that a write of the control byte and of the flags may
change in a mode. -/
def permitted (mode : Mode) (control flags : Bool) : Word :=
  (if flags then conditionMask else 0) |||
    (if control && mode != .user then controlMask else 0)

/-- The mode that a write of the control byte names: bit 4 of the mode field is always set. -/
def namedMode (value : Word) : Word := (value &&& 0xF) ||| 0x10

/-- Each part of the status word is permitted as a whole, or not at all. -/
lemma bit_permitted (mode : Mode) (control flags : Bool) :
    let w := permitted mode control flags
    let privileged := control && mode != .user
    w.bit 31 = flags ∧ w.bit 30 = flags ∧ w.bit 29 = flags ∧ w.bit 28 = flags ∧
      w.bit 7 = privileged ∧ w.bit 6 = privileged ∧ w.bit 5 = false := by
  cases mode <;> cases control <;> cases flags <;> decide

/-- Nothing is permitted that stands for nothing. -/
lemma permitted_and_eq_self (mode : Mode) (control flags : Bool) :
    permitted mode control flags &&& 0xF00000FF = permitted mode control flags := by
  cases mode <;> cases control <;> cases flags <;> decide

/-- The masks and the mode are permitted where the control byte is written in a privileged mode. -/
lemma permitted_and_controlMask (mode : Mode) (control flags : Bool) :
    permitted mode control flags &&& controlMask = controlMask ↔
      control = true ∧ mode ≠ .user := by
  cases mode <;> cases control <;> cases flags <;> decide

lemma statusMask_and_conditionMask (control flags : Bool) :
    statusMask control flags &&& conditionMask ≠ 0 ↔ flags = true := by
  cases control <;> cases flags <;> decide

lemma statusMask_and_controlMask (control flags : Bool) :
    statusMask control flags &&& controlMask ≠ 0 ↔ control = true := by
  cases control <;> cases flags <;> decide

end Arm

/-! ### The register file -/

namespace Registers

/-- `s` is `r` with the bits `w` of the status word taken from `v`: the instruction set, the program
counter and every copy of a register stay. -/
structure StatusMerged (r s : Registers) (v w : Word) : Prop where
  status : s.packStatus = Arm.mergeStatus r.packStatus v w
  set : s.set = r.set
  pc : s.read .pc = r.read .pc
  content : s.content = r.content

variable (r : Registers) (v : Word)

/-- The condition flags taken from a word. -/
def withConditions : Registers :=
  { r with
    flags := { r.flags with n := v.bit 31, z := v.bit 30, c := v.bit 29, v := v.bit 28 } }

/-- The interrupt masks taken from a word. -/
def withMasks : Registers := { r with flags := { r.flags with i := v.bit 7, f := v.bit 6 } }

/-- What a write of the status word makes of a register file: the flags first, if they are selected,
and then the mode with its masks, if there is one to enter. -/
def written (flags : Bool) (mode? : Option Mode) : Registers :=
  let r := if flags then r.withConditions v else r
  match mode? with
  | none => r
  | some mode => (r.switchMode mode).withMasks v

lemma packStatus_and_eq_self : r.packStatus &&& 0xF00000FF = r.packStatus :=
  (packStatus_eq_and r.packStatus_and.symm r.ofBit_packStatus.symm
    r.flagsOfStatus_packStatus.symm).symm

variable {r v} {mode : Mode} {control flags : Bool}

/-- A register file has the merged status word if its mode, its set and its flags are those that
the merged word names. -/
lemma packStatus_eq_mergeStatus {s : Registers} {w : Word} (hw : w &&& 0xF00000FF = w)
    (hmode : s.mode.bits = Arm.mergeStatus r.packStatus v w &&& 0x1F)
    (hset : s.set = .ofBit ((Arm.mergeStatus r.packStatus v w).bit 5))
    (hflags : s.flags = flagsOfStatus (Arm.mergeStatus r.packStatus v w)) :
    s.packStatus = Arm.mergeStatus r.packStatus v w := by
  rw [packStatus_eq_and hmode hset hflags, Word.mergeStatus_and, hw, UInt32.and_comm (~~~w),
    ← UInt32.and_assoc, packStatus_and_eq_self, Arm.mergeStatus]

/-- The flags of a merged status word. -/
lemma flagsOfStatus_mergeStatus (mode : Mode) (control flags : Bool) :
    flagsOfStatus (Arm.mergeStatus r.packStatus v (Arm.permitted mode control flags)) =
      { n := if flags then v.bit 31 else r.flags.n
        z := if flags then v.bit 30 else r.flags.z
        c := if flags then v.bit 29 else r.flags.c
        v := if flags then v.bit 28 else r.flags.v
        i := if control && mode != .user then v.bit 7 else r.flags.i
        f := if control && mode != .user then v.bit 6 else r.flags.f } := by
  obtain ⟨h31, h30, h29, h28, h7, h6, -⟩ := Arm.bit_permitted mode control flags
  obtain ⟨hn, hz, hc, hv, hi, hf⟩ := Flags.mk.inj r.flagsOfStatus_packStatus
  simp only [flagsOfStatus, Word.bit_mergeStatus _ _ _ (by decide : (31 : Word).toNat < 32),
    Word.bit_mergeStatus _ _ _ (by decide : (30 : Word).toNat < 32),
    Word.bit_mergeStatus _ _ _ (by decide : (29 : Word).toNat < 32),
    Word.bit_mergeStatus _ _ _ (by decide : (28 : Word).toNat < 32),
    Word.bit_mergeStatus _ _ _ (by decide : (7 : Word).toNat < 32),
    Word.bit_mergeStatus _ _ _ (by decide : (6 : Word).toNat < 32), h31, h30, h29, h28, h7, h6,
    hn, hz, hc, hv, hi, hf]

/-- The set of a merged status word is the old one. -/
lemma ofBit_mergeStatus (mode : Mode) (control flags : Bool) :
    InstrSet.ofBit ((Arm.mergeStatus r.packStatus v (Arm.permitted mode control flags)).bit 5) =
      r.set := by
  obtain ⟨-, -, -, -, -, -, h5⟩ := Arm.bit_permitted mode control flags
  rw [Word.bit_mergeStatus _ _ _ (by decide), h5, if_neg Bool.false_ne_true, ofBit_packStatus]

/-- Without the control byte, the mode of a merged status word is the old one. -/
lemma mode_mergeStatus_of_unprivileged (h : (control && mode != .user) = false) :
    Arm.mergeStatus r.packStatus v (Arm.permitted mode control flags) &&& 0x1F = r.mode.bits := by
  have hfield : Arm.permitted mode control flags &&& 0x1F = 0 ∧
      ~~~Arm.permitted mode control flags &&& 0x1F = 0x1F := by
    rw [Arm.permitted, h]
    cases flags <;> decide
  rw [Word.mergeStatus_and, hfield.1, hfield.2, UInt32.and_zero, UInt32.or_zero, packStatus_and]

/-- With the control byte, the mode of a merged status word is the one that the value names. -/
lemma mode_mergeStatus_of_privileged (h : (control && mode != .user) = true) :
    Arm.mergeStatus r.packStatus v (Arm.permitted mode control flags) &&& 0x1F =
      Arm.namedMode v := by
  have hfield : Arm.permitted mode control flags &&& 0x1F = 0xF ∧
      ~~~Arm.permitted mode control flags &&& 0x1F = 0x10 := by
    rw [Arm.permitted, h]
    cases flags <;> decide
  have hfour : r.packStatus &&& 0x10 = 0x10 :=
    calc r.packStatus &&& 0x10 = (r.packStatus &&& 0x1F) &&& 0x10 := by
          rw [UInt32.and_assoc]
          rfl
      _ = 0x10 := by
          rw [packStatus_and]
          cases r.mode <;> rfl
  rw [Word.mergeStatus_and, hfield.1, hfield.2, hfour, UInt32.or_comm, Arm.namedMode]

/-! ### Both parts written -/

variable (r v)

/-- Where only the flags may be written, they are what changes. -/
lemma statusMerged_of_unprivileged (flags : Bool) (h : (control && r.mode != .user) = false) :
    r.StatusMerged (r.written v flags none) v (Arm.permitted r.mode control flags) := by
  have hsame : (r.written v flags none).mode = r.mode ∧ (r.written v flags none).set = r.set ∧
      (r.written v flags none).read .pc = r.read .pc ∧
      (r.written v flags none).content = r.content := by
    cases flags <;> exact ⟨rfl, rfl, rfl, rfl⟩
  obtain ⟨hmode, hset, hpc, hcontent⟩ := hsame
  refine ⟨packStatus_eq_mergeStatus (Arm.permitted_and_eq_self _ _ _) ?_ ?_ ?_, hset, hpc,
    hcontent⟩
  · rw [mode_mergeStatus_of_unprivileged h, hmode]
  · rw [ofBit_mergeStatus, hset]
  · rw [flagsOfStatus_mergeStatus, h]
    cases flags <;> rfl

/-- Where the control byte may be written, the mode that the value names is entered. -/
lemma statusMerged_of_privileged {m : Mode} (flags : Bool) (h : (control && r.mode != .user) = true)
    (hm : m.bits = Arm.namedMode v) :
    r.StatusMerged (r.written v flags (some m)) v (Arm.permitted r.mode control flags) := by
  let flagged := if flags then r.withConditions v else r
  have hsame : flagged.set = r.set ∧ flagged.read .pc = r.read .pc ∧
      flagged.content = r.content := by
    cases flags <;> exact ⟨rfl, rfl, rfl⟩
  obtain ⟨hset, hpc, hcontent⟩ := hsame
  obtain ⟨hpc', hflags', hset'⟩ := flagged.switchMode_unbanked m
  have hwritten : r.written v flags (some m) = (flagged.switchMode m).withMasks v := rfl
  have hmode : (r.written v flags (some m)).mode = m := flagged.mode_switchMode m
  replace hset : (r.written v flags (some m)).set = r.set := hset'.trans hset
  refine ⟨packStatus_eq_mergeStatus (Arm.permitted_and_eq_self _ _ _) ?_ ?_ ?_, hset,
    hpc'.trans hpc, ?_⟩
  · rw [mode_mergeStatus_of_privileged h, hmode, hm]
  · rw [ofBit_mergeStatus, hset]
  · rw [flagsOfStatus_mergeStatus, h, hwritten, withMasks, hflags']
    cases flags <;> rfl
  · rw [← hcontent, ← flagged.content_switchMode m]
    rfl

end Registers

/-! ### The instruction -/

namespace Arm

open Exec (bind_of_ok bind_of_error)

/-- The mode that is looked up for a write of the current status word, ahead of it. -/
lemma ofBits_namedMode_of_bits {value : Word} {m : Mode} (h : m.bits = namedMode value) :
    Mode.ofBits (namedMode value) = .ok m := by
  rw [Mode.ofBits_eq_ok_iff, ← h]
  cases m <;> rfl

lemma namedMode_and (value : Word) : namedMode value &&& 0x1F = namedMode value := by
  rw [namedMode, Word.or_and_distrib, UInt32.and_assoc]
  rfl

lemma ofBits_namedMode_of_unnamed {value : Word} (h : ∀ m : Mode, m.bits ≠ namedMode value) :
    Mode.ofBits (namedMode value) = .error (.invalidMode (namedMode value)) := by
  have hnone := Mode.ofBits_of_unnamed (w := namedMode value) (by rwa [namedMode_and])
  rwa [namedMode_and] at hnone

variable {control flags : Bool} {value : Word} {r : Registers}

lemma writeCurrent_of_unprivileged (h : ¬(control = true ∧ r.mode ≠ .user)) :
    writeCurrent (statusMask control flags) value r = .ok (r.written value flags none) := by
  have hcontrol : ¬(r.mode ≠ .user ∧ statusMask control flags &&& Registers.controlMask ≠ 0) := by
    rw [statusMask_and_controlMask, and_comm]
    exact h
  unfold writeCurrent
  rw [if_neg hcontrol]
  simp only [statusMask_and_conditionMask]
  rfl

lemma writeCurrent_of_named {m : Mode} (hr : r.mode ≠ .user) (hm : m.bits = namedMode value) :
    writeCurrent (statusMask true flags) value r = .ok (r.written value flags (some m)) := by
  have hcontrol : r.mode ≠ .user ∧ statusMask true flags &&& Registers.controlMask ≠ 0 :=
    ⟨hr, (statusMask_and_controlMask _ _).mpr rfl⟩
  have hlookup := ofBits_namedMode_of_bits hm
  rw [namedMode] at hlookup
  unfold writeCurrent
  rw [if_pos hcontrol, hlookup]
  simp only [statusMask_and_conditionMask]
  rfl

lemma writeCurrent_of_unnamed (hr : r.mode ≠ .user) (hm : ∀ m : Mode, m.bits ≠ namedMode value) :
    writeCurrent (statusMask true flags) value r = .error (.invalidMode (namedMode value)) := by
  have hcontrol : r.mode ≠ .user ∧ statusMask true flags &&& Registers.controlMask ≠ 0 :=
    ⟨hr, (statusMask_and_controlMask _ _).mpr rfl⟩
  have hlookup := ofBits_namedMode_of_unnamed hm
  unfold writeCurrent
  rw [if_pos hcontrol]
  rw [namedMode] at hlookup ⊢
  rw [hlookup]
  rfl

/-! ### Decoded fields -/

/-- An operation that, if it writes a status word, writes the fields that the opcode selects. -/
def Op.Selects (w : Word) (op : Op) : Prop :=
  ∀ saved mask source, op = .writeStatus saved mask source →
    mask = statusMask (w.bit 16) (w.bit 19)

lemma Op.Selects.ite {w : Word} {p : Prop} [Decidable p] {op op' : Op} (h : op.Selects w)
    (h' : op'.Selects w) : (if p then op else op').Selects w := by
  split
  · exact h
  · exact h'

/-- The fields that are written stand at bits 16 and 19 of the opcode. -/
lemma selects_decodeOp (w : Word) : (decodeOp w).Selects w := by
  have hstatus : (decodeStatus w).Selects w := by
    refine .ite (fun saved mask source h => ?_) (.ite nofun nofun)
    exact (Op.writeStatus.inj h).2.1.symm
  have hmultiply : (decodeMultiply w).Selects w := .ite nofun (.ite nofun nofun)
  have htransfer : (decodeTransfer w).Selects w := .ite nofun (.ite nofun nofun)
  have hhalf : (decodeHalf w).Selects w := by
    refine .ite nofun ?_
    split <;> exact nofun
  have hblock : (decodeBlock w).Selects w := .ite nofun nofun
  unfold decodeOp
  refine .ite nofun (.ite (.ite hstatus nofun) (.ite nofun ?_))
  split
  · exact .ite hmultiply hhalf
  · exact htransfer
  · exact htransfer
  · exact hblock
  · exact nofun
  · exact .ite nofun nofun
  · exact nofun

/-! ### The instruction, executed -/

variable {opcode : Word} {cond : Condition} {saved : Bool} {mask : Word} {source : StatusSource}
  {b : Board}

/-- The outcomes of an action that fails exactly under a condition. -/
lemma outcome_cases {x : EStateM.Result Fault Board Unit} {p : Prop} {P : Board → Prop} {e : Fault}
    (hfails : p → x = .error e b) (hfinishes : ¬p → ∃ b', x = .ok () b' ∧ P b') :
    ((∃ fault b', x = .error fault b') ↔ p) ∧
    (∀ fault b', x = .error fault b' → fault = e ∧ b' = b) ∧ ∀ b', x = .ok () b' → P b' := by
  by_cases hp : p
  · obtain rfl := hfails hp
    refine ⟨iff_of_true ⟨e, b, rfl⟩ hp, fun fault b' h => ?_, fun b' h => nomatch h⟩
    obtain ⟨rfl, rfl⟩ := EStateM.Result.error.inj h
    exact ⟨rfl, rfl⟩
  · obtain ⟨b₁, rfl, hP⟩ := hfinishes hp
    refine ⟨iff_of_false (fun ⟨fault, b', h⟩ => nomatch h) hp, fun fault b' h => (nomatch h),
      fun b' h => ?_⟩
    obtain ⟨-, rfl⟩ := EStateM.Result.ok.inj h
    exact hP

/-- Where the condition holds, the action is taken with the registers as they are. -/
lemma afterFetch_of_passes (hcond : cond.passes b.core.regs.flags = true) (act : Exec Unit) :
    ∃ b₁, b₁.core.regs = b.core.regs ∧ afterFetch cond act b = act b₁ := by
  let b₀ := b.mapCore (·.charge (b.bus.waitPrefetch .arm b.core.pc))
  have hpassed : (b₀.core.testCondition cond).1 = true :=
    (b₀.core.testCondition_passed cond).trans hcond
  refine ⟨b₀.mapCore fun c => (c.testCondition cond).2, b₀.core.testCondition_regs cond, ?_⟩
  unfold afterFetch
  rw [bind_of_ok (Exec.prefetch_apply .arm b), bind_of_ok (Exec.testCondition_apply cond b₀),
    if_pos hpassed]

lemma sourceValue_of_regs {b₁ : Board} (h : b₁.core.regs = b.core.regs) (source : StatusSource) :
    sourceValue source b₁.core = sourceValue source b.core := by
  cases source with
  | register rm => exact congrArg (Registers.read · rm) h
  | immediate value => rfl

lemma writeStatus_current_apply (mask : Word) (source : StatusSource) (b : Board) :
    writeStatus false mask source b = putCurrent mask (sourceValue source b.core) b := by
  rw [writeStatus_eq]
  rfl

/-- Nothing is written where the control byte may be written and the value names no mode. -/
lemma writeStatus_current_of_unnamed (source : StatusSource) (control flags : Bool)
    (h : permitted b.core.regs.mode control flags &&& Registers.controlMask = Registers.controlMask)
    (hnamed : ∀ m : Mode, m.bits ≠ namedMode (sourceValue source b.core)) :
    writeStatus false (statusMask control flags) source b =
      .error (.invalidMode (namedMode (sourceValue source b.core))) b := by
  obtain ⟨rfl, hmode⟩ := (permitted_and_controlMask _ _ _).mp h
  rw [writeStatus_current_apply, putCurrent_apply, writeCurrent_of_unnamed hmode hnamed]

/-- In all other cases the permitted bits are merged. -/
lemma writeStatus_current_of_named (source : StatusSource) (control flags : Bool)
    (h : ¬(permitted b.core.regs.mode control flags &&& Registers.controlMask =
      Registers.controlMask ∧ ∀ m : Mode, m.bits ≠ namedMode (sourceValue source b.core))) :
    ∃ b', writeStatus false (statusMask control flags) source b = .ok () b' ∧
      b.core.regs.StatusMerged b'.core.regs (sourceValue source b.core)
        (permitted b.core.regs.mode control flags) := by
  rw [permitted_and_controlMask] at h
  rw [writeStatus_current_apply, putCurrent_apply]
  by_cases hprivileged : control = true ∧ b.core.regs.mode ≠ .user
  · obtain ⟨rfl, hmode⟩ := hprivileged
    have hsome : ∃ m : Mode, m.bits = namedMode (sourceValue source b.core) := by
      by_contra hnone
      exact h ⟨⟨rfl, hmode⟩, fun m hm => hnone ⟨m, hm⟩⟩
    obtain ⟨m, hm⟩ := hsome
    rw [writeCurrent_of_named hmode hm]
    exact ⟨_, rfl, Registers.statusMerged_of_privileged _ _ flags (by simpa using hmode) hm⟩
  · rw [writeCurrent_of_unprivileged hprivileged]
    exact ⟨_, rfl, Registers.statusMerged_of_unprivileged _ _ flags (by simpa using hprivileged)⟩

/-- Of the saved status word, the selected bits are merged that stand for something. -/
lemma writeStatus_saved (mask : Word) (source : StatusSource) (b : Board) :
    ∃ b', writeStatus true mask source b = .ok () b' ∧
      b'.core.regs =
        if b.core.regs.mode = .user ∨ b.core.regs.mode = .system then b.core.regs
        else { b.core.regs with
          spsr := mergeStatus b.core.regs.spsr (sourceValue source b.core)
            (mask &&& 0xF00000EF) } := by
  refine ⟨_, congrFun (writeStatus_eq true mask source) b, ?_⟩
  show writeSaved mask (sourceValue source b.core) b.core.regs = _
  unfold writeSaved
  by_cases hmode : b.core.regs.mode = .user ∨ b.core.regs.mode = .system
  · rw [if_pos hmode, if_neg ((Mode.hasSpsr_iff _).not_left.mpr hmode)]
  · rw [if_neg hmode, if_pos ((Mode.hasSpsr_iff _).mpr hmode)]
    rfl

/-- Writing a status word takes exactly the permitted bits, or nothing. The write of the current
status word fails where the control byte may be written and the value names no mode, and then the
register file is as it was; otherwise the permitted bits come from the value, and the rest of the
status word, the program counter and every copy of a register stay. The write of the saved status
word never fails: it takes the selected bits that stand for something, in modes that have one. -/
theorem exec_writeStatus_merges (hdecode : decode opcode = ⟨cond, .writeStatus saved mask source⟩)
    (hcond : cond.passes b.core.regs.flags = true) (address : Word) :
    let r := b.core.regs
    let v := sourceValue source b.core
    let w := permitted r.mode (opcode.bit 16) (opcode.bit 19)
    (saved = false →
      ((∃ fault b', exec (decode opcode) address b = .error fault b') ↔
        w &&& 0xCF = 0xCF ∧ ∀ m : Mode, m.bits ≠ namedMode v) ∧
      (∀ fault b', exec (decode opcode) address b = .error fault b' →
        fault = .invalidMode (namedMode v) ∧ b'.core.regs = r) ∧
      ∀ b', exec (decode opcode) address b = .ok () b' → r.StatusMerged b'.core.regs v w) ∧
    (saved = true → ∃ b', exec (decode opcode) address b = .ok () b' ∧
      b'.core.regs = if r.mode = .user ∨ r.mode = .system then r
        else { r with
          spsr := mergeStatus r.spsr v
            (statusMask (opcode.bit 16) (opcode.bit 19) &&& 0xF00000EF) }) := by
  intro r v w
  obtain rfl : mask = statusMask (opcode.bit 16) (opcode.bit 19) :=
    selects_decodeOp opcode saved mask source (congrArg Instr.op hdecode)
  obtain ⟨b₁, hregs, hexec⟩ := afterFetch_of_passes hcond
    (writeStatus saved (statusMask (opcode.bit 16) (opcode.bit 19)) source)
  have hvalue : sourceValue source b₁.core = v := sourceValue_of_regs hregs source
  have hwrite : exec (decode opcode) address b =
      writeStatus saved (statusMask (opcode.bit 16) (opcode.bit 19)) source b₁ := by
    rw [hdecode]
    exact hexec
  rw [hwrite]
  constructor
  · rintro rfl
    have hfails := writeStatus_current_of_unnamed (b := b₁) source (opcode.bit 16) (opcode.bit 19)
    have hmerges := writeStatus_current_of_named (b := b₁) source (opcode.bit 16) (opcode.bit 19)
    rw [hregs, hvalue] at hfails hmerges
    obtain ⟨hiff, herror, hok⟩ := outcome_cases (fun h => hfails h.1 h.2) hmerges
    refine ⟨hiff, fun fault b' hfault => ?_, hok⟩
    obtain ⟨rfl, rfl⟩ := herror fault b' hfault
    exact ⟨rfl, hregs⟩
  · rintro rfl
    have hsaved := writeStatus_saved (statusMask (opcode.bit 16) (opcode.bit 19)) source b₁
    rw [hregs, hvalue] at hsaved
    exact hsaved

/-- A board in System mode whose first register names FIQ mode, with all condition flags and both
interrupt masks. -/
def towardsFiq : Board := { core := { regs := Registers.write {} .r0 0xF00000D1 } }

/-- `MSR CPSR_fc, r0` enters FIQ mode there. -/
theorem exec_writeStatus_merges_fiq :
    decode 0xE129F000 = ⟨.al, .writeStatus false (statusMask true true) (.register .r0)⟩ ∧
    Condition.al.passes towardsFiq.core.regs.flags = true ∧
    ∃ b', exec (decode 0xE129F000) 0 towardsFiq = .ok () b' ∧
      towardsFiq.core.regs.StatusMerged b'.core.regs 0xF00000D1 0xF00000CF := by
  have hdecode : decode 0xE129F000 =
      ⟨.al, .writeStatus false (statusMask true true) (.register .r0)⟩ := by rfl
  have hcond : Condition.al.passes towardsFiq.core.regs.flags = true := rfl
  refine ⟨hdecode, hcond, ?_⟩
  obtain ⟨b', hok⟩ : ∃ b', exec (decode 0xE129F000) 0 towardsFiq = .ok () b' := ⟨_, rfl⟩
  exact ⟨b', hok, ((exec_writeStatus_merges hdecode hcond 0).1 rfl).2.2 b' hok⟩

end Arm

end Armv4T
