import Mathlib
import Armv4T.Proofs.Step.Sequential

/-!
# Instructions whose condition fails

An ARM instruction whose condition fails is skipped: it is charged for the fetch that its execution
would cause, and does nothing else (`Board.Skipped`). Where the condition is tested, before the
charge or after it, makes no difference then. An undefined encoding has a condition as well, but it
is not skipped: it fails without a look at the flags (`Exec.step_of_failed_condition`).
-/

namespace Armv4T

/-- A board after a step that has skipped an ARM instruction. What is remembered of decodings is
not compared, and neither are the journal and the outcome of the last test of a condition. -/
structure Board.Skipped (b b' : Board) : Prop where
  devices : b.SameDevices b'
  regs : b'.core.regs = b.core.regs.write .pc (b.core.pc + 4)
  nextAddress : b'.core.nextAddress = b.core.nextAddress + 4
  cycles : b'.core.cycles =
    b.core.cycles + (b.bus.waitPrefetch .arm (b.core.nextAddress + 8)).toUInt64
  halted : b'.core.halted = b.core.halted

namespace Arm

variable {b : Board}

/-- The board after an instruction whose condition fails: the fetch is charged and the outcome of
the test is recorded. -/
def skip (b : Board) : Board :=
  b.mapCore fun c => { c.charge (b.bus.waitPrefetch .arm c.pc) with conditionPassed := false }

lemma testCondition_of_failed {cond : Condition} (h : cond.passes b.core.regs.flags = false) :
    Exec.testCondition cond b = .ok false (b.mapCore ({ · with conditionPassed := false })) := by
  have hal : cond ≠ .al := by
    rintro rfl
    exact nomatch h
  have htest : b.core.testCondition cond = (false, { b.core with conditionPassed := false }) := by
    rw [Core.testCondition, if_neg hal, h]
  rw [Exec.testCondition_apply, Board.mapCore, Board.mapCore, htest]

/-- The charge and the record of the outcome can be made in either order. -/
lemma charge_failed (c : Core) (cycles : Word) :
    ({ c with conditionPassed := false } : Core).charge cycles =
      { c.charge cycles with conditionPassed := false } := rfl

lemma afterFetch_of_failed {cond : Condition} (h : cond.passes b.core.regs.flags = false)
    (act : Exec Unit) : afterFetch cond act b = .ok () (skip b) := by
  let b₁ := b.mapCore (·.charge (b.bus.waitPrefetch .arm b.core.pc))
  have h₁ : cond.passes b₁.core.regs.flags = false := h
  unfold afterFetch
  rw [Exec.bind_of_ok (Exec.prefetch_apply .arm b), Exec.bind_of_ok (testCondition_of_failed h₁),
    if_neg Bool.false_ne_true]
  rfl

lemma insteadOfFetch_of_failed {cond : Condition} (h : cond.passes b.core.regs.flags = false)
    (act : Exec Unit) : insteadOfFetch cond act b = .ok () (skip b) := by
  unfold insteadOfFetch
  rw [Exec.bind_of_ok (testCondition_of_failed h), if_neg Bool.false_ne_true, Exec.prefetch_apply]
  exact congrArg (fun c => EStateM.Result.ok () (⟨c, b.bus, b.irq, b.journal⟩ : Board))
    (charge_failed b.core (b.bus.waitPrefetch .arm b.core.pc))

/-- An instruction whose condition fails is skipped, whether the condition is tested before the
charge for the fetch or after it, unless the encoding is undefined. -/
lemma exec_of_failed {i : Instr} (hfails : i.cond.passes b.core.regs.flags = false)
    (hdefined : (Instruction.arm i).isUndefined = false) (address : Word) :
    exec i address b = .ok () (skip b) := by
  obtain ⟨cond, op⟩ := i
  cases op with
  | store | storeMultiple | branch | softwareInterrupt => exact insteadOfFetch_of_failed hfails _
  | undefined opcode => exact nomatch hdefined
  | _ => exact afterFetch_of_failed hfails _

/-- An operation that, if it is undefined, keeps the opcode that it was decoded from. -/
def Op.Recalls (w : Word) (op : Op) : Prop := ∀ opcode, op = .undefined opcode → opcode = w

namespace Op.Recalls

variable {w : Word}

lemma undefined : Recalls w (.undefined w) := fun _ h => (Op.undefined.inj h).symm

lemma ite {p : Prop} [Decidable p] {op op' : Op} (h : op.Recalls w) (h' : op'.Recalls w) :
    (if p then op else op').Recalls w := by
  split
  · exact h
  · exact h'

end Op.Recalls

/-- An undefined encoding keeps the opcode that it was decoded from. -/
lemma recalls_decodeOp (w : Word) : (decodeOp w).Recalls w := by
  have hstatus : (decodeStatus w).Recalls w :=
    .ite nofun (.ite nofun .undefined)
  have hmultiply : (decodeMultiply w).Recalls w := .ite nofun (.ite nofun .undefined)
  have htransfer : (decodeTransfer w).Recalls w := .ite .undefined (.ite nofun nofun)
  have hhalf : (decodeHalf w).Recalls w := by
    refine .ite .undefined ?_
    split
    · exact nofun
    · exact nofun
    · exact nofun
    · exact nofun
    · exact .undefined
  have hblock : (decodeBlock w).Recalls w := .ite nofun nofun
  unfold decodeOp
  refine .ite nofun (.ite (.ite hstatus nofun) (.ite nofun ?_))
  split
  · exact .ite hmultiply hhalf
  · exact htransfer
  · exact htransfer
  · exact hblock
  · exact nofun
  · exact .ite nofun .undefined
  · exact .undefined

/-- An undefined encoding fails without a look at its condition. -/
lemma exec_of_undefined {opcode : Word} (h : (Instruction.arm (decode opcode)).isUndefined = true)
    (address : Word) :
    exec (decode opcode) address b = .error (.illegalInstruction address opcode .arm) b := by
  obtain ⟨o, hop⟩ : ∃ o, decodeOp opcode = .undefined o := by
    unfold Instruction.isUndefined decode at h
    cases hop : decodeOp opcode with
    | undefined o => exact ⟨o, rfl⟩
    | _ => rw [hop] at h; exact nomatch h
  unfold exec decode
  dsimp only
  rw [hop, recalls_decodeOp opcode o hop]
  rfl

/-- What skipping an instruction does, does not depend on what is remembered of decodings. -/
lemma bare_skip {b' : Board} (h : b'.bare = b.bare) :
    (skip (b'.mapCore (Exec.pipelined .arm))).bare =
      (skip (b.mapCore (Exec.pipelined .arm))).bare := by
  have hbare (b : Board) : (skip (b.mapCore (Exec.pipelined .arm))).bare =
      (skip (b.bare.mapCore (Exec.pipelined .arm))).bare := rfl
  rw [hbare b', h, ← hbare b]

/-- A board that has skipped an instruction, as far as an instruction can see. -/
lemma skipped_of_bare {b' : Board} (hset : b.core.regs.set = .arm)
    (h : b'.bare = (skip (b.mapCore (Exec.pipelined .arm))).bare) : b.Skipped b' := by
  have hregs : b'.core.regs = b.core.regs.write .pc (b.core.pc + 4) := Board.regs_of_bare h
  have hnext : b.core.nextAddress = b.core.pc - 4 := by
    rw [Core.nextAddress, Core.width, hset]
    rfl
  constructor
  · exact (Board.SameDevices.mapCore b _).trans ((Board.SameDevices.mapCore _ _).trans (.of_bare h))
  · exact hregs
  · have hset' : b'.core.regs.set = .arm := by rwa [hregs]
    rw [Exec.nextAddress_of_regs hregs, Registers.read_pc_write_pc, ← hregs, hset', hnext,
      UInt32.sub_add_cancel]
    exact UInt32.add_sub_cancel _ _
  · have hcycles := Board.core_of_bare h (·.cycles) fun _ => rfl
    have hahead : (b.core.setReg .pc (b.core.pc + 4)).pc = b.core.nextAddress + 8 := by
      have height : (8 : Word) = 4 + 4 := rfl
      rw [Core.pc_setReg_pc, hnext, height, ← add_assoc, UInt32.sub_add_cancel]
    rw [hcycles, ← hahead]
    rfl
  · exact Board.core_of_bare h (·.halted) fun _ => rfl

end Arm

namespace Exec

variable {b : Board} {opcode : Word}

/-- Where the condition of the instruction has failed there is no jump to follow, and looking for
the successor changes nothing. -/
lemma advance_of_failed (h : Handle) (hfailed : b.core.conditionPassed = false)
    (hstrict : b.bus.strict = false) : ∃ b', advance h b = .ok () b' ∧ b'.bare = b.bare := by
  have hadvance : ∃ x : Exec Unit, Quiet x ∧ advance h b = x b := by
    unfold advance
    cases hw : h.instruction.writesPc with
    | false => exact ⟨_, quiet_followCurrent h.next, rfl⟩
    | true =>
      refine ⟨_, quiet_setCurrent none, ?_⟩
      have hread : core Core.conditionPassed b = .ok false b :=
        congrArg (EStateM.Result.ok · b) hfailed
      exact bind_of_ok hread
  obtain ⟨x, hx, heq⟩ := hadvance
  obtain ⟨u, b', hok, hbare⟩ := hx.exists_ok hstrict
  exact ⟨b', heq.trans hok, hbare⟩

/-- A condition that fails makes an ARM instruction have no effect. On a board without an armed
interrupt whose bus is not strict, a step that executes an instruction whose condition does not hold
finishes; it moves the program counter on by one instruction, charges the fetch, and changes no
other register, no flag and no memory. Only undefined encodings are not skipped: they fail whatever
their condition is. -/
theorem step_of_failed_condition (hx : b.Executes (.arm (Arm.decode opcode)))
    (hset : b.core.regs.set = .arm)
    (hfails : (Arm.decode opcode).cond.passes b.core.regs.flags = false)
    (hstrict : b.bus.strict = false) (harmed : b.irq.armed = false) :
    ((Instruction.arm (Arm.decode opcode)).isUndefined = false →
      ∃ b', step b = .ok () b' ∧ b.Skipped b') ∧
    ((Instruction.arm (Arm.decode opcode)).isUndefined = true →
      ∃ address b', step b = .error (.illegalInstruction address opcode .arm) b') := by
  obtain ⟨h, b₀, hi, hbare, hexecute⟩ := executeNext_of_executes hx
  let b₁ := b₀.mapCore (pipelined .arm)
  replace hexecute : executeNext b = (instruction h >>= fun _ => advance h) b₁ := hexecute
  have hstep : step b = (executeNext >>= fun _ => update Board.updateInterrupts) b := by
    rw [step_apply, hx.1]
    rfl
  constructor
  · intro hdefined
    have hfails₁ : (Arm.decode opcode).cond.passes b₁.core.regs.flags = false := by
      rwa [regs_pipelined hbare]
    have hinstruction : instruction h b₁ = .ok () (Arm.skip b₁) := by
      unfold instruction
      rw [hi]
      exact Arm.exec_of_failed hfails₁ hdefined h.address
    have hstrict₁ : (Arm.skip b₁).bus.strict = false := (Board.strict_of_bare hbare).trans hstrict
    obtain ⟨b₂, hadvance, hbare₂⟩ := advance_of_failed h rfl hstrict₁
    have hskipped : b.Skipped b₂ :=
      Arm.skipped_of_bare hset (hbare₂.trans (Arm.bare_skip hbare))
    have hquiet : b₂.updateInterrupts = b₂ := by
      have harmed₂ : ¬b₂.irq.armed = true := by simp [hskipped.devices.irq, harmed]
      have hrunning : b₂.core.halted = false := hskipped.halted.trans hx.1
      rw [Board.updateInterrupts_eq, if_neg harmed₂, Board.wake, hrunning]
      rfl
    rw [bind_of_ok hinstruction, hadvance] at hexecute
    refine ⟨b₂, ?_, hskipped⟩
    rw [hstep, bind_of_ok hexecute]
    exact congrArg (EStateM.Result.ok ()) hquiet
  · intro hundefined
    obtain ⟨address, hfault⟩ : ∃ address,
        instruction h b₁ = .error (.illegalInstruction address opcode .arm) b₁ := by
      refine ⟨h.address, ?_⟩
      unfold instruction
      rw [hi]
      exact Arm.exec_of_undefined hundefined h.address
    rw [bind_of_error hfault] at hexecute
    exact ⟨address, b₁, hstep.trans (bind_of_error hexecute)⟩

/-- A board with clear flags that executes `MOVEQ r0, #1` next. -/
def skipping : Board := ((Machine.handheld [(0x03000000, 0x03A00001)]).reset 0x03000000).board

/-- The move is skipped. -/
theorem step_of_failed_condition_skipping :
    skipping.Executes (.arm (Arm.decode 0x03A00001)) ∧
    (Arm.decode 0x03A00001).cond.passes skipping.core.regs.flags = false ∧
    ∃ b', step skipping = .ok () b' ∧ skipping.Skipped b' := by
  have hx : skipping.Executes (.arm (Arm.decode 0x03A00001)) := by decide +kernel
  have hfails : (Arm.decode 0x03A00001).cond.passes skipping.core.regs.flags = false := by
    decide +kernel
  have hdefined : (Instruction.arm (Arm.decode 0x03A00001)).isUndefined = false := by
    decide +kernel
  have hstrict : skipping.bus.strict = false := by decide +kernel
  exact ⟨hx, hfails, (step_of_failed_condition hx rfl hfails hstrict rfl).1 hdefined⟩

/-- A board with clear flags that executes an undefined encoding with the condition EQ next. -/
def failing : Board := ((Machine.handheld [(0x03000000, 0x0E000000)]).reset 0x03000000).board

/-- It is not true that every ARM instruction whose condition fails is skipped. -/
theorem not_forall_skipped :
    ¬∀ (b : Board) (opcode : Word), b.Executes (.arm (Arm.decode opcode)) →
      b.core.regs.set = .arm → (Arm.decode opcode).cond.passes b.core.regs.flags = false →
      b.bus.strict = false → b.irq.armed = false →
      ∃ b', step b = .ok () b' ∧ b.Skipped b' := by
  intro hall
  have hx : failing.Executes (.arm (Arm.decode 0x0E000000)) := by decide +kernel
  have hfails : (Arm.decode 0x0E000000).cond.passes failing.core.regs.flags = false := by
    decide +kernel
  have hstrict : failing.bus.strict = false := by decide +kernel
  have hstops : step.run' failing = none := by decide +kernel
  obtain ⟨b', hstep, -⟩ := hall failing 0x0E000000 hx rfl hfails hstrict rfl
  rw [EStateM.run', EStateM.run, hstep] at hstops
  exact nomatch hstops

end Exec

end Armv4T
