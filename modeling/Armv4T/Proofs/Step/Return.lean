import Mathlib
import Armv4T.Proofs.Alu.Sum
import Armv4T.Proofs.Machine.Commands
import Armv4T.Proofs.Registers.Physical
import Armv4T.Proofs.Step.Exception
import Armv4T.Proofs.Step.Quiet
import Armv4T.Proofs.Word.Align

/-!
# Returning from an exception

Entering an exception and returning from it cancel out. `SUBS pc, lr, #4` undoes the entry of an
interrupt request and `MOVS pc, lr` that of a software interrupt: the core is back in the mode and
the instruction set it came from, with the same flags and the same registers, and continues where it
was interrupted (`Exec.resumed_of_return`). Only the link register and the saved status word of the
exception's mode are spent.

The registers are compared as the physical copies that the modes select, since an entry moves values
between the visible registers and the slots.
-/

namespace Armv4T

/-! ### The copies of the registers -/

namespace Registers

variable (r : Registers)

lemma read_pc_write_pc (value : Word) : (r.write .pc value).read .pc = value := by
  simp [read, write]

lemma read_write_pc {i : Reg} (hi : i ≠ .pc) (value : Word) :
    (r.write .pc value).read i = r.read i := by
  have hval : Reg.pc.val ≠ i.val := fun h => hi (Fin.ext h).symm
  simp [read, write, Vector.getElem_set_ne _ _ hval]

/-- Registers with the same copies in the same mode look the same. -/
lemma named_eq_of_content_eq {r s : Registers} (hmode : s.mode = r.mode)
    (h : ∀ a, s.content (r.mode.select a) = r.content (r.mode.select a)) (a : NamedReg) :
    s.named a = r.named a := by
  have hs : s.content (r.mode.select a) = s.named a := by
    rw [← hmode, content_select, phys_mode]
  rw [← hs, h, content_select, phys_mode]

end Registers

/-- The copies that an exception overwrites: the link register and the saved status word of its
mode. -/
def Mode.spends (m : Mode) (p : PhysicalReg) : Prop := p = m.select .lr ∨ p = m.select .spsr

namespace Core

variable (c : Core) (mode : Mode) (vector returnAddress : Word)

/-- Entering an exception overwrites two copies and leaves the others. -/
lemma content_enterException {p : PhysicalReg} (hp : ¬mode.spends p) :
    (c.enterException mode vector returnAddress).regs.content p = c.regs.content p := by
  let r := c.regs.switchMode mode
  have hmode : r.mode = mode := c.regs.mode_switchMode mode
  have hlr : p ≠ r.mode.select .lr := fun h => hp (.inl (hmode ▸ h))
  have hspsr : p ≠ r.mode.select .spsr := fun h => hp (.inr (hmode ▸ h))
  calc (c.enterException mode vector returnAddress).regs.content p
      = ((((r.put .spsr c.regs.packStatus).put .lr returnAddress).write .pc
          (vector + InstrSet.arm.width)).content) p := rfl
    _ = Function.update (Function.update r.content (r.mode.select .spsr) c.regs.packStatus)
          (r.mode.select .lr) returnAddress p := by
        rw [Registers.content_write_pc, Registers.physical_put, Registers.physical_put]
        rfl
    _ = c.regs.content p := by
        rw [Function.update_of_ne hlr, Function.update_of_ne hspsr, c.regs.content_switchMode]

lemma lr_enterException :
    (c.enterException mode vector returnAddress).reg .lr = returnAddress := by
  simp [enterException, reg, Registers.read, Registers.write, Reg.lr, Reg.pc]

end Core

/-! ### What a step leaves alone besides the core -/

/-- Two boards have the same memory and the same interrupt lines. -/
structure Board.SameDevices (b b' : Board) : Prop where
  bus : b'.bus.bare = b.bus.bare
  irq : b'.irq = b.irq

namespace Board.SameDevices

variable {b b' b'' : Board}

lemma mapCore (b : Board) (f : Core → Core) : b.SameDevices (b.mapCore f) := ⟨rfl, rfl⟩

lemma of_bare (h : b'.bare = b.bare) : b.SameDevices b' :=
  ⟨(bare_eq_iff.mp h).2.1, (bare_eq_iff.mp h).2.2⟩

lemma trans (h : b.SameDevices b') (h' : b'.SameDevices b'') : b.SameDevices b'' :=
  ⟨h'.bus.trans h.bus, h'.irq.trans h.irq⟩

end Board.SameDevices

/-- No interrupt is due, and there is no request on an enabled line. -/
structure InterruptLines.Idle (l : InterruptLines) : Prop where
  armed : l.armed = false
  pending : l.pending = 0

namespace InterruptLines.Idle

variable {l : InterruptLines}

lemma test (h : l.Idle) (irqDisabled : Bool) : l.test irqDisabled = l := by
  rw [InterruptLines.test, h.pending]
  simp

lemma testIrq {b : Board} (h : b.irq.Idle) : b.testIrq = b := by
  show b.mapIrq (·.test b.core.regs.flags.i) = b
  rw [Board.mapIrq, h.test]

/-- Without requests nothing happens to the interrupts after a step. -/
lemma updateInterrupts {b : Board} (h : b.irq.Idle) : b.updateInterrupts = b := by
  have hresume : (if b.core.halted && b.irq.pending != 0 then b.resume else b) = b := by
    rw [h.pending]
    simp
  have harmed : ¬b.irq.armed = true := by simp [h.armed]
  unfold Board.updateInterrupts
  rw [hresume]
  exact if_neg harmed

end InterruptLines.Idle

/-- A software interrupt whose condition holds. -/
inductive Instruction.Traps (flags : Flags) : Instruction → Prop
  | arm {cond : Condition} {comment : Word} (h : cond.passes flags = true) :
    Traps flags (.arm ⟨cond, .softwareInterrupt comment⟩)
  | thumb {comment : Word} : Traps flags (.thumb (.softwareInterrupt comment))

/-- The instruction that a running board executes next, if it can be found. -/
def Board.nextInstruction? (b : Board) : Option Instruction :=
  match Exec.currentHandle b with
  | .ok h _ => some h.instruction
  | .error _ _ => none

/-- The board runs, and the given instruction is the next one that it executes. -/
def Board.Executes (b : Board) (i : Instruction) : Prop :=
  b.core.halted = false ∧ b.nextInstruction? = some i

instance (b : Board) (i : Instruction) : Decidable (b.Executes i) :=
  inferInstanceAs (Decidable (b.core.halted = false ∧ b.nextInstruction? = some i))

lemma Board.Executes.exists_handle {b : Board} {i : Instruction} (hx : b.Executes i) :
    ∃ h b', Exec.currentHandle b = .ok h b' ∧ h.instruction = i := by
  have hfound := hx.2
  unfold nextInstruction? at hfound
  rcases hcurrent : Exec.currentHandle b with ⟨h, b'⟩ | ⟨fault, b'⟩
  · rw [hcurrent] at hfound
    exact ⟨h, b', rfl, Option.some.inj hfound⟩
  · rw [hcurrent] at hfound
    exact nomatch hfound

namespace Exec

variable {b : Board}

/-- The next instruction is executed on the pipelined core, and then its successor is looked for. -/
lemma executeNext_of_executes {i : Instruction} (hx : b.Executes i) :
    ∃ (h : Handle) (b' : Board), h.instruction = i ∧ b'.bare = b.bare ∧
      executeNext b = (instruction h >>= fun _ => advance h) (b'.mapCore (pipelined i.set)) := by
  obtain ⟨h, b', hcurrent, rfl⟩ := hx.exists_handle
  refine ⟨h, b', rfl, quiet_currentHandle.bare hcurrent, ?_⟩
  rw [executeNext_apply, bind_of_ok hcurrent]
  rfl

/-- The registers of the pipelined core. -/
lemma regs_pipelined {b' : Board} (hbare : b'.bare = b.bare) (set : InstrSet) :
    (b'.mapCore (pipelined set)).core.regs = b.core.regs.write .pc (b.core.pc + set.width) := by
  show b'.core.regs.write .pc (b'.core.regs.read .pc + set.width) = _
  rw [Board.regs_of_bare hbare]
  rfl

/-- A step without interrupts executes the instruction on the pipelined core, and then looks for its
successor. -/
lemma step_of_executes {i : Instruction} (hx : b.Executes i) :
    ∃ h b₁, h.instruction = i ∧ b.SameDevices b₁ ∧ b₁.core.conditionPassed = true ∧
      b₁.core.regs = b.core.regs.write .pc (b.core.pc + i.set.width) ∧
      ∀ b₂ b₃, instruction h b₁ = .ok () b₂ → advance h b₂ = .ok () b₃ → b₃.irq.Idle →
        step b = .ok () b₃ := by
  obtain ⟨h, b', hi, hbare, hexecute⟩ := executeNext_of_executes hx
  refine ⟨h, b'.mapCore (pipelined i.set), hi, ?_, rfl, regs_pipelined hbare i.set, ?_⟩
  · exact (Board.SameDevices.of_bare hbare).trans (.mapCore _ _)
  · intro b₂ b₃ hinstruction hadvance hidle
    rw [bind_of_ok hinstruction, hadvance] at hexecute
    have hstep : step b = .ok () b₃.updateInterrupts := by
      rw [step_apply, hx.1]
      exact bind_of_ok hexecute
    rw [hstep, hidle.updateInterrupts]

end Exec

namespace Arm

open Exec (bind_of_ok)

/-- The registers after a saved status word was loaded back. -/
def returned (r saved : Registers) : Registers :=
  { r.switchMode saved.mode with set := saved.set, flags := saved.flags }

lemma content_returned (r saved : Registers) : (returned r saved).content = r.content :=
  r.content_switchMode saved.mode

/-- An operation on the program counter that sets the flags returns from an exception. -/
lemma dataProcessing_return {b : Board} {r : Registers} {op : AluOp} (hop : op.isTest = false)
    (rn : Reg) (operand : Operand) (hmode : b.core.regs.mode.hasSpsr = true)
    (hsaved : b.core.regs.spsr = r.packStatus) (hidle : b.irq.Idle) :
    ∃ c, dataProcessing op true .pc rn operand b = .ok () (b.mapCore fun _ => c) ∧
      c.conditionPassed = b.core.conditionPassed ∧
      c.regs = (returned b.core.regs r).write .pc
        (op.apply (b.core.reg rn) (b.core.operandValue operand).1
          (b.core.operandValue operand).2 b.core.regs.flags).value := by
  let b₁ := b.mapCore (·.evalOperand operand)
  let result := op.apply (b.core.reg rn) (b.core.operandValue operand).1
    (b.core.operandValue operand).2 b.core.regs.flags
  have hstart : dataProcessing op true .pc rn operand b = (do
      Exec.loadStatus b.core.regs.spsr
      if !op.isTest then Exec.setReg .pc result.value : Exec Unit) b₁ := by
    show (if (Reg.pc == Reg.pc && b.core.regs.mode.hasSpsr) = true then _ else _ : Exec Unit) b₁ = _
    rw [hmode]
    rfl
  let regs := returned b.core.regs r
  let current := if regs.set = b₁.core.regs.set then b₁.core.current else none
  let b₂ := b₁.mapCore ({ · with regs, current })
  have hload : Exec.loadStatus b.core.regs.spsr b₁ = .ok () b₂ := by
    have hregs : b₁.core.regs.loadStatus b.core.regs.spsr = .ok regs := by
      rw [hsaved]
      exact r.loadStatus_packStatus b.core.regs
    have htest : b₂.testIrq = b₂ := InterruptLines.Idle.testIrq hidle
    unfold Exec.loadStatus
    rw [hregs]
    exact congrArg (EStateM.Result.ok ()) htest
  rw [hstart, bind_of_ok hload, hop]
  exact ⟨{ b₂.core with regs := regs.write .pc result.value }, rfl, rfl, rfl⟩

lemma exec_al_dataProcessing (op : AluOp) (setFlags : Bool) (rd rn : Reg) (operand : Operand)
    (address : Word) (b : Board) :
    exec ⟨.al, .dataProcessing op setFlags rd rn operand⟩ address b =
      dataProcessing op setFlags rd rn operand
        (b.mapCore (·.charge (b.bus.waitPrefetch .arm b.core.pc))) := rfl

end Arm

/-- A board after a return from an exception: the saved status is the current one, execution
continues at the target, and no copy of a register has changed. -/
structure Board.Returned (saved : Registers) (target : Word) (b b' : Board) : Prop where
  devices : b.SameDevices b'
  mode : b'.core.regs.mode = saved.mode
  set : b'.core.regs.set = saved.set
  flags : b'.core.regs.flags = saved.flags
  content : b'.core.regs.content = b.core.regs.content
  nextAddress : b'.core.nextAddress = Word.alignDown target saved.set.width

namespace Board.Returned

variable {saved : Registers} {target : Word} {b b' : Board}

/-- It is enough to look at the registers: they are those of the return, with the pipeline filled at
the target. -/
lemma of_regs (hdevices : b.SameDevices b') {pc : Word}
    (hregs : b'.core.regs = ((Arm.returned (b.core.regs.write .pc pc) saved).write .pc target).write
      .pc (Word.alignDown target saved.set.width + saved.set.width)) :
    b.Returned saved target b' := by
  constructor
  · exact hdevices
  · rw [hregs]
    exact Registers.mode_switchMode _ _
  · rw [hregs]
    rfl
  · rw [hregs]
    rfl
  · rw [hregs, Registers.content_write_pc, Registers.content_write_pc, Arm.content_returned,
      Registers.content_write_pc]
  · rw [Core.nextAddress, Core.pc, Core.reg, Core.width, hregs, Registers.read_pc_write_pc]
    exact UInt32.add_sub_cancel _ _

end Board.Returned

namespace Exec

variable {b : Board}

/-- A step that executes a return from an exception ends at its target. -/
lemma step_return {op : Arm.AluOp} {rn : Reg} {operand : Operand} {saved : Registers} {target : Word}
    (hx : b.Executes (.arm ⟨.al, .dataProcessing op true .pc rn operand⟩))
    (hop : op.isTest = false) (hmode : b.core.regs.mode.hasSpsr = true)
    (hsaved : b.core.regs.spsr = saved.packStatus) (hidle : b.irq.Idle)
    (htarget : ∀ c : Core, c.reg .lr = b.core.reg .lr →
      (op.apply (c.reg rn) (c.operandValue operand).1 (c.operandValue operand).2
        c.regs.flags).value = target) :
    ∃ b', step b = .ok () b' ∧ b.Returned saved target b' := by
  obtain ⟨h, b₁, hi, hdevices, hpassed, hregs, hstep⟩ := step_of_executes hx
  let b₂ := b₁.mapCore (·.charge (b₁.bus.waitPrefetch .arm b₁.core.pc))
  have hregs₂ : b₂.core.regs = b.core.regs.write .pc (b.core.pc + InstrSet.arm.width) := hregs
  have hmode₂ : b₂.core.regs.mode.hasSpsr = true := by rwa [hregs₂]
  have hsaved₂ : b₂.core.regs.spsr = saved.packStatus := by rwa [hregs₂]
  have hidle₂ : b₂.irq.Idle := by rwa [← hdevices.irq] at hidle
  have hlr : b₂.core.reg .lr = b.core.reg .lr := by
    rw [Core.reg, hregs₂]
    exact b.core.regs.read_write_pc (by decide) _
  obtain ⟨c, hreturn, hpassed', hc⟩ :=
    Arm.dataProcessing_return hop rn operand hmode₂ hsaved₂ hidle₂
  rw [htarget b₂.core hlr] at hc
  have hinstruction : instruction h b₁ = .ok () (b₂.mapCore fun _ => c) := by
    unfold instruction
    rw [hi]
    exact (Arm.exec_al_dataProcessing op true .pc rn operand h.address b₁).trans hreturn
  have hw : h.instruction.writesPc = true := by
    rw [hi]
    simp [Instruction.writesPc, Arm.Op.writesPc, hop]
  have hfixed : h.instruction.isFixedJump = false := by
    rw [hi]
    rfl
  obtain ⟨c', hadvance, -, -, hc'⟩ :=
    exists_advance_of_jump (b := b₂.mapCore fun _ => c) hw hfixed (hpassed'.trans hpassed)
  have hpc : c.pc = target := by
    rw [Core.pc, Core.reg, hc, Registers.read_pc_write_pc]
  have hwidth : c.width = saved.set.width := by
    rw [Core.width, hc]
    rfl
  have hfilled : c'.regs = ((Arm.returned (b.core.regs.write .pc (b.core.pc + InstrSet.arm.width))
      saved).write .pc target).write .pc
        (Word.alignDown target saved.set.width + saved.set.width) := by
    rw [← hregs₂, ← hc, ← hpc, ← hwidth]
    exact hc'
  have hdevices' : b.SameDevices (b₂.mapCore fun _ => c') := hdevices.trans ⟨rfl, rfl⟩
  exact ⟨_, hstep _ _ hinstruction hadvance hidle₂, .of_regs hdevices' hfilled⟩

/-! ### Entering by a software interrupt -/

/-- A software interrupt that is not served enters its exception. -/
lemma softwareInterrupt_trap (hservices : b.irq.services = false) (comment : Word)
    (set : InstrSet) :
    ∃ b', (do Bios.softwareInterrupt comment; prefetch set : Exec Unit) b = .ok () b' ∧
      b'.core.regs = b.raiseTrap.core.regs ∧ b'.core.current = none ∧ b.SameDevices b' := by
  have htrap : Bios.softwareInterrupt comment b = .ok () b.raiseTrap := by
    unfold Bios.softwareInterrupt
    rw [hservices]
    rfl
  exact ⟨_, (bind_of_ok htrap).trans (prefetch_apply set _), rfl, rfl, rfl, rfl⟩

/-- What the exception saves depends on the registers alone. -/
lemma raiseTrap_congr {b b' : Board} (h : b'.core.regs = b.core.regs) :
    b'.raiseTrap.core.regs = b.raiseTrap.core.regs := by
  show (b'.core.enterException _ _ b'.core.nextAddress).regs =
    (b.core.enterException _ _ b.core.nextAddress).regs
  simp only [Core.enterException, Core.nextAddress, Core.pc, Core.reg, Core.width, h]

/-- A software interrupt of either set whose condition holds enters its exception. -/
lemma instruction_trap {h : Handle} (htraps : h.instruction.Traps b.core.regs.flags)
    (hservices : b.irq.services = false) :
    ∃ b', instruction h b = .ok () b' ∧ b'.core.regs = b.raiseTrap.core.regs ∧
      b'.core.current = none ∧ b.SameDevices b' ∧ h.instruction.writesPc = false := by
  unfold instruction
  generalize h.instruction = i at htraps
  cases htraps with
  | @arm cond comment hpasses =>
    let b₁ := b.mapCore fun c => (c.testCondition cond).2
    have htest : testCondition cond b = .ok true b₁ := by
      have hpassed := (b.core.testCondition_passed cond).trans hpasses
      rw [testCondition_apply, hpassed]
    have hregs : b₁.core.regs = b.core.regs := b.core.testCondition_regs cond
    obtain ⟨b', hok, hentered, hcurrent, hdevices⟩ :=
      softwareInterrupt_trap (b := b₁) hservices (comment.field 16 8) .arm
    refine ⟨b', ?_, hentered.trans (raiseTrap_congr hregs), hcurrent, ?_, rfl⟩
    · exact (bind_of_ok htest).trans hok
    · exact (Board.SameDevices.mapCore b _).trans hdevices
  | @thumb comment =>
    obtain ⟨b', hok, hentered, hcurrent, hdevices⟩ :=
      softwareInterrupt_trap hservices comment .thumb
    exact ⟨b', hok, hentered, hcurrent, hdevices, rfl⟩

end Exec

/-! ### Entry and return together -/

/-- A board on which an exception has just interrupted another board, with a link to come back by.
-/
structure Board.Interrupted (exception : Mode) (vector link : Word) (b b' : Board) : Prop where
  devices : b.SameDevices b'
  entered : b'.Entered b.core.regs.mode exception vector
  spsr : b'.core.regs.spsr = b.core.regs.packStatus
  lr : b'.core.reg .lr = link
  content : ∀ p, ¬exception.spends p → b'.core.regs.content p = b.core.regs.content p

/-- A board that is as another one was, except that it continues at an address, and for what an
exception spends. The output of the shifter and the outcome of the last condition are not compared:
each instruction makes its own. -/
structure Board.Resumed (exception : Mode) (address : Word) (b b' : Board) : Prop where
  devices : b.SameDevices b'
  packStatus : b'.core.regs.packStatus = b.core.regs.packStatus
  mode : b'.core.regs.mode = b.core.regs.mode
  set : b'.core.regs.set = b.core.regs.set
  flags : b'.core.regs.flags = b.core.regs.flags
  named : ∀ a, b'.core.regs.named a = b.core.regs.named a
  content : ∀ p, ¬exception.spends p → b'.core.regs.content p = b.core.regs.content p
  nextAddress : b'.core.nextAddress = address

namespace Board.Interrupted

variable {exception : Mode} {vector link : Word} {b b' : Board}

/-- An exception that was entered when nothing but the program counter had changed. -/
lemma of_enterException {c : Core} {pc : Word} (hdevices : b.SameDevices b')
    (hc : c.regs = b.core.regs.write .pc pc)
    (hregs : b'.core.regs = (c.enterException exception vector link).regs) :
    b.Interrupted exception vector link b' where
  devices := hdevices
  entered := by
    have hentered := Board.entered_enterException { b with core := c } exception vector link hregs
    rwa [hc] at hentered
  spsr := by
    have hstatus : c.regs.packStatus = b.core.regs.packStatus := by
      rw [hc]
      rfl
    rw [hregs, ← hstatus]
    rfl
  lr := by
    rw [Core.reg, hregs]
    exact c.lr_enterException exception vector link
  content := by
    intro p hp
    rw [hregs, c.content_enterException exception vector link hp, hc, Registers.content_write_pc]

/-- A return to what an exception has interrupted resumes it. -/
lemma resumed {target : Word} {b'' : Board} (h : b.Interrupted exception vector link b')
    (hreturned : b'.Returned b.core.regs target b'')
    (hexception : ∀ a, ¬exception.spends (b.core.regs.mode.select a))
    (haligned : Word.alignDown target b.core.width = target) :
    b.Resumed exception target b'' := by
  have hcontent : ∀ p, ¬exception.spends p →
      b''.core.regs.content p = b.core.regs.content p := by
    intro p hp
    rw [hreturned.content, h.content p hp]
  refine
    { devices := h.devices.trans hreturned.devices, packStatus := ?_, mode := hreturned.mode,
      set := hreturned.set, flags := hreturned.flags, named := ?_, content := hcontent,
      nextAddress := hreturned.nextAddress.trans haligned }
  · rw [Registers.packStatus, hreturned.mode, hreturned.set, hreturned.flags]
    rfl
  · exact Registers.named_eq_of_content_eq hreturned.mode fun a => hcontent _ (hexception a)

end Board.Interrupted

/-- An exception whose mode has a bank of its own spends nothing of the modes of other banks. -/
lemma Mode.not_spends_select {m exception : Mode} (h : m.bank ≠ exception.bank) (a : NamedReg) :
    ¬exception.spends (m.select a) := by
  rintro (hlr | hspsr)
  · obtain rfl := Mode.select_eq_select hlr
    exact h (PhysicalReg.lr.inj hlr)
  · obtain rfl := Mode.select_eq_select hspsr
    exact h (PhysicalReg.spsr.inj hspsr)

/-- The address after an aligned instruction is aligned. -/
lemma Word.alignDown_add_width {w : Word} {set : InstrSet} (h : alignDown w set.width = w) :
    alignDown (w + set.width) set.width = w + set.width := by
  have haligned : (alignDown w set.width).toNat = w.toNat := by rw [h]
  apply UInt32.toNat_inj.mp
  cases set with
  | arm =>
    have hwidth : InstrSet.arm.width.toNat = 2 ^ 2 := rfl
    rw [toNat_alignDown hwidth] at haligned ⊢
    rw [UInt32.toNat_add, hwidth]
    omega
  | thumb =>
    have hwidth : InstrSet.thumb.width.toNat = 2 ^ 1 := rfl
    rw [toNat_alignDown hwidth] at haligned ⊢
    rw [UInt32.toNat_add, hwidth]
    omega

/-- `SUBS pc, lr, #4`, which returns from an interrupt request. -/
def Arm.returnFromIrq : Arm.Instr := ⟨.al, .dataProcessing .sub true .pc .lr (.immediate 4)⟩

/-- `MOVS pc, lr`, which returns from a software interrupt. The first operand is not read. -/
def Arm.returnFromTrap (rn : Reg) : Arm.Instr :=
  ⟨.al, .dataProcessing .mov true .pc rn (.shifted .lsl .lr 0)⟩

example : Arm.decode 0xE25EF004 = Arm.returnFromIrq ∧
    Arm.decode 0xE1B0F00E = Arm.returnFromTrap 0 := by
  decide +kernel

namespace Exec

variable {b : Board}

/-- An interrupt request that is not disabled enters its exception. -/
lemma interrupted_raiseIrq (henabled : b.core.regs.flags.i = false) :
    b.Interrupted .irq irqVector (b.core.nextAddress + 4) b.raiseIrq := by
  have hraise : b.raiseIrq = (b.mapCore fun c =>
      { c.enterException .irq irqVector (b.core.nextAddress + 4) with halted := false }).note
        (.irqTaken (b.core.nextAddress + 4)) := by
    rw [Board.raiseIrq, henabled]
    rfl
  have hself : b.core.regs = b.core.regs.write .pc b.core.pc := by
    simp [Registers.write, Core.pc, Core.reg, Registers.read]
  rw [hraise]
  exact .of_enterException ⟨rfl, rfl⟩ hself rfl

/-- A step that executes a software interrupt enters its exception. -/
lemma step_trap {i : Instruction} (hx : b.Executes i) (hset : i.set = b.core.regs.set)
    (htraps : i.Traps b.core.regs.flags) (hservices : b.irq.services = false)
    (hidle : b.irq.Idle) :
    ∃ b', step b = .ok () b' ∧
      b.Interrupted .supervisor trapVector (b.core.nextAddress + b.core.width) b' := by
  obtain ⟨h, b₁, hi, hdevices, -, hregs, hstep⟩ := step_of_executes hx
  have htraps₁ : h.instruction.Traps b₁.core.regs.flags := by rwa [hi, hregs]
  have hservices₁ : b₁.irq.services = false := by rwa [hdevices.irq]
  obtain ⟨b₂, hinstruction, hentered, hforgotten, hdevices', hw⟩ :=
    instruction_trap htraps₁ hservices₁
  have hadvance : advance h b₂ = .ok () (b₂.mapCore ({ · with current := none })) :=
    advance_of_forgotten hw hforgotten
  have hdevices₂ : b.SameDevices (b₂.mapCore ({ · with current := none })) :=
    (hdevices.trans hdevices').trans ⟨rfl, rfl⟩
  have hidle₂ : (b₂.mapCore ({ · with current := none })).irq.Idle := by
    rwa [hdevices₂.irq]
  have hlink : b₁.core.nextAddress = b.core.nextAddress + b.core.width := by
    rw [Core.nextAddress, Core.pc, Core.reg, Core.width, hregs, Registers.read_pc_write_pc, hset]
    show b.core.pc + b.core.width - b.core.width = b.core.pc - b.core.width + b.core.width
    rw [UInt32.add_sub_cancel, UInt32.sub_add_cancel]
  refine ⟨_, hstep _ _ hinstruction hadvance hidle₂, ?_⟩
  rw [← hlink]
  exact .of_enterException hdevices₂ hregs hentered

/-- Exception entry and return are inverse. On a board without interrupts to come whose next address
is aligned, an interrupt request followed by `SUBS pc, lr, #4` at its vector resumes the board where
it was interrupted, and a software interrupt of either set followed by `MOVS pc, lr` at its vector
resumes it after the software interrupt. Except for the link register and the saved status word of
the exception, every copy of a register is as it was. -/
theorem resumed_of_return (b : Board) (hidle : b.irq.Idle)
    (haligned : Word.alignDown b.core.nextAddress b.core.width = b.core.nextAddress) :
    (b.core.regs.flags.i = false → b.core.regs.mode ≠ .irq →
      b.raiseIrq.core.nextAddress = irqVector ∧
      (b.raiseIrq.Executes (.arm Arm.returnFromIrq) →
        ∃ b', step b.raiseIrq = .ok () b' ∧ b.Resumed .irq b.core.nextAddress b')) ∧
    (b.core.regs.mode ≠ .supervisor → b.irq.services = false →
      ∀ i : Instruction, i.set = b.core.regs.set → i.Traps b.core.regs.flags → b.Executes i →
        ∃ b₁, step b = .ok () b₁ ∧ b₁.core.nextAddress = trapVector ∧
          ∀ rn, b₁.Executes (.arm (Arm.returnFromTrap rn)) →
            ∃ b', step b₁ = .ok () b' ∧
              b.Resumed .supervisor (b.core.nextAddress + b.core.width) b') := by
  constructor
  · intro henabled hmode
    have hbank : b.core.regs.mode.bank ≠ Mode.irq.bank := by
      revert hmode
      cases b.core.regs.mode <;> decide
    have hentered := interrupted_raiseIrq henabled
    refine ⟨hentered.entered.nextAddress, fun hx => ?_⟩
    have hidle' : b.raiseIrq.irq.Idle := by rwa [hentered.devices.irq]
    have hsaves : b.raiseIrq.core.regs.mode.hasSpsr = true := by rw [hentered.entered.mode]; rfl
    have htarget : ∀ c : Core, c.reg .lr = b.raiseIrq.core.reg .lr →
        (Sum.sub (c.reg .lr) 4).value = b.core.nextAddress := by
      intro c hlr
      rw [Sum.sub_value, hlr, hentered.lr, UInt32.add_sub_cancel]
    obtain ⟨b', hstep, hreturned⟩ := step_return hx rfl hsaves hentered.spsr hidle' htarget
    exact ⟨b', hstep, hentered.resumed hreturned (Mode.not_spends_select hbank) haligned⟩
  · intro hmode hservices i hset htraps hx
    have hbank : b.core.regs.mode.bank ≠ Mode.supervisor.bank := by
      revert hmode
      cases b.core.regs.mode <;> decide
    obtain ⟨b₁, hstep₁, hentered⟩ := step_trap hx hset htraps hservices hidle
    refine ⟨b₁, hstep₁, hentered.entered.nextAddress, fun rn hx₁ => ?_⟩
    have hidle' : b₁.irq.Idle := by rwa [hentered.devices.irq]
    have hsaves : b₁.core.regs.mode.hasSpsr = true := by rw [hentered.entered.mode]; rfl
    have htarget : ∀ c : Core, c.reg .lr = b₁.core.reg .lr →
        c.reg .lr = b.core.nextAddress + b.core.width := by
      intro c hlr
      rw [hlr, hentered.lr]
    obtain ⟨b', hstep, hreturned⟩ := step_return hx₁ rfl hsaves hentered.spsr hidle' htarget
    exact ⟨b', hstep, hentered.resumed hreturned (Mode.not_spends_select hbank)
      (Word.alignDown_add_width haligned)⟩

/-- A board in FIQ mode that executes a software interrupt next. Its handlers return at once. -/
def returning : Board :=
  let b := ((Machine.handheld [(0x03000000, 0xEF000000)]).reset 0x03000000).board
  (b.mapCore (·.switchMode .fiq)).mapBus fun bus =>
    (bus.loadImage trapVector ⟨#[0x0E, 0xF0, 0xB0, 0xE1]⟩).loadImage irqVector
      ⟨#[0x04, 0xF0, 0x5E, 0xE2]⟩

/-- Both exceptions are handled and left behind. -/
theorem resumed_of_return_returning :
    returning.irq.Idle ∧
    Word.alignDown returning.core.nextAddress returning.core.width = returning.core.nextAddress ∧
    (∃ b', step returning.raiseIrq = .ok () b' ∧ returning.Resumed .irq 0x03000000 b') ∧
    ∃ b₁ b', step returning = .ok () b₁ ∧ step b₁ = .ok () b' ∧
      returning.Resumed .supervisor 0x03000004 b' := by
  have hidle : returning.irq.Idle := ⟨rfl, rfl⟩
  have hnext : returning.core.nextAddress = 0x03000000 := by decide +kernel
  have haligned : Word.alignDown returning.core.nextAddress returning.core.width =
      returning.core.nextAddress := by decide +kernel
  have hirq : returning.raiseIrq.Executes (.arm Arm.returnFromIrq) := by decide +kernel
  have htrap : returning.Executes (.arm ⟨.al, .softwareInterrupt 0⟩) := by decide +kernel
  have hhandler : (step.after returning).Executes (.arm (Arm.returnFromTrap 0)) := by
    decide +kernel
  obtain ⟨hrequested, htrapped⟩ := resumed_of_return returning hidle haligned
  rw [hnext] at hrequested htrapped
  refine ⟨hidle, haligned, (hrequested rfl (by decide +kernel)).2 hirq, ?_⟩
  obtain ⟨b₁, hstep₁, -, hreturn⟩ :=
    htrapped (by decide +kernel) rfl _ rfl (.arm rfl) htrap
  rw [after_of_ok hstep₁] at hhandler
  obtain ⟨b', hstep, hresumed⟩ := hreturn 0 hhandler
  exact ⟨b₁, b', hstep₁, hstep, hresumed⟩

end Exec

end Armv4T
