import Mathlib
import Armv4T.Proofs.Exec.Guarded
import Armv4T.Proofs.Registers.Status
import Armv4T.Proofs.Step.Execute

/-!
# Entering an exception

A board has entered an exception (`Board.Entered`) if it executes at the vector, in the mode of the
exception, and if the mode that was interrupted is saved. After every step the board looks at the
interrupts, and then either nothing happens to the registers or the interrupt exception is entered
(`Board.updateInterrupts_cases`).
-/

namespace Armv4T

/-- A board that has just entered an exception from a mode: it executes at the vector, in the ARM
set and with IRQ disabled, and the saved status word names the mode. -/
structure Board.Entered (source target : Mode) (vector : Word) (b : Board) : Prop where
  mode : b.core.regs.mode = target
  nextAddress : b.core.nextAddress = vector
  disabled : b.core.regs.flags.i = true
  set : b.core.regs.set = .arm
  saved : Mode.ofBits b.core.regs.spsr = .ok source

/-! ### Entering an exception -/

lemma Core.pc_enterException (c : Core) (mode : Mode) (vector returnAddress : Word) :
    (c.enterException mode vector returnAddress).pc = vector + InstrSet.arm.width := by
  simp [enterException, pc, reg, Registers.read, Registers.write]

/-- An exception is entered in its mode at its vector. The mode that it interrupted is saved. -/
lemma Board.entered_enterException (b : Board) (mode : Mode) (vector returnAddress : Word)
    {b' : Board} (h : b'.core.regs = (b.core.enterException mode vector returnAddress).regs) :
    b'.Entered b.core.regs.mode mode vector := by
  have hset : b'.core.regs.set = .arm := by rw [h]; rfl
  refine ⟨?_, ?_, ?_, hset, ?_⟩
  · rw [h]
    exact b.core.regs.mode_switchMode mode
  · have hpc : b'.core.pc = vector + InstrSet.arm.width := by
      rw [← b.core.pc_enterException mode vector returnAddress, Core.pc, Core.reg, h]
      rfl
    rw [Core.nextAddress, Core.width, hpc, hset, UInt32.add_sub_cancel]
  · rw [h]
    rfl
  · have hspsr : b'.core.regs.spsr = b.core.regs.packStatus := by rw [h]; rfl
    rw [hspsr, Registers.ofBits_packStatus]

/-- Looking at the interrupts either leaves the registers alone or, with IRQ enabled, enters the
interrupt exception. -/
lemma Board.updateInterrupts_cases (b : Board) :
    b.updateInterrupts.core.regs = b.core.regs ∨
      b.core.regs.flags.i = false ∧
        b.updateInterrupts.Entered b.core.regs.mode .irq irqVector := by
  have hregs := b.wake_regs
  rw [updateInterrupts_eq, ← hregs]
  split
  · unfold raiseIrq
    split
    · exact .inl rfl
    · rename_i henabled
      exact .inr ⟨Bool.eq_false_iff.mpr henabled, b.wake.entered_enterException _ _ _ rfl⟩
  · exact .inl rfl

namespace Board.Entered

variable {source target : Mode} {vector : Word} {b b' : Board}

/-- Whether an exception was entered can be seen on the registers. -/
lemma of_regs_eq (h : b.Entered source target vector) (hregs : b'.core.regs = b.core.regs) :
    b'.Entered source target vector := by
  have hnext : b'.core.nextAddress = b.core.nextAddress := by
    rw [Core.nextAddress, Core.pc, Core.reg, Core.width, hregs]
    rfl
  exact ⟨hregs ▸ h.mode, hnext.trans h.nextAddress, hregs ▸ h.disabled, hregs ▸ h.set,
    hregs ▸ h.saved⟩

/-- A board that has entered an exception stays there, as IRQ is disabled. -/
lemma updateInterrupts (h : b.Entered source target vector) :
    b.updateInterrupts.Entered source target vector := by
  rcases b.updateInterrupts_cases with hregs | ⟨henabled, -⟩
  · exact h.of_regs_eq hregs
  · exact nomatch henabled.symm.trans h.disabled

end Board.Entered

namespace Exec

/-- After an instruction that does not redirect the program counter, a board that has forgotten its
current instruction has no link to follow. -/
lemma advance_of_forgotten {b : Board} {h : Handle} (hw : h.instruction.writesPc = false)
    (hforgotten : b.core.current = none) : advance h b = setCurrent none b := by
  have hnone : (if b.core.cacheEnabled then b.core.current else none) = none := by
    rw [hforgotten, ite_self]
  have hread : core (fun c => if c.cacheEnabled then c.current else none) b = .ok none b :=
    congrArg (EStateM.Result.ok · b) hnone
  rw [advance, hw]
  exact bind_of_ok hread

end Exec

end Armv4T
