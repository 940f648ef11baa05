import Mathlib
import Armv4T.Proofs.Step.Jump
import Armv4T.Proofs.Step.Sequential

/-!
# What is known of an instruction ahead of its execution

The sequencer asks two things of an instruction before it executes it: whether the instruction may
redirect the program counter (`Instruction.writesPc`), and whether it is a branch with a fixed
target (`Instruction.isFixedJump`). Both answers can be relied on (`Exec.pc_instruction_decode`). An
instruction that is not said to redirect the program counter, and is no software interrupt, leaves
it alone, also if it stops with a fault halfway. A branch with a fixed target whose condition
(`Instruction.condition`) holds goes to an address that its own address and its opcode determine.
-/

namespace Armv4T

/-- The condition under which an instruction acts. -/
def Instruction.condition : Instruction → Condition
  | arm i => i.cond
  | thumb (.branchIf cond _) => cond
  | thumb _ => .al

namespace Exec

variable {b : Board} {h : Handle}

/-- A branch with a fixed target whose condition holds finishes, and moves the program counter by
the distance in its opcode. -/
lemma instruction_jump_of_passes {offset : Word} (hjump : h.instruction.jumpOffset? = some offset)
    (hcond : h.instruction.condition.passes b.core.regs.flags = true) :
    ∃ b', instruction h b = .ok () b' ∧ b'.core.pc = b.core.pc + offset := by
  unfold instruction
  rcases hi : h.instruction with ⟨cond, op⟩ | i
  · rw [hi] at hjump hcond
    cases op with
    | branch link distance =>
      obtain rfl := Option.some.inj hjump
      have hpassed := (b.core.testCondition_passed cond).trans hcond
      obtain ⟨c, hbranch, -, hpc⟩ := Arm.branch_of_passed hpassed link distance
      exact ⟨_, hbranch, hpc⟩
    | _ => exact nomatch hjump
  · rw [hi] at hjump hcond
    cases i with
    | branch distance =>
      obtain rfl := Option.some.inj hjump
      exact ⟨_, rfl, Core.pc_setReg_pc _ _⟩
    | branchIf cond distance =>
      obtain rfl := Option.some.inj hjump
      have hpassed := (b.core.testCondition_passed cond).trans hcond
      obtain ⟨c, hbranch, -, hpc⟩ := Thumb.branchIf_of_passed hpassed distance h.address
      exact ⟨_, hbranch, hpc⟩
    | _ => exact nomatch hjump

/-- What is known of a decoded instruction ahead of its execution is right, for every opcode of
either set. If it is not said to redirect the program counter and is no software interrupt, then the
program counter is the same after its execution on every board, finished or stopped by a fault. If
it is said to be a branch with a fixed target, then there is an address that the program counter has
after its execution on every board on which it reads as the address of the branch and two
instruction widths and the condition of the branch holds, and there the execution finishes. The
recorded successor makes no difference. -/
theorem pc_instruction_decode (set : InstrSet) (opcode address : Word) :
    let h := Handle.decode set opcode address
    (h.instruction.writesPc = false → h.instruction.isSoftwareInterrupt = false →
        ∀ next b, ((instruction { h with next }).after b).core.pc = b.core.pc) ∧
      (h.instruction.isFixedJump = true → ∃ target, ∀ next, ∀ b : Board,
        b.core.pc = address + 2 * set.width →
        h.instruction.condition.passes b.core.regs.flags = true →
          ∃ b', instruction { h with next } b = .ok () b' ∧ b'.core.pc = target) := by
  intro h
  refine ⟨fun hw htraps next b => ?_, fun hfixed => ?_⟩
  · exact (sequential_instruction ⟨set, opcode, rfl⟩ hw htraps b).1
  · rw [← h.instruction.isSome_jumpOffset?] at hfixed
    obtain ⟨offset, hjump⟩ := Option.isSome_iff_exists.mp hfixed
    refine ⟨address + 2 * set.width + offset, fun next b hpc hcond => ?_⟩
    rw [← hpc]
    exact instruction_jump_of_passes hjump hcond

/-- A strict handheld that executes an instruction at 0x03000000, with a base that no region
claims. -/
def unclaimed : Board :=
  { core := { regs := (Registers.write {} .r0 0x01000000).write .pc 0x03000008 }
    bus := { Bus.handheld with strict := true } }

/-- A handheld that executes a Thumb instruction at 0x03000000, with other registers and flags. -/
def unequal : Board :=
  { core :=
      { regs := { (Registers.write {} .r0 7).write .pc 0x03000004 with
          set := .thumb
          flags := { n := true } } }
    bus := .handheld }

/-- A load that faults after it has written its base back, and a conditional branch of Thumb state
on two boards that have no more in common than the program counter and the failed comparison. -/
theorem pc_instruction_decode_faulting :
    let load := Handle.decode .arm 0xE4901004 0x03000000
    let branch := Handle.decode .thumb 0xD1FE 0x03000000
    let other : Board := unclaimed.mapCore (·.setReg .pc 0x03000004)
    (load.instruction.writesPc = false ∧ load.instruction.isSoftwareInterrupt = false ∧
        ∃ b', instruction load unclaimed = .error (.memoryViolation 0x01000000) b' ∧
          b'.core.reg .r0 = 0x01000004 ∧ b'.core.pc = 0x03000008) ∧
      branch.instruction.isFixedJump = true ∧
        ∃ target, (∃ b', instruction branch unequal = .ok () b' ∧ b'.core.pc = target) ∧
          ∃ b', instruction branch other = .ok () b' ∧ b'.core.pc = target := by
  intro load branch other
  have hw : load.instruction.writesPc = false := by decide +kernel
  have htraps : load.instruction.isSoftwareInterrupt = false := by decide +kernel
  have hfixed : branch.instruction.isFixedJump = true := by decide +kernel
  have hfaults : instruction load unclaimed =
      .error (.memoryViolation 0x01000000) ((instruction load).after unclaimed) :=
    error_of_stops (by decide +kernel)
  have hpc := (pc_instruction_decode .arm 0xE4901004 0x03000000).1 hw htraps none unclaimed
  obtain ⟨target, htarget⟩ := (pc_instruction_decode .thumb 0xD1FE 0x03000000).2 hfixed
  refine ⟨⟨hw, htraps, _, hfaults, by decide +kernel, hpc⟩, hfixed, target, ?_, ?_⟩
  · exact htarget none unequal (by decide +kernel) (by decide +kernel)
  · exact htarget none other (by decide +kernel) (by decide +kernel)

end Exec

end Armv4T
