import Mathlib
import Armv4T.Proofs.Cache.Tidy
import Armv4T.Proofs.Step.Fetch

/-!
# Branches to fixed targets

A branch to a fixed target changes the core alone, and if its condition passes then the program
counter moves by the distance in its opcode. This is what makes it sound to link the branch to the
decoding of its target.
-/

namespace Armv4T

@[simp] lemma Core.pc_setReg_pc (c : Core) (value : Word) : (c.setReg .pc value).pc = value := by
  simp [pc, reg, setReg, Registers.read, Registers.write]

/-- A change of the core that moves the program counter by a distance, if the condition passed. -/
structure Core.Jump (offset : Word) (c c' : Core) : Prop where
  set : c'.regs.set = c.regs.set
  pc : c'.conditionPassed = true → c'.pc = c.pc + offset

namespace Exec

/-- The outcome of testing a condition. -/
lemma testCondition_apply (cond : Condition) (b : Board) :
    testCondition cond b =
      .ok (b.core.testCondition cond).1 (b.mapCore fun c => (c.testCondition cond).2) := rfl

lemma prefetch_apply (set : InstrSet) (b : Board) :
    prefetch set b = .ok () (b.mapCore (·.charge (b.bus.waitPrefetch set b.core.pc))) := rfl

end Exec

namespace Core

/-- Cycles make no difference to a condition. -/
lemma testCondition_charge (c : Core) (cycles : Word) (cond : Condition) :
    ((c.charge cycles).testCondition cond).1 = (c.testCondition cond).1 :=
  ((c.charge cycles).testCondition_passed cond).trans (c.testCondition_passed cond).symm

/-- A test that fails is recorded. -/
lemma testCondition_failed {c : Core} {cond : Condition} (h : (c.testCondition cond).1 = false) :
    (c.testCondition cond).2.conditionPassed = false := by
  unfold testCondition at h ⊢
  split at h
  · exact absurd h (by simp)
  · rename_i hal
    rw [if_neg hal]
    exact h

end Core

namespace Arm

/-- A branch charges the fetch, saves the return address if it is a call, and moves the program
counter. -/
lemma branch_apply (link : Bool) (offset : Word) (b : Board) :
    ∃ c, branch link offset b = .ok () (b.mapCore fun _ => c) ∧
      c.regs.set = b.core.regs.set ∧ c.pc = b.core.pc + offset := by
  let b₁ := b.mapCore (·.charge (b.bus.waitPrefetch .arm b.core.pc))
  have hpc : Exec.core Core.pc b₁ = .ok b.core.pc b₁ := rfl
  unfold branch
  rw [Exec.bind_of_ok (Exec.prefetch_apply .arm b), Exec.bind_of_ok hpc]
  cases link with
  | true => exact ⟨_, rfl, rfl, Core.pc_setReg_pc _ _⟩
  | false => exact ⟨_, rfl, rfl, Core.pc_setReg_pc _ _⟩

/-- A branch whose condition passes changes the core alone, and moves the program counter. -/
lemma branch_of_passed {cond : Condition} {b : Board} (h : (b.core.testCondition cond).1 = true)
    (link : Bool) (offset : Word) :
    ∃ c, insteadOfFetch cond (branch link offset) b = .ok () (b.mapCore fun _ => c) ∧
      c.regs.set = b.core.regs.set ∧ c.pc = b.core.pc + offset := by
  have hregs := b.core.testCondition_regs cond
  have hset : (b.core.testCondition cond).2.regs.set = b.core.regs.set := by rw [hregs]
  have hpc : (b.core.testCondition cond).2.pc = b.core.pc := by
    rw [Core.pc, Core.reg, hregs]
    rfl
  unfold insteadOfFetch
  rw [Exec.bind_of_ok (Exec.testCondition_apply cond b), h]
  obtain ⟨c, hbranch, hset', hpc'⟩ :=
    branch_apply link offset (b.mapCore fun c => (c.testCondition cond).2)
  exact ⟨c, hbranch, hset'.trans hset, hpc'.trans (congrArg (· + offset) hpc)⟩

/-- A branch under a condition changes the core alone, and moves the program counter if the
condition passes. -/
lemma branch_jump (cond : Condition) (link : Bool) (offset : Word) (b : Board) :
    ∃ c, insteadOfFetch cond (branch link offset) b = .ok () (b.mapCore fun _ => c) ∧
      b.core.Jump offset c := by
  rcases hpassed : (b.core.testCondition cond).1 with _ | _
  · have hset : (b.core.testCondition cond).2.regs.set = b.core.regs.set := by
      rw [b.core.testCondition_regs cond]
    unfold insteadOfFetch
    rw [Exec.bind_of_ok (Exec.testCondition_apply cond b), hpassed]
    refine ⟨_, Exec.prefetch_apply .arm _, hset, fun h => ?_⟩
    have hfailed := Core.testCondition_failed hpassed
    exact absurd (hfailed.symm.trans h) Bool.false_ne_true
  · obtain ⟨c, hbranch, hset, hpc⟩ := branch_of_passed hpassed link offset
    exact ⟨c, hbranch, hset, fun _ => hpc⟩

end Arm

namespace Thumb

lemma branchBy_apply (offset : Word) (b : Board) :
    branchBy offset b = .ok () (b.mapCore fun c => c.setReg .pc (c.pc + offset)) := rfl

lemma branch_jump (offset address : Word) (b : Board) :
    ∃ c, exec (.branch offset) address b = .ok () (b.mapCore fun _ => c) ∧
      b.core.Jump offset c :=
  ⟨_, rfl, rfl, fun _ => Core.pc_setReg_pc _ _⟩

/-- A conditional branch is charged for the fetch and tests its condition. -/
lemma branchIf_apply (cond : Condition) (offset address : Word) (b : Board) :
    exec (.branchIf cond offset) address b =
      (if (b.core.testCondition cond).1 then branchBy offset else pure ())
        ((b.mapCore (·.charge (b.bus.waitPrefetch .thumb b.core.pc))).mapCore fun c =>
          (c.testCondition cond).2) := by
  let b₁ := b.mapCore (·.charge (b.bus.waitPrefetch .thumb b.core.pc))
  have htest : (b₁.core.testCondition cond).1 = (b.core.testCondition cond).1 :=
    b.core.testCondition_charge _ cond
  have hexec : exec (.branchIf cond offset) address b =
      (Exec.testCondition cond >>= fun passed =>
        if passed then branchBy offset else pure ()) b₁ := rfl
  rw [hexec, Exec.bind_of_ok (Exec.testCondition_apply cond b₁), htest]

/-- A conditional branch whose condition passes changes the core alone, and moves the program
counter. -/
lemma branchIf_of_passed {cond : Condition} {b : Board} (h : (b.core.testCondition cond).1 = true)
    (offset address : Word) :
    ∃ c, exec (.branchIf cond offset) address b = .ok () (b.mapCore fun _ => c) ∧
      c.regs.set = b.core.regs.set ∧ c.pc = b.core.pc + offset := by
  let charged := b.core.charge (b.bus.waitPrefetch .thumb b.core.pc)
  have hregs : (charged.testCondition cond).2.regs = b.core.regs := charged.testCondition_regs cond
  have hset : (charged.testCondition cond).2.regs.set = b.core.regs.set := by rw [hregs]
  have hpc : (charged.testCondition cond).2.pc = b.core.pc := by
    rw [Core.pc, Core.reg, hregs]
    rfl
  rw [branchIf_apply, h]
  refine ⟨_, branchBy_apply offset _, hset, ?_⟩
  exact (Core.pc_setReg_pc _ _).trans (congrArg (· + offset) hpc)

/-- A conditional branch changes the core alone, and moves the program counter if its condition
passes. -/
lemma branchIf_jump (cond : Condition) (offset address : Word) (b : Board) :
    ∃ c, exec (.branchIf cond offset) address b = .ok () (b.mapCore fun _ => c) ∧
      b.core.Jump offset c := by
  rcases hpassed : (b.core.testCondition cond).1 with _ | _
  · let charged := b.core.charge (b.bus.waitPrefetch .thumb b.core.pc)
    have hset : (charged.testCondition cond).2.regs.set = b.core.regs.set := by
      rw [charged.testCondition_regs cond]
      rfl
    have htest : (charged.testCondition cond).1 = false :=
      (b.core.testCondition_charge _ cond).trans hpassed
    rw [branchIf_apply, hpassed]
    refine ⟨_, rfl, hset, fun h => ?_⟩
    have hfailed := Core.testCondition_failed htest
    exact absurd (hfailed.symm.trans h) Bool.false_ne_true
  · obtain ⟨c, hbranch, hset, hpc⟩ := branchIf_of_passed hpassed offset address
    exact ⟨c, hbranch, hset, fun _ => hpc⟩

end Thumb

namespace Exec

/-- A branch to a fixed target changes the core alone, and moves the program counter if its
condition passes. -/
theorem instruction_jump {h : Handle} {offset : Word}
    (hjump : h.instruction.jumpOffset? = some offset) (b : Board) :
    ∃ c, instruction h b = .ok () (b.mapCore fun _ => c) ∧ b.core.Jump offset c := by
  unfold instruction
  rcases hi : h.instruction with ⟨cond, op⟩ | i
  · rw [hi] at hjump
    cases op with
    | branch link distance =>
      obtain rfl := Option.some.inj hjump
      exact Arm.branch_jump cond link distance b
    | _ => exact nomatch hjump
  · rw [hi] at hjump
    cases i with
    | branch distance =>
      obtain rfl := Option.some.inj hjump
      exact Thumb.branch_jump distance h.address b
    | branchIf cond distance =>
      obtain rfl := Option.some.inj hjump
      exact Thumb.branchIf_jump cond distance h.address b
    | _ => exact nomatch hjump

end Exec

end Armv4T
