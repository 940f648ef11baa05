import Mathlib
import Armv4T.Proofs.Step.Interrupts
import Armv4T.Proofs.Step.Return

/-!
# Sequential execution

Between steps the program counter is one instruction width ahead of the next instruction, and an
instruction that does not redirect it leaves it alone. So the next instruction is the one that
follows in memory, as long as the width does not change with the instruction set.

There is one kind of instruction that changes the set and is not said to redirect the program
counter: a comparison that names the program counter as its destination restores the saved status
word in place of the flags. If that is one of Thumb state then execution continues in the middle of
the instructions that follow (`Exec.nextAddress_step_iff`).
-/

namespace Armv4T

/-- A comparison that names the program counter as its destination, and restores a saved status word
of Thumb state. -/
inductive Instruction.ReturnsToThumb (r : Registers) : Instruction → Prop
  | comparison {cond : Condition} {op : Arm.AluOp} {rn : Reg} {operand : Operand}
    (hop : op.isTest = true) (hcond : cond.passes r.flags = true)
    (hmode : r.mode.hasSpsr = true) (hset : r.spsr.bit 5 = true) :
    ReturnsToThumb r (.arm ⟨cond, .dataProcessing op true .pc rn operand⟩)

lemma Instruction.ReturnsToThumb.restoresStatus {r : Registers} {i : Instruction}
    (h : i.ReturnsToThumb r) : i.restoresStatus = true := by
  cases h
  rfl

/-- Moving the program counter makes no difference to that. -/
lemma Instruction.returnsToThumb_write_pc {r : Registers} {value : Word} {i : Instruction} :
    i.ReturnsToThumb (r.write .pc value) ↔ i.ReturnsToThumb r := by
  constructor
  · rintro ⟨hop, hcond, hmode, hset⟩
    exact .comparison hop hcond hmode hset
  · rintro ⟨hop, hcond, hmode, hset⟩
    exact .comparison hop hcond hmode hset

/-- Of the instructions that do not redirect the program counter, comparisons with the program
counter as destination are the only ones that may restore the saved status word. -/
lemma Instruction.exists_comparison {i : Instruction} (hw : i.writesPc = false)
    (hrestores : i.restoresStatus = true) :
    ∃ cond op rn operand, op.isTest = true ∧
      i = .arm ⟨cond, .dataProcessing op true .pc rn operand⟩ := by
  rcases i with ⟨cond, op⟩ | i
  · cases op with
    | dataProcessing op setFlags rd rn operand =>
      obtain ⟨rfl, rfl⟩ : setFlags = true ∧ rd = .pc := by
        simpa [restoresStatus, Arm.Op.restoresStatus] using hrestores
      exact ⟨cond, op, rn, operand, by simpa [writesPc, Arm.Op.writesPc] using hw, rfl⟩
    | loadMultiple userBank list a =>
      have hlists : userBank = true ∧ list.contains .pc = true := by
        simpa [restoresStatus, Arm.Op.restoresStatus] using hrestores
      have hspared : list.contains .pc = false ∧ a.writesPc = false := by
        simpa [writesPc, Arm.Op.writesPc] using hw
      exact absurd (hspared.1.symm.trans hlists.2) Bool.false_ne_true
    | _ => exact absurd hrestores Bool.false_ne_true
  · exact absurd hrestores Bool.false_ne_true

/-! ### What stays -/

/-- A change of the core that neither jumps nor traps leaves the program counter and the set. -/
lemma Core.Change.sequential {restores : Bool} {f : Core → Core}
    (h : Change ⟨false, false, restores, true⟩ f) (c : Core) :
    (f c).pc = c.pc ∧ (f c).regs.set = c.regs.set := by
  cases h with
  | setReg hr value => exact ⟨c.pc_setReg (hr.resolve_left Bool.false_ne_true) value, rfl⟩
  | setSet hjumps _ => exact absurd hjumps Bool.false_ne_true
  | testCondition cond =>
    have hregs := c.testCondition_regs cond
    exact ⟨congrArg (·.read .pc) hregs, congrArg Registers.set hregs⟩
  | @evalSingle a ha =>
    obtain ⟨-, -, hset, hpc⟩ := evalSingle_keeps c a
    exact ⟨hpc (ha.resolve_left Bool.false_ne_true), hset⟩
  | switchMode mode =>
    obtain ⟨hpc, -, hset⟩ := c.regs.switchMode_unbanked mode
    exact ⟨hpc, hset⟩
  | trap htraps _ => exact absurd htraps Bool.false_ne_true
  | mapFlags | charge | evalOperand | halt => exact ⟨rfl, rfl⟩

namespace Exec

/-- The boards have the same program counter, and the same set unless a status word may have been
restored. -/
def Sequential (restores : Bool) (b b' : Board) : Prop :=
  b'.core.pc = b.core.pc ∧ (restores = false → b'.core.regs.set = b.core.regs.set)

lemma passage_sequential (restores : Bool) :
    Board.Passage ⟨false, false, restores, true⟩ (Sequential restores) where
  of_bare h := by
    have hregs := Board.regs_of_bare h
    exact ⟨congrArg (·.read .pc) hregs, fun _ => congrArg Registers.set hregs⟩
  trans h h' := ⟨h'.1.trans h.1, fun hr => (h'.2 hr).trans (h.2 hr)⟩
  mapCore hf b := ⟨(hf.sequential b.core).1, fun _ => (hf.sequential b.core).2⟩
  loadStatus hr {b status regs} hload _ := by
    refine ⟨?_, fun hnone => absurd hr (by rw [hnone]; decide)⟩
    show regs.read .pc = b.core.regs.read .pc
    obtain ⟨m, -, rfl⟩ := Registers.exists_of_loadStatus_ok hload
    exact (b.core.regs.switchMode_unbanked m).1
  writeSaved mask value b := by
    have hkeeps : (Arm.writeSaved mask value b.core.regs).read .pc = b.core.regs.read .pc ∧
        (Arm.writeSaved mask value b.core.regs).set = b.core.regs.set := by
      unfold Arm.writeSaved
      split <;> exact ⟨rfl, rfl⟩
    exact ⟨hkeeps.1, fun _ => hkeeps.2⟩
  writeCurrent hwrite :=
    ⟨(Arm.writeCurrent_keeps hwrite).1, fun _ => (Arm.writeCurrent_keeps hwrite).2⟩
  store _ _ _ _ _ := ⟨rfl, fun _ => rfl⟩

/-- An instruction that does not redirect the program counter and does not trap leaves it, and
leaves the set unless it restores a status word. -/
lemma sequential_instruction {h : Handle}
    (hdecoded : ∃ set opcode, h.instruction = .decode set opcode)
    (hw : h.instruction.writesPc = false) (htraps : h.instruction.isSoftwareInterrupt = false) :
    Establishes (Sequential h.instruction.restoresStatus) (instruction h) := by
  have hcovers : Scope.Covers ⟨false, false, h.instruction.restoresStatus, true⟩ h.instruction :=
    ⟨.inr hw, .inr htraps, Bool.eq_false_or_eq_true _, .inl rfl⟩
  exact (made_instruction hcovers (.inr hdecoded)).establishes (passage_sequential _)

end Exec

/-! ### Comparisons that restore a status word -/

lemma Exec.loadStatus_set {status : Word} {b b' : Board} (hok : loadStatus status b = .ok () b') :
    b'.core.regs.set = .ofBit (status.bit 5) := by
  unfold loadStatus at hok
  cases hload : b.core.regs.loadStatus status with
  | error fault =>
    rw [hload] at hok
    exact nomatch hok
  | ok regs =>
    rw [hload] at hok
    obtain ⟨m, -, rfl⟩ := Registers.exists_of_loadStatus_ok hload
    obtain ⟨-, rfl⟩ := EStateM.Result.ok.inj hok
    rfl

lemma InstrSet.ofBit_eq_thumb_iff {bit : Bool} : InstrSet.ofBit bit = .thumb ↔ bit = true := by
  cases bit <;> decide

namespace Arm

/-- A comparison with the program counter as destination restores the saved status word, if there is
one in its mode. -/
lemma dataProcessing_comparison {op : AluOp} (hop : op.isTest = true) (rn : Reg) (operand : Operand)
    {b b' : Board} (hok : dataProcessing op true .pc rn operand b = .ok () b') :
    b'.core.regs.set =
      if b.core.regs.mode.hasSpsr then .ofBit (b.core.regs.spsr.bit 5) else b.core.regs.set := by
  let b₁ := b.mapCore (·.evalOperand operand)
  let result := op.apply (b.core.reg rn) (b.core.operandValue operand).1
    (b.core.operandValue operand).2 b.core.regs.flags
  have hstart : dataProcessing op true .pc rn operand b = (do
      if b.core.regs.mode.hasSpsr then Exec.loadStatus b.core.regs.spsr
      else Exec.mapFlags result.flags
      if !op.isTest then Exec.setReg .pc result.value : Exec Unit) b₁ := rfl
  rw [hstart, hop] at hok
  cases hsaves : b.core.regs.mode.hasSpsr with
  | true =>
    rw [hsaves] at hok
    obtain ⟨u, b₂, hload, hrest⟩ := Exec.exists_of_bind_ok (x := Exec.loadStatus _) hok
    obtain ⟨-, rfl⟩ := EStateM.Result.ok.inj hrest
    exact Exec.loadStatus_set hload
  | false =>
    rw [hsaves] at hok
    obtain ⟨-, rfl⟩ := EStateM.Result.ok.inj hok
    rfl

/-- After a comparison with the program counter as destination the set is Thumb exactly if it
returns there. -/
lemma set_comparison {cond : Condition} {op : AluOp} (hop : op.isTest = true) {rn : Reg}
    {operand : Operand} {address : Word} {b b' : Board} (hset : b.core.regs.set = .arm)
    (hok : exec ⟨cond, .dataProcessing op true .pc rn operand⟩ address b = .ok () b') :
    b'.core.regs.set = .thumb ↔
      Instruction.ReturnsToThumb b.core.regs (.arm ⟨cond, .dataProcessing op true .pc rn operand⟩) := by
  obtain ⟨u, b₁, hfetch, hrest⟩ := Exec.exists_of_bind_ok (x := Exec.prefetch .arm) hok
  obtain ⟨-, rfl⟩ := EStateM.Result.ok.inj ((Exec.prefetch_apply _ _).symm.trans hfetch)
  obtain ⟨passed, b₂, htest, hact⟩ := Exec.exists_of_bind_ok (x := Exec.testCondition cond) hrest
  obtain ⟨rfl, rfl⟩ := EStateM.Result.ok.inj ((Exec.testCondition_apply _ _).symm.trans htest)
  rw [Core.testCondition_passed] at hact
  let b₂ := (b.mapCore (·.charge (b.bus.waitPrefetch .arm b.core.pc))).mapCore fun c =>
    (c.testCondition cond).2
  have hregs : b₂.core.regs = b.core.regs := Core.testCondition_regs _ cond
  replace hact : (if cond.passes b.core.regs.flags = true then
      dataProcessing op true .pc rn operand else pure ()) b₂ = .ok () b' := hact
  cases hcond : cond.passes b.core.regs.flags with
  | true =>
    rw [if_pos hcond] at hact
    have hset' := dataProcessing_comparison hop rn operand hact
    rw [hregs] at hset'
    cases hmode : b.core.regs.mode.hasSpsr with
    | true =>
      rw [hset', hmode, if_pos rfl, InstrSet.ofBit_eq_thumb_iff]
      refine ⟨fun hbit => .comparison hop hcond hmode hbit, ?_⟩
      rintro ⟨-, -, -, hbit⟩
      exact hbit
    | false =>
      rw [hset', hmode, if_neg Bool.false_ne_true, hset]
      refine ⟨nofun, ?_⟩
      rintro ⟨-, -, hmode', -⟩
      exact nomatch hmode.symm.trans hmode'
  | false =>
    rw [if_neg (Bool.eq_false_iff.mp hcond)] at hact
    obtain ⟨-, rfl⟩ := EStateM.Result.ok.inj hact
    rw [hregs, hset]
    refine ⟨nofun, ?_⟩
    rintro ⟨-, hcond', -, -⟩
    exact nomatch hcond.symm.trans hcond'

end Arm

lemma InstrSet.width_inj {s t : InstrSet} : s.width = t.width ↔ s = t := by
  cases s <;> cases t <;> decide

namespace Exec

/-- After an instruction that does not redirect the program counter and does not trap, the set is
another one exactly if a comparison has returned to Thumb state. -/
lemma set_of_sequential {h : Handle} {b b' : Board} (hset : h.instruction.set = b.core.regs.set)
    (hdecoded : ∃ set opcode, h.instruction = .decode set opcode)
    (hw : h.instruction.writesPc = false) (htraps : h.instruction.isSoftwareInterrupt = false)
    (hok : instruction h b = .ok () b') :
    b'.core.regs.set = b.core.regs.set ↔ ¬h.instruction.ReturnsToThumb b.core.regs := by
  have hsequential := sequential_instruction hdecoded hw htraps b
  rw [after_of_ok hok] at hsequential
  cases hrestores : h.instruction.restoresStatus with
  | false =>
    refine iff_of_true (hsequential.2 hrestores) fun hreturns => ?_
    exact nomatch hrestores.symm.trans hreturns.restoresStatus
  | true =>
    obtain ⟨cond, op, rn, operand, hop, hi⟩ := Instruction.exists_comparison hw hrestores
    have harm : b.core.regs.set = .arm := by rw [← hset, hi]; rfl
    unfold instruction at hok
    rw [hi] at hok ⊢
    rw [← Arm.set_comparison hop harm hok, harm]
    cases b'.core.regs.set <;> decide

/-- The address of the next instruction depends on the registers alone. -/
lemma nextAddress_of_regs {c : Core} {r : Registers} (h : c.regs = r) :
    c.nextAddress = r.read .pc - r.set.width := by
  rw [← h]
  rfl

variable {b b' : Board} {opcode : Word}

/-- Execution is sequential. If a board executes an instruction that does not redirect the program
counter and is not a software interrupt, and the step finishes and takes no interrupt, then the next
instruction is the one after it, whichever set it belongs to, unless a comparison has restored a
status word of Thumb state. In that case it is not. -/
theorem nextAddress_step_iff (hx : b.Executes (.decode b.core.regs.set opcode))
    (hw : (Instruction.decode b.core.regs.set opcode).writesPc = false)
    (htraps : (Instruction.decode b.core.regs.set opcode).isSoftwareInterrupt = false)
    (hok : step b = .ok () b') (hirq : ∀ b₁, b.Updates b₁ → ¬b₁.TakesIrq) :
    b'.core.nextAddress = b.core.nextAddress + b.core.width ↔
      ¬(Instruction.decode b.core.regs.set opcode).ReturnsToThumb b.core.regs := by
  obtain ⟨b₃, hupdates, rfl⟩ := exists_updates_of_step hok
  have hregs₃ : b₃.updateInterrupts.core.regs = b₃.core.regs := not_not.mp (hirq b₃ hupdates)
  obtain ⟨h, b₀, hi, hbare, hexecute⟩ := executeNext_of_executes hx
  rw [Board.Updates, hx.1] at hupdates
  obtain ⟨u, b₂, hinstruction, hadvance⟩ := exists_of_bind_ok (hexecute.symm.trans hupdates)
  -- looking for the successor changes nothing
  have hfollow : advance h b₂ = followCurrent h.next b₂ := by
    unfold advance
    rw [hi, hw]
    rfl
  have hregs₂ : b₃.core.regs = b₂.core.regs :=
    Board.regs_of_bare ((quiet_followCurrent h.next).bare (hfollow.symm.trans hadvance))
  have hset := Instruction.set_decode b.core.regs.set opcode
  let b₁ := b₀.mapCore (pipelined (Instruction.decode b.core.regs.set opcode).set)
  have hregs₁ : b₁.core.regs = b.core.regs.write .pc (b.core.pc + _) := regs_pipelined hbare _
  have hset₁ : b₁.core.regs.set = b.core.regs.set := by
    rw [hregs₁]
    rfl
  have hpc₁ : b₁.core.pc = b.core.pc + b.core.width := by
    rw [Core.pc, Core.reg, hregs₁, Registers.read_pc_write_pc, hset]
    rfl
  have hdecoded : ∃ set opcode, h.instruction = .decode set opcode := ⟨_, _, hi⟩
  rw [← hi] at hw htraps hset ⊢
  have hset₂ := set_of_sequential (hset.trans hset₁.symm) hdecoded hw htraps hinstruction
  have hpc₂ : b₂.core.regs.read .pc = b.core.pc + b.core.width := by
    have hsequential := sequential_instruction hdecoded hw htraps b₁
    rw [after_of_ok hinstruction] at hsequential
    exact hsequential.1.trans hpc₁
  rw [hset₁, hregs₁, Instruction.returnsToThumb_write_pc] at hset₂
  rw [← hset₂, nextAddress_of_regs (hregs₃.trans hregs₂), hpc₂, Core.nextAddress,
    UInt32.sub_add_cancel, sub_eq_iff_eq_add, add_right_inj, Core.width, InstrSet.width_inj, eq_comm]

/-- A board that executes `ADD r1, r1, #1` next. -/
def adding : Board := ((Machine.handheld [(0x03000000, 0xE2811001)]).reset 0x03000000).board

/-- After an addition the next instruction is the one that follows. -/
theorem nextAddress_step_iff_adding :
    ∃ b', step adding = .ok () b' ∧ b'.core.nextAddress = adding.core.nextAddress + 4 := by
  have hx : adding.Executes (.decode .arm 0xE2811001) := by decide +kernel
  have hstep : step adding = .ok () (step.after adding) := ok_of_finishes (by decide +kernel)
  have hirq (b₁ : Board) (h : adding.Updates b₁) : ¬b₁.TakesIrq :=
    h.not_takesIrq rfl (by decide +kernel)
  have hnever : ¬(Instruction.decode .arm 0xE2811001).restoresStatus = true := by decide +kernel
  refine ⟨_, hstep, (nextAddress_step_iff hx (by decide +kernel) rfl hstep hirq).mpr ?_⟩
  exact fun hreturns => hnever hreturns.restoresStatus

/-- A board in Supervisor mode that executes `TEQP pc, r0` with a saved status word of Thumb
state next. -/
def comparing : Board :=
  (((Machine.handheld [(0x03000000, 0xE13FF000)]).reset 0x03000000).board.mapCore
    (·.switchMode .supervisor)).mapCore fun c => { c with regs := { c.regs with spsr := 0x33 } }

/-- It is not true that execution is sequential after every instruction that does not redirect the
program counter. -/
theorem not_forall_nextAddress_step :
    ¬∀ (b b' : Board) (opcode : Word), b.Executes (.decode b.core.regs.set opcode) →
      (Instruction.decode b.core.regs.set opcode).writesPc = false →
      (Instruction.decode b.core.regs.set opcode).isSoftwareInterrupt = false →
      step b = .ok () b' → (∀ b₁, b.Updates b₁ → ¬b₁.TakesIrq) →
      b'.core.nextAddress = b.core.nextAddress + b.core.width := by
  intro hall
  have hx : comparing.Executes (.decode comparing.core.regs.set 0xE13FF000) := by decide +kernel
  have hstep : step comparing = .ok () (step.after comparing) := ok_of_finishes (by decide +kernel)
  have hnext : (step.after comparing).core.nextAddress ≠
      comparing.core.nextAddress + comparing.core.width := by decide +kernel
  have hirq (b₁ : Board) (h : comparing.Updates b₁) : ¬b₁.TakesIrq :=
    h.not_takesIrq rfl (by decide +kernel)
  exact hnext (hall comparing _ _ hx (by decide +kernel) (by decide +kernel) hstep hirq)

end Exec

end Armv4T
