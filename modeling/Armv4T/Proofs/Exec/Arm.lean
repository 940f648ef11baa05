import Mathlib
import Armv4T.Instruction
import Armv4T.Proofs.Exec.Made

/-!
# What ARM instructions are made of

Every ARM instruction is made of primitive actions, and so are the services that both instruction
sets share. Which of the rare actions it contains can be read off the instruction: it writes the
program counter only if it is said to (`Op.writesPc`), it traps only if it is a software interrupt,
it restores the saved status word only if it sets the flags together with the program counter
(`Op.restoresStatus`), and only a few kinds store (`Op.stores`).
-/

namespace Armv4T

namespace Arm

/-- Whether an operation may restore the saved status word: one that sets the flags does so in
place of the flags if it names the program counter, and a block load of the User bank if it loads
the program counter. -/
def Op.restoresStatus : Op → Bool
  | dataProcessing _ setFlags rd _ _ => setFlags && rd == .pc
  | loadMultiple userBank list _ => userBank && list.contains .pc
  | _ => false

/-- Whether an operation stores: an exchange with memory, a store, and a block store. -/
def Op.stores : Op → Bool
  | swap .. | store .. | storeMultiple .. => true
  | _ => false

end Arm

/-- Whether a Thumb instruction stores: a store, a push, and a block store. -/
def Thumb.Instr.stores : Thumb.Instr → Bool
  | store .. | push .. | storeMultiple .. => true
  | _ => false

namespace Instruction

/-- Whether an instruction may restore the saved status word. -/
def restoresStatus : Instruction → Bool
  | arm i => i.op.restoresStatus
  | thumb _ => false

/-- Whether an instruction may store. -/
def stores : Instruction → Bool
  | arm i => i.op.stores
  | thumb i => i.stores

/-- Whether an instruction is a software interrupt. -/
def isSoftwareInterrupt : Instruction → Bool
  | arm ⟨_, .softwareInterrupt _⟩ => true
  | thumb (.softwareInterrupt _) => true
  | _ => false

end Instruction

/-- A scope covers the rare actions of an instruction. -/
structure Exec.Scope.Covers (s : Exec.Scope) (i : Instruction) : Prop where
  jumps : s.jumps = true ∨ i.writesPc = false
  traps : s.traps = true ∨ i.isSoftwareInterrupt = false
  restores : s.restores = true ∨ i.restoresStatus = false
  stores : s.stores = true ∨ i.stores = false

namespace Exec.Made

variable {s : Scope}

/-! ### Services -/

lemma raiseTrap (h : s.traps = true) : Made s (update Board.raiseTrap) := by
  have hparts : update Board.raiseTrap = (do
      let returnAddress ← Exec.core Core.nextAddress
      Exec.onCore (·.enterException .supervisor trapVector returnAddress)
      update (·.note (.trapTaken returnAddress))) := rfl
  rw [hparts]
  exact .bind (.core _ fun _ => rfl) fun _ => .bind (.onCore (.trap h _)) fun _ => .note _

lemma halt : Made s (update Board.halt) := by
  have hparts : update Board.halt = (do
      let notice ← Exec.core fun c => if c.halted then none else some (.halted c.nextAddress)
      Exec.onCore ({ · with halted := true })
      update (·.note? notice)) := rfl
  rw [hparts]
  refine .bind (.core _ fun _ => rfl) fun notice => .bind (.onCore .halt) fun _ => ?_
  cases notice with
  | none => exact .pure ()
  | some n => exact .note n

lemma putDivision (numerator denominator : Word) :
    Made s (Bios.putDivision numerator denominator) := by
  unfold Bios.putDivision
  refine .whenThen (.note _) fun _ => ?_
  exact .bind (.setReg (.inr (by decide)) _) fun _ =>
    .bind (.setReg (.inr (by decide)) _) fun _ => .setReg (.inr (by decide)) _

lemma dispatch (comment : Word) : Made s (Bios.dispatch comment) := by
  have hput (value : Word) : Made s (Exec.setReg .r0 value) := .setReg (.inr (by decide)) _
  unfold Bios.dispatch
  refine .bind (.reg _) fun r0 => .bind (.reg _) fun r1 => ?_
  split
  · exact .halt
  · exact .putDivision _ _
  · exact .putDivision _ _
  · exact hput _
  · exact hput _
  · exact hput _
  · exact .throw _

lemma softwareInterrupt (h : s.traps = true) (comment : Word) :
    Made s (Bios.softwareInterrupt comment) := by
  let serve (lines : InterruptLines) : Exec Unit :=
    if !lines.services then update Board.raiseTrap
    else if comment = Bios.haltService && !lines.master then update (·.note .haltIgnored)
    else Bios.dispatch comment
  have hserve : Bios.softwareInterrupt comment = fun b => serve b.irq b := by
    funext b
    unfold Bios.softwareInterrupt
    simp only [serve]
    split_ifs <;> rfl
  have hmade (lines : InterruptLines) : Made s (serve lines) :=
    .ite (.raiseTrap h) (.ite (.note _) (.dispatch comment))
  rw [hserve]
  exact .irq hmade

end Exec.Made

/-- A register list that is not said to contain the program counter does not list it. -/
lemma RegList.pc_notMem {l : RegList} (h : l.contains .pc = false) : Reg.pc ∉ l.toList := by
  simp [RegList.toList, h]

namespace Arm

open Exec (Made Scope)

variable {s : Scope}

lemma made_afterFetch {act : Exec Unit} (cond : Condition) (h : Made s act) :
    Made s (afterFetch cond act) :=
  .bind (.prefetch _) fun _ => .bind (.testCondition _) fun _ => .when h

lemma made_insteadOfFetch {act : Exec Unit} (cond : Condition) (h : Made s act) :
    Made s (insteadOfFetch cond act) :=
  .bind (.testCondition _) fun _ => .ite h (.prefetch _)

/-! ### Operations on registers -/

/-- What the shifter puts out is what the operand gives before. -/
lemma dataProcessing_eq (op : AluOp) (setFlags : Bool) (rd rn : Reg) (operand : Operand) :
    dataProcessing op setFlags rd rn operand = (do
      let shifted ← Exec.core (·.operandValue operand)
      Exec.onCore (·.evalOperand operand)
      let result ← Exec.core fun c => op.apply (c.reg rn) shifted.1 shifted.2 c.regs.flags
      if setFlags then
        let saved ← Exec.core fun c => (rd == .pc && c.regs.mode.hasSpsr, c.regs.spsr)
        if saved.1 then Exec.loadStatus saved.2 else Exec.mapFlags result.flags
      if !op.isTest then Exec.setReg rd result.value) := rfl

/-- With another register than the program counter, setting the flags restores no status word. -/
lemma dataProcessing_of_ne_pc (op : AluOp) (setFlags : Bool) {rd : Reg} (hrd : rd ≠ .pc) (rn : Reg)
    (operand : Operand) : dataProcessing op setFlags rd rn operand = (do
      let shifted ← Exec.core (·.operandValue operand)
      Exec.onCore (·.evalOperand operand)
      let result ← Exec.core fun c => op.apply (c.reg rn) shifted.1 shifted.2 c.regs.flags
      if setFlags then Exec.mapFlags result.flags
      if !op.isTest then Exec.setReg rd result.value) := by
  have hpc : (rd == Reg.pc) = false := beq_eq_false_iff_ne.mpr hrd
  funext b
  rw [dataProcessing_eq, hpc]
  rfl

lemma made_dataProcessing (op : AluOp) (setFlags : Bool) {rd : Reg} (rn : Reg) (operand : Operand)
    (hpc : s.jumps = true ∨ (rd == .pc && !op.isTest) = false)
    (hrestores : s.restores = true ∨ (setFlags && rd == .pc) = false) :
    Made s (dataProcessing op setFlags rd rn operand) := by
  have hput (value : Word) : Made s (if !op.isTest then Exec.setReg rd value else pure ()) := by
    by_cases htest : op.isTest
    · simpa [htest] using Made.pure ()
    · have hrd : s.jumps = true ∨ rd ≠ .pc := hpc.imp_right fun e => by simpa [htest] using e
      simpa [htest] using Made.setReg hrd value
  have hshifted (c : Core) : c.operandValue operand = c.seen.operandValue operand := by
    cases operand <;> rfl
  by_cases hrd : rd = .pc
  · rw [dataProcessing_eq]
    refine .bind (.core _ hshifted) fun _ => .bind (.onCore (.evalOperand _)) fun _ => ?_
    refine .bind (.core _ fun _ => rfl) fun result => ?_
    cases setFlags with
    | false => exact hput _
    | true =>
      have hs : s.restores = true := hrestores.resolve_right (by simp [hrd])
      refine .bind (.core _ fun _ => rfl) fun saved => ?_
      exact .iteThen (.loadStatus hs _) (.mapFlags fun _ => ⟨rfl, rfl⟩) fun _ => hput _
  · rw [dataProcessing_of_ne_pc op setFlags hrd]
    refine .bind (.core _ hshifted) fun _ => .bind (.onCore (.evalOperand _)) fun _ => ?_
    refine .bind (.core _ fun _ => rfl) fun result => ?_
    exact .whenThen (.mapFlags fun _ => ⟨rfl, rfl⟩) fun _ => hput _

lemma made_readStatus {rd : Reg} (saved : Bool) (h : s.jumps = true ∨ rd ≠ .pc) :
    Made s (readStatus rd saved) := by
  refine .bind (.core _ fun _ => ?_) fun status => .setReg h _
  split <;> rfl

lemma made_multiply (accumulate setFlags : Bool) {rd : Reg} (rn rs rm : Reg)
    (h : s.jumps = true ∨ rd ≠ .pc) : Made s (multiply accumulate setFlags rd rn rs rm) := by
  unfold multiply
  refine .bind (.reg rs) fun multiplier => .bind (.charge _) fun _ => ?_
  refine .bind (.reg rm) fun value => .iteThen (.reg rn) (.pure 0) fun addend => ?_
  refine .whenThen (.charge 1) fun _ => .whenThen (.mapFlags fun _ => ⟨rfl, rfl⟩) fun _ => ?_
  exact .setReg h _

lemma made_multiplyLong (signed accumulate setFlags : Bool) {rdHi rdLo : Reg} (rs rm : Reg)
    (hHi : s.jumps = true ∨ rdHi ≠ .pc) (hLo : s.jumps = true ∨ rdLo ≠ .pc) :
    Made s (multiplyLong signed accumulate setFlags rdHi rdLo rs rm) := by
  unfold multiplyLong
  refine .bind (.reg rs) fun multiplier => .bind (.charge _) fun _ => ?_
  refine .bind (.reg rm) fun value => .bind (.core _ fun _ => rfl) fun addend => ?_
  refine .whenThen (.charge 1) fun _ => .whenThen (.mapFlags fun _ => ⟨rfl, rfl⟩) fun _ => ?_
  exact .bind (.setReg hLo _) fun _ => .setReg hHi _

/-! ### Transfers -/

lemma made_swap (hs : s.stores = true) (byte : Bool) {rd : Reg} (rn rm : Reg)
    (h : s.jumps = true ∨ rd ≠ .pc) : Made s (swap byte rd rn rm) := by
  unfold swap
  refine .bind (.reg rn) fun address => .bind (.reg rm) fun value => ?_
  have hput (old : Word) : Made s (do Exec.setReg rd old; Exec.charge 1) :=
    .bind (.setReg h _) fun _ => .charge 1
  refine .ite ?_ ?_
  · refine .bind (.chargeBus fun _ => rfl) fun _ => .bind (.load _ _) fun old => ?_
    exact .bind (.store hs _ _ _) fun _ => .bind (.pure _) fun old => hput old
  · refine .bind (.chargeBus fun _ => rfl) fun _ => .bind (.load _ _) fun old => ?_
    exact .bind (.store hs _ _ _) fun _ => .bind (.pure _) fun old => hput old

lemma made_loadSingle (kind : LoadKind) {rd : Reg} (a : SingleAddress)
    (hrd : s.jumps = true ∨ rd ≠ .pc) (ha : s.jumps = true ∨ a.writesPc = false) :
    Made s (loadSingle kind rd a) := by
  unfold loadSingle
  have hwait (address : Word) : Made s (Exec.chargeBus (·.waitLoad kind address)) :=
    .chargeBus fun _ => by cases kind <;> rfl
  refine .bind (.evalAddress ha) fun address => .whenThen (hwait _) fun _ => ?_
  refine .bind (.load _ _) fun value => .whenThen (hwait _) fun _ => ?_
  exact .bind (.charge 1) fun _ => .setReg hrd _

lemma made_chargeAtPc : Made s chargeAtPc :=
  .bind (.core _ fun _ => rfl) fun _ => .chargeBus fun _ => rfl

lemma made_storeSingle (hs : s.stores = true) (width : StoreWidth) (rd : Reg) (a : SingleAddress)
    (ha : s.jumps = true ∨ a.writesPc = false) : Made s (storeSingle width rd a) := by
  unfold storeSingle
  refine .bind (.core _ fun _ => rfl) fun value => .bind (.evalAddress ha) fun address => ?_
  refine .bind (.store hs _ _ _) fun _ => .bind (.chargeBus fun _ => ?_) fun _ => made_chargeAtPc
  cases width <;> rfl

lemma made_blockAddress {a : BlockAddress} {store : Bool} (hs : s.stores = true ∨ store = false)
    (h : s.jumps = true ∨ a.writesPc = false) : Made s (blockAddress a store) := by
  unfold blockAddress
  refine .bind (.reg _) fun base => ?_
  by_cases hw : a.writeback
  · have hrn : s.jumps = true ∨ a.rn ≠ .pc := h.imp_right fun e => by
      simpa [BlockAddress.writesPc, hw] using e
    simp only [hw, if_true]
    rcases hs with hs | rfl
    · exact .whenThen (.store hs _ _ _) fun _ => .bind (.setReg hrn _) fun _ => .pure _
    · exact .bind (.setReg hrn _) fun _ => .pure _
  · simp only [hw]
    exact .pure _

lemma made_loadWords (address : Word) {list : List Reg} (h : s.jumps = true ∨ Reg.pc ∉ list) :
    Made s (loadWords address list) := by
  induction list generalizing address with
  | nil => exact .pure ()
  | cons r rest ih =>
    have hr : s.jumps = true ∨ r ≠ .pc := h.imp_right fun e he => e (he ▸ List.mem_cons_self)
    have hrest : s.jumps = true ∨ Reg.pc ∉ rest := h.imp_right fun e he => e (.tail _ he)
    exact .bind (.load _ _) fun value => .bind (.setReg hr _) fun _ => ih _ hrest

lemma made_storeWords (hs : s.stores = true) (address : Word) (list : List Reg) :
    Made s (storeWords address list) := by
  induction list generalizing address with
  | nil => exact .pure ()
  | cons r rest ih =>
    exact .bind (.core _ fun _ => rfl) fun value => .bind (.store hs _ _ _) fun _ => ih _

lemma made_inBank {act : Exec Unit} (user : Bool) (h : Made s act) :
    Made s (inBank user act) := by
  unfold inBank
  refine .ite (.bind (.core _ fun _ => rfl) fun mode => ?_) h
  exact .bind (.onCore (.switchMode _)) fun _ => .bind h fun _ => .onCore (.switchMode _)

lemma made_loadMultiple {userBank : Bool} {list : RegList} {a : BlockAddress}
    (hlist : s.jumps = true ∨ list.contains .pc = false) (ha : s.jumps = true ∨ a.writesPc = false)
    (hrestores : s.restores = true ∨ (userBank && list.contains .pc) = false) :
    Made s (loadMultiple userBank list a) := by
  unfold loadMultiple
  refine .bind (made_blockAddress (.inr rfl) ha) fun start => ?_
  refine .bind (made_inBank _ (made_loadWords _ (hlist.imp_right RegList.pc_notMem))) fun _ => ?_
  refine .bind (.chargeBus fun _ => rfl) fun _ => .bind (.charge 1) fun _ => ?_
  rcases hrestores with hs | hnone
  · exact .when (.bind (.core _ fun _ => rfl) fun saved => .when (.loadStatus hs _))
  · rw [hnone]
    exact .pure ()

lemma made_storeMultiple (hs : s.stores = true) (userBank : Bool) (list : RegList)
    {a : BlockAddress} (ha : s.jumps = true ∨ a.writesPc = false) :
    Made s (storeMultiple userBank list a) := by
  unfold storeMultiple
  refine .bind made_chargeAtPc fun _ => .bind (made_blockAddress (.inl hs) ha) fun start => ?_
  refine .bind (made_inBank _ (made_storeWords hs _ _)) fun _ => ?_
  exact .ite (.chargeBus fun _ => rfl) (.chargeBus fun _ => rfl)

/-! ### Branches -/

lemma made_branch (h : s.jumps = true) (link : Bool) (offset : Word) :
    Made s (branch link offset) := by
  unfold branch
  refine .bind (.prefetch _) fun _ => .bind (.core _ fun _ => rfl) fun pc => ?_
  exact .whenThen (.setReg (.inl h) _) fun _ => .setReg (.inl h) _

lemma made_branchExchange (h : s.jumps = true) (rm : Reg) : Made s (branchExchange rm) :=
  .bind (.reg rm) fun _ => .bind (.onCore (.setSet h _)) fun _ => .setReg (.inl h) _

/-- Every ARM instruction is made of primitive actions, of the rare ones only those that it is said
to contain. -/
theorem made_exec {i : Instr} (h : s.Covers (.arm i)) (address : Word) : Made s (exec i address) := by
  obtain ⟨cond, op⟩ := i
  obtain ⟨hjumps, htraps, hrestores, hstores⟩ := h
  cases op with
  | dataProcessing op setFlags rd rn operand =>
    exact made_afterFetch _ (made_dataProcessing _ _ _ _ hjumps hrestores)
  | readStatus rd saved =>
    have hrd := hjumps.imp_right fun e => by simpa [Instruction.writesPc, Op.writesPc] using e
    exact made_afterFetch _ (made_readStatus _ hrd)
  | writeStatus saved mask source => exact made_afterFetch _ (.writeStatus _ _ _)
  | multiply accumulate setFlags rd rn rs rm =>
    have hrd := hjumps.imp_right fun e => by simpa [Instruction.writesPc, Op.writesPc] using e
    exact made_afterFetch _ (made_multiply _ _ _ _ _ hrd)
  | multiplyLong signed accumulate setFlags rdHi rdLo rs rm =>
    have hrd : s.jumps = true ∨ rdHi ≠ .pc ∧ rdLo ≠ .pc :=
      hjumps.imp_right fun e => by simpa [Instruction.writesPc, Op.writesPc] using e
    exact made_afterFetch _ (made_multiplyLong _ _ _ _ _ (hrd.imp_right And.left)
      (hrd.imp_right And.right))
  | swap byte rd rn rm =>
    have hrd := hjumps.imp_right fun e => by simpa [Instruction.writesPc, Op.writesPc] using e
    have hs : s.stores = true := hstores.resolve_right (by simp [Instruction.stores, Op.stores])
    exact made_afterFetch _ (made_swap hs _ _ _ hrd)
  | load kind rd a =>
    have hpc : s.jumps = true ∨ rd ≠ .pc ∧ a.writesPc = false :=
      hjumps.imp_right fun e => by simpa [Instruction.writesPc, Op.writesPc] using e
    exact made_afterFetch _ (made_loadSingle _ _ (hpc.imp_right And.left)
      (hpc.imp_right And.right))
  | store width rd a =>
    have hs : s.stores = true := hstores.resolve_right (by simp [Instruction.stores, Op.stores])
    exact made_insteadOfFetch _ (made_storeSingle hs _ _ _ hjumps)
  | loadMultiple userBank list a =>
    have hpc : s.jumps = true ∨ list.contains .pc = false ∧ a.writesPc = false :=
      hjumps.imp_right fun e => by simpa [Instruction.writesPc, Op.writesPc] using e
    exact made_afterFetch _ (made_loadMultiple (hpc.imp_right And.left)
      (hpc.imp_right And.right) hrestores)
  | storeMultiple userBank list a =>
    have hs : s.stores = true := hstores.resolve_right (by simp [Instruction.stores, Op.stores])
    exact made_insteadOfFetch _ (made_storeMultiple hs _ _ hjumps)
  | branch link offset =>
    have hs : s.jumps = true := hjumps.resolve_right (by simp [Instruction.writesPc, Op.writesPc])
    exact made_insteadOfFetch _ (made_branch hs _ _)
  | branchExchange rm =>
    have hs : s.jumps = true := hjumps.resolve_right (by simp [Instruction.writesPc, Op.writesPc])
    exact made_afterFetch _ (made_branchExchange hs _)
  | softwareInterrupt comment =>
    have hs : s.traps = true := htraps.resolve_right (by simp [Instruction.isSoftwareInterrupt])
    exact made_insteadOfFetch _ (.bind (.softwareInterrupt hs _) fun _ => .prefetch _)
  | undefined opcode => exact .throw _

end Arm

end Armv4T
