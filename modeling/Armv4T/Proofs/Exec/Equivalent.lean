import Mathlib
import Armv4T.Thumb.Exec
import Armv4T.Proofs.Alu.Sum
import Armv4T.Proofs.Exec.Alike

/-!
# Thumb instructions and their ARM equivalents

The operations on registers and the single transfers of the Thumb set are those of the ARM set with
shorter opcodes. `Instr.armOp?` gives the ARM operation that the architecture calls equivalent, and
away from the program counter the two do the same (`Instr.matches_armOp`): on boards that are alike
they give the same fault or none, and leave boards that are alike. The two sets are executed by
different code: a Thumb operation computes its result and its flags where it is executed, and an ARM
operation lets the shifter evaluate its operand, so both are first brought into one form
(`Arm.computed`).
-/

namespace Armv4T

/-! ### Computing -/

/-- The registers that an operand names. -/
def Operand.names : Operand → List Reg
  | .immediate _ | .rotated _ => []
  | .shifted _ rm _ => [rm]
  | .shiftedBy _ rm rs => [rm, rs]

namespace Arm

/-- What a data-processing operation makes of the registers: the flags are set if they should be,
and the result goes to a register unless the operation is a test. -/
def computed (op : AluOp) (setFlags : Bool) (rd rn : Reg) (operand : Operand) (c : Core) :
    Registers :=
  let (value, carry) := c.operandValue operand
  let result := op.apply (c.reg rn) value carry c.regs.flags
  let regs := if setFlags then { c.regs with flags := result.flags c.regs.flags } else c.regs
  if op.isTest then regs else regs.write rd result.value

/-- What a multiplication without an addend makes of the registers. -/
def multiplied (rd rs rm : Reg) (c : Core) : Registers :=
  let product := c.reg rm * c.reg rs
  { c.regs with flags := c.regs.flags.setNZ product }.write rd product

variable (address : Word)

lemma computes_dataProcessing (op : AluOp) (setFlags : Bool) {rd : Reg} (rn : Reg)
    (operand : Operand) (hrd : rd ≠ .pc) :
    Exec.Computes (exec ⟨.al, .dataProcessing op setFlags rd rn operand⟩ address)
      (computed op setFlags rd rn operand) := by
  have hreturns (mode : Mode) : (rd == .pc && mode.hasSpsr) = false := by
    simp [hrd]
  intro b
  have hstart : exec ⟨.al, .dataProcessing op setFlags rd rn operand⟩ address b =
      dataProcessing op setFlags rd rn operand
        (b.mapCore (·.charge (b.bus.waitPrefetch .arm b.core.pc))) := rfl
  rw [hstart]
  unfold dataProcessing computed
  simp only [hreturns]
  cases setFlags <;> cases op.isTest <;> exact ⟨_, rfl, rfl, rfl⟩

lemma computes_multiply (rd rs rm : Reg) :
    Exec.Computes (exec ⟨.al, .multiply false true rd .r0 rs rm⟩ address)
      (multiplied rd rs rm) := by
  intro b
  refine ⟨_, rfl, ?_, rfl⟩
  have hzero (p : Word) : p + 0 = p := UInt32.add_zero p
  simp only [multiplied, hzero]
  rfl

variable {b c : Board}

/-- An operand away from the program counter is the same on alike boards. -/
lemma operandValue_alike (h : b.Alike c) {operand : Operand} (hpc : .pc ∉ operand.names) :
    b.core.operandValue operand = c.core.operandValue operand := by
  have hread (r : Reg) (hr : r ≠ .pc) : b.core.reg r = c.core.reg r := h.regs.read r hr
  cases operand with
  | immediate value => simp only [Core.operandValue, h.regs.flags]
  | rotated value => rfl
  | shifted kind rm amount =>
    have hrm : rm ≠ .pc := fun e => hpc (by simp [Operand.names, e])
    simp only [Core.operandValue, hread rm hrm, h.regs.flags]
  | shiftedBy kind rm rs =>
    have hrm : rm ≠ .pc := fun e => hpc (by simp [Operand.names, e])
    have hrs : rs ≠ .pc := fun e => hpc (by simp [Operand.names, e])
    simp only [Core.operandValue, Core.regAhead, hrm, hrs, if_false, hread rm hrm, hread rs hrs,
      h.regs.flags]

lemma computed_alike (h : b.Alike c) (op : AluOp) (setFlags : Bool) (rd : Reg) {rn : Reg}
    {operand : Operand} (hrn : rn ≠ .pc) (hpc : .pc ∉ operand.names) :
    (computed op setFlags rd rn operand b.core).Alike
      (computed op setFlags rd rn operand c.core) := by
  have hn : b.core.reg rn = c.core.reg rn := h.regs.read rn hrn
  simp only [computed, operandValue_alike h hpc, hn, h.regs.flags]
  cases setFlags <;> cases op.isTest
  · exact h.regs.write rd _
  · exact h.regs
  · exact (h.regs.withFlags _).write rd _
  · exact h.regs.withFlags _

lemma multiplied_alike (h : b.Alike c) (rd : Reg) {rs rm : Reg} (hrs : rs ≠ .pc)
    (hrm : rm ≠ .pc) : (multiplied rd rs rm b.core).Alike (multiplied rd rs rm c.core) := by
  have hs : b.core.reg rs = c.core.reg rs := h.regs.read rs hrs
  have hm : b.core.reg rm = c.core.reg rm := h.regs.read rm hrm
  simp only [multiplied, hs, hm, h.regs.flags]
  exact (h.regs.withFlags _).write rd _

end Arm

namespace Thumb

/-! ### The equivalent of an instruction -/

/-- An operation on the register `rm`. -/
def plainRegister (rm : Reg) : Operand := .shifted .lsl rm 0

/-- The ARM equivalent of an operation on a register and an immediate. -/
def ImmediateOp.armOp (rd : Reg) (value : Word) : ImmediateOp → Arm.Op
  | mov => .dataProcessing .mov true rd .r0 (.immediate value)
  | cmp => .dataProcessing .cmp true .r0 rd (.immediate value)
  | add => .dataProcessing .add true rd rd (.immediate value)
  | sub => .dataProcessing .sub true rd rd (.immediate value)

/-- The ARM equivalent of an operation on two registers. -/
def AluOp.armOp (rd rm : Reg) : AluOp → Arm.Op
  | and => .dataProcessing .and true rd rd (plainRegister rm)
  | eor => .dataProcessing .eor true rd rd (plainRegister rm)
  | lsl => .dataProcessing .mov true rd .r0 (.shiftedBy .lsl rd rm)
  | lsr => .dataProcessing .mov true rd .r0 (.shiftedBy .lsr rd rm)
  | asr => .dataProcessing .mov true rd .r0 (.shiftedBy .asr rd rm)
  | adc => .dataProcessing .adc true rd rd (plainRegister rm)
  | sbc => .dataProcessing .sbc true rd rd (plainRegister rm)
  | ror => .dataProcessing .mov true rd .r0 (.shiftedBy .ror rd rm)
  | tst => .dataProcessing .tst true .r0 rd (plainRegister rm)
  | neg => .dataProcessing .rsb true rd rm (.immediate 0)
  | cmp => .dataProcessing .cmp true .r0 rd (plainRegister rm)
  | cmn => .dataProcessing .cmn true .r0 rd (plainRegister rm)
  | orr => .dataProcessing .orr true rd rd (plainRegister rm)
  | mul => .multiply false true rd .r0 rd rm
  | bic => .dataProcessing .bic true rd rd (plainRegister rm)
  | mvn => .dataProcessing .mvn true rd .r0 (plainRegister rm)

/-- The ARM equivalent of an address. The address of a literal has none: it rounds the program
counter down. -/
def Address.arm? : Address → Option SingleAddress
  | register rn rm => some ⟨rn, .register rm, true, .pre⟩
  | immediate rn offset => some ⟨rn, .immediate offset, true, .pre⟩
  | stack offset => some ⟨.sp, .immediate offset, true, .pre⟩
  | literal _ => none

/-- The ARM equivalent of an operation on registers or a single transfer. -/
def Instr.armOp? : Instr → Option Arm.Op
  | shift kind rd rm amount => some (.dataProcessing .mov true rd .r0 (.shifted kind rm amount))
  | addRegister subtract rd rn rm =>
    some (.dataProcessing (if subtract then .sub else .add) true rd rn (plainRegister rm))
  | addSmall subtract rd rn value =>
    some (.dataProcessing (if subtract then .sub else .add) true rd rn (.immediate value))
  | moveLow rd rn => some (.dataProcessing .add true rd rn (.immediate 0))
  | immediate op rd value => some (op.armOp rd value)
  | alu op rd rm => some (op.armOp rd rm)
  | addHigh rd rm => some (.dataProcessing .add false rd rd (plainRegister rm))
  | compareHigh rn rm => some (.dataProcessing .cmp true .r0 rn (plainRegister rm))
  | moveHigh rd rm => some (.dataProcessing .mov false rd .r0 (plainRegister rm))
  | load kind rd address => address.arm?.map (.load kind rd)
  | store width rd address => address.arm?.map (.store width rd)
  | addSp rd offset => some (.dataProcessing .add false rd .sp (.rotated offset))
  | adjustSp down offset =>
    some (.dataProcessing (if down then .sub else .add) false .sp .sp (.rotated offset))
  | branchExchange _ | addPc .. | push .. | pop .. | storeMultiple .. | loadMultiple ..
  | branchIf .. | softwareInterrupt _ | branch _ | callHigh _ | callLow _ | undefined _ => none

/-- The registers that an address names. -/
def Address.names : Address → List Reg
  | register rn rm => [rn, rm]
  | immediate rn _ => [rn]
  | stack _ => [.sp]
  | literal _ => [.pc]

/-- The registers that an operation on registers or a single transfer names. -/
def Instr.names : Instr → List Reg
  | shift _ rd rm _ | moveLow rd rm | alu _ rd rm | addHigh rd rm | compareHigh rd rm
  | moveHigh rd rm => [rd, rm]
  | addRegister _ rd rn rm => [rd, rn, rm]
  | addSmall _ rd rn _ => [rd, rn]
  | immediate _ rd _ => [rd]
  | load _ rd address | store _ rd address => rd :: address.names
  | addSp rd _ => [rd, .sp]
  | adjustSp .. => [.sp]
  | addPc rd _ => [rd, .pc]
  | branchExchange _ | push .. | pop .. | storeMultiple .. | loadMultiple .. | branchIf ..
  | softwareInterrupt _ | branch _ | callHigh _ | callLow _ | undefined _ => []

/-! ### Operations on registers -/

open Exec (Computes Matches)

variable (address : Word)

/-- A Thumb instruction that computes what an ARM operation computes matches it. -/
lemma matches_of_computes {i : Instr} {op : Arm.AluOp} {setFlags : Bool} {rd rn : Reg}
    {operand : Operand}
    (hi : Computes (exec i address) (Arm.computed op setFlags rd rn operand))
    (hrd : rd ≠ .pc) (hrn : rn ≠ .pc) (hpc : .pc ∉ operand.names) (address' : Word) :
    Matches Board.Alike (exec i address)
      (Arm.exec ⟨.al, .dataProcessing op setFlags rd rn operand⟩ address') :=
  Exec.matches_computes hi (Arm.computes_dataProcessing address' op setFlags rn operand hrd)
    fun _ _ h => Arm.computed_alike h op setFlags rd hrn hpc

lemma computes_addRegister (subtract : Bool) (rd rn rm : Reg) :
    Computes (exec (.addRegister subtract rd rn rm) address)
      (Arm.computed (if subtract then .sub else .add) true rd rn (plainRegister rm)) := by
  cases subtract <;> exact fun _ => ⟨_, rfl, rfl, rfl⟩

lemma computes_addSmall (subtract : Bool) (rd rn : Reg) (value : Word) :
    Computes (exec (.addSmall subtract rd rn value) address)
      (Arm.computed (if subtract then .sub else .add) true rd rn (.immediate value)) := by
  cases subtract <;> exact fun _ => ⟨_, rfl, rfl, rfl⟩

/-- A move between low registers clears the carry and the overflow as the sum with zero does. -/
lemma computes_moveLow (rd rn : Reg) :
    Computes (exec (.moveLow rd rn) address)
      (Arm.computed .add true rd rn (.immediate 0)) := by
  intro b
  refine ⟨_, rfl, ?_, rfl⟩
  simp only [Arm.computed, Core.operandValue, Arm.AluOp.apply, Sum.add_zero]
  rfl

/-- A shift by a register other than the program counter. -/
lemma computes_shiftByRegister (kind : ShiftKind) {rd rm : Reg} (hrd : rd ≠ .pc) (hrm : rm ≠ .pc) :
    Computes (do Exec.prefetch .thumb; shiftByRegister kind rd rm)
      (Arm.computed .mov true rd .r0 (.shiftedBy kind rd rm)) := by
  intro b
  refine ⟨_, rfl, ?_, rfl⟩
  simp only [Arm.computed, Core.operandValue, Core.regAhead, hrd, hrm, if_false]
  rfl

/-- The product of two registers, in either order. -/
lemma computes_mul (rd rm : Reg) :
    Computes (exec (.alu .mul rd rm) address) (Arm.multiplied rd rd rm) := by
  intro b
  refine ⟨_, rfl, ?_, rfl⟩
  simp only [Arm.multiplied, UInt32.mul_comm (b.core.reg rm)]
  rfl

lemma computes_addHigh (rd rm : Reg) :
    Computes (exec (.addHigh rd rm) address)
      (Arm.computed .add false rd rd (plainRegister rm)) := by
  intro b
  refine ⟨_, rfl, ?_, rfl⟩
  simp only [Arm.computed, Arm.AluOp.apply, Sum.add_value]
  rfl

lemma computes_addSp (rd : Reg) (offset : Word) :
    Computes (exec (.addSp rd offset) address)
      (Arm.computed .add false rd .sp (.rotated offset)) := by
  intro b
  refine ⟨_, rfl, ?_, rfl⟩
  simp only [Arm.computed, Arm.AluOp.apply, Sum.add_value]
  rfl

lemma computes_adjustSp (down : Bool) (offset : Word) :
    Computes (exec (.adjustSp down offset) address)
      (Arm.computed (if down then .sub else .add) false .sp .sp (.rotated offset)) := by
  intro b
  refine ⟨_, rfl, ?_, rfl⟩
  cases down
  · simp only [Arm.computed, Arm.AluOp.apply, Bool.false_eq_true, if_false, Sum.add_value]
    rfl
  · simp only [Arm.computed, Arm.AluOp.apply, if_true, Sum.sub_value]
    rfl

lemma matches_immediate (op : ImmediateOp) {rd : Reg} (value : Word) (hrd : rd ≠ .pc)
    (address' : Word) :
    Matches Board.Alike (exec (.immediate op rd value) address)
      (Arm.exec ⟨.al, op.armOp rd value⟩ address') := by
  have hzero : Reg.r0 ≠ .pc := by decide
  have hnone : Reg.pc ∉ (Operand.immediate value).names := List.not_mem_nil
  cases op with
  | mov =>
    refine matches_of_computes _ ?_ hrd hzero hnone _
    exact fun _ => ⟨_, rfl, rfl, rfl⟩
  | cmp =>
    refine matches_of_computes _ ?_ hzero hrd hnone _
    exact fun _ => ⟨_, rfl, rfl, rfl⟩
  | add | sub =>
    refine matches_of_computes _ ?_ hrd hrd hnone _
    exact fun _ => ⟨_, rfl, rfl, rfl⟩

lemma matches_alu (op : AluOp) {rd rm : Reg} (hrd : rd ≠ .pc) (hrm : rm ≠ .pc)
    (address' : Word) :
    Matches Board.Alike (exec (.alu op rd rm) address)
      (Arm.exec ⟨.al, op.armOp rd rm⟩ address') := by
  have hzero : Reg.r0 ≠ .pc := by decide
  have hplain : Reg.pc ∉ (plainRegister rm).names := by
    simpa [plainRegister, Operand.names] using hrm.symm
  have hshifted (kind : ShiftKind) : Reg.pc ∉ (Operand.shiftedBy kind rd rm).names := by
    simpa [Operand.names] using ⟨hrd.symm, hrm.symm⟩
  cases op with
  | and | eor | adc | sbc | orr | bic =>
    refine matches_of_computes _ ?_ hrd hrd hplain _
    exact fun _ => ⟨_, rfl, rfl, rfl⟩
  | lsl | lsr | asr | ror =>
    refine matches_of_computes _ ?_ hrd hzero (hshifted _) _
    exact computes_shiftByRegister _ hrd hrm
  | tst | cmp | cmn =>
    refine matches_of_computes _ ?_ hzero hrd hplain _
    exact fun _ => ⟨_, rfl, rfl, rfl⟩
  | neg =>
    refine matches_of_computes _ ?_ hrd hrm List.not_mem_nil _
    exact fun _ => ⟨_, rfl, rfl, rfl⟩
  | mul =>
    exact Exec.matches_computes (computes_mul _ rd rm) (Arm.computes_multiply _ rd rd rm)
      fun _ _ h => Arm.multiplied_alike h rd hrd hrm
  | mvn =>
    refine matches_of_computes _ ?_ hrd hzero hplain _
    exact fun _ => ⟨_, rfl, rfl, rfl⟩

/-! ### Single transfers -/

/-- Evaluating the equivalent of an address gives the address and changes no register. -/
lemma reads_evalAddress {a : Address} {a' : SingleAddress} (ha : a.arm? = some a') :
    Exec.Reads (Arm.evalAddress a') (addressOf · a) := by
  cases a with
  | register rn rm =>
    obtain rfl := Option.some.inj ha
    exact fun b => ⟨_, rfl, .mapCore_self rfl rfl⟩
  | immediate rn offset =>
    obtain rfl := Option.some.inj ha
    exact fun b => ⟨_, rfl, .mapCore_self rfl rfl⟩
  | stack offset =>
    obtain rfl := Option.some.inj ha
    exact fun b => ⟨_, rfl, .mapCore_self rfl rfl⟩
  | literal offset => exact nomatch ha

lemma addressOf_alike {b c : Board} (h : b.Alike c) {a : Address} (hpc : .pc ∉ a.names) :
    addressOf b.core a = addressOf c.core a := by
  have hread (r : Reg) (hr : r ∈ a.names) : b.core.reg r = c.core.reg r :=
    h.regs.read r fun e => hpc (e ▸ hr)
  cases a with
  | register rn rm =>
    simp only [addressOf, hread rn (by simp [Address.names]), hread rm (by simp [Address.names])]
  | immediate rn offset => simp only [addressOf, hread rn (by simp [Address.names])]
  | stack offset => simp only [addressOf, hread .sp (by simp [Address.names])]
  | literal offset => exact absurd (by simp [Address.names]) hpc

/-- A condition that always holds leaves what comes after the fetch. -/
lemma matches_afterFetch {x act : Exec Unit} (h : Matches Board.Alike x act) :
    Matches Board.Alike x (Arm.afterFetch .al act) := by
  intro b c hbc
  let charged := c.mapCore (·.charge (c.bus.waitPrefetch .arm c.core.pc))
  have hact : Arm.afterFetch .al act c = act charged := rfl
  have hcharged : charged.Alike c := .mapCore_self rfl rfl
  rw [hact]
  exact h b charged (hbc.trans hcharged.symm)

/-- A condition that always holds leaves what comes instead of the fetch. -/
lemma matches_insteadOfFetch {x act : Exec Unit} (h : Matches Board.Alike x act) :
    Matches Board.Alike x (Arm.insteadOfFetch .al act) := h

lemma matches_load (kind : LoadKind) {rd : Reg} {a : Address} {a' : SingleAddress}
    (ha : a.arm? = some a') (hpc : .pc ∉ a.names) (address' : Word) :
    Matches Board.Alike (exec (.load kind rd a) address)
      (Arm.exec ⟨.al, .load kind rd a'⟩ address') := by
  refine Exec.matches_skip_left (Exec.reads_prefetch .thumb) (matches_afterFetch ?_)
  refine Exec.matches_reads (Exec.reads_core _) (reads_evalAddress ha)
    (fun b c h => addressOf_alike h hpc) fun x => ?_
  -- the access is charged before it is made or after it
  have hafter (value : Word) : Matches Board.Alike
      (do Exec.chargeBus (·.waitLoad kind x); Exec.charge 1; Exec.setReg rd value)
      (do Exec.charge 1; Exec.setReg rd value) :=
    Exec.matches_skip_left (Exec.reads_chargeBus _) <|
      Exec.matches_skip_left (Exec.reads_charge 1) <|
        Exec.matches_skip_right (Exec.reads_charge 1) (Exec.matches_setReg rd value)
  cases hfirst : Arm.chargedFirst kind with
  | true =>
    simp only [if_true, Bool.not_true, Bool.false_eq_true, if_false]
    exact Exec.matches_skip_right (Exec.reads_chargeBus _) <|
      Exec.matches_bind (Exec.matches_load kind x) hafter
  | false =>
    simp only [if_true, Bool.not_false, Bool.false_eq_true, if_false]
    exact Exec.matches_bind (Exec.matches_load kind x) fun value =>
      Exec.matches_skip_right (Exec.reads_chargeBus _) (hafter value)

lemma reads_chargeAtPc : Exec.Reads chargeAtPc fun _ => () :=
  fun b => ⟨_, rfl, Board.Alike.mapCore_self (b := b) rfl rfl⟩

lemma reads_arm_chargeAtPc : Exec.Reads Arm.chargeAtPc fun _ => () :=
  fun b => ⟨_, rfl, Board.Alike.mapCore_self (b := b) rfl rfl⟩

/-- A store reads its address and its value from the same core. -/
lemma exec_store (width : StoreWidth) (rd : Reg) (a : Address) :
    exec (.store width rd a) address = (do
      let value ← Exec.reg rd
      let x ← Exec.core (addressOf · a)
      Exec.store width x value
      chargeAtPc
      Exec.chargeBus (·.waitStore width x)) := by
  funext b
  have hstore : exec (.store width rd a) address b = store width rd (addressOf b.core a) b := rfl
  have hvalue : store width rd (addressOf b.core a) b = (do
      Exec.store width (addressOf b.core a) (b.core.reg rd)
      chargeAtPc
      Exec.chargeBus (·.waitStore width (addressOf b.core a)) : Exec Unit) b := rfl
  rw [hstore, hvalue]
  rfl

lemma matches_store (width : StoreWidth) {rd : Reg} {a : Address} {a' : SingleAddress}
    (ha : a.arm? = some a') (hrd : rd ≠ .pc) (hpc : .pc ∉ a.names) (address' : Word) :
    Matches Board.Alike (exec (.store width rd a) address)
      (Arm.exec ⟨.al, .store width rd a'⟩ address') := by
  have hvalue {b c : Board} (h : b.Alike c) : b.core.reg rd = c.core.storeValue rd := by
    rw [Core.storeValue, if_neg hrd]
    exact h.regs.read rd hrd
  rw [exec_store]
  refine matches_insteadOfFetch ?_
  refine Exec.matches_reads (Exec.reads_reg rd) (Exec.reads_core _) (fun b c h => hvalue h)
    fun value => ?_
  refine Exec.matches_reads (Exec.reads_core _) (reads_evalAddress ha)
    (fun b c h => addressOf_alike h hpc) fun x => ?_
  refine Exec.matches_bind (Exec.matches_store width x value) fun _ => ?_
  exact Exec.matches_skip_left reads_chargeAtPc <|
    Exec.matches_skip_right (Exec.reads_chargeBus _) <|
      Exec.matches_unit (Exec.reads_chargeBus _) reads_arm_chargeAtPc

/-! ### All equivalents -/

/-- Away from the program counter, an operation on registers or a single transfer does on a board
what its ARM equivalent does on a board that is alike. -/
lemma Instr.matches_armOp {i : Instr} {op : Arm.Op} (hop : i.armOp? = some op)
    (hpc : .pc ∉ i.names) (address' : Word) :
    Matches Board.Alike (exec i address) (Arm.exec ⟨.al, op⟩ address') := by
  have hzero : Reg.r0 ≠ .pc := by decide
  have hsp : Reg.sp ≠ .pc := by decide
  have hplain {rm : Reg} (h : rm ≠ .pc) : Reg.pc ∉ (plainRegister rm).names := by
    simpa [plainRegister, Operand.names] using h.symm
  have hne {r : Reg} (h : r ∈ i.names) : r ≠ .pc := fun e => hpc (e ▸ h)
  cases i with
  | shift kind rd rm amount =>
    obtain rfl := Option.some.inj hop
    refine matches_of_computes _ ?_ (hne (by simp [names])) hzero ?_ _
    · exact fun _ => ⟨_, rfl, rfl, rfl⟩
    · simpa [Operand.names] using (hne (r := rm) (by simp [names])).symm
  | addRegister subtract rd rn rm =>
    obtain rfl := Option.some.inj hop
    exact matches_of_computes _ (computes_addRegister _ subtract rd rn rm)
      (hne (by simp [names])) (hne (by simp [names])) (hplain (hne (by simp [names]))) _
  | addSmall subtract rd rn value =>
    obtain rfl := Option.some.inj hop
    exact matches_of_computes _ (computes_addSmall _ subtract rd rn value)
      (hne (by simp [names])) (hne (by simp [names])) List.not_mem_nil _
  | moveLow rd rn =>
    obtain rfl := Option.some.inj hop
    exact matches_of_computes _ (computes_moveLow _ rd rn) (hne (by simp [names]))
      (hne (by simp [names])) List.not_mem_nil _
  | immediate op rd value =>
    obtain rfl := Option.some.inj hop
    exact matches_immediate _ op value (hne (by simp [names])) _
  | alu op rd rm =>
    obtain rfl := Option.some.inj hop
    exact matches_alu _ op (hne (by simp [names])) (hne (by simp [names])) _
  | addHigh rd rm =>
    obtain rfl := Option.some.inj hop
    exact matches_of_computes _ (computes_addHigh _ rd rm) (hne (by simp [names]))
      (hne (by simp [names])) (hplain (hne (by simp [names]))) _
  | compareHigh rn rm =>
    obtain rfl := Option.some.inj hop
    refine matches_of_computes _ ?_ hzero (hne (by simp [names]))
      (hplain (hne (by simp [names]))) _
    exact fun _ => ⟨_, rfl, rfl, rfl⟩
  | moveHigh rd rm =>
    obtain rfl := Option.some.inj hop
    refine matches_of_computes _ ?_ (hne (by simp [names])) hzero
      (hplain (hne (by simp [names]))) _
    exact fun _ => ⟨_, rfl, rfl, rfl⟩
  | load kind rd a =>
    obtain ⟨a', ha, rfl⟩ := Option.map_eq_some_iff.mp hop
    exact matches_load _ kind ha (fun h => hpc (List.mem_cons_of_mem _ h)) _
  | store width rd a =>
    obtain ⟨a', ha, rfl⟩ := Option.map_eq_some_iff.mp hop
    exact matches_store _ width ha (hne (by simp [names]))
      (fun h => hpc (List.mem_cons_of_mem _ h)) _
  | addSp rd offset =>
    obtain rfl := Option.some.inj hop
    exact matches_of_computes _ (computes_addSp _ rd offset) (hne (by simp [names])) hsp
      List.not_mem_nil _
  | adjustSp down offset =>
    obtain rfl := Option.some.inj hop
    exact matches_of_computes _ (computes_adjustSp _ down offset) hsp hsp List.not_mem_nil _
  | branchExchange _ | addPc | push | pop | storeMultiple | loadMultiple | branchIf
  | softwareInterrupt _ | branch _ | callHigh _ | callLow _ | undefined _ => exact nomatch hop

end Thumb

end Armv4T
