import Armv4T.Bios

/-!
# Executing Thumb instructions

While an instruction executes, the program counter reads as its address and four. Operations on low
registers set the flags. Every instruction is charged for the fetch of the next opcode before it
acts, except for stores, which are charged for it with their access, and software interrupts, which
are charged for it where they go.
-/

namespace Armv4T.Thumb

/-- Whether an instruction is charged for the fetch by itself. -/
def defersFetch : Instr → Bool
  | .store .. | .storeMultiple .. | .softwareInterrupt _ => true
  | _ => false

/-! ### Operations on registers -/

/-- Sets the condition flags from a sum. -/
def setSum (s : Sum) : Exec Unit := Exec.mapFlags s.flags

/-- Puts a sum into a register and sets the condition flags. -/
def putSum (rd : Reg) (s : Sum) : Exec Unit := do
  setSum s
  Exec.setReg rd s.value

/-- Puts a value into a register and sets the sign and zero flags. -/
def putLogical (rd : Reg) (value : Word) : Exec Unit := do
  Exec.mapFlags (·.setNZ value)
  Exec.setReg rd value

/-- Puts the outcome of a shift into a register and sets the sign, zero and carry flags. -/
def putShift (rd : Reg) (shifted : Word × Bool) : Exec Unit := do
  Exec.mapFlags fun f => { f.setNZ shifted.1 with c := shifted.2 }
  Exec.setReg rd shifted.1

/-- A shift by a register, which takes an extra cycle. -/
def shiftByRegister (kind : ShiftKind) (rd rs : Reg) : Exec Unit := do
  let shifted ← Exec.core fun c =>
    Shift.byRegister kind (c.reg rd) (c.reg rs) c.regs.flags.c
  Exec.charge 1
  putShift rd shifted

/-- An operation on two low registers. -/
def alu (op : AluOp) (rd rm : Reg) : Exec Unit := do
  let a ← Exec.reg rd
  let b ← Exec.reg rm
  let carry ← Exec.core (·.regs.flags.c)
  match op with
  | .and => putLogical rd (a &&& b)
  | .eor => putLogical rd (a ^^^ b)
  | .lsl => shiftByRegister .lsl rd rm
  | .lsr => shiftByRegister .lsr rd rm
  | .asr => shiftByRegister .asr rd rm
  | .adc => putSum rd (.adc a b carry)
  | .sbc => putSum rd (.sbc a b carry)
  | .ror => shiftByRegister .ror rd rm
  | .tst => Exec.mapFlags (·.setNZ (a &&& b))
  | .neg => putSum rd (.sub 0 b)
  | .cmp => setSum (.sub a b)
  | .cmn => setSum (.add a b)
  | .orr => putLogical rd (a ||| b)
  | .mul =>
    Exec.charge (multiplyCycles b)
    putLogical rd (a * b)
  | .bic => putLogical rd (a &&& ~~~b)
  | .mvn => putLogical rd (~~~b)

/-- An operation on a register and an immediate. -/
def immediate (op : ImmediateOp) (rd : Reg) (value : Word) : Exec Unit := do
  let a ← Exec.reg rd
  match op with
  | .mov => putLogical rd value
  | .cmp => setSum (.sub a value)
  | .add => putSum rd (.add a value)
  | .sub => putSum rd (.sub a value)

/-- A sum or a difference. -/
def sumOf (subtract : Bool) (a b : Word) : Sum := if subtract then .sub a b else .add a b

/-! ### Transfers -/

/-- The address of a single transfer. -/
def addressOf (c : Core) : Address → Word
  | .register rn rm => c.reg rn + c.reg rm
  | .immediate rn offset => c.reg rn + offset
  | .stack offset => c.reg .sp + offset
  | .literal offset => Word.alignDown c.pc 4 + offset

/-- A load. -/
def load (kind : LoadKind) (rd : Reg) (address : Word) : Exec Unit := do
  let value ← Exec.load kind address
  Exec.chargeBus (·.waitLoad kind address)
  Exec.charge 1
  Exec.setReg rd value

/-- Charges one 16-bit access at the program counter. -/
def chargeAtPc : Exec Unit := do
  let pc ← Exec.core Core.pc
  Exec.chargeBus (·.wait pc)

/-- A store. -/
def store (width : StoreWidth) (rd : Reg) (address : Word) : Exec Unit := do
  Exec.store width address (← Exec.reg rd)
  chargeAtPc
  Exec.chargeBus (·.waitStore width address)

/-- Stores registers to words at descending addresses, and gives the address below the last. -/
def pushWords (address : Word) : List Reg → Exec Word
  | [] => pure address
  | r :: rest => do
    Exec.store .word address (← Exec.reg r)
    pushWords (address - 4) rest

/-- Pushes the listed registers, the highest first. -/
def push (list : RegList) (lr : Bool) : Exec Unit := do
  let sp ← Exec.reg .sp
  let regs := (if lr then [Reg.lr] else []) ++ list.toList.reverse
  let below ← pushWords (sp - 4) regs
  Exec.chargeBus (·.waitMultiple32 (below + 4) (UInt32.ofNat regs.length))
  Exec.setReg .sp (below + 4)

/-- Loads registers from words at ascending addresses, each access charged as a sequential one, and
gives the address after the last. -/
def popWords (address : Word) : List Reg → Exec Word
  | [] => pure address
  | r :: rest => do
    Exec.chargeBus (·.waitSeq32 address)
    Exec.setReg r (← Exec.load .word address)
    popWords (address + 4) rest

/-- Pops the listed registers, and then the program counter if it is among them. -/
def pop (list : RegList) (pc : Bool) : Exec Unit := do
  Exec.charge 1
  let start ← Exec.reg .sp
  let after ← popWords start list.toList
  if pc then
    Exec.setReg .pc (Word.alignDown (← Exec.load .word after) 2)
    Exec.chargeBus (·.waitMultiple32 start (list.count + 1))
    Exec.setReg .sp (after + 4)
  else
    Exec.chargeBus (·.waitMultiple32 start list.count)
    Exec.setReg .sp after

/-- Stores words at ascending addresses, register by register. The base stores `base` in place of
its value. -/
def storeWords (rn : Reg) (base address : Word) : List Reg → Exec Unit
  | [] => pure ()
  | r :: rest => do
    let value ← Exec.reg r
    Exec.store .word address (if r = rn then base else value)
    storeWords rn base (address + 4) rest

/-- A block store. A base that is not the lowest register of the list stores the value that is
written back. -/
def storeMultiple (rn : Reg) (list : RegList) : Exec Unit := do
  chargeAtPc
  let base ← Exec.reg rn
  let stop := base + list.count * 4
  let stored := if list.toList.head? = some rn then base else stop
  storeWords rn stored base list.toList
  Exec.chargeBus (·.waitMultiple32 base list.count)
  Exec.setReg rn stop

/-- Loads registers from words at ascending addresses, and gives the address after the last. -/
def loadWords (address : Word) : List Reg → Exec Word
  | [] => pure address
  | r :: rest => do
    Exec.setReg r (← Exec.load .word address)
    loadWords (address + 4) rest

/-- A block load. The base is written back unless it is loaded. -/
def loadMultiple (rn : Reg) (list : RegList) : Exec Unit := do
  let base ← Exec.reg rn
  let stop ← loadWords base list.toList
  Exec.chargeBus (·.waitMultiple32 base list.count)
  if !list.contains rn then Exec.setReg rn stop

/-! ### Branches -/

/-- A branch to the instruction set that bit 0 of the target selects. Bit 1 of a target read from
the program counter does not count. -/
def branchExchange (rm : Reg) : Exec Unit := do
  let value ← Exec.reg rm
  let target := if rm = .pc then value &&& ~~~2 else value
  Exec.onCore (·.setSet (.ofBit (target.bit 0)))
  Exec.setReg .pc (Word.alignDown target 2)

/-- The second half of a long call: branches to LR and an offset, and leaves the return address in
LR. -/
def callLow (offset : Word) : Exec Unit := do
  let pc ← Exec.core Core.pc
  let lr ← Exec.reg .lr
  Exec.setReg .pc (lr + offset)
  Exec.setReg .lr (pc - 1)

/-- A branch by a distance. -/
def branchBy (offset : Word) : Exec Unit := do
  Exec.setReg .pc ((← Exec.core Core.pc) + offset)

/-- What an instruction does after the charge for the fetch. -/
def act (i : Instr) (address : Word) : Exec Unit := do
  match i with
  | .shift kind rd rm amount =>
    putShift rd (← Exec.core fun c =>
      Shift.byImmediate kind (c.reg rm) amount c.regs.flags.c)
  | .addRegister subtract rd rn rm =>
    putSum rd (sumOf subtract (← Exec.reg rn) (← Exec.reg rm))
  | .addSmall subtract rd rn value => putSum rd (sumOf subtract (← Exec.reg rn) value)
  | .moveLow rd rn => putSum rd (.logical (← Exec.reg rn) false false)
  | .immediate op rd value => immediate op rd value
  | .alu op rd rm => alu op rd rm
  | .addHigh rd rm => Exec.setReg rd ((← Exec.reg rd) + (← Exec.reg rm))
  | .compareHigh rn rm => setSum (.sub (← Exec.reg rn) (← Exec.reg rm))
  | .moveHigh rd rm => Exec.setReg rd (← Exec.reg rm)
  | .branchExchange rm => branchExchange rm
  | .load kind rd a => load kind rd (← Exec.core (addressOf · a))
  | .store width rd a => store width rd (← Exec.core (addressOf · a))
  | .addPc rd offset => Exec.setReg rd (Word.alignDown (← Exec.core Core.pc) 4 + offset)
  | .addSp rd offset => Exec.setReg rd ((← Exec.reg .sp) + offset)
  | .adjustSp down offset =>
    let sp ← Exec.reg .sp
    Exec.setReg .sp (if down then sp - offset else sp + offset)
  | .push list lr => push list lr
  | .pop list pc => pop list pc
  | .storeMultiple rn list => storeMultiple rn list
  | .loadMultiple rn list => loadMultiple rn list
  | .branchIf cond offset => if ← Exec.testCondition cond then branchBy offset
  | .softwareInterrupt comment =>
    Bios.softwareInterrupt comment
    Exec.prefetch .thumb
  | .branch offset => branchBy offset
  | .callHigh offset => Exec.setReg .lr ((← Exec.core Core.pc) + offset)
  | .callLow offset => callLow offset
  | .undefined opcode => throw (.illegalInstruction address opcode .thumb)

/-- Executes an instruction fetched at an address. -/
def exec (i : Instr) (address : Word) : Exec Unit := do
  if !defersFetch i then Exec.prefetch .thumb
  act i address

end Armv4T.Thumb
