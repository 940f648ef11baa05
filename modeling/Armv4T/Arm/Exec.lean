import Armv4T.Bios

/-!
# Executing ARM instructions

While an instruction executes, the program counter reads as its address and eight. Loads and
operations on registers are charged for the fetch of the next opcode before their condition is
tested. Stores, branches and software interrupts test it first: they are charged for the fetch
where they cause it, and only for it if the condition fails.
-/

namespace Armv4T.Arm

/-- Charges the fetch, then acts if the condition holds. -/
def afterFetch (cond : Condition) (act : Exec Unit) : Exec Unit := do
  Exec.prefetch .arm
  if ← Exec.testCondition cond then act

/-- Acts if the condition holds, and otherwise charges the fetch. -/
def insteadOfFetch (cond : Condition) (act : Exec Unit) : Exec Unit := do
  if ← Exec.testCondition cond then act else Exec.prefetch .arm

/-! ### Operations on registers -/

/-- The result of a data-processing operation with its carry and overflow. Logical operations take
the carry of the shifter and leave the overflow flag. -/
def AluOp.apply (op : AluOp) (a b : Word) (shifterCarry : Bool) (flags : Flags) : Sum :=
  let logical (value : Word) : Sum := .logical value shifterCarry flags.v
  match op with
  | .and | .tst => logical (a &&& b)
  | .eor | .teq => logical (a ^^^ b)
  | .orr => logical (a ||| b)
  | .bic => logical (a &&& ~~~b)
  | .mov => logical b
  | .mvn => logical (~~~b)
  | .sub | .cmp => .sub a b
  | .rsb => .sub b a
  | .add | .cmn => .add a b
  | .adc => .adc a b flags.c
  | .sbc => .sbc a b flags.c
  | .rsc => .sbc b a flags.c

/-- A data-processing instruction. Setting the flags together with the program counter returns from
an exception: the saved status word is loaded in place of the flags. -/
def dataProcessing (op : AluOp) (setFlags : Bool) (rd rn : Reg) (operand : Operand) :
    Exec Unit := do
  Exec.onCore (·.evalOperand operand)
  let result ← Exec.core fun c =>
    op.apply (c.reg rn) c.shifterOperand c.shifterCarry c.regs.flags
  if setFlags then
    let (returns, spsr) ← Exec.core fun c => (rd == .pc && c.regs.mode.hasSpsr, c.regs.spsr)
    if returns then Exec.loadStatus spsr else Exec.mapFlags result.flags
  if !op.isTest then Exec.setReg rd result.value

/-- Reads a status word into a register. -/
def readStatus (rd : Reg) (saved : Bool) : Exec Unit := do
  let status ← Exec.core fun c => if saved then c.regs.spsr else c.regs.packStatus
  Exec.setReg rd status

/-- The status word `old` with the bits of `mask` taken from `value`. -/
def mergeStatus (old value mask : Word) : Word := (old &&& ~~~mask) ||| (value &&& mask)

/-- Writes the selected bits of the saved status word, in the modes that have one. -/
def writeSaved (mask value : Word) (r : Registers) : Registers :=
  if r.mode.hasSpsr then
    let mask := mask &&& (Registers.conditionMask ||| Registers.controlMask ||| Registers.setMask)
    { r with spsr := mergeStatus r.spsr value mask }
  else r

/-- Writes the selected parts of the status word: the condition flags in every mode, and the mode
and the interrupt masks in privileged ones. The mode is checked before anything changes. -/
def writeCurrent (mask value : Word) (r : Registers) : Except Fault Registers := do
  let mode? ←
    if r.mode ≠ .user ∧ mask &&& Registers.controlMask ≠ 0 then
      (Mode.ofBits ((value &&& 0xF) ||| 0x10)).map some
    else pure none
  let r :=
    if mask &&& Registers.conditionMask ≠ 0 then
      { r with
        flags := { r.flags with
          n := value.bit 31, z := value.bit 30, c := value.bit 29, v := value.bit 28 } }
    else r
  match mode? with
  | none => return r
  | some mode =>
    let r := r.switchMode mode
    return { r with flags := { r.flags with i := value.bit 7, f := value.bit 6 } }

/-- Writes a status word. -/
def writeStatus (saved : Bool) (mask : Word) (source : StatusSource) : Exec Unit := fun b =>
  let value := match source with
    | .register rm => b.core.reg rm
    | .immediate value => value
  if saved then .ok () (b.mapCore fun c => { c with regs := writeSaved mask value c.regs })
  else
    match writeCurrent mask value b.core.regs with
    | .error fault => .error fault b
    | .ok regs => .ok () (b.mapCore ({ · with regs })).testIrq

/-- A multiplication. -/
def multiply (accumulate setFlags : Bool) (rd rn rs rm : Reg) : Exec Unit := do
  let multiplier ← Exec.reg rs
  Exec.charge (multiplyCycles multiplier)
  let product := (← Exec.reg rm) * multiplier
  let addend ← if accumulate then Exec.reg rn else pure 0
  if accumulate then Exec.charge 1
  let result := product + addend
  if setFlags then Exec.mapFlags (·.setNZ result)
  Exec.setReg rd result

/-- The 64-bit product of two words. -/
def longProduct (signed : Bool) (a b : Word) : UInt64 :=
  if signed then (a.toInt32.toInt64 * b.toInt32.toInt64).toUInt64
  else a.toUInt64 * b.toUInt64

/-- A multiplication with a result of 64 bits. -/
def multiplyLong (signed accumulate setFlags : Bool) (rdHi rdLo rs rm : Reg) : Exec Unit := do
  let multiplier ← Exec.reg rs
  Exec.charge (multiplyCycles multiplier + 1)
  let product := longProduct signed (← Exec.reg rm) multiplier
  let addend ← Exec.core fun c =>
    if accumulate then ((c.reg rdHi).toUInt64 <<< 32) ||| (c.reg rdLo).toUInt64 else 0
  if accumulate then Exec.charge 1
  let result := product + addend
  if setFlags then Exec.mapFlags ({ · with n := result >>> 63 != 0, z := result == 0 })
  Exec.setReg rdLo result.toUInt32
  Exec.setReg rdHi (result >>> 32).toUInt32

/-! ### Transfers -/

/-- Exchanges a register with memory. -/
def swap (byte : Bool) (rd rn rm : Reg) : Exec Unit := do
  let address ← Exec.reg rn
  let value ← Exec.reg rm
  let old ←
    if byte then do
      Exec.chargeBus (·.wait address * 2)
      let old ← Exec.load .byte address
      Exec.store .byte address value
      pure old
    else do
      Exec.chargeBus (·.wait32 address * 2)
      let old ← Exec.load .word address
      Exec.store .word address value
      pure old
  Exec.setReg rd old
  Exec.charge 1

/-- The address of a single transfer, with the base written back. -/
def evalAddress (a : SingleAddress) : Exec Word := fun b =>
  let (address, c) := b.core.evalSingle a
  .ok address (b.mapCore fun _ => c)

/-- Whether the access of a load is charged before it is made: words and bytes are. -/
def chargedFirst : LoadKind → Bool
  | .word | .byte => true
  | _ => false

/-- A load. -/
def loadSingle (kind : LoadKind) (rd : Reg) (a : SingleAddress) : Exec Unit := do
  let address ← evalAddress a
  if chargedFirst kind then Exec.chargeBus (·.waitLoad kind address)
  let value ← Exec.load kind address
  if !chargedFirst kind then Exec.chargeBus (·.waitLoad kind address)
  Exec.charge 1
  Exec.setReg rd value

/-- Charges one 32-bit access at the program counter. -/
def chargeAtPc : Exec Unit := do
  let pc ← Exec.core Core.pc
  Exec.chargeBus (·.wait32 pc)

/-- A store. The register is read before the base is written back. -/
def storeSingle (width : StoreWidth) (rd : Reg) (a : SingleAddress) : Exec Unit := do
  let value ← Exec.core (·.storeValue rd)
  let address ← evalAddress a
  Exec.store width address value
  Exec.chargeBus (·.waitStore width address)
  chargeAtPc

/-- The address of the first word of a block transfer. The base is written back before anything is
transferred, and a store that drops the base from its list stores it first. -/
def blockAddress (a : BlockAddress) (store : Bool) : Exec Word := do
  let base ← Exec.reg a.rn
  let address := base + a.start
  if a.writeback then
    if store && a.overlap then Exec.store .word (address - 4) base
    Exec.setReg a.rn (base + a.delta)
  return address

/-- Loads words from ascending addresses into registers. -/
def loadWords (address : Word) : List Reg → Exec Unit
  | [] => pure ()
  | r :: rest => do
    Exec.setReg r (← Exec.load .word (Word.alignDown address 4))
    loadWords (address + 4) rest

/-- Stores registers to words at ascending addresses. -/
def storeWords (address : Word) : List Reg → Exec Unit
  | [] => pure ()
  | r :: rest => do
    Exec.store .word address (← Exec.core (·.storeValue r))
    storeWords (address + 4) rest

/-- Acts on the registers of User mode if `user` says so, and then returns to the current mode. A
fault leaves the registers as they are when it happens. -/
def inBank (user : Bool) (act : Exec Unit) : Exec Unit := do
  if user then
    let mode ← Exec.core (·.regs.mode)
    Exec.onCore (·.switchMode .system)
    act
    Exec.onCore (·.switchMode mode)
  else act

/-- A block load. With the user-bank bit it loads the registers of User mode, or, if the program
counter is among them, returns from an exception. -/
def loadMultiple (userBank : Bool) (list : RegList) (a : BlockAddress) : Exec Unit := do
  let start ← blockAddress a false
  let loadsPc := list.contains .pc
  inBank (userBank && !loadsPc) (loadWords start list.toList)
  Exec.chargeBus (·.waitMultiple32 start list.count)
  Exec.charge 1
  if userBank && loadsPc then
    let (hasSpsr, spsr) ← Exec.core fun c => (c.regs.mode.hasSpsr, c.regs.spsr)
    if hasSpsr then Exec.loadStatus spsr

/-- A block store. With the user-bank bit it stores the registers of User mode. -/
def storeMultiple (userBank : Bool) (list : RegList) (a : BlockAddress) : Exec Unit := do
  chargeAtPc
  let start ← blockAddress a true
  inBank userBank (storeWords start list.toList)
  if a.overlap && a.writeback then
    Exec.chargeBus (·.waitMultiple32 (start - 4) (list.count + 1))
  else Exec.chargeBus (·.waitMultiple32 start list.count)

/-! ### Branches -/

/-- A branch, which may leave the address of the next instruction in LR. -/
def branch (link : Bool) (offset : Word) : Exec Unit := do
  Exec.prefetch .arm
  let pc ← Exec.core Core.pc
  if link then Exec.setReg .lr (pc - 4)
  Exec.setReg .pc (pc + offset)

/-- A branch to the instruction set that bit 0 of the target selects. -/
def exchangeTo (target : Word) : Exec Unit := do
  Exec.onCore (·.setSet (.ofBit (target.bit 0)))
  Exec.setReg .pc (Word.alignDown target 2)

/-- A branch with exchange. -/
def branchExchange (rm : Reg) : Exec Unit := do exchangeTo (← Exec.reg rm)

/-- A software interrupt, whose number is in the high byte of the comment. -/
def softwareInterrupt (comment : Word) : Exec Unit := do
  Bios.softwareInterrupt (comment.field 16 8)
  Exec.prefetch .arm

/-- Executes an instruction fetched at an address. -/
def exec (i : Instr) (address : Word) : Exec Unit :=
  match i.op with
  | .dataProcessing op setFlags rd rn operand =>
    afterFetch i.cond (dataProcessing op setFlags rd rn operand)
  | .readStatus rd saved => afterFetch i.cond (readStatus rd saved)
  | .writeStatus saved mask source => afterFetch i.cond (writeStatus saved mask source)
  | .multiply accumulate setFlags rd rn rs rm =>
    afterFetch i.cond (multiply accumulate setFlags rd rn rs rm)
  | .multiplyLong signed accumulate setFlags rdHi rdLo rs rm =>
    afterFetch i.cond (multiplyLong signed accumulate setFlags rdHi rdLo rs rm)
  | .swap byte rd rn rm => afterFetch i.cond (swap byte rd rn rm)
  | .load kind rd a => afterFetch i.cond (loadSingle kind rd a)
  | .store width rd a => insteadOfFetch i.cond (storeSingle width rd a)
  | .loadMultiple userBank list a => afterFetch i.cond (loadMultiple userBank list a)
  | .storeMultiple userBank list a => insteadOfFetch i.cond (storeMultiple userBank list a)
  | .branch link offset => insteadOfFetch i.cond (branch link offset)
  | .branchExchange rm => afterFetch i.cond (branchExchange rm)
  | .softwareInterrupt comment => insteadOfFetch i.cond (softwareInterrupt comment)
  | .undefined opcode => throw (.illegalInstruction address opcode .arm)

end Armv4T.Arm
