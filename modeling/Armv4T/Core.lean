import Armv4T.Addressing
import Armv4T.Alu
import Armv4T.Condition
import Armv4T.Instruction

/-!
# The core

The state of the processor core and the operations that touch nothing else. The program counter
follows the pipeline: while an instruction executes it reads as the address of the instruction and
two instruction widths, and between steps as the address of the next instruction and one width.
-/

namespace Armv4T

/-- The core. The barrel shifter leaves its last output here, and the condition test its last
outcome. `current` refers to the cached decoding of the next instruction, if it is known, and
`cacheEnabled` says whether cached decodings are used at all. -/
structure Core where
  regs : Registers := {}
  cycles : UInt64 := 0
  shifterOperand : Word := 0
  shifterCarry : Bool := false
  conditionPassed : Bool := true
  halted : Bool := false
  current : Option HandleId := none
  cacheEnabled : Bool := true
  deriving Repr, Inhabited

namespace Core

/-! ### Registers -/

/-- The value of a visible register. -/
def reg (c : Core) (r : Reg) : Word := c.regs.read r

/-- Changes a visible register. -/
def setReg (c : Core) (r : Reg) (value : Word) : Core := { c with regs := c.regs.write r value }

/-- Changes the flags. -/
def setFlags (c : Core) (flags : Flags) : Core := { c with regs := { c.regs with flags } }

/-- Changes the instruction set. -/
def setSet (c : Core) (set : InstrSet) : Core := { c with regs := { c.regs with set } }

/-- Enters a mode. -/
def switchMode (c : Core) (mode : Mode) : Core := { c with regs := c.regs.switchMode mode }

/-- The program counter. -/
def pc (c : Core) : Word := c.reg .pc

/-- The width of an instruction of the current set. -/
def width (c : Core) : Word := c.regs.set.width

/-- The address of the instruction that the next step executes. -/
def nextAddress (c : Core) : Word := c.pc - c.width

/-- Makes an address, rounded down to the instruction width, the next one to execute. -/
def setPc (c : Core) (address : Word) : Core :=
  { c.setReg .pc (Word.alignDown address c.width + c.width) with current := none }

/-- Adds cycles. -/
def charge (c : Core) (cycles : Word) : Core := { c with cycles := c.cycles + cycles.toUInt64 }

/-- The core as it starts at an entry: everything cleared, System mode, ARM instructions. -/
def reset (c : Core) (entry : Word) : Core :=
  { regs := Registers.write {} .pc (entry + InstrSet.arm.width), cacheEnabled := c.cacheEnabled }

/-! ### Conditions, shifts and addresses -/

/-- Tests a condition and records the outcome. "Always" is not recorded. -/
def testCondition (c : Core) (cond : Condition) : Bool × Core :=
  if cond = .al then (true, c)
  else
    let passed := cond.passes c.regs.flags
    (passed, { c with conditionPassed := passed })

/-- The value of a register in a shift by a register, where the program counter has moved one word
further. -/
def regAhead (c : Core) (r : Reg) : Word := if r = .pc then c.reg r + 4 else c.reg r

/-- The value and the carry of an operand. -/
def operandValue (c : Core) : Operand → Word × Bool
  | .immediate value => (value, c.regs.flags.c)
  | .rotated value => (value, value.bit 31)
  | .shifted kind rm amount => Shift.byImmediate kind (c.reg rm) amount c.regs.flags.c
  | .shiftedBy kind rm rs =>
    Shift.byRegister kind (c.regAhead rm) (c.regAhead rs) c.regs.flags.c

/-- The extra cycles of evaluating an operand: one for a shift by a register. -/
def operandCycles : Operand → Word
  | .shiftedBy .. => 1
  | _ => 0

/-- Evaluates an operand into the output of the shifter. -/
def evalOperand (c : Core) (operand : Operand) : Core :=
  let (value, carry) := c.operandValue operand
  { c.charge (operandCycles operand) with shifterOperand := value, shifterCarry := carry }

/-- Evaluates the offset of a single transfer. A shifted one goes through the shifter. -/
def evalOffset (c : Core) : Offset → Word × Core
  | .immediate value => (value, c)
  | .register rm => (c.reg rm, c)
  | .shifted kind rm amount =>
    let c := c.evalOperand (.shifted kind rm amount)
    (c.shifterOperand, c)

/-- Evaluates the address of a single transfer and writes the base back. -/
def evalSingle (c : Core) (a : SingleAddress) : Word × Core :=
  let (offset, c) := c.evalOffset a.offset
  let base := c.reg a.rn
  let indexed := if a.up then base + offset else base - offset
  match a.indexing with
  | .post => (base, c.setReg a.rn indexed)
  | .pre => (indexed, c)
  | .preWriteback => (indexed, c.setReg a.rn indexed)

/-- The value that a store writes for a register: the program counter reads one word further than
in other instructions. -/
def storeValue (c : Core) (r : Reg) : Word := if r = .pc then c.reg r + 4 else c.reg r

/-! ### Exceptions -/

/-- Enters an exception: the status word is saved in the mode of the exception, which runs ARM
instructions with IRQ disabled. -/
def enterException (c : Core) (mode : Mode) (vector returnAddress : Word) : Core :=
  let regs := { c.regs.switchMode mode with spsr := c.regs.packStatus }
  let regs := (regs.write .lr returnAddress).write .pc (vector + InstrSet.arm.width)
  { c with
    regs := { regs with set := .arm, flags := { regs.flags with i := true } }
    current := none }

end Core

/-- Where execution starts. -/
def resetVector : Word := 0x00

/-- Where a software interrupt is handled. -/
def trapVector : Word := 0x08

/-- Where an interrupt request is handled. -/
def irqVector : Word := 0x18

end Armv4T
