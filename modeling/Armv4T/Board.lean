import Armv4T.Bus
import Armv4T.Core
import Armv4T.Interrupts

/-!
# The board

The core with its bus and its interrupt lines, and the actions that instructions are made of. An
action either finishes or stops with a fault; in both cases what it did up to then stays done.
-/

namespace Armv4T

/-- A core, a bus and interrupt lines, and the journal of what was noticed. -/
structure Board where
  core : Core := {}
  bus : Bus := {}
  irq : InterruptLines := {}
  journal : Array Notice := #[]
  deriving Inhabited

namespace Board

/-- Changes the core. -/
def mapCore (b : Board) (f : Core → Core) : Board :=
  let ⟨core, bus, irq, journal⟩ := b
  ⟨f core, bus, irq, journal⟩

/-- Changes the bus. -/
def mapBus (b : Board) (f : Bus → Bus) : Board :=
  let ⟨core, bus, irq, journal⟩ := b
  ⟨core, f bus, irq, journal⟩

/-- Changes the interrupt lines. -/
def mapIrq (b : Board) (f : InterruptLines → InterruptLines) : Board :=
  let ⟨core, bus, irq, journal⟩ := b
  ⟨core, bus, f irq, journal⟩

/-- Writes a notice to the journal. -/
def note (b : Board) (n : Notice) : Board :=
  let ⟨core, bus, irq, journal⟩ := b
  ⟨core, bus, irq, journal.push n⟩

/-- Writes a notice to the journal, if there is one. -/
def note? (b : Board) : Option Notice → Board
  | some n => b.note n
  | none => b

/-! ### Interrupts and exceptions -/

/-- Looks again whether a request is eligible. -/
def testIrq (b : Board) : Board :=
  let disabled := b.core.regs.flags.i
  b.mapIrq (·.test disabled)

/-- Records a request. Requests on lines that do not exist are ignored. -/
def request (b : Board) (line : Word) : Board :=
  if line < InterruptLines.count then (b.mapIrq (·.raise line)).testIrq
  else b.note (.unknownLine line)

/-- Enters the interrupt exception, unless IRQ is disabled. The saved return address is that of the
next instruction and four. -/
def raiseIrq (b : Board) : Board :=
  if b.core.regs.flags.i then b
  else
    let returnAddress := b.core.nextAddress + 4
    (b.mapCore fun c =>
      { c.enterException .irq irqVector returnAddress with halted := false }).note
        (.irqTaken returnAddress)

/-- Enters the exception of a software interrupt. The saved return address is that of the next
instruction. -/
def raiseTrap (b : Board) : Board :=
  let returnAddress := b.core.nextAddress
  (b.mapCore (·.enterException .supervisor trapVector returnAddress)).note
    (.trapTaken returnAddress)

/-- Stops the core until it is resumed. -/
def halt (b : Board) : Board :=
  let notice := if b.core.halted then none else some (.halted b.core.nextAddress)
  (b.mapCore ({ · with halted := true })).note? notice

/-- Lets a halted core continue. -/
def resume (b : Board) : Board := b.mapCore ({ · with halted := false })

/-- What happens to the interrupts after every step: a pending request wakes a halted core, and an
armed interrupt is taken. -/
def updateInterrupts (b : Board) : Board :=
  let b := if b.core.halted && b.irq.pending != 0 then b.resume else b
  if b.irq.armed then (b.mapIrq ({ · with armed := false })).raiseIrq else b

end Board

/-- An action on the board, which may stop with a fault. -/
abbrev Exec := EStateM Fault Board

namespace Exec

/-- Changes the board. -/
def update (f : Board → Board) : Exec Unit := fun b => .ok () (f b)

/-- Changes the core. -/
def onCore (f : Core → Core) : Exec Unit := update (·.mapCore f)

/-- Reads something off the core. -/
def core {α : Type} (f : Core → α) : Exec α := fun b => .ok (f b.core) b

/-- Reads something off the bus. -/
def bus {α : Type} (f : Bus → α) : Exec α := fun b => .ok (f b.bus) b

/-- The value of a register. -/
def reg (r : Reg) : Exec Word := core (·.reg r)

/-- Changes a register. -/
def setReg (r : Reg) (value : Word) : Exec Unit := onCore (·.setReg r value)

/-- Changes the flags. -/
def mapFlags (f : Flags → Flags) : Exec Unit := onCore fun c => c.setFlags (f c.regs.flags)

/-- Adds cycles. -/
def charge (cycles : Word) : Exec Unit := onCore (·.charge cycles)

/-- Adds the cycles that the bus takes. -/
def chargeBus (f : Bus → Word) : Exec Unit := do charge (← bus f)

/-- Adds the cycles of fetching ahead at the program counter. -/
def prefetch (set : InstrSet) : Exec Unit := do
  let pc ← core Core.pc
  chargeBus (·.waitPrefetch set pc)

/-- Tests a condition and records the outcome. -/
def testCondition (cond : Condition) : Exec Bool := fun b =>
  let (passed, c) := b.core.testCondition cond
  .ok passed (b.mapCore fun _ => c)

/-- Loads a value. -/
def load (kind : LoadKind) (address : Word) : Exec Word := fun b =>
  match b.bus.fault? address with
  | some fault => .error fault b
  | none =>
    let value := b.bus.load kind address
    let notice := b.bus.loadNotice? address
    .ok value (b.note? notice)

/-- Stores a value. -/
def store (width : StoreWidth) (address value : Word) : Exec Unit := fun b =>
  match b.bus.fault? (width.align address) with
  | some fault => .error fault b
  | none =>
    let notice := b.bus.storeNotice? (width.align address)
    .ok () ((b.mapBus (·.store width address value)).note? notice)

/-- Copies an image into memory. -/
def loadImage (address : Word) (bytes : ByteArray) : Exec Unit := fun b =>
  match b.bus.imageFault? address with
  | some fault => .error fault b
  | none => .ok () (b.mapBus (·.loadImage address bytes))

/-- Loads a status word. If it changes the instruction set then the decoding of the next instruction
is no longer the right one, and if it enables IRQ then a request may have become eligible. -/
def loadStatus (status : Word) : Exec Unit := fun b =>
  match b.core.regs.loadStatus status with
  | .error fault => .error fault b
  | .ok regs =>
    let current := if regs.set = b.core.regs.set then b.core.current else none
    .ok () (b.mapCore ({ · with regs, current })).testIrq

end Exec

end Armv4T
