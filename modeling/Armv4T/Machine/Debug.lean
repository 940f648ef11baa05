import Armv4T.Machine.Basic

/-!
# Debugging a machine

Breakpoints, bounded runs, and access to registers and memory from outside. Breakpoints do not
distinguish the two instruction sets: bit 0 of an address does not count.
-/

namespace Armv4T

/-- Why a run stopped without a fault. -/
inductive StopReason
  | breakpoint (pc : Word)
  | stepDone
  | maxStepsReached
  deriving DecidableEq, Repr

namespace Machine

/-! ### Breakpoints -/

/-- Inserts into an ascending list without duplicates. -/
def insertAscending (a : Word) : List Word → List Word
  | [] => [a]
  | b :: rest =>
    if a < b then a :: b :: rest else if a = b then b :: rest else b :: insertAscending a rest

/-- The address that a breakpoint stands for. -/
def breakpointAt (address : Word) : Word := Word.alignDown address 2

/-- Sets a breakpoint. -/
def addBreakpoint (m : Machine) (address : Word) : Machine :=
  { m with breakpoints := insertAscending (breakpointAt address) m.breakpoints }

/-- Removes a breakpoint. -/
def removeBreakpoint (m : Machine) (address : Word) : Machine :=
  { m with breakpoints := m.breakpoints.filter (· != breakpointAt address) }

/-- Removes all breakpoints. -/
def clearBreakpoints (m : Machine) : Machine := { m with breakpoints := [] }

/-- Whether a breakpoint is set at an address. -/
def atBreakpoint (m : Machine) (address : Word) : Bool :=
  m.breakpoints.contains (breakpointAt address)

/-! ### Running -/

/-- The address of the next instruction. -/
def nextAddress (m : Machine) : Word := m.board.core.nextAddress

/-- Runs at most `n` more steps. A breakpoint at the next instruction ends the run, if `started`
says that at least one step has been made. -/
def runFrom (n : Nat) (started : Bool) (m : Machine) :
    EStateM.Result Fault Machine StopReason :=
  if started && m.atBreakpoint m.nextAddress then .ok (.breakpoint m.nextAddress) m
  else
    match n with
    | 0 => .ok .maxStepsReached m
    | n + 1 =>
      match step m with
      | .ok _ m => runFrom n true m
      | .error fault m => .error fault m

/-- Runs to the next breakpoint, at most `limit` steps. A run makes the first step even from a
breakpoint. Steps are counted in a word, which is the limit if none is given. -/
def run (limit : Option Word) : Action StopReason := fun m =>
  match runFrom ((limit.map UInt32.toNat).getD UInt32.size) false m with
  | .ok reason m => .ok reason (m.notify .stopped)
  | .error fault m => .error fault (m.notify .stopped)

/-- Makes one step. -/
def stepSingle : Action StopReason := do
  step
  return .stepDone

/-! ### Registers and memory -/

/-- The number under which the status word is read and written like a register. -/
def statusRegister : Word := 16

/-- The value of a register of the current mode, or of the status word. -/
def readRegister (m : Machine) (id : Word) : Word :=
  if id = statusRegister then m.board.core.regs.packStatus else m.board.core.reg (.ofWord id)

/-- Writes the status word. The next instruction stays the same across a change of the instruction
set. -/
def writeStatus (value : Word) : Exec Unit := do
  let (next, set) ← Exec.core fun c => (c.nextAddress, c.regs.set)
  Exec.loadStatus value
  if (← Exec.core (·.regs.set)) != set then Exec.onCore (·.setPc next)

/-- Writes a register of the current mode, the status word, or the address of the next
instruction. -/
def writeRegister (id value : Word) : Exec Unit :=
  if id = statusRegister then writeStatus value
  else if id = 15 then Exec.onCore (·.setPc value)
  else Exec.setReg (.ofWord id) value

/-- Reads bytes from memory as loads do, up to the first fault. -/
def readMemory (address : Word) : Nat → Exec (List UInt8)
  | 0 => pure []
  | n + 1 => do
    let byte ← Exec.load .byte address
    return byte.toUInt8 :: (← readMemory (address + 1) n)

/-- Writes bytes to memory as stores do, up to the first fault. -/
def writeMemory (address : Word) : List UInt8 → Exec Unit
  | [] => pure ()
  | byte :: rest => do
    Exec.store .byte address byte.toUInt32
    writeMemory (address + 1) rest

end Machine

end Armv4T
