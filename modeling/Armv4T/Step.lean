import Armv4T.Arm.Exec
import Armv4T.Thumb.Exec

/-!
# One step of the core

A step executes the instruction at the next address and then looks at the interrupts. Decoded
instructions come from the cache where it is enabled, and each remembers its successor: after an
instruction that does not redirect the program counter, and after a branch that always goes to the
same place, the decoding of the next instruction is found through the one just executed. What is
remembered is checked before it is used, so that it saves work and changes nothing else.
-/

namespace Armv4T.Exec

/-- Looks an instruction up in the cache. -/
def lookup (address : Word) (set : InstrSet) : Exec (Option (HandleId × Handle)) := fun b =>
  let ⟨core, bus, irq, journal⟩ := b
  let ⟨regions, storages, slots, cache, strict⟩ := bus
  let (found, cache) := cache.lookup address set
  .ok found ⟨core, ⟨regions, storages, slots, cache, strict⟩, irq, journal⟩

/-- Inserts a decoded instruction into the cache. -/
def insert (h : Handle) : Exec HandleId := fun b =>
  let ⟨core, bus, irq, journal⟩ := b
  let ⟨regions, storages, slots, cache, strict⟩ := bus
  let (id, cache) := cache.insert h
  .ok id ⟨core, ⟨regions, storages, slots, cache, strict⟩, irq, journal⟩

/-- Records the successor of a cached instruction. -/
def link (id next : HandleId) : Exec Unit :=
  update (·.mapBus fun bus =>
    let ⟨regions, storages, slots, cache, strict⟩ := bus
    ⟨regions, storages, slots, cache.link id next, strict⟩)

/-- The opcode at an address. -/
def fetchOpcode (set : InstrSet) (address : Word) : Exec Word :=
  match set with
  | .arm => load .word address
  | .thumb => do return (← load .half address) &&& 0xFFFF

/-- Fetches and decodes the instruction at an address. -/
def fetch (set : InstrSet) (address : Word) : Exec Handle := do
  let opcode ← fetchOpcode set address
  let h := Handle.decode set opcode address
  if h.instruction.isUndefined then update (·.note (.undefinedOpcode set opcode address))
  return h

/-- The decoded instruction at an address, from the cache if it is there and enabled. -/
def loadHandle (address : Word) : Exec (HandleId × Handle) := do
  let (set, enabled) ← core fun c => (c.regs.set, c.cacheEnabled)
  let hit ← if enabled then lookup address set else pure none
  match hit with
  | some found => return found
  | none =>
    let h ← fetch set address
    return (← insert h, h)

/-- Remembers the decoding of the next instruction. -/
def setCurrent (current : Option HandleId) : Exec Unit := onCore ({ · with current })

/-- The decoding of the next instruction: the one remembered, or the one found at its address. -/
def currentHandle : Exec Handle := do
  let current ← core Core.current
  match ← bus fun bus => current.bind bus.cache.get? with
  | some h => return h
  | none =>
    let (id, h) ← loadHandle (← core Core.nextAddress)
    setCurrent (some id)
    return h

/-- Remembers the successor of an instruction as the next one. If the successor is not known or no
longer valid then it is found at the next address. -/
def follow (id : HandleId) (next : Option HandleId) : Exec Unit := do
  let valid ← bus fun bus => (next.bind bus.cache.get?).isSome
  if valid then setCurrent next
  else
    let (found, _) ← loadHandle (← core Core.nextAddress)
    link id found
    setCurrent (some found)

/-- Follows the successor of the current instruction if decodings are cached, and otherwise forgets
the current instruction. -/
def followCurrent (next : Option HandleId) : Exec Unit := do
  match ← core fun c => if c.cacheEnabled then c.current else none with
  | some id => follow id next
  | none => setCurrent none

/-- Continues at the target of a branch: fetches its first two instructions. -/
def refill : Exec Unit := do
  let (set, pc) ← core fun c => (c.regs.set, c.pc)
  let target := Word.alignDown pc set.width
  chargeBus fun bus => bus.waitFetch set target + bus.waitPrefetch set target
  setReg .pc (target + set.width)

/-- Executes a decoded instruction. -/
def instruction (h : Handle) : Exec Unit :=
  match h.instruction with
  | .arm i => Arm.exec i h.address
  | .thumb i => Thumb.exec i h.address

/-- Executes the next instruction of a running core. -/
def executeNext : Exec Unit := do
  let h ← currentHandle
  onCore fun c => { c.setReg .pc (c.pc + h.set.width) with conditionPassed := true }
  instruction h
  if !h.instruction.writesPc then followCurrent h.next
  else if ← core Core.conditionPassed then
    refill
    if h.instruction.isFixedJump then followCurrent h.next else setCurrent none
  else setCurrent none

/-- One step: an instruction, unless the core is halted, and then the interrupts. -/
def step : Exec Unit := do
  if !(← core Core.halted) then executeNext
  update Board.updateInterrupts

end Armv4T.Exec
