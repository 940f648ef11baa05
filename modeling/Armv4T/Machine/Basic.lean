import Armv4T.Machine.Observer
import Armv4T.Snapshot
import Armv4T.Step

/-!
# The machine

A machine is a board with observers, breakpoints and a count of all cycles since its reset. Its
steps are those of the core. Observers are told of the instruction ahead of it, which may fetch the
instruction early, and of the cycles afterwards, also when the step stopped with a fault.
-/

namespace Armv4T

/-- A board with what belongs to running it. Breakpoints are in ascending order. -/
structure Machine where
  board : Board := {}
  observers : List Observer := []
  breakpoints : List Word := []
  totalCycles : UInt64 := 0
  deriving Inhabited

namespace Machine

/-- An action on the machine, which may stop with a fault. -/
abbrev Action := EStateM Fault Machine

/-- Tells all observers. -/
def notify (m : Machine) (e : Event) : Machine :=
  let ⟨board, observers, breakpoints, totalCycles⟩ := m
  ⟨board, observers.map (·.notify e), breakpoints, totalCycles⟩

/-- Changes the board. -/
def mapBoard (m : Machine) (f : Board → Board) : Machine :=
  let ⟨board, observers, breakpoints, totalCycles⟩ := m
  ⟨f board, observers, breakpoints, totalCycles⟩

/-- An action on the board as an action on the machine. -/
def onBoard {α : Type} (x : Exec α) : Action α := fun m =>
  let ⟨board, observers, breakpoints, totalCycles⟩ := m
  match x board with
  | .ok a board => .ok a ⟨board, observers, breakpoints, totalCycles⟩
  | .error fault board => .error fault ⟨board, observers, breakpoints, totalCycles⟩

/-- Forgets all cached decodings. -/
def clearCache (b : Board) : Board :=
  b.mapBus fun bus =>
    let ⟨regions, storages, slots, cache, strict⟩ := bus
    ⟨regions, storages, slots, cache.clear, strict⟩

/-- Starts over at an entry, with cleared registers and no pending interrupts. Memory stays. -/
def reset (m : Machine) (entry : Word) : Machine :=
  let m := m.mapBoard fun b => clearCache ((b.mapCore (·.reset entry)).mapIrq (·.clear))
  { m with totalCycles := 0 }.notify .started

/-- Tells the observers of the instruction that comes next, unless the core is halted. -/
def announce : Action Unit := fun m =>
  if m.board.core.halted || m.observers.isEmpty then .ok () m
  else
    match onBoard Exec.currentHandle m with
    | .ok h m => .ok () (m.notify (.stepStarted h.address h.opcode))
    | .error fault m => .error fault m

/-- Accounts for the cycles of a step that started at `before`. -/
def account (m : Machine) (before : UInt64) : Machine :=
  let now := m.board.core.cycles
  let spent := if now < before then 0 else now - before
  { m with totalCycles := m.totalCycles + spent }.notify (.stepEnded spent.toUInt32)

/-- One step. -/
def step : Action Unit := fun m =>
  match announce m with
  | .error fault m => .error fault m
  | .ok _ m =>
    let before := m.board.core.cycles
    match onBoard Exec.step m with
    | .ok _ m => .ok () (m.account before)
    | .error fault m => .error fault (m.account before)

/-- The snapshot of a machine. -/
def snapshot (m : Machine) : Snapshot := ⟨m.board.core.snapshot, m.totalCycles⟩

/-- Puts the core into the state of a snapshot. Nothing changes if the snapshot has a defect. -/
def applySnapshot (s : Snapshot) : Action Unit := fun m =>
  match m.board.core.restore s.core with
  | .error fault => .error fault m
  | .ok core =>
    let m := m.mapBoard fun b => clearCache (b.mapCore fun _ => core)
    .ok () { m with totalCycles := s.totalCycles }

end Machine

end Armv4T
