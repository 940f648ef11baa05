import Armv4T.Word

/-!
# Observers

An observer is told when a run starts and stops and when each step starts and ends. What it makes
of that is its own state: the machine does not depend on it.
-/

namespace Armv4T

/-- What observers are told. A step starts with the address and the opcode of its instruction, and
ends with the cycles it took. -/
inductive Event
  | started
  | stopped
  | stepStarted (pc opcode : Word)
  | stepEnded (cycles : Word)
  deriving DecidableEq, Repr

/-- Counts of the instructions started and the cycles spent since the last start. -/
structure Metrics where
  instructions : UInt64 := 0
  cycles : UInt64 := 0
  lastPc : Word := 0
  deriving DecidableEq, Repr, Inhabited

namespace Metrics

/-- The counts after an event. The address of the last instruction survives a restart. -/
def notify (m : Metrics) : Event → Metrics
  | .started => { m with instructions := 0, cycles := 0 }
  | .stopped => m
  | .stepStarted pc _ => { m with instructions := m.instructions + 1, lastPc := pc }
  | .stepEnded cycles => { m with cycles := m.cycles + cycles.toUInt64 }

/-- The average cycles per instruction, zero before the first instruction. -/
def cyclesPerInstruction (m : Metrics) : Float :=
  if m.instructions = 0 then 0.0 else m.cycles.toFloat / m.instructions.toFloat

end Metrics

/-- An observer: one that keeps a record of the events, one that counts, or one that does
nothing. -/
inductive Observer
  | recorder (events : Array Event)
  | metrics (m : Metrics)
  | silent
  deriving Repr

namespace Observer

/-- The observer after an event. -/
def notify (e : Event) : Observer → Observer
  | recorder events => recorder (events.push e)
  | metrics m => metrics (m.notify e)
  | silent => silent

/-- The counts of an observer that counts. -/
def metrics? : Observer → Option Metrics
  | metrics m => some m
  | _ => none

end Observer

end Armv4T
