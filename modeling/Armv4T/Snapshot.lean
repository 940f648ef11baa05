import Armv4T.Core
import Armv4T.Document.Basic

/-!
# Snapshots

A snapshot holds the architectural state of the core: registers with all their banked copies, flags,
mode, instruction set, cycles and whether the core is halted. Cached decodings and memory are not
part of it. Each bank is a list of SP and LR, followed by r8 to r12 in the banks of User mode and of
FIQ; a snapshot with lists of other lengths is refused.
-/

namespace Armv4T

/-- The state of a core, as it is saved. -/
structure CoreSnapshot where
  registers : List Word
  mode : Mode
  set : InstrSet
  flags : Flags
  banked : List (List Word)
  spsr : Word
  bankedSpsrs : List Word
  cycles : UInt64
  halted : Bool
  deriving DecidableEq, Repr, Inhabited

namespace CoreSnapshot

/-- The lengths of the saved banks. -/
def bankLengths : List Nat := [7, 7, 2, 2, 2, 2]

/-- What is wrong with the shape of a snapshot, if anything. -/
def defect? (s : CoreSnapshot) : Option SnapshotDefect :=
  if s.registers.length ≠ 16 then some (.registerCount s.registers.length)
  else if s.banked.map List.length ≠ bankLengths then some .bankLengths
  else if s.bankedSpsrs.length ≠ 6 then some (.savedStatusCount s.bankedSpsrs.length)
  else none

/-- A word of a saved bank. -/
def slot (s : CoreSnapshot) (bank index : Nat) : Word := (s.banked.getD bank []).getD index 0

/-- The register file of a snapshot. -/
def toRegisters (s : CoreSnapshot) : Registers :=
  { visible := Vector.ofFn fun i => s.registers.getD i.val 0
    mode := s.mode
    set := s.set
    flags := s.flags
    spsr := s.spsr
    banks := Vector.ofFn fun i =>
      { sp := s.slot i.val 0, lr := s.slot i.val 1, spsr := s.bankedSpsrs.getD i.val 0 }
    high := Vector.ofFn fun i => s.slot 0 (i.val + 2)
    fiqHigh := Vector.ofFn fun i => s.slot 1 (i.val + 2) }

end CoreSnapshot

namespace Registers

/-- The saved banks as lists. -/
def bankLists (r : Registers) : List (List Word) :=
  let pairs := r.banks.toList.map fun b => [b.sp, b.lr]
  pairs.zipWith (· ++ ·) ([r.high.toList, r.fiqHigh.toList] ++ List.replicate 4 [])

end Registers

namespace Core

/-- The snapshot of a core. -/
def snapshot (c : Core) : CoreSnapshot :=
  { registers := c.regs.visible.toList
    mode := c.regs.mode
    set := c.regs.set
    flags := c.regs.flags
    banked := c.regs.bankLists
    spsr := c.regs.spsr
    bankedSpsrs := c.regs.banks.toList.map Bank.spsr
    cycles := c.cycles
    halted := c.halted }

/-- Replaces the architectural state of a core by a snapshot. Nothing changes if the snapshot has a
defect. -/
def restore (c : Core) (s : CoreSnapshot) : Except Fault Core :=
  match s.defect? with
  | some defect => .error (.invalidSnapshot defect)
  | none =>
    .ok { c with regs := s.toRegisters, cycles := s.cycles, halted := s.halted, current := none }

end Core

/-- The state of a machine, as it is saved. -/
structure Snapshot where
  core : CoreSnapshot
  totalCycles : UInt64
  deriving DecidableEq, Repr, Inhabited

/-! ### Snapshots as documents -/

namespace Mode

/-- The modes by name. -/
def names : List (String × Mode) :=
  [("User", user), ("Fiq", fiq), ("Irq", irq), ("Supervisor", supervisor), ("Abort", abort),
   ("Undefined", undefined), ("System", system)]

/-- The name of a mode. -/
def name : Mode → String
  | user => "User"
  | fiq => "Fiq"
  | irq => "Irq"
  | supervisor => "Supervisor"
  | abort => "Abort"
  | undefined => "Undefined"
  | system => "System"

end Mode

namespace InstrSet

/-- The instruction sets by name. -/
def names : List (String × InstrSet) := [("arm", arm), ("thumb", thumb)]

/-- The name of an instruction set. -/
def name : InstrSet → String
  | arm => "arm"
  | thumb => "thumb"

end InstrSet

namespace Flags

/-- Reads flags. -/
def ofDocument? (d : Document) : Option Flags := do
  let r ← d.record? ["n", "z", "c", "v", "i", "f"]
  return { n := ← Document.field? r "n" Document.bool?
           z := ← Document.field? r "z" Document.bool?
           c := ← Document.field? r "c" Document.bool?
           v := ← Document.field? r "v" Document.bool?
           i := ← Document.field? r "i" Document.bool?
           f := ← Document.field? r "f" Document.bool? }

/-- Writes flags. -/
def toDocument (f : Flags) : Document :=
  .table [("n", .bool f.n), ("z", .bool f.z), ("c", .bool f.c), ("v", .bool f.v),
    ("i", .bool f.i), ("f", .bool f.f)]

end Flags

namespace CoreSnapshot

/-- Reads the snapshot of a core. -/
def ofDocument? (d : Document) : Option CoreSnapshot := do
  let words := Document.listOf? Document.word?
  let r ← d.record?
    ["registers", "mode", "exec_state", "flags", "banked", "spsr", "banked_spsrs", "cycles",
     "halted"]
  return { registers := ← Document.field? r "registers" words
           mode := ← Document.field? r "mode" (Document.choice? Mode.names)
           set := ← Document.field? r "exec_state" (Document.choice? InstrSet.names)
           flags := ← Document.field? r "flags" Flags.ofDocument?
           banked := ← Document.field? r "banked" (Document.listOf? words)
           spsr := ← Document.field? r "spsr" Document.word?
           bankedSpsrs := ← Document.field? r "banked_spsrs" words
           cycles := ← Document.field? r "cycles" Document.count?
           halted := ← Document.field? r "halted" Document.bool? }

/-- Writes the snapshot of a core. -/
def toDocument (s : CoreSnapshot) : Document :=
  let words (ws : List Word) : Document := .list (ws.map .ofWord)
  .table [("registers", words s.registers), ("mode", .text s.mode.name),
    ("exec_state", .text s.set.name), ("flags", s.flags.toDocument),
    ("banked", .list (s.banked.map words)), ("spsr", .ofWord s.spsr),
    ("banked_spsrs", words s.bankedSpsrs), ("cycles", .ofCount s.cycles),
    ("halted", .bool s.halted)]

end CoreSnapshot

namespace Snapshot

/-- Reads the snapshot of a machine. -/
def ofDocument? (d : Document) : Option Snapshot := do
  let r ← d.record? ["cpu", "total_cycles"]
  return { core := ← Document.field? r "cpu" CoreSnapshot.ofDocument?
           totalCycles := ← Document.field? r "total_cycles" Document.count? }

/-- Writes the snapshot of a machine. -/
def toDocument (s : Snapshot) : Document :=
  .table [("cpu", s.core.toDocument), ("total_cycles", .ofCount s.totalCycles)]

end Snapshot

end Armv4T
