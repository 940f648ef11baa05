import Armv4T.Machine.Debug
import Armv4T.MemoryMap.Document

/-!
# What a run leaves behind

The configuration of a run, why it stopped, and the snapshot and the report that it writes.
-/

namespace Armv4T

/-- Everything needed to build the machine of a run again. -/
structure RunConfig where
  image : String
  loadAddress : Word
  entry : Word
  bios : Option String
  map : Option String
  services : Bool
  strict : Bool
  decodeCache : Bool
  maxSteps : UInt64
  deriving DecidableEq, Repr

/-- Why a run stopped. -/
inductive RunStop
  | maxSteps
  | breakpoint
  | illegalInstruction
  | memoryViolation
  | unimplementedService
  | invalidMode
  | invalidSnapshot
  deriving DecidableEq, Repr

namespace RunStop

/-- The stop that a fault causes. -/
def ofFault : Fault → RunStop
  | .illegalInstruction .. => illegalInstruction
  | .memoryViolation _ => memoryViolation
  | .unimplementedService _ => unimplementedService
  | .invalidMode _ => invalidMode
  | .invalidSnapshot _ => invalidSnapshot

/-- The stop that a reason of the debugger names. -/
def ofReason : StopReason → RunStop
  | .breakpoint _ => breakpoint
  | .stepDone => maxSteps
  | .maxStepsReached => maxSteps

/-- Whether a stop is an error. -/
def isError : RunStop → Bool
  | maxSteps | breakpoint => false
  | _ => true

/-- The stops by name. -/
def names : List (String × RunStop) :=
  [("max_steps", maxSteps), ("breakpoint", breakpoint),
   ("illegal_instruction", illegalInstruction), ("memory_violation", memoryViolation),
   ("unimplemented_swi", unimplementedService), ("invalid_mode", invalidMode),
   ("invalid_snapshot", invalidSnapshot)]

/-- The name of a stop. -/
def name : RunStop → String
  | maxSteps => "max_steps"
  | breakpoint => "breakpoint"
  | illegalInstruction => "illegal_instruction"
  | memoryViolation => "memory_violation"
  | unimplementedService => "unimplemented_swi"
  | invalidMode => "invalid_mode"
  | invalidSnapshot => "invalid_snapshot"

/-- One word for whether all went well. -/
def status (s : RunStop) : String := if s.isError then "error" else "ok"

end RunStop

/-- How a run ended: the steps that were finished, and the message of the fault, if one stopped
it. -/
structure RunResult where
  stop : RunStop
  steps : Nat
  message : Option String := none
  deriving DecidableEq, Repr

/-- A snapshot as it is written to a file. -/
structure SnapshotFile where
  schemaVersion : String
  status : String
  steps : UInt64
  stop : RunStop
  message : Option String
  config : RunConfig
  machine : Snapshot
  deriving Repr

namespace RunConfig

/-- Reads a configuration. -/
def ofDocument? (d : Document) : Option RunConfig := do
  let path? := Document.optional? Document.text?
  let r ← d.record?
    ["image", "load_addr", "entry", "bios", "map", "hle_bios", "strict", "decode_cache",
     "max_steps"]
  return { image := ← Document.field? r "image" Document.text?
           loadAddress := ← Document.field? r "load_addr" Document.word?
           entry := ← Document.field? r "entry" Document.word?
           bios := ← Document.fieldD? r "bios" none path?
           map := ← Document.fieldD? r "map" none path?
           services := ← Document.fieldD? r "hle_bios" false Document.bool?
           strict := ← Document.fieldD? r "strict" false Document.bool?
           decodeCache := ← Document.field? r "decode_cache" Document.bool?
           maxSteps := ← Document.field? r "max_steps" Document.count? }

/-- Writes a configuration. -/
def toDocument (c : RunConfig) : Document :=
  .table [("image", .text c.image), ("load_addr", .ofWord c.loadAddress),
    ("entry", .ofWord c.entry), ("bios", .ofOption .text c.bios), ("map", .ofOption .text c.map),
    ("hle_bios", .bool c.services), ("strict", .bool c.strict),
    ("decode_cache", .bool c.decodeCache), ("max_steps", .ofCount c.maxSteps)]

end RunConfig

/-- The field of a message, left out if there is none. -/
def messageField : Option String → List (String × Document)
  | some s => [("message", .text s)]
  | none => []

namespace SnapshotFile

/-- The version of the format. -/
def currentVersion : String := "1.0"

/-- Reads a snapshot file. -/
def ofDocument? (d : Document) : Option SnapshotFile := do
  let r ← d.record?
    ["snapshot_schema_version", "status", "steps_executed", "stop_reason", "message", "config",
     "machine"]
  return { schemaVersion := ← Document.field? r "snapshot_schema_version" Document.text?
           status := ← Document.field? r "status" Document.text?
           steps := ← Document.field? r "steps_executed" Document.count?
           stop := ← Document.field? r "stop_reason" (Document.choice? RunStop.names)
           message := ← Document.fieldD? r "message" none (Document.optional? Document.text?)
           config := ← Document.field? r "config" RunConfig.ofDocument?
           machine := ← Document.field? r "machine" Snapshot.ofDocument? }

/-- Writes a snapshot file. -/
def toDocument (s : SnapshotFile) : Document :=
  .table <|
    [("snapshot_schema_version", .text s.schemaVersion), ("status", .text s.status),
      ("steps_executed", .ofCount s.steps), ("stop_reason", .text s.stop.name)] ++
    messageField s.message ++
    [("config", s.config.toDocument), ("machine", s.machine.toDocument)]

end SnapshotFile

/-- The report of a run: what was counted on it, and where the machine stands. -/
def report (m : Machine) (metrics : Metrics) (result : RunResult) : Document :=
  .table <|
    [("status", .text result.stop.status), ("stop_reason", .text result.stop.name)] ++
    messageField result.message ++
    [("steps_executed", .int result.steps), ("instructions", .ofCount metrics.instructions),
      ("cycles", .ofCount metrics.cycles), ("total_cycles", .ofCount m.totalCycles),
      ("final_pc", .ofWord m.nextAddress),
      ("thumb", .bool (m.board.core.regs.set == .thumb)),
      ("decoded_instructions", .ofCount m.board.bus.cache.compiled)]

end Armv4T
