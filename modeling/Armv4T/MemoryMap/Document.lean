import Armv4T.Document.Yaml.Parser
import Armv4T.MemoryMap.Basic

/-!
# Memory maps as documents

How a memory map is written in JSON or YAML. Ids, bases and sizes have to be there, and everything
else has a default.
-/

namespace Armv4T

namespace WaitStates

/-- Reads wait states. -/
def ofDocument? (d : Document) : Option WaitStates := do
  let r ← d.record? ["nonseq16", "seq16", "nonseq32", "seq32"]
  return { nonseq16 := ← Document.fieldD? r "nonseq16" 0 Document.word?
           seq16 := ← Document.fieldD? r "seq16" 0 Document.word?
           nonseq32 := ← Document.fieldD? r "nonseq32" 0 Document.word?
           seq32 := ← Document.fieldD? r "seq32" 0 Document.word? }

/-- Writes wait states. -/
def toDocument (w : WaitStates) : Document :=
  .table [("nonseq16", .ofWord w.nonseq16), ("seq16", .ofWord w.seq16),
    ("nonseq32", .ofWord w.nonseq32), ("seq32", .ofWord w.seq32)]

end WaitStates

namespace RegionConfig

/-- Reads a region. -/
def ofDocument? (d : Document) : Option RegionConfig := do
  let r ← d.record? ["id", "base", "size", "page_size", "read_only", "mirror", "wait"]
  return { id := ← Document.field? r "id" Document.text?
           base := ← Document.field? r "base" Document.word?
           size := ← Document.field? r "size" Document.text?
           pageSize := ← Document.fieldD? r "page_size" none (Document.optional? Document.text?)
           readOnly := ← Document.fieldD? r "read_only" false Document.bool?
           mirror := ← Document.fieldD? r "mirror" none (Document.optional? Document.text?)
           wait := ← Document.fieldD? r "wait" {} WaitStates.ofDocument? }

/-- Writes a region. -/
def toDocument (r : RegionConfig) : Document :=
  .table [("id", .text r.id), ("base", .ofWord r.base), ("size", .text r.size),
    ("page_size", .ofOption .text r.pageSize), ("read_only", .bool r.readOnly),
    ("mirror", .ofOption .text r.mirror), ("wait", r.wait.toDocument)]

end RegionConfig

namespace MemoryMap

/-- Reads a memory map. -/
def ofDocument? (d : Document) : Option MemoryMap := do
  let r ← d.record? ["schema_version", "name", "regions"]
  return { schemaVersion := ← Document.fieldD? r "schema_version" "1.0" Document.text?
           name := ← Document.field? r "name" Document.text?
           regions := ← Document.field? r "regions" (Document.listOf? RegionConfig.ofDocument?) }

/-- Reads and checks a memory map written in YAML. -/
def ofYaml (text : String) : Except MapError MemoryMap := do
  let some m := (Document.Yaml.parse? text).bind ofDocument? | throw .unreadable
  m.validate
  return m

end MemoryMap

end Armv4T
