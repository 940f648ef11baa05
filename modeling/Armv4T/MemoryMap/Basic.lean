import Armv4T.Memory.Wait
import Armv4T.MemoryMap.Size
import Armv4T.Numeral

/-!
# Memory maps

A memory map lists the regions of the address space as a user writes them down: sizes are texts,
and a region may share the storage of an earlier one. Bits 27 to 24 of an address select one of
sixteen slots of 16 MiB, and a region claims whole slots.
-/

namespace Armv4T

/-- A region as it is configured. -/
structure RegionConfig where
  id : String
  base : Word
  size : String
  pageSize : Option String := none
  readOnly : Bool := false
  mirror : Option String := none
  wait : WaitStates := {}
  deriving DecidableEq, Repr, Inhabited

/-- What is wrong with a memory map. -/
inductive MapError
  | unreadable
  | unsupportedSchema (version : String)
  | invalidSize (id : String) (error : SizeError)
  | invalidPageSize (id : String) (error : SizeError)
  | notPowerOfTwo (id : String) (size : Nat)
  | misalignedBase (id : String) (base : Word)
  | badPageSize (id : String) (page : Nat)
  | outOfRange (id : String) (base : Word) (size : Nat)
  | overlap (id other : String)
  | duplicateId (id : String)
  | unknownMirror (id target : String)
  | tooLarge (id : String)
  | undeclaredMirror (id target : String)
  deriving DecidableEq, Repr

namespace MapError

/-- The text that reports an error. -/
def message : MapError → String
  | unreadable => "Failed to parse Memory Map YAML"
  | unsupportedSchema version =>
    s!"Unsupported schema_version '{version}'. Supported versions: '1.0'"
  | invalidSize id error => s!"Region '{id}': Invalid size format: {error.message}"
  | invalidPageSize id error =>
    s!"Region '{id}' page_size: Invalid size format: {error.message}"
  | notPowerOfTwo id size =>
    s!"Region '{id}': size {Numeral.hex 0 size} is not a power of two (use KiB/MiB units)"
  | misalignedBase id base =>
    s!"Region '{id}': base {Numeral.hex 0 base.toNat} is not aligned to a 16 MiB region"
  | badPageSize id page =>
    s!"Region '{id}': page size {Numeral.hex 0 page} must be a power of two between 4 bytes " ++
      "and the region size"
  | outOfRange id base size =>
    s!"Region '{id}': base {Numeral.hex 0 base.toNat} with size {Numeral.hex 0 size} " ++
      "extends past the decoded range (0x10000000)"
  | overlap id other => s!"Region '{id}' overlaps region '{other}'"
  | duplicateId id => s!"Duplicate region id '{id}'"
  | unknownMirror id target => s!"Region '{id}' mirrors unknown region '{target}'"
  | tooLarge id => s!"Region '{id}' is larger than the address space"
  | undeclaredMirror id target =>
    s!"Region '{id}' mirrors '{target}', which must be declared first"

end MapError

namespace RegionConfig

/-- The size in bytes. -/
def sizeBytes (r : RegionConfig) : Except MapError Nat :=
  (Size.parse r.size).mapError (.invalidSize r.id)

/-- The size of a cache page in bytes, 512 if the region does not say. -/
def pageSizeBytes (r : RegionConfig) : Except MapError Nat :=
  match r.pageSize with
  | some s => (Size.parse s).mapError (.invalidPageSize r.id)
  | none => .ok 0x200

/-- The number of address bits within a cache page. -/
def pageBits (r : RegionConfig) : Except MapError Nat := r.pageSizeBytes.map Size.trailingZeros

end RegionConfig

/-- A memory map as it is configured. -/
structure MemoryMap where
  schemaVersion : String := "1.0"
  name : String
  regions : List RegionConfig
  deriving DecidableEq, Repr, Inhabited

namespace MemoryMap

/-- The size of a slot. -/
def slotSize : Nat := 0x1000000

/-- The end of the decoded address range. -/
def addressLimit : Nat := 0x10000000

/-- The addresses that a region claims, from `start` up to `stop` excluded. -/
structure Span where
  id : String
  start : Nat
  stop : Nat
  deriving DecidableEq, Repr

namespace Span

/-- Whether two spans share an address. -/
def overlaps (a b : Span) : Bool := a.start < b.stop && b.start < a.stop

end Span

/-- The first id that occurs twice, found at its second occurrence. -/
def duplicate? (seen : List String) : List RegionConfig → Option String
  | [] => none
  | r :: rest => if seen.contains r.id then some r.id else duplicate? (seen ++ [r.id]) rest

/-- Checks a region against the spans of the regions before it, and gives its own span. -/
def checkRegion (earlier : List Span) (r : RegionConfig) : Except MapError Span := do
  let size ← r.sizeBytes
  if !Size.isPowerOfTwo size then throw (.notPowerOfTwo r.id size)
  if r.base.toNat % slotSize != 0 then throw (.misalignedBase r.id r.base)
  let page ← r.pageSizeBytes
  if !Size.isPowerOfTwo page || page < 4 || page > min size slotSize then
    throw (.badPageSize r.id page)
  if let some target := r.mirror then
    if !earlier.any (·.id == target) then throw (.unknownMirror r.id target)
  let span : Span := ⟨r.id, r.base.toNat, r.base.toNat + max size slotSize⟩
  if span.stop > addressLimit then throw (.outOfRange r.id r.base size)
  if let some other := earlier.find? span.overlaps then throw (.overlap r.id other.id)
  return span

/-- Checks the regions in order. -/
def checkRegions (earlier : List Span) : List RegionConfig → Except MapError Unit
  | [] => .ok ()
  | r :: rest => do checkRegions (earlier ++ [← checkRegion earlier r]) rest

/-- Checks a memory map: its schema version, its ids, and its regions in order. -/
def validate (m : MemoryMap) : Except MapError Unit := do
  if m.schemaVersion != "1.0" then throw (.unsupportedSchema m.schemaVersion)
  if let some id := duplicate? [] m.regions then throw (.duplicateId id)
  checkRegions [] m.regions

/-- The map of the handheld: the one used when no map is given. -/
def handheld : MemoryMap :=
  let rom (id : String) (base : Word) (mirror : Option String) (wait : WaitStates) :
      RegionConfig :=
    { id, base, size := "32MiB", pageSize := some "4KiB", readOnly := true, mirror, wait }
  { name := "gba"
    regions :=
      [{ id := "bios", base := 0x00000000, size := "16KiB", readOnly := true },
       { id := "ewram", base := 0x02000000, size := "256KiB", wait := ⟨2, 2, 5, 5⟩ },
       { id := "iwram", base := 0x03000000, size := "32KiB" },
       { id := "io", base := 0x04000000, size := "1KiB" },
       { id := "palette", base := 0x05000000, size := "1KiB", wait := ⟨0, 0, 1, 1⟩ },
       { id := "vram", base := 0x06000000, size := "128KiB", wait := ⟨0, 0, 1, 1⟩ },
       { id := "oam", base := 0x07000000, size := "1KiB" },
       rom "rom0" 0x08000000 none ⟨4, 2, 7, 5⟩,
       rom "rom1" 0x0A000000 (some "rom0") ⟨4, 4, 9, 9⟩,
       rom "rom2" 0x0C000000 (some "rom0") ⟨4, 8, 13, 17⟩,
       { id := "sram", base := 0x0E000000, size := "64KiB", wait := ⟨4, 4, 4, 4⟩ }] }

end MemoryMap

end Armv4T
