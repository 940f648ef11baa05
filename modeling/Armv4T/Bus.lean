import Armv4T.Cache.Basic
import Armv4T.Memory.Linear
import Armv4T.MemoryMap.Basic
import Armv4T.Notice

/-!
# The bus

The bus maps addresses to regions and regions to storage, charges the wait states of a region, and
keeps the instruction cache in step with stores. Bits 31 to 28 of an address must be zero, bits 27
to 24 select a slot, and within a region the address wraps at the size of its storage. Storage may
be shared by several regions.

Outside of all regions a load gives zero and a store is dropped, or both fail if the bus is strict.
Stores to read-only regions are dropped. Loading an image writes read-only regions too.
-/

namespace Armv4T

/-- A mapped region. -/
structure Region where
  name : String
  base : Word
  size : Word
  readOnly : Bool
  wait : WaitStates
  storage : Nat
  deriving DecidableEq, Repr, Inhabited

/-- The regions, the slots they claim, the storage behind them, and the instruction cache. -/
structure Bus where
  regions : Array Region := #[]
  storages : Array LinearMemory := #[]
  slots : Array (Option Nat) := Array.replicate 16 none
  cache : InstructionCache := .empty
  strict : Bool := false
  deriving Inhabited

namespace Bus

/-- A bus without regions. -/
def empty : Bus := {}

/-! ### Building a bus -/

/-- Gives the slots from `first` on, `count` of them, to a region, with a fresh part of the cache
for each. -/
def claimSlots (bus : Bus) (region : Nat) (layout : Cache.Layout) (first : Nat) :
    Nat → Bus
  | 0 => bus
  | count + 1 =>
    if first < 16 then
      let ⟨regions, storages, slots, cache, strict⟩ := bus
      claimSlots
        ⟨regions, storages, slots.setIfInBounds first (some region), cache.configure first layout,
          strict⟩
        region layout (first + 1) count
    else bus

/-- Adds a region, which claims every slot it spans. -/
def mapRegion (bus : Bus) (region : Region) (pageBits : Word) : Bus :=
  let span := max 1 (region.size.toNat / MemoryMap.slotSize)
  let first := region.base.toNat / MemoryMap.slotSize
  let bus := bus.claimSlots bus.regions.size (.ofSize region.size pageBits) first span
  { bus with regions := bus.regions.push region }

/-- Adds storage of a size, and gives its number. -/
def addStorage (bus : Bus) (size : Word) : Nat × Bus :=
  (bus.storages.size, { bus with storages := bus.storages.push (.ofSize size) })

/-- The storage of a configured region: that of the region it mirrors, or new one. -/
def storageFor (bus : Bus) (config : RegionConfig) (size : Word) : Except MapError (Nat × Bus) :=
  match config.mirror with
  | some target =>
    match bus.regions.find? (·.name == target) with
    | some r => .ok (r.storage, bus)
    | none => .error (.undeclaredMirror config.id target)
  | none => .ok (bus.addStorage size)

/-- Adds a configured region. -/
def addConfig (bus : Bus) (config : RegionConfig) : Except MapError Bus := do
  let size ← config.sizeBytes
  if size ≥ UInt32.size then throw (.tooLarge config.id)
  let (storage, bus) ← bus.storageFor config (UInt32.ofNat size)
  let region : Region :=
    { name := config.id, base := config.base, size := UInt32.ofNat size,
      readOnly := config.readOnly, wait := config.wait, storage }
  return bus.mapRegion region (UInt32.ofNat (← config.pageBits))

/-- The bus of a memory map, which is checked first. -/
def ofMap (map : MemoryMap) : Except MapError Bus := do
  map.validate
  map.regions.foldlM addConfig empty

/-- The bus of the handheld. -/
def handheld : Bus :=
  match ofMap .handheld with
  | .ok bus => bus
  | .error _ => empty

/-! ### Resolving addresses -/

/-- The region of an address. -/
def region? (bus : Bus) (address : Word) : Option Region :=
  if address.field 28 4 = 0 then
    (bus.slots[(address.field 24 4).toNat]?.join).bind (bus.regions[·]?)
  else none

/-- The wait states of an address, none outside of all regions. -/
def waits (bus : Bus) (address : Word) : WaitStates :=
  ((bus.region? address).map Region.wait).getD {}

/-- The fault of an access: outside of all regions, if the bus is strict. -/
def fault? (bus : Bus) (address : Word) : Option Fault :=
  if bus.strict && (bus.region? address).isNone then some (.memoryViolation address) else none

/-! ### Loads -/

/-- The value of the given width in storage at an address, with the address rounded down to the
width; zero outside of all regions. -/
def peek (bus : Bus) (width : StoreWidth) (address : Word) : Word :=
  match bus.region? address with
  | some r =>
    match bus.storages[r.storage]? with
    | some m => m.read width (address - r.base)
    | none => 0
  | none => 0

/-- The value a load gives. Misaligned words and halfwords are rotated so that the addressed byte
comes lowest, and a signed halfword at an odd address is the signed byte there. -/
def load (bus : Bus) (kind : LoadKind) (address : Word) : Word :=
  match kind with
  | .byte => bus.peek .byte address
  | .signedByte => (bus.peek .byte address).signExtend8
  | .half => (bus.peek .half address).rotateRight ((address &&& 1) * 8)
  | .signedHalf =>
    if address.bit 0 then (bus.peek .byte address).signExtend8
    else (bus.peek .half address).signExtend16
  | .word => (bus.peek .word address).rotateRight ((address &&& 3) * 8)

/-- What is noticed of a load. -/
def loadNotice? (bus : Bus) (address : Word) : Option Notice :=
  if (bus.region? address).isNone then some (.unmappedRead address) else none

/-- Reads bytes without side effects. -/
def readBytes (bus : Bus) (address : Word) (count : Nat) : List UInt8 :=
  (List.range count).map fun i => (bus.peek .byte (address + UInt32.ofNat i)).toUInt8

/-! ### Stores -/

/-- The storage of a writable address and the offset in it. -/
def writable? (bus : Bus) (address : Word) : Option (Nat × Word) :=
  match bus.region? address with
  | some r => if r.readOnly then none else some (r.storage, address - r.base)
  | none => none

/-- Changes one storage, and invalidates the cache pages of `len` bytes from an address. -/
def modifyStorage (bus : Bus) (storage : Nat) (f : LinearMemory → LinearMemory)
    (address len : Word) : Bus :=
  let ⟨regions, storages, slots, cache, strict⟩ := bus
  ⟨regions, storages.modify storage f, slots, cache.invalidate address len, strict⟩

/-- Stores a value of the given width at the address rounded down to it. -/
def store (bus : Bus) (width : StoreWidth) (address value : Word) : Bus :=
  let a := width.align address
  match bus.writable? a with
  | some (storage, offset) =>
    bus.modifyStorage storage (·.write width offset value) a width.bytes
  | none => bus

/-- What is noticed of a store, its address already rounded down. -/
def storeNotice? (bus : Bus) (address : Word) : Option Notice :=
  match bus.region? address with
  | some r => if r.readOnly then some (.readOnlyStore r.name address) else none
  | none => some (.unmappedStore address)

/-- The fault of loading an image: an address outside of all regions. -/
def imageFault? (bus : Bus) (address : Word) : Option Fault :=
  if (bus.region? address).isNone then some (.memoryViolation address) else none

/-- Copies an image into the storage of the region at an address. -/
def loadImage (bus : Bus) (address : Word) (bytes : ByteArray) : Bus :=
  match bus.region? address with
  | some r =>
    bus.modifyStorage r.storage (·.loadBytes (address - r.base) bytes) address
      (UInt32.ofNat bytes.size)
  | none => bus

/-! ### Timing -/

/-- The cycles of a 16-bit access. -/
def wait (bus : Bus) (address : Word) : Word := 1 + (bus.waits address).nonseq16

/-- The cycles of a 32-bit access. -/
def wait32 (bus : Bus) (address : Word) : Word := 1 + (bus.waits address).nonseq32

/-- The cycles of a 16-bit access that follows the one before it. -/
def waitSeq (bus : Bus) (address : Word) : Word := 1 + (bus.waits address).seq16

/-- The cycles of a 32-bit access that follows the one before it. -/
def waitSeq32 (bus : Bus) (address : Word) : Word := 1 + (bus.waits address).seq32

/-- The cycles of a burst of words: one access and sequential ones after it. -/
def waitMultiple32 (bus : Bus) (address count : Word) : Word :=
  if count = 0 then 0 else bus.wait32 address + (count - 1) * bus.waitSeq32 address

/-- The cycles of a load of the given kind. -/
def waitLoad (bus : Bus) (kind : LoadKind) (address : Word) : Word :=
  match kind with
  | .word => bus.wait32 address
  | _ => bus.wait address

/-- The cycles of a store of the given width. -/
def waitStore (bus : Bus) (width : StoreWidth) (address : Word) : Word :=
  match width with
  | .word => bus.wait32 address
  | _ => bus.wait address

/-- The cycles of fetching an instruction of a set ahead of its execution. -/
def waitPrefetch (bus : Bus) (set : InstrSet) (address : Word) : Word :=
  match set with
  | .arm => bus.waitSeq32 address
  | .thumb => bus.waitSeq address

/-- The cycles of fetching the first instruction of a set at the target of a branch. -/
def waitFetch (bus : Bus) (set : InstrSet) (address : Word) : Word :=
  match set with
  | .arm => bus.wait32 address
  | .thumb => bus.wait address

end Bus

end Armv4T
