import Armv4T.InstrSet

/-!
# Layout of a cache region

The instruction cache covers sixteen regions of 16 MiB, selected by bits 27 to 24 of an address.
Within a region addresses wrap at the size of its layout, so that mirrored addresses share pages,
and a page has one slot for every instruction of either set that can start in it.
-/

namespace Armv4T.Cache

/-- The number of address bits within a region. -/
def regionBits : Word := 24

/-- The number of bytes in a region. -/
def regionSize : Nat := 0x1000000

/-- The number of regions. -/
def regionCount : Nat := 16

/-- The region an address falls in. -/
def regionIndex (address : Word) : Nat := (address.field 24 4).toNat

/-- The size after which a region repeats, and the number of address bits within a page. -/
structure Layout where
  size : Word
  pageBits : Word
  deriving DecidableEq, Repr, Inhabited

namespace Layout

/-- The layout for the given size and page size. Pages have between 4 bytes and 16 MiB; the size is
rounded up to a power of two between one page and 16 MiB. -/
def ofSize (size pageBits : Word) : Layout :=
  let pageBits := max 2 (min pageBits regionBits)
  let bytes := max size.toNat (1 <<< pageBits.toNat)
  { size := UInt32.ofNat (min (Nat.nextPowerOfTwo bytes) regionSize), pageBits }

/-- The layout of a region that nothing else is said about: 64 KiB in pages of 512 bytes. -/
def default : Layout := ofSize 0x10000 9

/-- The number of pages. -/
def pageCount (l : Layout) : Nat := (l.size >>> l.pageBits).toNat

/-- The page an address falls in. -/
def pageIndex (l : Layout) (address : Word) : Nat :=
  ((address &&& (l.size - 1)) >>> l.pageBits).toNat

/-- The offset of an address in its page. -/
def pageOffset (l : Layout) (address : Word) : Word := address &&& ((1 <<< l.pageBits) - 1)

/-- The number of slots a page has for instructions of a set. -/
def slotCount (l : Layout) : InstrSet → Nat
  | .arm => ((1 : Word) <<< (l.pageBits - 2)).toNat
  | .thumb => ((1 : Word) <<< (l.pageBits - 1)).toNat

/-- The slot of an instruction in its page. -/
def slotIndex (l : Layout) (address : Word) : InstrSet → Nat
  | .arm => (l.pageOffset address >>> 2).toNat
  | .thumb => (l.pageOffset address >>> 1).toNat

end Layout

end Armv4T.Cache
