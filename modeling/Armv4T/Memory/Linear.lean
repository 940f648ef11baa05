import Armv4T.Access

/-!
# Backing storage

The storage of a region is an array of bytes of a fixed power-of-two size, addressed modulo that
size and zero at first. Only the part up to the highest byte written is kept: the buffer grows on
demand, and every byte behind its end reads as zero. The view `byte` gives the array that the
buffer stands for.
-/

namespace Armv4T

/-- `n` zero bytes, built by doubling. -/
def zeroBytes (n : Nat) : ByteArray :=
  if n = 0 then .empty
  else
    let half := zeroBytes (n / 2)
    if n % 2 = 0 then half ++ half else (half ++ half).push 0
termination_by n

/-- Storage of `size` bytes, of which `data` holds the first ones. -/
structure LinearMemory where
  data : ByteArray
  size : Word
  deriving Inhabited

namespace LinearMemory

/-- Zeroed storage of at least one byte, the size rounded up to a power of two and capped at
2^31. -/
def ofSize (size : Word) : LinearMemory :=
  { data := .empty, size := UInt32.ofNat (min (Nat.nextPowerOfTwo size.toNat) 0x80000000) }

/-- The position of an offset in the storage. -/
def index (m : LinearMemory) (offset : Word) : Nat := (offset &&& (m.size - 1)).toNat

/-- The byte at a position, zero behind the end of the buffer. -/
def byte (m : LinearMemory) (i : Nat) : UInt8 := if h : i < m.data.size then m.data[i] else 0

/-- The byte at an offset. -/
def read8 (m : LinearMemory) (offset : Word) : Word := (m.byte (m.index offset)).toUInt32

/-- The little-endian halfword at an offset, which is rounded down to an even one. -/
def read16 (m : LinearMemory) (offset : Word) : Word :=
  let o := Word.alignDown offset 2
  m.read8 o ||| (m.read8 (o + 1) <<< 8)

/-- The little-endian word at an offset, which is rounded down to a multiple of four. -/
def read32 (m : LinearMemory) (offset : Word) : Word :=
  let o := Word.alignDown offset 4
  m.read8 o ||| (m.read8 (o + 1) <<< 8) ||| (m.read8 (o + 2) <<< 16) ||| (m.read8 (o + 3) <<< 24)

/-- The buffer, extended with zeros to at least `n` bytes. -/
def grow (data : ByteArray) (n : Nat) : ByteArray :=
  if data.size < n then data ++ zeroBytes (n - data.size) else data

/-- The buffer with one byte changed, if the position lies in it. -/
def put (data : ByteArray) (i : Nat) (value : UInt8) : ByteArray :=
  if h : i < data.size then data.set i value else data

/-- Writes the low byte of a word. -/
def write8 (m : LinearMemory) (offset value : Word) : LinearMemory :=
  let i := m.index offset
  let ⟨data, size⟩ := m
  ⟨put (grow data (i + 1)) i value.toUInt8, size⟩

/-- Writes the low halfword of a word, little-endian, at an offset rounded down to an even one. -/
def write16 (m : LinearMemory) (offset value : Word) : LinearMemory :=
  let o := Word.alignDown offset 2
  (m.write8 o value).write8 (o + 1) (value >>> 8)

/-- Writes a word, little-endian, at an offset rounded down to a multiple of four. -/
def write32 (m : LinearMemory) (offset value : Word) : LinearMemory :=
  let o := Word.alignDown offset 4
  (((m.write8 o value).write8 (o + 1) (value >>> 8)).write8 (o + 2) (value >>> 16)).write8
    (o + 3) (value >>> 24)

/-- Writes bytes one after the other from an offset on, wrapping at the size. -/
def writeBytes (m : LinearMemory) (offset : Word) (bytes : List UInt8) : LinearMemory :=
  match bytes with
  | [] => m
  | b :: rest => (m.write8 offset b.toUInt32).writeBytes (offset + 1) rest

/-- Copies an image to an offset. One that fits before the end of the storage is copied at once,
and one that does not wraps byte by byte. -/
def loadBytes (m : LinearMemory) (offset : Word) (bytes : ByteArray) : LinearMemory :=
  let start := m.index offset
  if start + bytes.size ≤ m.size.toNat then
    let ⟨data, size⟩ := m
    ⟨bytes.copySlice 0 (grow data (start + bytes.size)) start bytes.size, size⟩
  else m.writeBytes offset bytes.toList

/-- Reads the given width, zero-extended. -/
def read (m : LinearMemory) (width : StoreWidth) (offset : Word) : Word :=
  match width with
  | .byte => m.read8 offset
  | .half => m.read16 offset
  | .word => m.read32 offset

/-- Writes the given width. -/
def write (m : LinearMemory) (width : StoreWidth) (offset value : Word) : LinearMemory :=
  match width with
  | .byte => m.write8 offset value
  | .half => m.write16 offset value
  | .word => m.write32 offset value

end LinearMemory

end Armv4T
