/-!
# Words and their bit fields

A register, an address and an opcode are all 32-bit words. Instruction formats are described by
their fields: `w.field lo len` is the number written in the `len` bits of `w` from bit `lo`
upwards, and `w.bit n` is bit `n` as a truth value.
-/

namespace Armv4T

/-- A 32-bit machine word. -/
abbrev Word := UInt32

namespace Word

/-- Bit `n`, for `n` below 32. -/
def bit (w n : Word) : Bool := (w >>> n) &&& 1 != 0

/-- The `len` bits from bit `lo` upwards, for `lo` and `len` below 32. -/
def field (w lo len : Word) : Word := (w >>> lo) &&& ((1 <<< len) - 1)

/-- Rotation to the right by `n` modulo 32. -/
def rotateRight (w n : Word) : Word := (w >>> n) ||| (w <<< (32 - n))

/-- Arithmetic shift to the right, for `n` below 32: the sign bit fills the vacated bits. -/
def shiftRightSigned (w n : Word) : Word := (w.toInt32 >>> n.toInt32).toUInt32

/-- The low byte, sign-extended. -/
def signExtend8 (w : Word) : Word := w.toUInt8.toInt8.toInt32.toUInt32

/-- The low halfword, sign-extended. -/
def signExtend16 (w : Word) : Word := w.toUInt16.toInt16.toInt32.toUInt32

/-- One for `true` and zero for `false`. -/
def ofBool (b : Bool) : Word := if b then 1 else 0

/-- `a` rounded down to a multiple of `n`, for `n` a power of two. -/
def alignDown (a n : Word) : Word := a &&& ~~~(n - 1)

end Word

end Armv4T
