import Armv4T.Word

/-!
# The barrel shifter

A shift gives a value and a carry, the last bit shifted out. An immediate amount of zero encodes
the forms that five bits cannot write: `LSR #32`, `ASR #32` and `RRX`, the rotation by one place
through the carry. An amount in a register counts with its low byte, and from 32 places on the
value is all shifted out.
-/

namespace Armv4T

/-- The four kinds of shift, in the order of their codes. -/
inductive ShiftKind
  | lsl | lsr | asr | ror
  deriving DecidableEq, Repr, Inhabited

namespace ShiftKind

/-- The kind with the given code, of which the low two bits count. -/
def ofBits (bits : Word) : ShiftKind :=
  match (bits &&& 3).toNat with
  | 0 => lsl
  | 1 => lsr
  | 2 => asr
  | _ => ror

end ShiftKind

namespace Shift

/-- A shift by an immediate amount below 32. -/
def byImmediate (kind : ShiftKind) (value amount : Word) (carry : Bool) : Word × Bool :=
  match kind with
  | .lsl =>
    if amount = 0 then (value, carry) else (value <<< amount, value.bit (32 - amount))
  | .lsr =>
    if amount = 0 then (0, value.bit 31) else (value >>> amount, value.bit (amount - 1))
  | .asr =>
    if amount = 0 then (value.shiftRightSigned 31, value.bit 31)
    else (value.shiftRightSigned amount, value.bit (amount - 1))
  | .ror =>
    if amount = 0 then ((Word.ofBool carry <<< 31) ||| (value >>> 1), value.bit 0)
    else (value.rotateRight amount, value.bit (amount - 1))

/-- A shift by the low byte of a register. -/
def byRegister (kind : ShiftKind) (value amount : Word) (carry : Bool) : Word × Bool :=
  let n := amount &&& 0xFF
  if n = 0 then (value, carry)
  else
    match kind with
    | .lsl =>
      if n < 32 then (value <<< n, value.bit (32 - n))
      else if n = 32 then (0, value.bit 0)
      else (0, false)
    | .lsr =>
      if n < 32 then (value >>> n, value.bit (n - 1))
      else if n = 32 then (0, value.bit 31)
      else (0, false)
    | .asr =>
      if n < 32 then (value.shiftRightSigned n, value.bit (n - 1))
      else (value.shiftRightSigned 31, value.bit 31)
    | .ror =>
      let r := n &&& 0x1F
      if r = 0 then (value, value.bit 31) else (value.rotateRight r, value.bit (r - 1))

end Shift

end Armv4T
