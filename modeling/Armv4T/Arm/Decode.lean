import Armv4T.Arm.Instr

/-!
# Decoding ARM opcodes

The classes of ARM instructions overlap in their fixed bits, so they are told apart in order: the
branch with exchange before the data-processing space that contains it, the status transfers inside
that space by the missing S bit of a test, and the swaps and multiplies before the halfword
transfers that fill the rest of the `1xx1` space.
-/

namespace Armv4T.Arm

/-- The register named by the four bits from bit `lo`. -/
def regAt (w lo : Word) : Reg := Reg.ofWord (w.field lo 4)

/-- An eight-bit immediate rotated to the right by twice the amount in bits 11 to 8. -/
def rotatedImmediate (w : Word) : Word := (w.field 0 8).rotateRight (2 * w.field 8 4)

/-- The second operand of a data-processing instruction. -/
def decodeOperand (w : Word) : Operand :=
  if w.bit 25 then
    if w.field 8 4 = 0 then .immediate (w.field 0 8) else .rotated (rotatedImmediate w)
  else if w.bit 4 then .shiftedBy (.ofBits (w.field 5 2)) (regAt w 0) (regAt w 8)
  else .shifted (.ofBits (w.field 5 2)) (regAt w 0) (w.field 7 5)

/-- The bits that a transfer to a status word may change: the control byte and the flags byte, each
if its field is selected. -/
def statusMask (control flags : Bool) : Word :=
  (if control then 0x000000FF else 0) ||| (if flags then 0xFF000000 else 0)

/-- A transfer between a status word and a register: the test operations without the S bit. -/
def decodeStatus (w : Word) : Op :=
  let saved := w.bit 22
  if w.field 23 1 = 0 ∧ w.field 20 2 = 2 ∧ w.field 12 4 = 0xF then
    .writeStatus saved (statusMask (w.bit 16) (w.bit 19))
      (if w.bit 25 then .immediate (rotatedImmediate w) else .register (regAt w 0))
  else if w.field 23 1 = 0 ∧ w.field 16 6 = 0xF then .readStatus (regAt w 12) saved
  else .undefined w

/-- The data-processing space. -/
def decodeDataProcessing (w : Word) : Op :=
  let op := AluOp.ofBits (w.field 21 4)
  if op.isTest && !w.bit 20 then decodeStatus w
  else .dataProcessing op (w.bit 20) (regAt w 12) (regAt w 16) (decodeOperand w)

/-- The multiplies. -/
def decodeMultiply (w : Word) : Op :=
  if w.field 22 2 = 0 then
    .multiply (w.bit 21) (w.bit 20) (regAt w 16) (regAt w 12) (regAt w 8) (regAt w 0)
  else if w.bit 23 then
    .multiplyLong (w.bit 22) (w.bit 21) (w.bit 20) (regAt w 16) (regAt w 12) (regAt w 8) (regAt w 0)
  else .undefined w

/-- The indexing bits of a single transfer. -/
def decodeIndexing (w : Word) : Indexing :=
  if w.bit 24 then if w.bit 21 then .preWriteback else .pre else .post

/-- The address of a single transfer with the given offset. -/
def singleAddress (w : Word) (offset : Offset) : SingleAddress :=
  { rn := regAt w 16, offset, up := w.bit 23, indexing := decodeIndexing w }

/-- The offset of a halfword or signed transfer: split into two nibbles, or a register. -/
def decodeHalfOffset (w : Word) : Offset :=
  if w.bit 22 then .immediate ((w.field 8 4 <<< 4) ||| w.field 0 4) else .register (regAt w 0)

/-- The halfword and signed transfers. A post-indexed one with the W bit is not defined. -/
def decodeHalf (w : Word) : Op :=
  let address := singleAddress w (decodeHalfOffset w)
  if !w.bit 24 && w.bit 21 then .undefined w
  else
    match w.bit 20, w.bit 6, w.bit 5 with
    | false, false, true => .store .half (regAt w 12) address
    | true, false, true => .load .half (regAt w 12) address
    | true, true, false => .load .signedByte (regAt w 12) address
    | true, true, true => .load .signedHalf (regAt w 12) address
    | _, _, _ => .undefined w

/-- The offset of a word or byte transfer: an immediate, or a register shifted by an immediate. A
register shifted by no places is the plain register. -/
def decodeOffset (w : Word) : Offset :=
  if w.bit 25 then
    let kind := ShiftKind.ofBits (w.field 5 2)
    if kind = .lsl ∧ w.field 7 5 = 0 then .register (regAt w 0)
    else .shifted kind (regAt w 0) (w.field 7 5)
  else .immediate (w.field 0 12)

/-- The word and byte transfers. -/
def decodeTransfer (w : Word) : Op :=
  let address := singleAddress w (decodeOffset w)
  if w.bit 25 && w.bit 4 then .undefined w
  else if w.bit 20 then .load (if w.bit 22 then .byte else .word) (regAt w 12) address
  else .store (if w.bit 22 then .byte else .word) (regAt w 12) address

/-- The block transfers. -/
def decodeBlock (w : Word) : Op :=
  let load := w.bit 20
  let (address, list) :=
    BlockAddress.ofFields (regAt w 16) ⟨w.field 0 16⟩ (w.bit 24) (w.bit 23) (w.bit 21) (!load)
  if load then .loadMultiple (w.bit 22) list address else .storeMultiple (w.bit 22) list address

/-- The distance of a branch: a signed number of words. -/
def branchOffset (w : Word) : Word := (w.field 0 24 <<< 8).shiftRightSigned 6

/-- The operation of an opcode. -/
def decodeOp (w : Word) : Op :=
  if w.field 4 24 = 0x12FFF1 then .branchExchange (regAt w 0)
  else if w.field 26 2 = 0 ∧ (w.bit 25 ∨ ¬(w.bit 7 ∧ w.bit 4)) then decodeDataProcessing w
  else if w.field 23 5 = 2 ∧ w.field 20 2 = 0 ∧ w.field 4 8 = 9 then
    .swap (w.bit 22) (regAt w 12) (regAt w 16) (regAt w 0)
  else
    match (w.field 25 3).toNat with
    | 0 => if !w.bit 24 && w.field 4 4 == 9 then decodeMultiply w else decodeHalf w
    | 2 | 3 => decodeTransfer w
    | 4 => decodeBlock w
    | 5 => .branch (w.bit 24) (branchOffset w)
    | 7 => if w.bit 24 then .softwareInterrupt (w.field 0 24) else .undefined w
    | _ => .undefined w

/-- The instruction of an opcode. -/
def decode (w : Word) : Instr := ⟨.ofBits (w.field 28 4), decodeOp w⟩

end Armv4T.Arm
