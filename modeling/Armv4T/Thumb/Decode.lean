import Armv4T.Thumb.Instr

/-!
# Decoding Thumb opcodes

A Thumb opcode is the low halfword of its argument. The leading bits select the format, and the
longer patterns come before the shorter ones that contain them.
-/

namespace Armv4T.Thumb

/-- The low register named by the three bits from bit `lo`. -/
def lowAt (w lo : Word) : Reg := Reg.ofWord (w.field lo 3)

/-- The low eight bits as a register list. -/
def lowList (w : Word) : RegList := ⟨w.field 0 8⟩

/-- The low eleven bits as a signed number. -/
def signed11 (w : Word) : Word := (w.field 0 11 <<< 21).shiftRightSigned 21

/-- Operations on high registers, and the branch with exchange. -/
def decodeHigh (w : Word) : Instr :=
  let rd := Reg.ofWord (w.field 0 3 ||| (w.field 7 1 <<< 3))
  let rm := Reg.ofWord (w.field 3 4)
  match (w.field 8 2).toNat with
  | 0 => .addHigh rd rm
  | 1 => .compareHigh rd rm
  | 2 => .moveHigh rd rm
  | _ => .branchExchange rm

/-- Additions and subtractions of three operands. Adding zero is a move. -/
def decodeAddSub (w : Word) : Instr :=
  if w.bit 10 then
    if w.field 9 1 = 0 ∧ w.field 6 3 = 0 then .moveLow (lowAt w 0) (lowAt w 3)
    else .addSmall (w.bit 9) (lowAt w 0) (lowAt w 3) (w.field 6 3)
  else .addRegister (w.bit 9) (lowAt w 0) (lowAt w 3) (lowAt w 6)

/-- Shifts by an immediate. -/
def decodeShift (w : Word) : Instr :=
  let kind : ShiftKind :=
    if w.field 11 2 = 0 then .lsl else if w.field 11 2 = 1 then .lsr else .asr
  .shift kind (lowAt w 0) (lowAt w 3) (w.field 6 5)

/-- Transfers at the sum of two registers. -/
def decodeRegisterTransfer (w : Word) : Instr :=
  let rd := lowAt w 0
  let address := Address.register (lowAt w 3) (lowAt w 6)
  match (w.field 9 3).toNat with
  | 0 => .store .word rd address
  | 1 => .store .half rd address
  | 2 => .store .byte rd address
  | 3 => .load .signedByte rd address
  | 4 => .load .word rd address
  | 5 => .load .half rd address
  | 6 => .load .byte rd address
  | _ => .load .signedHalf rd address

/-- Word and byte transfers at a register and an offset, which counts words or bytes. -/
def decodeOffsetTransfer (w : Word) : Instr :=
  let rd := lowAt w 0
  if w.bit 12 then
    let address := Address.immediate (lowAt w 3) (w.field 6 5)
    if w.bit 11 then .load .byte rd address else .store .byte rd address
  else
    let address := Address.immediate (lowAt w 3) (w.field 6 5 <<< 2)
    if w.bit 11 then .load .word rd address else .store .word rd address

/-- Halfword transfers at a register and an offset, which counts halfwords. -/
def decodeHalfTransfer (w : Word) : Instr :=
  let address := Address.immediate (lowAt w 3) (w.field 6 5 <<< 1)
  if w.bit 11 then .load .half (lowAt w 0) address else .store .half (lowAt w 0) address

/-- Word transfers at an offset from the stack pointer. -/
def decodeStackTransfer (w : Word) : Instr :=
  let address := Address.stack (w.field 0 8 <<< 2)
  if w.bit 11 then .load .word (lowAt w 8) address else .store .word (lowAt w 8) address

/-- Addresses at an offset from the stack pointer or the program counter. -/
def decodeAddress (w : Word) : Instr :=
  if w.bit 11 then .addSp (lowAt w 8) (w.field 0 8 <<< 2)
  else .addPc (lowAt w 8) (w.field 0 8 <<< 2)

/-- Pushes and pops. -/
def decodeStack (w : Word) : Instr :=
  if w.bit 11 then .pop (lowList w) (w.bit 8) else .push (lowList w) (w.bit 8)

/-- Block transfers. -/
def decodeMultiple (w : Word) : Instr :=
  if w.bit 11 then .loadMultiple (lowAt w 8) (lowList w)
  else .storeMultiple (lowAt w 8) (lowList w)

/-- Conditional branches. The code for "always" is not defined, and the last code is a software
interrupt. -/
def decodeConditional (w : Word) : Instr :=
  match (w.field 8 4).toNat with
  | 15 => .softwareInterrupt (w.field 0 8)
  | 14 => .undefined w
  | _ => .branchIf (.ofBits (w.field 8 4)) ((w.field 0 8).signExtend8 <<< 1)

/-- The instruction of an opcode. -/
def decode (w : Word) : Instr :=
  if w.field 10 6 = 0x10 then .alu (.ofBits (w.field 6 4)) (lowAt w 0) (lowAt w 3)
  else if w.field 10 6 = 0x11 then decodeHigh w
  else if w.field 11 5 = 0x03 then decodeAddSub w
  else if w.field 13 3 = 0 then decodeShift w
  else if w.field 13 3 = 1 then .immediate (.ofBits (w.field 11 2)) (lowAt w 8) (w.field 0 8)
  else if w.field 11 5 = 0x09 then .load .word (lowAt w 8) (.literal (w.field 0 8 <<< 2))
  else if w.field 12 4 = 0x5 then decodeRegisterTransfer w
  else if w.field 13 3 = 3 then decodeOffsetTransfer w
  else if w.field 12 4 = 0xB ∧ w.field 9 2 = 2 then decodeStack w
  else if w.field 12 4 = 0x8 then decodeHalfTransfer w
  else if w.field 12 4 = 0x9 then decodeStackTransfer w
  else if w.field 12 4 = 0xA then decodeAddress w
  else if w.field 8 8 = 0xB0 then .adjustSp (w.bit 7) (w.field 0 7 <<< 2)
  else if w.field 12 4 = 0xC then decodeMultiple w
  else if w.field 12 4 = 0xD then decodeConditional w
  else if w.field 11 5 = 0x1C then .branch (signed11 w <<< 1)
  else if w.field 11 5 = 0x1E then .callHigh (signed11 w <<< 12)
  else if w.field 11 5 = 0x1F then .callLow (w.field 0 11 <<< 1)
  else .undefined w

end Armv4T.Thumb
