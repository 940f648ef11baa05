import Mathlib
import Armv4T.Proofs.Decode.Layout

/-!
# ARM instructions as they are encoded

The architecture gives every class of instructions a layout: which number stands at which bit. Here
an instruction is written down by its class and the contents of its fields (`Form`), with bits that
should be zero left out of it. `Form.fields` is the layout of the class, `encode` the word that has
it, and `Form.op` the operation that is meant.
-/

namespace Armv4T

/-- The code of a condition. -/
def Condition.code : Condition → Fin 15
  | eq => 0 | ne => 1 | cs => 2 | cc => 3 | mi => 4 | pl => 5 | vs => 6 | vc => 7
  | hi => 8 | ls => 9 | ge => 10 | lt => 11 | gt => 12 | le => 13 | al => 14

lemma Condition.ofBits_code (cond : Condition) : ofBits (.ofNat cond.code) = cond := by
  cases cond <;> rfl

/-- The code of a kind of shift. -/
def ShiftKind.code : ShiftKind → Fin 4
  | lsl => 0 | lsr => 1 | asr => 2 | ror => 3

lemma ShiftKind.ofBits_code (kind : ShiftKind) : ofBits (.ofNat kind.code) = kind := by
  cases kind <;> rfl

namespace Arm

/-- The code of a data-processing operation. -/
def AluOp.code : AluOp → Fin (2 ^ 4)
  | and => 0 | eor => 1 | sub => 2 | rsb => 3 | add => 4 | adc => 5 | sbc => 6 | rsc => 7
  | tst => 8 | teq => 9 | cmp => 10 | cmn => 11 | orr => 12 | mov => 13 | bic => 14 | mvn => 15

lemma AluOp.ofBits_code (op : AluOp) : ofBits (.ofNat op.code) = op := by
  cases op <;> rfl

/-! ### Operands and offsets -/

/-- The value of an immediate of eight bits with its rotation. -/
def rotatedValue (rotation : Fin 16) (value : Fin 256) : Word :=
  ⟨(BitVec.ofNat 32 value).rotateRight (2 * rotation)⟩

/-- The second operand of a data-processing instruction, as it is encoded. -/
inductive OperandForm
  | immediate (rotation : Fin 16) (value : Fin 256)
  | shifted (kind : ShiftKind) (rm : Reg) (amount : Fin 32)
  | shiftedBy (kind : ShiftKind) (rm rs : Reg)

namespace OperandForm

/-- The layout of an operand. -/
def fields : OperandForm → List (ℕ × ℕ)
  | immediate rotation value => [(25, 1), (8, rotation), (0, value)]
  | shifted kind rm amount => [(7, amount), (5, kind.code), (0, rm)]
  | shiftedBy kind rm rs => [(8, rs), (5, kind.code), (4, 1), (0, rm)]

/-- The operand that is meant. An immediate that is not rotated is kept apart. -/
def operand : OperandForm → Operand
  | immediate rotation value =>
    if rotation.val = 0 then .immediate (.ofNat value) else .rotated (rotatedValue rotation value)
  | shifted kind rm amount => .shifted kind rm (.ofNat amount)
  | shiftedBy kind rm rs => .shiftedBy kind rm rs

end OperandForm

/-- The source of a transfer to a status word, as it is encoded. -/
inductive StatusForm
  | register (rm : Reg)
  | immediate (rotation : Fin 16) (value : Fin 256)

namespace StatusForm

/-- The layout of a source. -/
def fields : StatusForm → List (ℕ × ℕ)
  | register rm => [(0, rm)]
  | immediate rotation value => [(25, 1), (8, rotation), (0, value)]

/-- The source that is meant. -/
def source : StatusForm → StatusSource
  | register rm => .register rm
  | immediate rotation value => .immediate (rotatedValue rotation value)

end StatusForm

/-- The offset of a word or byte transfer, as it is encoded. -/
inductive OffsetForm
  | immediate (value : Fin 4096)
  | shifted (kind : ShiftKind) (rm : Reg) (amount : Fin 32)

namespace OffsetForm

/-- The layout of an offset. -/
def fields : OffsetForm → List (ℕ × ℕ)
  | immediate value => [(0, value)]
  | shifted kind rm amount => [(25, 1), (7, amount), (5, kind.code), (0, rm)]

/-- The offset that is meant. A register shifted to the left by no places is the plain register. -/
def offset : OffsetForm → Offset
  | immediate value => .immediate (.ofNat value)
  | shifted kind rm amount =>
    if kind = .lsl ∧ amount = 0 then .register rm else .shifted kind rm (.ofNat amount)

end OffsetForm

/-- The offset of a halfword or signed transfer, as it is encoded. -/
inductive HalfOffsetForm
  | immediate (high low : Fin 16)
  | register (rm : Reg)

namespace HalfOffsetForm

/-- The layout of an offset. -/
def fields : HalfOffsetForm → List (ℕ × ℕ)
  | immediate high low => [(22, 1), (8, high), (0, low)]
  | register rm => [(0, rm)]

/-- The offset that is meant. -/
def offset : HalfOffsetForm → Offset
  | immediate high low => .immediate (.ofNat (16 * high + low))
  | register rm => .register rm

end HalfOffsetForm

/-- The halfword and signed transfers. -/
inductive HalfKind
  | store | load | loadSignedByte | loadSignedHalf

namespace HalfKind

/-- The bit L of a transfer. -/
def loads : HalfKind → Bool
  | store => false
  | load | loadSignedByte | loadSignedHalf => true

/-- The bit S of a transfer. -/
def signed : HalfKind → Bool
  | store | load => false
  | loadSignedByte | loadSignedHalf => true

/-- The bit H of a transfer. -/
def half : HalfKind → Bool
  | loadSignedByte => false
  | store | load | loadSignedHalf => true

/-- The operation that is meant. -/
def op : HalfKind → Reg → SingleAddress → Op
  | store => .store .half
  | load => .load .half
  | loadSignedByte => .load .signedByte
  | loadSignedHalf => .load .signedHalf

end HalfKind

/-- The bit P of an indexing. -/
def preBit : Indexing → Bool
  | .post => false
  | .pre | .preWriteback => true

/-- The bit W of an indexing. -/
def writebackBit : Indexing → Bool
  | .post | .pre => false
  | .preWriteback => true

/-! ### Instructions -/

/-- An instruction as it is encoded, without its condition. The four flags of `writeStatus` select
the control, extension, status and flags bytes. -/
inductive Form
  | dataProcessing (op : AluOp) (setFlags : Bool) (rd rn : Reg) (operand : OperandForm)
    (sets : op.isTest = true → setFlags = true)
  | readStatus (saved : Bool) (rd : Reg)
  | writeStatus (saved control extension status flags : Bool) (source : StatusForm)
  | multiply (setFlags : Bool) (rd rs rm : Reg)
  | multiplyAdd (setFlags : Bool) (rd rn rs rm : Reg)
  | multiplyLong (signed accumulate setFlags : Bool) (rdHi rdLo rs rm : Reg)
  | swap (byte : Bool) (rd rn rm : Reg)
  | half (kind : HalfKind) (rd rn : Reg) (up : Bool) (indexing : Indexing)
    (offset : HalfOffsetForm)
  | transfer (load byte : Bool) (rd rn : Reg) (pre up writeback : Bool) (offset : OffsetForm)
  | block (load userBank : Bool) (rn : Reg) (pre up writeback : Bool) (list : Fin 65536)
  | branch (link : Bool) (distance : BitVec 24)
  | branchExchange (rm : Reg)
  | softwareInterrupt (comment : Fin 16777216)

namespace Form

/-- The layout of an instruction. -/
def fields : Form → List (ℕ × ℕ)
  | dataProcessing op setFlags rd rn operand _ =>
    [(21, op.code.val), (20, setFlags.toNat), (16, rn), (12, rd)] ++ operand.fields
  | readStatus saved rd => [(23, 0b00010), (22, saved.toNat), (16, 0b001111), (12, rd)]
  | writeStatus saved control extension status flags source =>
    [(23, 0b00010), (22, saved.toNat), (20, 0b10), (19, flags.toNat), (18, status.toNat),
      (17, extension.toNat), (16, control.toNat), (12, 0b1111)] ++ source.fields
  | multiply setFlags rd rs rm =>
    [(20, setFlags.toNat), (16, rd), (8, rs), (4, 0b1001), (0, rm)]
  | multiplyAdd setFlags rd rn rs rm =>
    [(21, 1), (20, setFlags.toNat), (16, rd), (12, rn), (8, rs), (4, 0b1001), (0, rm)]
  | multiplyLong signed accumulate setFlags rdHi rdLo rs rm =>
    [(23, 0b00001), (22, signed.toNat), (21, accumulate.toNat), (20, setFlags.toNat),
      (16, rdHi), (12, rdLo), (8, rs), (4, 0b1001), (0, rm)]
  | swap byte rd rn rm =>
    [(23, 0b00010), (22, byte.toNat), (16, rn), (12, rd), (4, 0b1001), (0, rm)]
  | half kind rd rn up indexing offset =>
    [(24, (preBit indexing).toNat), (23, up.toNat), (21, (writebackBit indexing).toNat),
      (20, kind.loads.toNat), (16, rn), (12, rd), (7, 1), (6, kind.signed.toNat),
      (5, kind.half.toNat), (4, 1)] ++ offset.fields
  | transfer load byte rd rn pre up writeback offset =>
    [(26, 0b01), (24, pre.toNat), (23, up.toNat), (22, byte.toNat), (21, writeback.toNat),
      (20, load.toNat), (16, rn), (12, rd)] ++ offset.fields
  | block load userBank rn pre up writeback list =>
    [(25, 0b100), (24, pre.toNat), (23, up.toNat), (22, userBank.toNat), (21, writeback.toNat),
      (20, load.toNat), (16, rn), (0, list)]
  | branch link distance => [(25, 0b101), (24, link.toNat), (0, distance.toNat)]
  | branchExchange rm => [(4, 0b000100101111111111110001), (0, rm)]
  | softwareInterrupt comment => [(24, 0b1111), (0, comment)]

/-- The operation that is meant. -/
def op : Form → Op
  | dataProcessing op setFlags rd rn operand _ =>
    .dataProcessing op setFlags rd rn operand.operand
  | readStatus saved rd => .readStatus rd saved
  | writeStatus saved control _ _ flags source =>
    .writeStatus saved (statusMask control flags) source.source
  | multiply setFlags rd rs rm => .multiply false setFlags rd .r0 rs rm
  | multiplyAdd setFlags rd rn rs rm => .multiply true setFlags rd rn rs rm
  | multiplyLong signed accumulate setFlags rdHi rdLo rs rm =>
    .multiplyLong signed accumulate setFlags rdHi rdLo rs rm
  | swap byte rd rn rm => .swap byte rd rn rm
  | half kind rd rn up indexing offset => kind.op rd ⟨rn, offset.offset, up, indexing⟩
  | transfer load byte rd rn pre up writeback offset =>
    let address : SingleAddress :=
      ⟨rn, offset.offset, up, if pre then if writeback then .preWriteback else .pre else .post⟩
    if load then .load (if byte then .byte else .word) rd address
    else .store (if byte then .byte else .word) rd address
  | block load userBank rn pre up writeback list =>
    let (address, list) :=
      BlockAddress.ofFields rn ⟨.ofNat list⟩ pre up writeback (!load)
    if load then .loadMultiple userBank list address else .storeMultiple userBank list address
  | branch link distance => .branch link (.ofInt (4 * distance.toInt))
  | branchExchange rm => .branchExchange rm
  | softwareInterrupt comment => .softwareInterrupt (.ofNat comment)

end Form

/-- The opcode of an instruction. -/
def encode (cond : Condition) (f : Form) : Word :=
  .ofFields ((28, cond.code) :: f.fields)

example : encode .al (.branchExchange 14) = 0xE12FFF1E := by decide

end Arm

end Armv4T
