import Armv4T.Access
import Armv4T.Addressing
import Armv4T.Condition

/-!
# Thumb instructions

Thumb instructions name low registers, r0 to r7, except where they are said to be high. Only the
conditional branch has a condition.
-/

namespace Armv4T.Thumb

/-- The operations on a register and an eight-bit immediate, in the order of their codes. -/
inductive ImmediateOp
  | mov | cmp | add | sub
  deriving DecidableEq, Repr, Inhabited

namespace ImmediateOp

/-- The operation with the given code, of which the low two bits count. -/
def ofBits (bits : Word) : ImmediateOp :=
  match (bits &&& 3).toNat with
  | 0 => mov
  | 1 => cmp
  | 2 => add
  | _ => sub

end ImmediateOp

/-- The sixteen operations on two low registers, in the order of their codes. -/
inductive AluOp
  | and | eor | lsl | lsr | asr | adc | sbc | ror | tst | neg | cmp | cmn | orr | mul | bic | mvn
  deriving DecidableEq, Repr, Inhabited

namespace AluOp

/-- The operation with the given code, of which the low four bits count. -/
def ofBits (bits : Word) : AluOp :=
  match (bits &&& 0xF).toNat with
  | 0 => and
  | 1 => eor
  | 2 => lsl
  | 3 => lsr
  | 4 => asr
  | 5 => adc
  | 6 => sbc
  | 7 => ror
  | 8 => tst
  | 9 => neg
  | 10 => cmp
  | 11 => cmn
  | 12 => orr
  | 13 => mul
  | 14 => bic
  | _ => mvn

end AluOp

/-- The address of a single transfer: two registers, a register and an offset, an offset from the
stack pointer, or an offset from the word-aligned program counter. -/
inductive Address
  | register (rn rm : Reg)
  | immediate (rn : Reg) (offset : Word)
  | stack (offset : Word)
  | literal (offset : Word)
  deriving DecidableEq, Repr, Inhabited

/-- A Thumb instruction. The two halves of a long call are separate: the first leaves the high part
of the target in LR, and the second adds the low part and branches. -/
inductive Instr
  | shift (kind : ShiftKind) (rd rm : Reg) (amount : Word)
  | addRegister (subtract : Bool) (rd rn rm : Reg)
  | addSmall (subtract : Bool) (rd rn : Reg) (value : Word)
  | moveLow (rd rn : Reg)
  | immediate (op : ImmediateOp) (rd : Reg) (value : Word)
  | alu (op : AluOp) (rd rm : Reg)
  | addHigh (rd rm : Reg)
  | compareHigh (rn rm : Reg)
  | moveHigh (rd rm : Reg)
  | branchExchange (rm : Reg)
  | load (kind : LoadKind) (rd : Reg) (address : Address)
  | store (width : StoreWidth) (rd : Reg) (address : Address)
  | addPc (rd : Reg) (offset : Word)
  | addSp (rd : Reg) (offset : Word)
  | adjustSp (down : Bool) (offset : Word)
  | push (list : RegList) (lr : Bool)
  | pop (list : RegList) (pc : Bool)
  | storeMultiple (rn : Reg) (list : RegList)
  | loadMultiple (rn : Reg) (list : RegList)
  | branchIf (cond : Condition) (offset : Word)
  | softwareInterrupt (comment : Word)
  | branch (offset : Word)
  | callHigh (offset : Word)
  | callLow (offset : Word)
  | undefined (opcode : Word)
  deriving DecidableEq, Repr, Inhabited

namespace Instr

/-- Whether an instruction may redirect the program counter. -/
def writesPc : Instr → Bool
  | addHigh rd _ | moveHigh rd _ => rd == .pc
  | pop _ pc => pc
  | branchExchange _ | branchIf .. | branch _ | callLow _ | undefined _ => true
  | _ => false

/-- Whether an instruction branches to a target that its opcode and address fix. -/
def isFixedJump : Instr → Bool
  | branchIf .. | branch _ => true
  | _ => false

end Instr

end Armv4T.Thumb
