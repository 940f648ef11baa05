import Armv4T.Access
import Armv4T.Addressing
import Armv4T.Condition

/-!
# ARM instructions

An ARM instruction is a condition and an operation. What the sequencer of the core needs to know
of an instruction ahead of its execution is whether it may redirect the program counter, and
whether a branch it takes always has the same target.
-/

namespace Armv4T.Arm

/-- The sixteen data-processing operations, in the order of their codes. -/
inductive AluOp
  | and | eor | sub | rsb | add | adc | sbc | rsc | tst | teq | cmp | cmn | orr | mov | bic | mvn
  deriving DecidableEq, Repr, Inhabited

namespace AluOp

/-- The operation with the given code, of which the low four bits count. -/
def ofBits (bits : Word) : AluOp :=
  match (bits &&& 0xF).toNat with
  | 0 => and
  | 1 => eor
  | 2 => sub
  | 3 => rsb
  | 4 => add
  | 5 => adc
  | 6 => sbc
  | 7 => rsc
  | 8 => tst
  | 9 => teq
  | 10 => cmp
  | 11 => cmn
  | 12 => orr
  | 13 => mov
  | 14 => bic
  | _ => mvn

/-- Whether an operation only sets flags. -/
def isTest : AluOp → Bool
  | tst | teq | cmp | cmn => true
  | _ => false

end AluOp

/-- The source of a transfer to a status word. -/
inductive StatusSource
  | register (rm : Reg)
  | immediate (value : Word)
  deriving DecidableEq, Repr, Inhabited

/-- The operation of an ARM instruction. -/
inductive Op
  | dataProcessing (op : AluOp) (setFlags : Bool) (rd rn : Reg) (operand : Operand)
  | readStatus (rd : Reg) (saved : Bool)
  | writeStatus (saved : Bool) (mask : Word) (source : StatusSource)
  | multiply (accumulate setFlags : Bool) (rd rn rs rm : Reg)
  | multiplyLong (signed accumulate setFlags : Bool) (rdHi rdLo rs rm : Reg)
  | swap (byte : Bool) (rd rn rm : Reg)
  | load (kind : LoadKind) (rd : Reg) (address : SingleAddress)
  | store (width : StoreWidth) (rd : Reg) (address : SingleAddress)
  | loadMultiple (userBank : Bool) (list : RegList) (address : BlockAddress)
  | storeMultiple (userBank : Bool) (list : RegList) (address : BlockAddress)
  | branch (link : Bool) (offset : Word)
  | branchExchange (rm : Reg)
  | softwareInterrupt (comment : Word)
  | undefined (opcode : Word)
  deriving DecidableEq, Repr, Inhabited

namespace Op

/-- Whether an operation may redirect the program counter. -/
def writesPc : Op → Bool
  | dataProcessing op _ rd _ _ => rd == .pc && !op.isTest
  | readStatus rd _ => rd == .pc
  | writeStatus .. => false
  | multiply _ _ rd _ _ _ => rd == .pc
  | multiplyLong _ _ _ rdHi rdLo _ _ => rdHi == .pc || rdLo == .pc
  | swap _ rd _ _ => rd == .pc
  | load _ rd address => rd == .pc || address.writesPc
  | store _ _ address => address.writesPc
  | loadMultiple _ list address => list.contains .pc || address.writesPc
  | storeMultiple _ _ address => address.writesPc
  | branch .. => true
  | branchExchange _ => true
  | softwareInterrupt _ => false
  | undefined _ => true

/-- Whether an operation branches to a target that its opcode and address fix. -/
def isFixedJump : Op → Bool
  | branch .. => true
  | _ => false

end Op

/-- An ARM instruction. -/
structure Instr where
  cond : Condition
  op : Op
  deriving DecidableEq, Repr, Inhabited

end Armv4T.Arm
