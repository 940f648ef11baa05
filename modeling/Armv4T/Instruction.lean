import Armv4T.Arm.Decode
import Armv4T.Thumb.Decode

/-!
# Decoded instructions

A decoded instruction remembers where it was fetched and from which opcode. It may also remember
the cache entry of its successor: the instruction after it, or the target of a branch that always
goes to the same place.
-/

namespace Armv4T

/-- An instruction of either set. -/
inductive Instruction
  | arm (instr : Arm.Instr)
  | thumb (instr : Thumb.Instr)
  deriving DecidableEq, Repr, Inhabited

namespace Instruction

/-- The set an instruction belongs to. -/
def set : Instruction → InstrSet
  | arm _ => .arm
  | thumb _ => .thumb

/-- Whether an instruction may redirect the program counter. -/
def writesPc : Instruction → Bool
  | arm i => i.op.writesPc
  | thumb i => i.writesPc

/-- Whether an instruction branches to a target that its opcode and address fix. -/
def isFixedJump : Instruction → Bool
  | arm i => i.op.isFixedJump
  | thumb i => i.isFixedJump

/-- Whether an opcode has no defined meaning. -/
def isUndefined : Instruction → Bool
  | arm ⟨_, .undefined _⟩ => true
  | thumb (.undefined _) => true
  | _ => false

/-- The instruction of an opcode of the given set. -/
def decode : InstrSet → Word → Instruction
  | .arm, opcode => .arm (Arm.decode opcode)
  | .thumb, opcode => .thumb (Thumb.decode opcode)

end Instruction

/-- A reference to an entry of the instruction cache. It is valid while the page it points into
keeps the generation recorded here. -/
structure HandleId where
  region : Nat
  page : Nat
  slot : Nat
  set : InstrSet
  generation : Word
  deriving DecidableEq, Repr, Inhabited

/-- A decoded instruction with its address, its opcode and its successor. -/
structure Handle where
  instruction : Instruction
  address : Word
  opcode : Word
  next : Option HandleId := none
  deriving DecidableEq, Repr, Inhabited

namespace Handle

/-- The set a handle was decoded for. -/
def set (h : Handle) : InstrSet := h.instruction.set

/-- Decodes an opcode fetched at an address. -/
def decode (set : InstrSet) (opcode address : Word) : Handle :=
  { instruction := .decode set opcode, address, opcode }

end Handle

end Armv4T
