import Armv4T.Word

/-!
# Instruction sets

The core runs 32-bit ARM instructions or 16-bit Thumb instructions, and its status word says which.
-/

namespace Armv4T

/-- The instruction set a core is executing, or an instruction belongs to. -/
inductive InstrSet
  | arm
  | thumb
  deriving DecidableEq, Repr, Inhabited

namespace InstrSet

/-- The size of one instruction in bytes. -/
def width : InstrSet → Word
  | arm => 4
  | thumb => 2

/-- The set selected by bit 0 of a branch target. -/
def ofBit (thumb : Bool) : InstrSet := if thumb then .thumb else .arm

end InstrSet

end Armv4T
