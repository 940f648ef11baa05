import Armv4T.InstrSet
import Armv4T.Numeral

/-!
# Faults

Everything that can stop the execution of an instruction, the loading of a status word or the
restoring of a snapshot, and the message that reports it.
-/

namespace Armv4T

/-- What is wrong with the shape of a saved core state. -/
inductive SnapshotDefect
  | registerCount (found : Nat)
  | bankLengths
  | savedStatusCount (found : Nat)
  deriving DecidableEq, Repr

namespace SnapshotDefect

/-- The description of a defect. -/
def message : SnapshotDefect → String
  | registerCount found => s!"expected 16 registers, found {found}"
  | bankLengths => "banked register lengths must be 7, 7, 2, 2, 2, 2"
  | savedStatusCount found => s!"expected 6 banked SPSRs, found {found}"

end SnapshotDefect

/-- A reason for which an operation on the machine fails. -/
inductive Fault
  | illegalInstruction (address opcode : Word) (set : InstrSet)
  | invalidMode (bits : Word)
  | memoryViolation (address : Word)
  | unimplementedService (comment : Word)
  | invalidSnapshot (defect : SnapshotDefect)
  deriving DecidableEq, Repr

namespace Fault

/-- The text that reports a fault. -/
def message : Fault → String
  | illegalInstruction address opcode set =>
    s!"Illegal instruction {Numeral.hex 0 opcode.toNat} at {Numeral.word address} " ++
      s!"(thumb: {set == .thumb})"
  | invalidMode bits => s!"Invalid processor mode {Numeral.binary 5 bits.toNat}"
  | memoryViolation address => s!"Memory access violation at {Numeral.word address}"
  | unimplementedService comment =>
    s!"Unimplemented software interrupt {Numeral.hex 2 comment.toNat}"
  | invalidSnapshot defect => s!"Invalid snapshot: {defect.message}"

end Fault

end Armv4T
