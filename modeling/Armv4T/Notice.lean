import Armv4T.InstrSet
import Armv4T.Numeral

/-!
# Notices

Events that a user of the machine may want to know of and that change nothing: what was noticed is
written to a journal beside the state.
-/

namespace Armv4T

/-- How much a notice matters. -/
inductive Severity
  | info | warning
  deriving DecidableEq, Repr

namespace Severity

/-- The word in front of a notice. -/
def label : Severity → String
  | info => "INFO"
  | warning => "WARN"

end Severity

/-- Something worth noticing. -/
inductive Notice
  | undefinedOpcode (set : InstrSet) (opcode address : Word)
  | unmappedRead (address : Word)
  | readOnlyStore (region : String) (address : Word)
  | unmappedStore (address : Word)
  | irqTaken (returnAddress : Word)
  | trapTaken (returnAddress : Word)
  | halted (address : Word)
  | divisionByZero (numerator : Word)
  | haltIgnored
  | unknownLine (line : Word)
  deriving DecidableEq, Repr

namespace Notice

/-- How much a notice matters. -/
def severity : Notice → Severity
  | irqTaken _ | trapTaken _ | halted _ => .info
  | _ => .warning

/-- The text of a notice. -/
def message : Notice → String
  | undefinedOpcode .arm opcode address =>
    s!"Undefined ARM opcode {Numeral.word opcode} at {Numeral.word address}"
  | undefinedOpcode .thumb opcode address =>
    s!"Undefined Thumb opcode {Numeral.hex 4 opcode.toNat} at {Numeral.word address}"
  | unmappedRead address => s!"Read from unmapped address {Numeral.word address}"
  | readOnlyStore region address =>
    s!"Ignoring store to read-only region '{region}' at {Numeral.word address}"
  | unmappedStore address => s!"Store to unmapped address {Numeral.word address}"
  | irqTaken returnAddress => s!"IRQ taken, returning to {Numeral.word returnAddress}"
  | trapTaken returnAddress => s!"SWI trap, returning to {Numeral.word returnAddress}"
  | halted address => s!"Core halted at {Numeral.word address}"
  | divisionByZero numerator =>
    s!"BIOS Div by zero ({numerator.toInt32.toInt} / 0), returning zeros"
  | haltIgnored => "Halt requested with interrupts disabled, ignoring"
  | unknownLine line => s!"Ignoring request on nonexistent interrupt line {line.toNat}"

end Notice

end Armv4T
