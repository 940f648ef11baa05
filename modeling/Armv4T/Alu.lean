import Armv4T.Flags

/-!
# Flag-setting arithmetic

Sums and differences of words, with the carry and the signed overflow that set the condition flags.
The carry of a difference means that nothing had to be borrowed. An operation that takes the carry
flag adds or subtracts in two steps, and each of them may wrap.
-/

namespace Armv4T

namespace Word

/-- The sum of two words, and whether it wraps. -/
def overflowingAdd (a b : Word) : Word × Bool := (a + b, a.toBitVec.uaddOverflow b.toBitVec)

/-- The difference of two words, and whether it borrows. -/
def overflowingSub (a b : Word) : Word × Bool := (a - b, a.toBitVec.usubOverflow b.toBitVec)

end Word

/-- A sum with its carry out of bit 31 and its signed overflow. -/
structure Sum where
  value : Word
  carry : Bool
  overflow : Bool
  deriving DecidableEq, Repr

namespace Sum

/-- Whether a sum overflows: its operands have one sign and it has the other. -/
def addOverflows (a b value : Word) : Bool := (~~~(a ^^^ b) &&& (a ^^^ value)) >>> 31 != 0

/-- Whether a difference overflows: its operands differ in sign and it has not the sign of the
first. -/
def subOverflows (a b value : Word) : Bool := ((a ^^^ b) &&& (a ^^^ value)) >>> 31 != 0

/-- The sum of two words. -/
def add (a b : Word) : Sum :=
  let sum := a.overflowingAdd b
  { value := sum.1, carry := sum.2, overflow := addOverflows a b sum.1 }

/-- The sum of two words and the carry flag. -/
def adc (a b : Word) (carry : Bool) : Sum :=
  let first := a.overflowingAdd b
  let second := first.1.overflowingAdd (.ofBool carry)
  { value := second.1, carry := first.2 || second.2, overflow := addOverflows a b second.1 }

/-- The difference of two words. The carry is set if nothing is borrowed. -/
def sub (a b : Word) : Sum :=
  let difference := a.overflowingSub b
  { value := difference.1, carry := !difference.2, overflow := subOverflows a b difference.1 }

/-- The difference of two words, less one more if the carry flag is clear. -/
def sbc (a b : Word) (carry : Bool) : Sum :=
  let first := a.overflowingSub b
  let second := first.1.overflowingSub (.ofBool !carry)
  { value := second.1, carry := !(first.2 || second.2), overflow := subOverflows a b second.1 }

/-- A value that passes through with the given carry and overflow. -/
def logical (value : Word) (carry overflow : Bool) : Sum := ⟨value, carry, overflow⟩

/-- The condition flags of a result. -/
def flags (s : Sum) (old : Flags) : Flags := old.setNZCV s.value s.carry s.overflow

end Sum

end Armv4T
