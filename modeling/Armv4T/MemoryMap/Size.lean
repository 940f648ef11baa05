import Armv4T.Text.Blank
import Armv4T.Text.Numeric

/-!
# Sizes as text

A size is a decimal number and a unit, such as `256KiB`. The number is read as a double-precision
one and multiplied by the bytes of the unit; the product is cut off to a whole number of bytes, of
which 64 bits are kept. Units are powers of 1000 or of 1024 and their case does not matter, except
that exactly `KB` means 1024 bytes.
-/

namespace Armv4T

/-- What is wrong with a size. -/
inductive SizeError
  | empty | noMultiple | noValue | invalidValue | invalidMultiple
  deriving DecidableEq, Repr

namespace SizeError

/-- The description of an error. -/
def message : SizeError → String
  | empty => "input is empty"
  | noMultiple => "no multiple"
  | noValue => "no value"
  | invalidValue => "invalid value"
  | invalidMultiple => "invalid multiple"

end SizeError

namespace Size

/-- The units in lower case, each with a base and the power of it that the unit stands for. -/
def units : List (String × Nat × Nat) :=
  [("b", 1000, 0), ("kb", 1000, 1), ("mb", 1000, 2), ("gb", 1000, 3), ("tb", 1000, 4),
   ("pb", 1000, 5), ("eb", 1000, 6), ("zb", 1000, 7), ("yb", 1000, 8), ("kib", 1024, 1),
   ("mib", 1024, 2), ("gib", 1024, 3), ("tib", 1024, 4), ("pib", 1024, 5), ("eib", 1024, 6),
   ("zib", 1024, 7), ("yib", 1024, 8)]

/-- The bytes of a unit. -/
def unitBytes? (unit : List Char) : Option Nat :=
  if unit = ['K', 'B'] then some 1024
  else (units.lookup (String.ofList (unit.map Char.toLower))).map fun (base, n) => Nat.pow base n

/-- The number written by digits with at most one point among them, and at least one digit. -/
def decimal? (cs : List Char) : Option Float :=
  let whole := cs.takeWhile (· != '.')
  let fraction := (cs.dropWhile (· != '.')).drop 1
  let digits := whole ++ fraction
  if digits.isEmpty || !digits.all Char.isDigit then none
  else
    let mantissa := digits.foldl (fun n c => 10 * n + (c.toNat - '0'.toNat)) 0
    some (Float.ofScientific mantissa true fraction.length)

/-- Whether a number is zero or a normal one: neither infinite nor below the normal range. -/
def isZeroOrNormal (x : Float) : Bool :=
  let exponent := (x.toBits >>> 52) &&& 0x7FF
  x == 0.0 || (exponent != 0 && exponent != 0x7FF)

/-- The number of bytes written by a text. -/
def parse (text : String) : Except SizeError Nat := do
  let cs := Text.trim text.toList
  if cs.isEmpty then throw .empty
  let isValue := fun c => Text.isNumeric c || c == '.'
  let value := cs.takeWhile isValue
  let unit := cs.dropWhile isValue
  if unit.isEmpty then throw .noMultiple
  if value.isEmpty then throw .noValue
  let some x := (decimal? value).filter isZeroOrNormal | throw .invalidValue
  let some bytes := unitBytes? (Text.trim unit) | throw .invalidMultiple
  return (x * Float.ofNat bytes).toUInt64.toNat

/-- The number of zero bits below the lowest set bit of a 64-bit number, 64 for zero. -/
def trailingZeros (n : Nat) : Nat := ((List.range 64).find? n.testBit).getD 64

/-- Whether a number is a power of two. -/
def isPowerOfTwo (n : Nat) : Bool := n != 0 && n &&& (n - 1) == 0

end Size

end Armv4T
