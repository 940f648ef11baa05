import Armv4T.Board

/-!
# Built-in services

The arithmetic services of the handheld's BIOS, which work on r0 to r3, and the service that halts
the core. Angles are fractions of a turn: 0x4000 is a quarter turn for the arc tangent of a
fixed-point number with 14 binary places, and 0x10000 is a full turn for the angle of a vector.
-/

namespace Armv4T.Bios

/-- The number of the service that halts the core. -/
def haltService : Word := 0x02

/-- The integer square root: the largest number whose square is not larger. -/
def sqrt (n : Nat) : Nat :=
  if n = 0 then 0
  else
    let r := 2 * sqrt (n / 4)
    if (r + 1) * (r + 1) ≤ n then r + 1 else r
termination_by n

/-- A quotient toward zero, its remainder, and the absolute value of the quotient. All three are
zero if the denominator is. -/
structure Division where
  quotient : Word
  remainder : Word
  magnitude : Word
  deriving DecidableEq, Repr

/-- Divides two signed words. -/
def divide (numerator denominator : Word) : Division :=
  if denominator = 0 then ⟨0, 0, 0⟩
  else
    let n := numerator.toInt32.toInt
    let d := denominator.toInt32.toInt
    ⟨UInt32.ofInt (n.tdiv d), UInt32.ofInt (n.tmod d), UInt32.ofNat (n.tdiv d).natAbs⟩

/-- The ratio of a circle's circumference to its diameter. -/
def pi : Float := 3.14159265358979323846

/-- The angle with the given tangent. -/
def arctan (tangent : Word) : Word :=
  let x := Float.ofInt tangent.toInt32.toInt / 16384.0
  (Float.atan x / (pi / 2.0) * 16384.0).toInt32.toUInt32

/-- The angle of a vector, at least zero and less than a full turn. -/
def arctan2 (x y : Word) : Word :=
  let turns :=
    Float.atan2 (Float.ofInt y.toInt32.toInt) (Float.ofInt x.toInt32.toInt) / (2.0 * pi)
  let turns := if turns < 0.0 then turns + 1.0 else turns
  (turns * 65536.0).toUInt32 &&& 0xFFFF

/-- Puts a division into r0, r1 and r3. -/
def putDivision (numerator denominator : Word) : Exec Unit := do
  if denominator = 0 then Exec.update (·.note (.divisionByZero numerator))
  let q := divide numerator denominator
  Exec.setReg .r0 q.quotient
  Exec.setReg .r1 q.remainder
  Exec.setReg .r3 q.magnitude

/-- Performs a service. -/
def dispatch (comment : Word) : Exec Unit := do
  let r0 ← Exec.reg .r0
  let r1 ← Exec.reg .r1
  match comment.toNat with
  | 0x02 => Exec.update Board.halt
  | 0x06 => putDivision r0 r1
  | 0x07 => putDivision r1 r0
  | 0x08 => Exec.setReg .r0 (UInt32.ofNat (sqrt r0.toNat))
  | 0x09 => Exec.setReg .r0 (arctan r0)
  | 0x0A => Exec.setReg .r0 (arctan2 r0 r1)
  | _ => throw (.unimplementedService comment)

/-- Serves a software interrupt: a trap, unless the services are built in. A halt is ignored while
no interrupt could end it. -/
def softwareInterrupt (comment : Word) : Exec Unit := fun b =>
  if !b.irq.services then .ok () b.raiseTrap
  else if comment = haltService && !b.irq.master then .ok () (b.note .haltIgnored)
  else dispatch comment b

end Armv4T.Bios
