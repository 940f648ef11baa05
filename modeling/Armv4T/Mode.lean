import Armv4T.Fault

/-!
# Processor modes

Seven modes share the sixteen visible registers. User and System select one copy of SP and LR, and
every other mode selects a copy of its own together with a saved status word.
-/

namespace Armv4T

/-- A processor mode. -/
inductive Mode
  | user | fiq | irq | supervisor | abort | undefined | system
  deriving DecidableEq, Repr, Inhabited

namespace Mode

/-- The mode field of the status word. -/
def bits : Mode → Word
  | user => 0x10
  | fiq => 0x11
  | irq => 0x12
  | supervisor => 0x13
  | abort => 0x17
  | undefined => 0x1B
  | system => 0x1F

/-- The mode named by the low five bits of a status word, if they name one. -/
def ofBits (bits : Word) : Except Fault Mode :=
  match (bits &&& 0x1F).toNat with
  | 0x10 => .ok user
  | 0x11 => .ok fiq
  | 0x12 => .ok irq
  | 0x13 => .ok supervisor
  | 0x17 => .ok abort
  | 0x1B => .ok undefined
  | 0x1F => .ok system
  | _ => .error (.invalidMode (bits &&& 0x1F))

/-- The copy of SP, LR and SPSR that a mode selects. -/
def bank : Mode → Fin 6
  | user | system => 0
  | fiq => 1
  | irq => 2
  | supervisor => 3
  | abort => 4
  | undefined => 5

/-- Whether a mode has a saved status word. -/
def hasSpsr : Mode → Bool
  | user | system => false
  | _ => true

end Mode

end Armv4T
