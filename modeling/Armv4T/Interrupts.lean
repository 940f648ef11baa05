import Armv4T.Word

/-!
# Interrupt lines

Sixteen request lines behind an enable mask and a master enable. A request that is eligible is not
taken at once: it arms the interrupt, and the exception is entered after the current instruction.
-/

namespace Armv4T

/-- The lines with a request and the enabled ones, as masks. `armed` says that an
exception is due, and `services` that software interrupts are served here and do not trap. -/
structure InterruptLines where
  master : Bool := false
  enabled : UInt16 := 0
  flags : UInt16 := 0
  armed : Bool := false
  services : Bool := false
  deriving DecidableEq, Repr, Inhabited

namespace InterruptLines

/-- The number of lines. -/
def count : Word := 16

/-- The lines of the handheld, in the order of their numbers. -/
def names : List String :=
  ["vblank", "hblank", "vcount", "timer0", "timer1", "timer2", "timer3", "serial", "dma0", "dma1",
   "dma2", "dma3", "keypad", "gamepak"]

/-- The requests on enabled lines. -/
def pending (l : InterruptLines) : UInt16 := l.enabled &&& l.flags

/-- Arms the interrupt if a request is eligible and IRQ is not disabled. -/
def test (l : InterruptLines) (irqDisabled : Bool) : InterruptLines :=
  if l.master && l.pending != 0 && !irqDisabled then { l with armed := true } else l

/-- Records a request on an existing line. -/
def raise (l : InterruptLines) (line : Word) : InterruptLines :=
  { l with flags := l.flags ||| (1 <<< line.toUInt16) }

/-- Withdraws the requests of a mask. -/
def acknowledge (l : InterruptLines) (mask : UInt16) : InterruptLines :=
  { l with flags := l.flags &&& ~~~mask }

/-- Forgets all requests and disables all lines. -/
def clear (l : InterruptLines) : InterruptLines := { services := l.services }

end InterruptLines

end Armv4T
