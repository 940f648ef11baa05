import Armv4T.Word

/-!
# Status flags

The four condition flags and the two interrupt masks of the status word.
-/

namespace Armv4T

/-- Negative, zero, carry and overflow, and the masks that disable IRQ and FIQ. -/
structure Flags where
  n : Bool := false
  z : Bool := false
  c : Bool := false
  v : Bool := false
  i : Bool := false
  f : Bool := false
  deriving DecidableEq, Repr, Inhabited

namespace Flags

/-- The sign and the zeroness of a result, the other flags as they were. -/
def setNZ (flags : Flags) (result : Word) : Flags :=
  { flags with n := result.bit 31, z := result == 0 }

/-- All four condition flags from a result with its carry and overflow. -/
def setNZCV (flags : Flags) (result : Word) (carry overflow : Bool) : Flags :=
  { flags.setNZ result with c := carry, v := overflow }

end Flags

end Armv4T
