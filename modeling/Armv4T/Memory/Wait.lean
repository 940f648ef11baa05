import Armv4T.Word

/-!
# Wait states

What an access costs depends on its region: one cycle and the wait states of its kind. Accesses
differ in width and in whether they follow the one before them.
-/

namespace Armv4T

/-- The extra cycles of each kind of access to a region. -/
structure WaitStates where
  nonseq16 : Word := 0
  seq16 : Word := 0
  nonseq32 : Word := 0
  seq32 : Word := 0
  deriving DecidableEq, Repr, Inhabited

/-- Whether all bits of `operand` under `mask` are equal. -/
def uniformUnder (operand mask : Word) : Bool :=
  operand &&& mask == 0 || operand &&& mask == mask

/-- The cycles of a multiplication: it ends early if the leading bytes of the multiplier are all
zeros or all ones. -/
def multiplyCycles (multiplier : Word) : Word :=
  if uniformUnder multiplier 0xFFFFFF00 then 1
  else if uniformUnder multiplier 0xFFFF0000 then 2
  else if uniformUnder multiplier 0xFF000000 then 3
  else 4

end Armv4T
