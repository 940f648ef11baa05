import Armv4T.Registers
import Armv4T.Shift

/-!
# Operands and addressing

The operand of a data-processing instruction, the address of a single transfer and the address of
a block transfer, as they are encoded. All amounts are words, so a negative offset is its two's
complement.
-/

namespace Armv4T

/-- The second operand of a data-processing instruction. An immediate that was rotated sets the
carry to its top bit; one that was not leaves the carry alone. -/
inductive Operand
  | immediate (value : Word)
  | rotated (value : Word)
  | shifted (kind : ShiftKind) (rm : Reg) (amount : Word)
  | shiftedBy (kind : ShiftKind) (rm rs : Reg)
  deriving DecidableEq, Repr, Inhabited

/-- When a single transfer adds its offset to the base, and whether it writes the sum back. -/
inductive Indexing
  | post | pre | preWriteback
  deriving DecidableEq, Repr, Inhabited

/-- The offset of a single transfer. -/
inductive Offset
  | immediate (value : Word)
  | register (rm : Reg)
  | shifted (kind : ShiftKind) (rm : Reg) (amount : Word)
  deriving DecidableEq, Repr, Inhabited

/-- The address of a single transfer. -/
structure SingleAddress where
  rn : Reg
  offset : Offset
  up : Bool
  indexing : Indexing
  deriving DecidableEq, Repr, Inhabited

namespace SingleAddress

/-- Whether evaluating the address writes the program counter back. -/
def writesPc (a : SingleAddress) : Bool := a.rn == .pc && a.indexing != .pre

end SingleAddress

/-- A set of registers, bit `i` of the mask standing for register `i`. -/
structure RegList where
  mask : Word
  deriving DecidableEq, Repr, Inhabited

namespace RegList

/-- Whether a register is listed. -/
def contains (l : RegList) (r : Reg) : Bool := l.mask.bit (UInt32.ofNat r.val)

/-- The listed registers in ascending order, in which they are transferred. -/
def toList (l : RegList) : List Reg := (List.finRange 16).filter l.contains

/-- The number of registers listed. -/
def count (l : RegList) : Word := UInt32.ofNat l.toList.length

/-- The list without one register. -/
def erase (l : RegList) (r : Reg) : RegList := ⟨l.mask &&& ~~~(1 <<< UInt32.ofNat r.val)⟩

end RegList

/-- The address of a block transfer. `start` leads from the base to the first word transferred and
`delta` to the base that is written back. If a store lists the base register lowest and writes it
back, then the base itself goes to the slot before `start`; `overlap` says so, and the register is
not in the list. -/
structure BlockAddress where
  rn : Reg
  start : Word
  delta : Word
  writeback : Bool
  overlap : Bool
  deriving DecidableEq, Repr, Inhabited

namespace BlockAddress

/-- The address of a transfer of `list` from base `rn`, and the registers left to transfer. -/
def ofFields (rn : Reg) (list : RegList) (pre up writeback store : Bool) :
    BlockAddress × RegList :=
  let size := 4 * list.count
  let overlap := store && writeback && list.toList.head? == some rn
  let first : Word := if up == pre then 4 else 0
  let start := if up then first else first - size
  ({ rn
     start := if overlap then start + 4 else start
     delta := if up then size else 0 - size
     writeback
     overlap },
   if overlap then list.erase rn else list)

/-- Whether evaluating the address writes the program counter back. -/
def writesPc (a : BlockAddress) : Bool := a.rn == .pc && a.writeback

end BlockAddress

end Armv4T
