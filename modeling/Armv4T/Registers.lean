import Armv4T.Flags
import Armv4T.Mode

/-!
# The register file

The register file holds the sixteen visible registers, the status word in its parts, the saved
status word of the current mode, and the copies of the registers that other modes select. A slot
that belongs to the current mode keeps the value it had when the mode was entered: the live value
is the visible one.
-/

namespace Armv4T

/-- The number of a visible register. -/
abbrev Reg := Fin 16

namespace Reg

/-- The first register, which holds the first argument of a service. -/
def r0 : Reg := 0

/-- The second register, which holds the second argument of a service. -/
def r1 : Reg := 1

/-- The fourth register, which holds a third result of a service. -/
def r3 : Reg := 3

/-- The stack pointer. -/
def sp : Reg := 13

/-- The link register. -/
def lr : Reg := 14

/-- The program counter. -/
def pc : Reg := 15

/-- The register numbered by the low four bits of a word. -/
def ofWord (w : Word) : Reg := Fin.ofNat 16 w.toNat

end Reg

/-- The stack pointer, link register and saved status word that a mode selects. -/
structure Bank where
  sp : Word := 0
  lr : Word := 0
  spsr : Word := 0
  deriving DecidableEq, Repr, Inhabited

/-- The registers and the status of the core. `high` and `fiqHigh` hold r8 to r12 of the other
modes and of FIQ while they are not visible. -/
structure Registers where
  visible : Vector Word 16 := Vector.replicate 16 0
  mode : Mode := .system
  set : InstrSet := .arm
  flags : Flags := {}
  spsr : Word := 0
  banks : Vector Bank 6 := Vector.replicate 6 {}
  high : Vector Word 5 := Vector.replicate 5 0
  fiqHigh : Vector Word 5 := Vector.replicate 5 0
  deriving DecidableEq, Repr, Inhabited

namespace Registers

/-- The value of a visible register. -/
def read (r : Registers) (i : Reg) : Word := r.visible[i]

/-- The register file with one visible register changed. -/
def write (r : Registers) (i : Reg) (value : Word) : Registers :=
  { r with visible := r.visible.set i value }

/-- The visible values of r8 to r12. -/
def visibleHigh (r : Registers) : Vector Word 5 :=
  #v[r.visible[8], r.visible[9], r.visible[10], r.visible[11], r.visible[12]]

/-- Makes the given values the visible r8 to r12. -/
def showHigh (r : Registers) (h : Vector Word 5) : Registers :=
  { r with
    visible := ((((r.visible.set 8 h[0]).set 9 h[1]).set 10 h[2]).set 11 h[3]).set 12 h[4] }

/-- Exchanges r8 to r12 if exactly one of the current mode and `target` is FIQ. -/
def exchangeHigh (r : Registers) (target : Mode) : Registers :=
  if r.mode = .fiq then
    if target = .fiq then r
    else { r.showHigh r.high with fiqHigh := r.visibleHigh }
  else if target = .fiq then { r.showHigh r.fiqHigh with high := r.visibleHigh }
  else r

/-- Saves the visible SP, LR and SPSR in the bank of the current mode. -/
def saveBank (r : Registers) : Registers :=
  { r with banks := r.banks.set r.mode.bank ⟨r.read .sp, r.read .lr, r.spsr⟩ }

/-- Makes SP, LR and SPSR of the given bank visible. -/
def showBank (r : Registers) (b : Fin 6) : Registers :=
  { (r.write .sp r.banks[b].sp).write .lr r.banks[b].lr with spsr := r.banks[b].spsr }

/-- Enters a mode: what the current mode selects is saved and what `target` selects becomes
visible. Modes that share a bank share everything. -/
def switchMode (r : Registers) (target : Mode) : Registers :=
  if target.bank = r.mode.bank then { r with mode := target }
  else { ((r.exchangeHigh target).saveBank.showBank target.bank) with mode := target }

/-- The status word: condition flags, interrupt masks, instruction set and mode. -/
def packStatus (r : Registers) : Word :=
  (Word.ofBool r.flags.n <<< 31) ||| (Word.ofBool r.flags.z <<< 30) |||
  (Word.ofBool r.flags.c <<< 29) ||| (Word.ofBool r.flags.v <<< 28) |||
  (Word.ofBool r.flags.i <<< 7) ||| (Word.ofBool r.flags.f <<< 6) |||
  (Word.ofBool (r.set == .thumb) <<< 5) ||| r.mode.bits

/-- The flags written in a status word. -/
def flagsOfStatus (w : Word) : Flags :=
  { n := w.bit 31, z := w.bit 30, c := w.bit 29, v := w.bit 28, i := w.bit 7, f := w.bit 6 }

/-- Loads a status word. Nothing changes if its mode field names no mode. -/
def loadStatus (r : Registers) (w : Word) : Except Fault Registers := do
  let mode ← Mode.ofBits w
  return { r.switchMode mode with set := .ofBit (w.bit 5), flags := flagsOfStatus w }

/-- The condition flags of the status word, which every mode may write. -/
def conditionMask : Word := 0xF0000000

/-- The interrupt masks and the mode field, which only privileged modes may write. -/
def controlMask : Word := 0x000000CF

/-- The bit that selects the instruction set. -/
def setMask : Word := 0x00000020

end Registers

end Armv4T
