import Mathlib
import Armv4T.Proofs.Machine.Abreast
import Armv4T.Proofs.Step.Shifted

/-!
# A reset erases history

A reset clears the registers and the interrupt lines, but of the cache it only marks the pages:
their entries and generations remain. What is left cannot be seen. Two machines on buses of one
shape, with the same bytes in memory, look the same along every run from a reset at the same entry
(`Machine.sameCourse_reset`), whatever they did before. Their caches never become equal. They are
shifted by the constants by which the generations of their pages differ at the reset.
-/

namespace Armv4T.Machine

open Remembered (Shifted)

variable {m m' : Machine}

/-- A reset leaves machines abreast, up to a shift of the generations. -/
lemma exists_abreast_reset (hshape : Bus.SameShape m.board.bus m'.board.bus)
    (hcontents : m'.board.bus.contents = m.board.bus.contents)
    (hroomy : m.board.bus.cache.Roomy) (hroomy' : m'.board.bus.cache.Roomy)
    (henabled : m'.board.core.cacheEnabled = m.board.core.cacheEnabled)
    (hservices : m'.board.irq.services = m.board.irq.services) (entry : Word) :
    ∃ δ, ((m.reset entry).observedBy []).Abreast (Shifted δ)
      ((m'.reset entry).observedBy []) := by
  obtain ⟨δ, hcache⟩ := InstructionCache.exists_shifted_clear hshape.layout hroomy hroomy'
  have hmemory := hshape.sameMemory hcontents
  have hlines : m'.board.irq.clear = m.board.irq.clear := by
    rw [InterruptLines.clear, hservices]
    rfl
  refine ⟨δ, ?_, rfl, rfl, rfl⟩
  exact
    { regs := rfl, cycles := rfl, halted := rfl, passed := fun _ => rfl,
      memory := ⟨hmemory.wiring, hmemory.sizes, hmemory.contents⟩, irq := hlines,
      remembered := ⟨rfl, henabled, hcache⟩ }

/-- A reset erases history. Let two machines be on buses of one shape that hold the same bytes, both
with decodings cached or both without, and with software interrupts served or not. Their caches have
room for every instruction, as they do on the bus of any valid map (`Bus.Built.roomy`). Whatever
else differs, be it the core, the interrupt lines, the observers, or the pages of the cache with
their generations, entries and successors, after a reset at the same entry they look the same, and
so they do after every input of every run, each of which they take in the same way. -/
theorem sameCourse_reset (hshape : Bus.SameShape m.board.bus m'.board.bus)
    (hcontents : m'.board.bus.contents = m.board.bus.contents)
    (hroomy : m.board.bus.cache.Roomy) (hroomy' : m'.board.bus.cache.Roomy)
    (henabled : m'.board.core.cacheEnabled = m.board.core.cacheEnabled)
    (hservices : m'.board.irq.services = m.board.irq.services) (entry : Word)
    (inputs : List Input) :
    (m.reset entry).LooksLike (m'.reset entry) ∧
      SameCourse LooksLike inputs (m.reset entry) (m'.reset entry) := by
  obtain ⟨δ, h⟩ :=
    exists_abreast_reset hshape hcontents hroomy hroomy' henabled hservices entry
  refine ⟨⟨h.looksLike.snapshot, h.looksLike.memory⟩, ?_⟩
  refine .of_observedBy_nil ?_ ?_ (sameCourse_of_abreast Exec.finds_shifted h inputs)
  · exact roomy_receive hroomy (.reset entry)
  · exact roomy_receive hroomy' (.reset entry)

/-- The machine with other registers, a pending interrupt, and a page of the cache that was emptied
and has been used again. -/
def withHistory (m : Machine) : Machine :=
  m.mapBoard fun b =>
    { core := { b.core with regs := b.core.regs.write .lr 7, halted := true }
      bus :=
        { b.bus with
          cache :=
            (((b.bus.cache.insert (.decode .arm 0xE3A00001 0x03000000)).2.invalidate
              0x03000000 4).insert (.decode .arm 0xE3A00002 0x03000000)).2 }
      irq := { b.irq with master := true, enabled := 1, flags := 1, armed := true } }

/-- A machine with a history and one without look the same after a reset. -/
theorem sameCourse_reset_history :
    let m := handheld [(0x03000000, 0xE2811001), (0x03000004, 0xEAFFFFFD)]
    let inputs : List Input := [.command .step, .command (.request 3), .setMaster true,
      .setEnabled 8, .command .step, .command (.acknowledge 8), .command .step]
    (m.reset 0x03000000).LooksLike (m.withHistory.reset 0x03000000) ∧
      SameCourse LooksLike inputs (m.reset 0x03000000) (m.withHistory.reset 0x03000000) := by
  have hpair (m : Machine) (hroomy : m.board.bus.cache.Roomy) (inputs : List Input) :
      (m.reset 0x03000000).LooksLike (m.withHistory.reset 0x03000000) ∧
        SameCourse LooksLike inputs (m.reset 0x03000000) (m.withHistory.reset 0x03000000) := by
    have hroomy' : m.withHistory.board.bus.cache.Roomy :=
      ((hroomy.insert _).invalidate _ _).insert _
    have hlayout : m.withHistory.board.bus.cache.layout = m.board.bus.cache.layout := by
      show (InstructionCache.insert _ _).2.layout = _
      rw [InstructionCache.layout_insert, (InstructionCache.marked_invalidate _ _ _).layout,
        InstructionCache.layout_insert]
    have hshape : Bus.SameShape m.board.bus m.withHistory.board.bus :=
      ⟨rfl, rfl, rfl, fun _ => rfl, hlayout⟩
    have hcontents : m.withHistory.board.bus.contents = m.board.bus.contents := rfl
    exact sameCourse_reset hshape hcontents hroomy hroomy' rfl rfl 0x03000000 inputs
  exact hpair _ (roomy_handheld _) _

end Armv4T.Machine
