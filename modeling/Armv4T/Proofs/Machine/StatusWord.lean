import Mathlib
import Armv4T.Machine.Debug
import Armv4T.Proofs.Exec.Alike
import Armv4T.Proofs.Registers.Physical
import Armv4T.Proofs.Registers.Status

/-!
# Loading and writing the status word

A word whose mode field names a mode is loaded as a whole: the status word is then that word without
the bits that stand for nothing, and the registers are those that entering the mode shows. A word
that names no mode changes nothing. A debugger writes the status word in the same way, and keeps the
address of the next instruction: it is only counted again if the width of the instructions changes.
-/

namespace Armv4T

namespace Registers

/-- The register file `s` is `r` with the status word `v` and the mode `m` that it names. No copy of
a register has changed, and the status word of `s` is what makes `s` when it is loaded again. -/
structure StatusLoaded (r s : Registers) (m : Mode) (v : Word) : Prop where
  mode : s.mode = m
  status : s.packStatus = v &&& 0xF00000FF
  regs : s = { r.switchMode m with set := s.set, flags := s.flags }
  content : s.content = r.content
  reload : s.loadStatus (v &&& 0xF00000FF) = .ok s

variable {r s : Registers} {m : Mode} {v : Word}

lemma content_withStatus (r : Registers) (m : Mode) (v : Word) :
    (r.withStatus m v).content = r.content := by
  rw [← r.content_switchMode m]
  rfl

lemma statusLoaded_withStatus (r : Registers) (h : m.bits = v &&& 0x1F) :
    r.StatusLoaded (r.withStatus m v) m v := by
  have hmode : (r.withStatus m v).mode = m := r.mode_switchMode m
  have hstatus : (r.withStatus m v).packStatus = v &&& 0xF00000FF :=
    packStatus_eq_and ((congrArg Mode.bits hmode).trans h) rfl rfl
  refine ⟨hmode, hstatus, rfl, r.content_withStatus m v, ?_⟩
  rw [← hstatus]
  exact loadStatus_packStatus_self _

end Registers

namespace Exec

variable {b : Board} {m : Mode} {v : Word}

lemma loadStatus_of_unnamed (h : ∀ m : Mode, m.bits ≠ v &&& 0x1F) :
    loadStatus v b = .error (.invalidMode (v &&& 0x1F)) b := by
  rw [loadStatus, b.core.regs.loadStatus_of_unnamed h]

lemma loadStatus_of_mode (b : Board) (h : m.bits = v &&& 0x1F) :
    ∃ b', loadStatus v b = .ok () b' ∧ b'.core.regs = b.core.regs.withStatus m v := by
  rw [loadStatus, b.core.regs.loadStatus_of_mode h]
  exact ⟨_, rfl, rfl⟩

end Exec

namespace Machine

/-- A debugger has written the status word: no copy of a register has changed, and the next
instruction stays where it was, rounded down to the width of the instructions. -/
structure StatusWritten (b b' : Board) (v : Word) : Prop where
  status : b'.core.regs.packStatus = v &&& 0xF00000FF
  content : b'.core.regs.content = b.core.regs.content
  nextAddress : Word.alignDown b.core.nextAddress b.core.width = b.core.nextAddress →
    b'.core.nextAddress = Word.alignDown b.core.nextAddress b'.core.width

variable {b b' : Board} {m : Mode} {v : Word}

lemma writeStatus_of_unnamed (h : ∀ m : Mode, m.bits ≠ v &&& 0x1F) :
    writeStatus v b = .error (.invalidMode (v &&& 0x1F)) b := by
  have hread : Exec.core (fun c => (c.nextAddress, c.regs.set)) b =
      .ok (b.core.nextAddress, b.core.regs.set) b := rfl
  exact (Exec.bind_of_ok hread).trans (Exec.bind_of_error (Exec.loadStatus_of_unnamed h))

/-- Writing the status word is loading it, and going to the next instruction again if the set has
changed. -/
lemma writeStatus_of_ok (h : Exec.loadStatus v b = .ok () b') :
    writeStatus v b = .ok () (if b'.core.regs.set = b.core.regs.set then b'
      else b'.mapCore (·.setPc b.core.nextAddress)) := by
  have hrun : writeStatus v b =
      (if b'.core.regs.set != b.core.regs.set then Exec.onCore (·.setPc b.core.nextAddress)
        else pure ()) b' := Exec.bind_of_ok h
  rw [hrun]
  by_cases hset : b'.core.regs.set = b.core.regs.set
  · rw [if_pos hset, hset, bne_self_eq_false]
    rfl
  · rw [if_neg hset, if_pos (bne_iff_ne.mpr hset)]
    rfl

lemma nextAddress_setPc (c : Core) (address : Word) :
    (c.setPc address).nextAddress = Word.alignDown address c.width := by
  show (c.regs.write .pc (Word.alignDown address c.width + c.width)).read .pc - c.width = _
  rw [Registers.read_write_self, UInt32.add_sub_cancel]

lemma writeStatus_of_mode (b : Board) (h : m.bits = v &&& 0x1F) :
    ∃ b', writeStatus v b = .ok () b' ∧ StatusWritten b b' v := by
  obtain ⟨b₁, hload, hregs⟩ := Exec.loadStatus_of_mode b h
  have hloaded := b.core.regs.statusLoaded_withStatus h
  rw [← hregs] at hloaded
  by_cases hset : b₁.core.regs.set = b.core.regs.set
  · have hpc : b₁.core.pc = b.core.pc := by
      show b₁.core.regs.read .pc = _
      rw [hloaded.regs]
      exact (b.core.regs.switchMode_unbanked m).1
    have hwidth : b₁.core.width = b.core.width := congrArg InstrSet.width hset
    refine ⟨b₁, ?_, hloaded.status, hloaded.content, fun haligned => ?_⟩
    · rw [writeStatus_of_ok hload, if_pos hset]
    · rw [hwidth, haligned, Core.nextAddress, hpc, hwidth]
      rfl
  · refine ⟨b₁.mapCore (·.setPc b.core.nextAddress), ?_, hloaded.status, ?_, fun _ => ?_⟩
    · rw [writeStatus_of_ok hload, if_neg hset]
    · rw [← hloaded.content]
      exact Registers.content_write_pc _ _
    · exact nextAddress_setPc b₁.core b.core.nextAddress

/-- A status word is loaded, and written by a debugger, exactly if its low five bits name a mode.
Then it is packed again without the bits that stand for nothing, and otherwise nothing changes.
Loading the status word that a register file has leaves it as it is. -/
theorem statusWord_round_trip (b : Board) (v : Word) :
    ((∃ fault, b.core.regs.loadStatus v = .error fault) ↔ ∀ m : Mode, m.bits ≠ v &&& 0x1F) ∧
      ((∀ m : Mode, m.bits ≠ v &&& 0x1F) →
        b.core.regs.loadStatus v = .error (.invalidMode (v &&& 0x1F)) ∧
          Exec.loadStatus v b = .error (.invalidMode (v &&& 0x1F)) b ∧
          writeRegister statusRegister v b = .error (.invalidMode (v &&& 0x1F)) b) ∧
      (∀ m : Mode, m.bits = v &&& 0x1F →
        (∃ s, b.core.regs.loadStatus v = .ok s ∧ b.core.regs.StatusLoaded s m v ∧
          ∃ b', Exec.loadStatus v b = .ok () b' ∧ b'.core.regs = s) ∧
        ∃ b', writeRegister statusRegister v b = .ok () b' ∧ StatusWritten b b' v) ∧
      b.core.regs.loadStatus b.core.regs.packStatus = .ok b.core.regs := by
  refine ⟨⟨?_, fun h => ⟨_, b.core.regs.loadStatus_of_unnamed h⟩⟩, fun h => ?_, fun m h => ?_,
    b.core.regs.loadStatus_packStatus_self⟩
  · rintro ⟨fault, h⟩
    exact (b.core.regs.loadStatus_eq_error_iff.mp h).2
  · exact ⟨b.core.regs.loadStatus_of_unnamed h, Exec.loadStatus_of_unnamed h,
      writeStatus_of_unnamed h⟩
  · exact ⟨⟨_, b.core.regs.loadStatus_of_mode h, b.core.regs.statusLoaded_withStatus h,
      Exec.loadStatus_of_mode b h⟩, writeStatus_of_mode b h⟩

/-- From Thumb instructions to ARM instructions: the next instruction is looked for at a multiple
of four. -/
theorem statusWord_round_trip_system :
    let b : Board := { core := { regs := ({ set := .thumb } : Registers).write .pc 0x104 } }
    Mode.system.bits = (0x1F : Word) &&& 0x1F ∧
      Word.alignDown b.core.nextAddress b.core.width = b.core.nextAddress ∧
      ∃ b', writeRegister statusRegister 0x1F b = .ok () b' ∧
        b'.core.regs.packStatus = 0x1F &&& 0xF00000FF ∧
        b'.core.nextAddress = Word.alignDown 0x102 b'.core.width := by
  intro b
  have haligned : Word.alignDown b.core.nextAddress b.core.width = b.core.nextAddress := by decide
  obtain ⟨-, b', hrun, hwritten⟩ := (statusWord_round_trip b 0x1F).2.2.1 .system rfl
  have hnext : b.core.nextAddress = 0x102 := by decide
  exact ⟨rfl, haligned, b', hrun, hwritten.status, hnext ▸ hwritten.nextAddress haligned⟩

end Machine

end Armv4T
