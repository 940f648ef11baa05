import Mathlib
import Armv4T.Proofs.Exec.Stores
import Armv4T.Proofs.Machine.Course

/-!
# The stores of a step

A step issues the stores of the instruction that it finds (`Board.issued`), and changes nothing else
in memory: neither the search for the instruction, nor the way to its successor, nor the look at the
interrupts writes any (`Exec.issues_step`). The same holds of a step of the machine, whose observers
may have the instruction fetched early (`Machine.wrote_step`).
-/

namespace Armv4T

/-- The targets of the stores that the next step issues: those of the next instruction, which finds
the program counter moved on. A halted core executes none, and neither does one that cannot fetch
it. -/
def Board.issued (b : Board) : List Target :=
  if b.core.halted then []
  else
    match Exec.currentHandle b with
    | .ok h _ => h.instruction.targets (Exec.pipelined h.set b.core).regs
    | .error _ _ => []

namespace Exec

/-- What follows the search for an instruction issues the stores of the instruction. -/
lemma issues_found (h : Handle) (r : Registers) :
    Issues (do onCore (pipelined h.set); instruction h; advance h) r (fun _ => True)
      (h.instruction.targets (pipelined h.set { regs := r }).regs) := by
  have hpipelined (bus : Bus) : Transfers (onCore (pipelined h.set)) bus r ()
      (pipelined h.set { regs := r }).regs [] := by
    rintro b - rfl
    exact ⟨_, rfl, rfl, rfl, rfl, rfl⟩
  have hadvance (s : Registers) : Issues (advance h) s (fun _ => True) [] :=
    .of_establishes (establishes_advance passage_sameMemory rfl h) s
  have hrest := (issues_instruction h (pipelined h.set { regs := r }).regs).bind
    fun _ _ => hadvance
  rw [List.append_nil] at hrest
  exact .before hpipelined hrest

lemma issues_executeNext {b : Board} (hrunning : b.core.halted = false) :
    IssuesFrom executeNext b (fun _ => True) b.issued := by
  have hissued : b.issued = match currentHandle b with
      | .ok h _ => h.instruction.targets (pipelined h.set b.core).regs
      | .error _ _ => [] := by
    rw [Board.issued, hrunning]
    rfl
  rw [hissued, executeNext_eq]
  rcases hcurrent : currentHandle b with ⟨h, b₁⟩ | ⟨fault, b₁⟩
  · have hbare := quiet_currentHandle.bare hcurrent
    exact .seq hcurrent (.of_bare hbare)
      (issues_found h b.core.regs b₁ (Board.regs_of_bare hbare))
  · have hbare : b₁.bare = b.bare := after_of_error hcurrent ▸ quiet_currentHandle.unchanged b
    exact .inr ⟨fault, b₁, [], bind_of_error hcurrent, List.prefix_rfl, .of_bare hbare⟩

/-- A step issues the stores of its instruction and changes nothing else in memory, whether it
finishes or stops with a fault. -/
theorem issues_step (b : Board) : IssuesFrom step b (fun _ => True) b.issued := by
  have hupdate (b : Board) : IssuesFrom (update Board.updateInterrupts) b (fun _ => True) [] :=
    .inl ⟨(), _, rfl, trivial, .of_bus_eq b.updateInterrupts_keeps.1⟩
  have hexecute : IssuesFrom (if b.core.halted then pure () else executeNext) b (fun _ => True)
      b.issued := by
    cases hhalted : b.core.halted with
    | true =>
      have hnone : b.issued = [] := by rw [Board.issued, if_pos hhalted]
      rw [hnone]
      exact .inl ⟨(), b, rfl, trivial, .of_bus_eq rfl⟩
    | false => exact issues_executeNext hhalted
  have hstep := hexecute.bind fun _ b' _ => hupdate b'
  rw [List.append_nil] at hstep
  unfold IssuesFrom at hstep ⊢
  rwa [step_apply]

end Exec

namespace Machine

/-- The targets of the stores that the next step of a machine issues. -/
def issued (m : Machine) : List Target :=
  match announce m with
  | .ok _ m => m.board.issued
  | .error _ _ => []

/-- A step changes memory by stores to the first of its targets, and to all of them if it does not
stop with a fault. -/
theorem wrote_step (m : Machine) :
    ∃ done, done <+: m.issued ∧ (m.fault? .step = none → done = m.issued) ∧
      m.board.Wrote (m.perform .step).board done := by
  unfold issued fault? perform after
  rcases m.announce_cases with ⟨m₁, hannounce, hbare⟩ | ⟨fault, m₁, hannounce, hbare⟩
  · have hsame : m.board.Wrote m₁.board [] := .of_bare hbare
    rw [hannounce, step_of_announce hannounce]
    rcases Exec.issues_step m₁.board with ⟨_, b, hrun, -, hwrote⟩ |
      ⟨fault, b, done, hrun, hdone, hwrote⟩
    · rw [hrun]
      exact ⟨_, List.prefix_rfl, fun _ => rfl, hsame.trans hwrote⟩
    · rw [hrun]
      exact ⟨done, hdone, nofun, hsame.trans hwrote⟩
  · rw [hannounce, step_of_announce_error hannounce]
    exact ⟨[], List.prefix_rfl, nofun, .of_bare hbare⟩

end Machine

end Armv4T
