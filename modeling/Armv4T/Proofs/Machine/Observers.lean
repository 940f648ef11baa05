import Mathlib
import Armv4T.Proofs.Machine.Course

/-!
# Observers do not perturb the machine

Observers are told of the next instruction ahead of its step, for which it is fetched early. The
step then finds what was fetched, and does what it would have done without observers
(`Exec.step_of_currentHandle`); this needs that the cache has room for what is fetched. If the fetch
fails then the step would have failed in the same way. So a machine with observers and the same
machine without them take the same course (`Machine.course_observedBy`): steps end in the same way,
and everything but the observers is equal after every input.
-/

namespace Armv4T

namespace Exec

variable {b b' : Board} {h : Handle}

/-- Finding the current instruction early does not change the step. -/
lemma step_of_currentHandle (hroomy : b.bus.cache.Roomy) (hrunning : b.core.halted = false)
    (hcurrent : currentHandle b = .ok h b') : step b' = step b := by
  have hbare := quiet_currentHandle.bare hcurrent
  have hrunning' : b'.core.halted = false :=
    (Board.core_of_bare hbare Core.halted fun _ => rfl).trans hrunning
  have hexecute : executeNext b' = executeNext b := by
    rw [executeNext_apply, executeNext_apply, bind_of_ok hcurrent,
      bind_of_ok (currentHandle_again hroomy hcurrent)]
  have hstep {b : Board} (hrunning : b.core.halted = false) :
      step b = (executeNext >>= fun _ => update Board.updateInterrupts) b := by
    rw [step_apply, hrunning]
    rfl
  rw [hstep hrunning, hstep hrunning']
  show EStateM.bind _ _ b' = EStateM.bind _ _ b
  rw [EStateM.bind, EStateM.bind, hexecute]

/-- A step fails if its instruction cannot be found. -/
lemma step_of_currentHandle_error {fault : Fault} (hrunning : b.core.halted = false)
    (hcurrent : currentHandle b = .error fault b') : step b = .error fault b' := by
  rw [step_apply, hrunning]
  exact bind_of_error (bind_of_error hcurrent)

end Exec

namespace Machine

/-- The machine with other observers. -/
def observedBy (m : Machine) (observers : List Observer) : Machine := { m with observers }

variable {m : Machine}

/-- Where no cycles have passed and nobody is told, accounting changes nothing. -/
lemma account_of_unchanged (hobservers : m.observers = []) :
    m.account m.board.core.cycles = m := by
  obtain ⟨board, observers, breakpoints, totalCycles⟩ := m
  obtain rfl : observers = [] := hobservers
  have hspent : (if board.core.cycles < board.core.cycles then 0
      else board.core.cycles - board.core.cycles) = 0 := by
    rw [UInt64.sub_self, ite_self]
  show (⟨board, [], breakpoints, totalCycles + _⟩ : Machine) = _
  rw [hspent, UInt64.add_zero]

/-- A step ends in the same way without observers, and leaves the same machine but for them. -/
lemma step_observedBy_nil (hroomy : m.board.bus.cache.Roomy) :
    (∃ m₁, step m = .ok () m₁ ∧ step (m.observedBy []) = .ok () (m₁.observedBy [])) ∨
      ∃ fault m₁, step m = .error fault m₁ ∧
        step (m.observedBy []) = .error fault (m₁.observedBy []) := by
  have halone := step_of_announce (announce_of_quiet (m := m.observedBy []) (Bool.or_true _))
  have hboard : (m.observedBy []).board = m.board := rfl
  rw [hboard] at halone
  rcases hquiet : m.board.core.halted || m.observers.isEmpty with _ | _
  · have hrunning : m.board.core.halted = false := (Bool.or_eq_false_iff.mp hquiet).1
    rcases hcurrent : Exec.currentHandle m.board with ⟨e, b⟩ | ⟨fault, b⟩
    · have hcycles : b.core.cycles = m.board.core.cycles :=
        Board.core_of_bare (Exec.quiet_currentHandle.bare hcurrent) Core.cycles fun _ => rfl
      have hwatched := step_of_announce (announce_of_ok hquiet hcurrent)
      have hboard' : ((m.mapBoard fun _ => b).notify (.stepStarted e.address e.opcode)).board = b :=
        rfl
      rw [hboard', hcycles, Exec.step_of_currentHandle hroomy hrunning hcurrent] at hwatched
      rcases hrun : Exec.step m.board with ⟨⟨⟩, b'⟩ | ⟨fault, b'⟩
      · rw [hrun] at hwatched halone
        exact .inl ⟨_, hwatched, halone⟩
      · rw [hrun] at hwatched halone
        exact .inr ⟨fault, _, hwatched, halone⟩
    · -- the early fetch fails as the one of the step does, and no cycle has passed
      have hcycles : b.core.cycles = m.board.core.cycles :=
        Board.core_of_bare (Exec.after_of_error hcurrent ▸ Exec.quiet_currentHandle.unchanged _)
          Core.cycles fun _ => rfl
      rw [Exec.step_of_currentHandle_error hrunning hcurrent] at halone
      have hnothing : ((m.observedBy []).mapBoard fun _ => b).account m.board.core.cycles =
          (m.observedBy []).mapBoard fun _ => b := by
        rw [← hcycles]
        exact account_of_unchanged rfl
      refine .inr ⟨fault, _, step_of_announce_error (announce_of_error hquiet hcurrent), ?_⟩
      exact halone.trans (congrArg (EStateM.Result.error fault) hnothing)
  · have hwatched := step_of_announce (announce_of_quiet hquiet)
    rcases hrun : Exec.step m.board with ⟨⟨⟩, b'⟩ | ⟨fault, b'⟩
    · rw [hrun] at hwatched halone
      exact .inl ⟨_, hwatched, halone⟩
    · rw [hrun] at hwatched halone
      exact .inr ⟨fault, _, hwatched, halone⟩

/-- Without observers, an input is taken in the same way, and leaves the same machine but for
them. -/
lemma receive_observedBy_nil (hroomy : m.board.bus.cache.Roomy) (i : Input) :
    (m.observedBy []).refusal? i = m.refusal? i ∧
      (m.observedBy []).receive i = (m.receive i).observedBy [] := by
  cases i with
  | command c =>
    cases c with
    | step =>
      show (m.observedBy []).fault? .step = m.fault? .step ∧
        after step (m.observedBy []) = (after step m).observedBy []
      unfold fault? after
      rcases step_observedBy_nil hroomy with ⟨m₁, hstep, hstep'⟩ | ⟨fault, m₁, hstep, hstep'⟩
      · rw [hstep, hstep']
        exact ⟨rfl, rfl⟩
      · rw [hstep, hstep']
        exact ⟨rfl, rfl⟩
    | request | acknowledge => exact ⟨rfl, rfl⟩
  | setMaster | setEnabled | reset => exact ⟨rfl, rfl⟩
  | writeRegister id value =>
    refine ⟨rfl, ?_⟩
    obtain ⟨board, observers, breakpoints, totalCycles⟩ := m
    show after (onBoard (writeRegister id value)) ⟨board, [], breakpoints, totalCycles⟩ =
      (after (onBoard (writeRegister id value)) ⟨board, observers, _, _⟩).observedBy []
    simp only [after, onBoard]
    rcases writeRegister id value board with ⟨⟨⟩, b⟩ | ⟨fault, b⟩ <;> rfl

/-- Without observers, a run takes the same course, but for them. -/
lemma course_observedBy_nil (hroomy : m.board.bus.cache.Roomy) (inputs : List Input) :
    (m.course inputs).map (fun p => (p.1, p.2.observedBy [])) =
      (m.observedBy []).course inputs := by
  induction inputs generalizing m with
  | nil => rfl
  | cons i inputs ih =>
    obtain ⟨hrefusal, hreceive⟩ := receive_observedBy_nil hroomy i
    rw [course, course, List.map_cons, ih (roomy_receive hroomy i), hrefusal, hreceive]

/-- Observers do not perturb the machine. Whatever it receives, it takes every input in the same way
with any observers and without, and after every input everything but the observers is the same: the
core, memory, the cache with its count, the interrupt lines and the count of all cycles. This holds
of every machine whose cache has room for every instruction, as that of a new bus has, and with
decodings cached or not. -/
theorem course_observedBy (hroomy : m.board.bus.cache.Roomy) (observers : List Observer)
    (inputs : List Input) :
    ((m.observedBy observers).course inputs).map (fun p => (p.1, p.2.observedBy [])) =
      (m.observedBy []).course inputs := by
  have hroomy' : (m.observedBy observers).board.bus.cache.Roomy := hroomy
  exact course_observedBy_nil hroomy' inputs

/-- A step that is fetched early by a recorder, a failing one, and one of a halted core. -/
theorem course_observedBy_failing :
    let m := (handheld [(0x03000000, 0xE3A00001), (0x03000004, 0xEE000000)]).reset 0x03000000
    let inputs : List Input := [.command .step, .command .step, .command (.request 3)]
    m.board.bus.cache.Roomy ∧
      ((m.observedBy [.recorder #[], .metrics {}]).course inputs).map
        (fun p => (p.1, p.2.observedBy [])) = (m.observedBy []).course inputs := by
  have hroomy (program : List (Word × Word)) :
      ((handheld program).reset 0x03000000).board.bus.cache.Roomy :=
    roomy_receive (roomy_handheld program) (.reset 0x03000000)
  exact ⟨hroomy _, course_observedBy (hroomy _) _ _⟩

end Machine

end Armv4T
