import Mathlib
import Armv4T.Proofs.Machine.Restore
import Armv4T.Runner.Run

/-!
# Two loops around the step

A machine is run by the debugger (`Machine.run`) and from the command line (`Runner.simulate`). Both
loops make up to a number of steps and stop at a breakpoint ahead of every step but the first. They
make the same steps, and leave the machine in the same state (`Machine.SameState`), with nothing but
the observers told differently. They also name the same reason for stopping, with one exception
(`Runner.stop_eq_ofReason_iff`): where the last step that is allowed leads to a breakpoint, the
debugger reports the breakpoint and the command line the number of steps
(`Runner.not_forall_stop_eq_ofReason`).
-/

namespace Armv4T

namespace Machine

/-- Two machines differ at most in what their observers know. -/
structure SameState (m m' : Machine) : Prop where
  board : m'.board = m.board
  breakpoints : m'.breakpoints = m.breakpoints
  totalCycles : m'.totalCycles = m.totalCycles
  observed : m'.observers.isEmpty = m.observers.isEmpty

namespace SameState

variable {m m' : Machine}

lemma refl (m : Machine) : m.SameState m := ⟨rfl, rfl, rfl, rfl⟩

/-- What observers are told changes nothing but what they know. -/
lemma notify (h : m.SameState m') (e e' : Event) : (m.notify e).SameState (m'.notify e') where
  board := h.board
  breakpoints := h.breakpoints
  totalCycles := h.totalCycles
  observed := by
    show (m'.observers.map _).isEmpty = (m.observers.map _).isEmpty
    rw [List.isEmpty_map, List.isEmpty_map, h.observed]

lemma notify_left (h : m.SameState m') (e : Event) : (m.notify e).SameState m' where
  board := h.board
  breakpoints := h.breakpoints
  totalCycles := h.totalCycles
  observed := by
    show _ = (m.observers.map _).isEmpty
    rw [List.isEmpty_map, h.observed]

lemma symm (h : m.SameState m') : m'.SameState m :=
  ⟨h.board.symm, h.breakpoints.symm, h.totalCycles.symm, h.observed.symm⟩

lemma setBoard (h : m.SameState m') (b : Board) :
    (m.mapBoard fun _ => b).SameState (m'.mapBoard fun _ => b) :=
  ⟨rfl, h.breakpoints, h.totalCycles, h.observed⟩

lemma account (h : m.SameState m') (before : UInt64) :
    (m.account before).SameState (m'.account before) := by
  obtain ⟨hboard, hbreakpoints, hcycles, hobserved⟩ := h
  have hcounted (spent : UInt64) : SameState { m with totalCycles := m.totalCycles + spent }
      { m' with totalCycles := m'.totalCycles + spent } :=
    ⟨hboard, hbreakpoints, congrArg (· + spent) hcycles, hobserved⟩
  obtain ⟨board, observers, breakpoints, cycles⟩ := m'
  subst hboard
  exact (hcounted _).notify (.stepEnded _) (.stepEnded _)

lemma atNextBreakpoint (h : m.SameState m') :
    m'.atBreakpoint m'.nextAddress = m.atBreakpoint m.nextAddress := by
  rw [atBreakpoint, atBreakpoint, nextAddress, nextAddress, h.breakpoints, h.board]

/-- The announcement of a step finishes or fails alike. -/
lemma announce (h : m.SameState m') :
    (∃ m₁ m₁', Machine.announce m = .ok () m₁ ∧ Machine.announce m' = .ok () m₁' ∧
      m₁.SameState m₁') ∨
    ∃ fault m₁ m₁', Machine.announce m = .error fault m₁ ∧
      Machine.announce m' = .error fault m₁' ∧ m₁.SameState m₁' := by
  have hsame : (m'.board.core.halted || m'.observers.isEmpty) =
      (m.board.core.halted || m.observers.isEmpty) := by
    rw [h.board, h.observed]
  rcases hquiet : m.board.core.halted || m.observers.isEmpty with _ | _
  · have hquiet' := hsame.trans hquiet
    rcases hcurrent : Exec.currentHandle m.board with ⟨e, b⟩ | ⟨fault, b⟩
    · have hcurrent' : Exec.currentHandle m'.board = .ok e b := by rwa [h.board]
      exact .inl ⟨_, _, announce_of_ok hquiet hcurrent, announce_of_ok hquiet' hcurrent',
        (h.setBoard b).notify _ _⟩
    · have hcurrent' : Exec.currentHandle m'.board = .error fault b := by rwa [h.board]
      exact .inr ⟨fault, _, _, announce_of_error hquiet hcurrent,
        announce_of_error hquiet' hcurrent', h.setBoard b⟩
  · exact .inl ⟨m, m', announce_of_quiet hquiet, announce_of_quiet (hsame.trans hquiet), h⟩

/-- What the observers know makes no difference to a step. -/
lemma step (h : m.SameState m') :
    (∃ m₁ m₁', Machine.step m = .ok () m₁ ∧ Machine.step m' = .ok () m₁' ∧ m₁.SameState m₁') ∨
      ∃ fault m₁ m₁', Machine.step m = .error fault m₁ ∧ Machine.step m' = .error fault m₁' ∧
        m₁.SameState m₁' := by
  rcases h.announce with ⟨m₁, m₁', hannounce, hannounce', h₁⟩ |
    ⟨fault, m₁, m₁', hannounce, hannounce', h₁⟩
  · have hstep := step_of_announce hannounce
    have hstep' := step_of_announce hannounce'
    rw [h₁.board] at hstep'
    rcases hrun : Exec.step m₁.board with ⟨⟨⟩, b⟩ | ⟨fault, b⟩
    · rw [hrun] at hstep hstep'
      exact .inl ⟨_, _, hstep, hstep', (h₁.setBoard b).account _⟩
    · rw [hrun] at hstep hstep'
      exact .inr ⟨fault, _, _, hstep, hstep', (h₁.setBoard b).account _⟩
  · exact .inr ⟨fault, m₁, m₁', step_of_announce_error hannounce,
      step_of_announce_error hannounce', h₁⟩

end SameState

variable {n : Word} {m m' : Machine}

lemma run_of_runFrom_ok {reason : StopReason} (h : runFrom n.toNat false m = .ok reason m') :
    run (some n) m = .ok reason (m'.notify .stopped) := by
  simp only [run, Option.map_some, Option.getD_some, h]

lemma run_of_runFrom_error {fault : Fault} (h : runFrom n.toNat false m = .error fault m') :
    run (some n) m = .error fault (m'.notify .stopped) := by
  simp only [run, Option.map_some, Option.getD_some, h]

end Machine

namespace Runner

open Machine (SameState runFrom step steps run_of_runFrom_ok run_of_runFrom_error)

/-- A loop has made the steps it is allowed, at least one, and the last of them has led to a
breakpoint. -/
def EndsAtBreakpoint (limit made : ℕ) (m : Machine) : Prop :=
  made = limit ∧ 0 < made ∧ m.atBreakpoint m.nextAddress = true

instance (limit made : ℕ) (m : Machine) : Decidable (EndsAtBreakpoint limit made m) :=
  inferInstanceAs (Decidable (made = limit ∧ 0 < made ∧ m.atBreakpoint m.nextAddress = true))

/-- After some finished steps, the two loops make the same number of further steps, `k`. Then they
stop on machines in the same state, or the next step fails for both. -/
lemma exists_steps (n finished : ℕ) {m m' : Machine} (h : m.SameState m') :
    ∃ k m₁ m₁', steps k m = .ok () m₁ ∧ m₁.SameState m₁' ∧
      ((∃ reason stop, runFrom n (0 < finished) m = .ok reason m₁ ∧
          simulateFrom n finished m' = (⟨stop, finished + k, none⟩, m₁') ∧
          (stop = .ofReason reason ↔ ¬EndsAtBreakpoint (finished + n) (finished + k) m₁)) ∨
        ∃ fault m₂ m₂', step m₁ = .error fault m₂ ∧ m₂.SameState m₂' ∧
          runFrom n (0 < finished) m = .error fault m₂ ∧
          simulateFrom n finished m' =
            (⟨.ofFault fault, finished + k, some fault.message⟩, m₂')) := by
  induction n generalizing finished m m' with
  | zero =>
    refine ⟨0, m, m', rfl, h, .inl ?_⟩
    unfold runFrom simulateFrom EndsAtBreakpoint
    split
    · rename_i hstop
      exact ⟨_, _, rfl, rfl, by simpa [RunStop.ofReason] using hstop⟩
    · rename_i hgo
      exact ⟨_, _, rfl, rfl, by simpa [RunStop.ofReason] using hgo⟩
  | succ n ih =>
    have hstop : (decide (0 < finished) && m'.atBreakpoint m'.nextAddress) =
        (decide (0 < finished) && m.atBreakpoint m.nextAddress) := by
      rw [h.atNextBreakpoint]
    unfold runFrom simulateFrom
    rw [hstop]
    split
    · refine ⟨0, m, m', rfl, h, .inl ⟨_, _, rfl, rfl, iff_of_true rfl ?_⟩⟩
      rintro ⟨hlast, -⟩
      omega
    · rcases h.step with ⟨m₀, m₀', hstep, hstep', h₀⟩ | ⟨fault, m₂, m₂', hstep, hstep', h₂⟩
      · obtain ⟨k, m₁, m₁', hsteps, h₁, hends⟩ := ih (finished + 1) h₀
        have hnext : decide (0 < finished + 1) = true := decide_eq_true finished.succ_pos
        have hmade : finished + 1 + k = finished + (k + 1) := by omega
        have hlimit : finished + 1 + n = finished + (n + 1) := by omega
        rw [hnext, hmade, hlimit] at hends
        refine ⟨k + 1, m₁, m₁', (Machine.steps_succ k hstep).trans hsteps, h₁, ?_⟩
        rw [hstep, hstep']
        exact hends
      · refine ⟨0, m, m', rfl, h, .inr ⟨fault, m₂, m₂', hstep, h₂, ?_⟩⟩
        rw [hstep, hstep']
        exact ⟨rfl, rfl⟩

/-- From every machine and for every limit, the debugger's run and the run from the command line
make the same number `k` of steps. Either the next step fails, and both report its fault, or they
stop after the `k` steps. In both cases they leave the same board, with its core and its memory, and
the same count of cycles. They stop for the same reason exactly if the last step that is allowed
does not lead to a breakpoint. -/
theorem stop_eq_ofReason_iff (n : Word) (m : Machine) :
    ∃ k m₁, steps k m = .ok () m₁ ∧ (simulate n.toNat m).1.steps = k ∧
      ((∃ reason, Machine.run (some n) m = .ok reason (m₁.notify .stopped) ∧
          (simulate n.toNat m).2.SameState (m₁.notify .stopped) ∧
          (simulate n.toNat m).1.message = none ∧
          ((simulate n.toNat m).1.stop = .ofReason reason ↔ ¬EndsAtBreakpoint n.toNat k m₁)) ∨
        ∃ fault m₂, step m₁ = .error fault m₂ ∧
          Machine.run (some n) m = .error fault (m₂.notify .stopped) ∧
          (simulate n.toNat m).2.SameState (m₂.notify .stopped) ∧
          (simulate n.toNat m).1.message = some fault.message ∧
          (simulate n.toNat m).1.stop = .ofFault fault) := by
  have hstart : m.SameState (m.notify .started) := ((SameState.refl m).notify_left .started).symm
  obtain ⟨k, m₁, m₁', hsteps, h₁, hends⟩ := exists_steps n.toNat 0 hstart
  rw [Nat.zero_add, Nat.zero_add] at hends
  refine ⟨k, m₁, hsteps, ?_⟩
  rcases hends with ⟨reason, stop, hrun, hsimulate, hiff⟩ |
    ⟨fault, m₂, m₂', hstep, h₂, hrun, hsimulate⟩
  · have hrun' : Machine.run (some n) m = .ok reason (m₁.notify .stopped) :=
      run_of_runFrom_ok hrun
    have hresult : simulate n.toNat m = (⟨stop, k, none⟩, m₁'.notify .stopped) := by
      rw [simulate, hsimulate]
    rw [hresult]
    exact ⟨rfl, .inl ⟨reason, hrun', h₁.symm.notify _ _, rfl, hiff⟩⟩
  · have hrun' : Machine.run (some n) m = .error fault (m₂.notify .stopped) :=
      run_of_runFrom_error hrun
    have hresult : simulate n.toNat m =
        (⟨.ofFault fault, k, some fault.message⟩, m₂'.notify .stopped) := by
      rw [simulate, hsimulate]
    rw [hresult]
    exact ⟨rfl, .inr ⟨fault, m₂, hstep, hrun', h₂.symm.notify _ _, rfl, rfl⟩⟩

/-- The only step that is allowed leads to a breakpoint. The debugger reports the breakpoint, the
command line the number of steps. -/
theorem not_forall_stop_eq_ofReason :
    ¬∀ (n : Word) (m m' : Machine) (reason : StopReason),
      Machine.run (some n) m = .ok reason m' →
        (simulate n.toNat m).1.stop = .ofReason reason := by
  intro hall
  let m := ((Machine.handheld [(0x03000000, 0xE3A00001)]).reset 0x03000000).addBreakpoint 0x03000004
  have hstop : (simulate (1 : Word).toNat m).1.stop = .maxSteps := by decide +kernel
  have hreason : (Machine.run (some 1)).run' m = some (.breakpoint 0x03000004) := by
    decide +kernel
  rcases hrun : Machine.run (some 1) m with ⟨reason, m'⟩ | ⟨fault, m'⟩
  · rw [EStateM.run', EStateM.run, hrun] at hreason
    have hsame := hstop.symm.trans (hall 1 m m' reason hrun)
    rw [Option.some.inj hreason] at hsame
    cases hsame
  · rw [EStateM.run', EStateM.run, hrun] at hreason
    cases hreason

end Runner

end Armv4T
