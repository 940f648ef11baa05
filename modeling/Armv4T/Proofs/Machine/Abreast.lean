import Mathlib
import Armv4T.Proofs.Machine.Observers
import Armv4T.Proofs.Step.Abreast

/-!
# Runs of machines abreast

Two machines without observers are abreast (`Machine.Abreast`) if their boards are and they have
counted the same cycles. Such machines look the same. If what they remember of decodings leads them
to the same instructions, then they take every input in the same way, and it leaves them abreast
(`Machine.receive_abreast`). So they look the same along every run
(`Machine.sameCourse_of_abreast`), and observers may be added again
(`Machine.SameCourse.of_observedBy_nil`).
-/

namespace Armv4T.Machine

open Board (Abreast)
open Exec (Concur Finds Respects)
open Remembered (Tenable)

/-- Two machines without observers have boards abreast and the same count of all cycles. -/
structure Abreast (T : Remembered → Remembered → Prop) (m m' : Machine) : Prop where
  board : m.board.Abreast false T m'.board
  observers : m.observers = []
  observers' : m'.observers = []
  totalCycles : m'.totalCycles = m.totalCycles

variable {T : Remembered → Remembered → Prop} {H : Handle → Handle → Prop} {m m' : Machine}

namespace Abreast

/-- What differs between machines abreast cannot be seen. -/
lemma looksLike (h : m.Abreast T m') : m.LooksLike m' := by
  refine ⟨?_, fun address => h.board.memory.peek .byte address⟩
  have hcore : m'.board.core.snapshot = m.board.core.snapshot := by
    unfold Core.snapshot
    rw [h.board.regs, h.board.cycles, h.board.halted]
  rw [snapshot, snapshot, hcore, h.totalCycles]

/-- There are no observers to tell. -/
lemma notify (h : m.Abreast T m') (e e' : Event) : (m.notify e).Abreast T (m'.notify e') where
  board := h.board
  observers := by
    show m.observers.map _ = []
    rw [h.observers]
    rfl
  observers' := by
    show m'.observers.map _ = []
    rw [h.observers']
    rfl
  totalCycles := h.totalCycles

/-- The cycles of a step are accounted for in the same way. -/
lemma account (h : m.Abreast T m') (before : UInt64) :
    (m.account before).Abreast T (m'.account before) := by
  have hcounted (spent : UInt64) : Abreast T { m with totalCycles := m.totalCycles + spent }
      { m' with totalCycles := m'.totalCycles + spent } :=
    ⟨h.board, h.observers, h.observers', congrArg (· + spent) h.totalCycles⟩
  unfold Machine.account
  rw [h.board.cycles]
  exact (hcounted _).notify _ _

lemma setBoard (h : m.Abreast T m') {b c : Board} (hbc : b.Abreast false T c) :
    (m.mapBoard fun _ => b).Abreast T (m'.mapBoard fun _ => c) :=
  ⟨hbc, h.observers, h.observers', h.totalCycles⟩

/-- A step ends in the same way on machines abreast, and leaves them abreast. -/
lemma step (hT : Finds T H) (h : m.Abreast T m') :
    (∃ m₁ m₁', Machine.step m = .ok () m₁ ∧ Machine.step m' = .ok () m₁' ∧ m₁.Abreast T m₁') ∨
      ∃ fault m₁ m₁', Machine.step m = .error fault m₁ ∧ Machine.step m' = .error fault m₁' ∧
        m₁.Abreast T m₁' := by
  have hquiet : (m.board.core.halted || m.observers.isEmpty) = true := by
    rw [h.observers, List.isEmpty_nil, Bool.or_true]
  have hquiet' : (m'.board.core.halted || m'.observers.isEmpty) = true := by
    rw [h.observers', List.isEmpty_nil, Bool.or_true]
  have hstep := step_of_announce (announce_of_quiet hquiet)
  have hstep' := step_of_announce (announce_of_quiet hquiet')
  have hconcur := Exec.concur_step hT h.board
  rw [h.board.cycles] at hstep'
  rcases hrun : Exec.step m.board with ⟨⟨⟩, b⟩ | ⟨fault, b⟩ <;>
    rcases hrun' : Exec.step m'.board with ⟨⟨⟩, c⟩ | ⟨fault', c⟩ <;>
    rw [hrun, hrun'] at hconcur <;> cases hconcur
  all_goals
    rw [hrun] at hstep
    rw [hrun'] at hstep'
  · exact .inl ⟨_, _, hstep, hstep', (h.setBoard ‹_›).account _⟩
  · exact .inr ⟨fault, _, _, hstep, hstep', (h.setBoard ‹_›).account _⟩

end Abreast

/-! ### Registers written from outside -/

lemma respects_writeRegister (hT : Tenable T) (id value : Word) :
    Respects (Board.Abreast false T) (writeRegister id value) := by
  have hread {α : Type} (f : Core → α) (hf : ∀ c, f c = f { regs := c.regs }) :
      Respects (Board.Abreast false T) (Exec.core f) := by
    intro b c h
    show Agree _ (.ok (f b.core) b) (.ok (f c.core) c)
    rw [h.eq_of_regs f hf]
    exact .ok _ h
  have hpc (address : Word) :
      Respects (Board.Abreast false T) (Exec.onCore (·.setPc address)) := fun b c h =>
    .ok () { h with
      regs := h.eq_of_regs (fun x => (x.setPc address).regs) fun _ => rfl
      remembered := hT.forget h.remembered }
  have hset : Respects (Board.Abreast false T) (Exec.setReg (.ofWord id) value) := fun b c h =>
    .ok () { h with
      regs := h.eq_of_regs (fun x => (x.setReg (.ofWord id) value).regs) fun _ => rfl }
  unfold writeRegister writeStatus
  split
  · refine Exec.matches_bind (hread _ fun _ => rfl) fun before => ?_
    refine Exec.matches_bind (Exec.respects_loadStatus hT value) fun _ => ?_
    refine Exec.matches_bind (hread _ fun _ => rfl) fun set => ?_
    split
    · exact hpc _
    · exact fun b c h => .ok () h
  · split
    · exact hpc value
    · exact hset

/-! ### Runs -/

/-- Machines abreast take an input in the same way, and it leaves them abreast. -/
theorem receive_abreast (hT : Finds T H) (h : m.Abreast T m') (i : Input) :
    m'.refusal? i = m.refusal? i ∧ (m.receive i).Abreast T (m'.receive i) := by
  have hlines (f : InterruptLines → InterruptLines) :
      (m.mapBoard (·.mapIrq f)).Abreast T (m'.mapBoard (·.mapIrq f)) :=
    ⟨h.board.mapIrq f, h.observers, h.observers', h.totalCycles⟩
  cases i with
  | command c =>
    cases c with
    | step =>
      unfold refusal? fault? receive perform after
      rcases h.step hT with ⟨m₁, m₁', hstep, hstep', h₁⟩ | ⟨fault, m₁, m₁', hstep, hstep', h₁⟩
      · rw [hstep, hstep']
        exact ⟨rfl, h₁⟩
      · rw [hstep, hstep']
        exact ⟨rfl, h₁⟩
    | request line =>
      refine ⟨rfl, ?_, h.observers, h.observers', h.totalCycles⟩
      show (m.board.request line).Abreast false T (m'.board.request line)
      unfold Board.request
      split
      · exact (h.board.mapIrq _).testIrq
      · exact h.board.note? (some _) (some _)
    | acknowledge mask => exact ⟨rfl, hlines _⟩
  | setMaster on => exact ⟨rfl, hlines _⟩
  | setEnabled mask => exact ⟨rfl, hlines _⟩
  | writeRegister id value =>
    have hwrite := respects_writeRegister hT.toTenable id value _ _ h.board
    simp only [refusal?, receive, after]
    rcases hrun : writeRegister id value m.board with ⟨⟨⟩, b⟩ | ⟨fault, b⟩ <;>
      rcases hrun' : writeRegister id value m'.board with ⟨⟨⟩, c⟩ | ⟨fault', c⟩ <;>
      rw [hrun, hrun'] at hwrite <;> cases hwrite
    · rw [onBoard_of_ok hrun, onBoard_of_ok hrun']
      exact ⟨rfl, h.setBoard ‹_›⟩
    · rw [onBoard_of_error hrun, onBoard_of_error hrun']
      exact ⟨rfl, h.setBoard ‹_›⟩
  | reset entry =>
    refine ⟨rfl, ?_⟩
    show (m.reset entry).Abreast T (m'.reset entry)
    unfold reset
    refine Abreast.notify ?_ .started .started
    refine ⟨?_, h.observers, h.observers', rfl⟩
    exact
      { regs := rfl, cycles := rfl, halted := rfl, passed := fun _ => rfl,
        memory := ⟨h.board.memory.wiring, h.board.memory.sizes, h.board.memory.contents⟩,
        irq := congrArg InterruptLines.clear h.board.irq,
        remembered := hT.forget (hT.clear h.board.remembered) }

/-- Machines abreast look the same along every run. -/
theorem sameCourse_of_abreast (hT : Finds T H) (h : m.Abreast T m') (inputs : List Input) :
    SameCourse LooksLike inputs m m' := by
  have hcourse := sameCourse_of_simulation (fun _ _ i h => receive_abreast hT h i) h inputs
  exact hcourse.imp fun _ _ h => ⟨h.1, h.2.looksLike⟩

/-- Machines that look the same without observers look the same with any. -/
lemma SameCourse.of_observedBy_nil {inputs : List Input} (hm : m.board.bus.cache.Roomy)
    (hm' : m'.board.bus.cache.Roomy)
    (h : SameCourse LooksLike inputs (m.observedBy []) (m'.observedBy [])) :
    SameCourse LooksLike inputs m m' := by
  rw [SameCourse, ← course_observedBy_nil hm, ← course_observedBy_nil hm',
    List.forall₂_map_left_iff, List.forall₂_map_right_iff] at h
  exact h.imp fun _ _ h => ⟨h.1, h.2.snapshot, h.2.memory⟩

end Armv4T.Machine
