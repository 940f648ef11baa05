import Mathlib
import Armv4T.Proofs.Bus.Build
import Armv4T.Proofs.Machine.Requests
import Armv4T.Proofs.Machine.Transparent
import Armv4T.Proofs.Step.Caching

/-!
# The course of a run

The course of a run (`Machine.course`) lists, for every input, how the machine takes it and which
machine it leaves. Two machines that are related by a simulation take every input in the same way
and leave related machines, along every run (`Machine.sameCourse_of_simulation`).

A machine whose cache has room for every instruction keeps it, whatever it receives
(`Machine.roomy_receive`). On the bus of a valid map the cache has room (`Bus.Built.roomy`), and its
entries are decodings (`Bus.Built.genuine`).
-/

namespace Armv4T

/-- The cache of a new bus has room for every instruction. -/
lemma Bus.Built.roomy {bus : Bus} (hb : bus.Built) : bus.cache.Roomy where
  regular address := (hb.exists_layout address).1
  cell address := by
    obtain ⟨hregular, hregion⟩ := hb.exists_layout address
    refine ⟨none, ?_, by simp⟩
    rw [InstructionCache.cell?, hregion]
    show (Array.replicate _ none)[_]? = _
    rw [Array.getElem?_replicate, if_pos (hregular.pageIndex_lt address)]

/-- The cache of a new bus has no entries, so what it has are decodings. -/
lemma Bus.Built.genuine {bus : Bus} (hb : bus.Built) : bus.cache.Genuine :=
  InstructionCache.genuine_of_dead hb.get?_eq_none

namespace Machine

/-- The fault that stops an input, if any. -/
def refusal? (m : Machine) : Input → Option Fault
  | .command c => m.fault? c
  | .writeRegister id value =>
    match writeRegister id value m.board with
    | .ok _ _ => none
    | .error fault _ => some fault
  | _ => none

/-- For every input of a run, the fault that stops it, if any, and the machine after it. -/
def course (m : Machine) : List Input → List (Option Fault × Machine)
  | [] => []
  | i :: inputs => (m.refusal? i, m.receive i) :: (m.receive i).course inputs

/-- Along a run, two machines take every input in the same way, and the machines that they leave are
related. -/
def SameCourse (R : Machine → Machine → Prop) (inputs : List Input) (m m' : Machine) : Prop :=
  List.Forall₂ (fun p q => q.1 = p.1 ∧ R p.2 q.2) (m.course inputs) (m'.course inputs)

variable {R : Machine → Machine → Prop} {m m' : Machine}

/-- Machines that are related take the same course, if every input leaves such machines. -/
theorem sameCourse_of_simulation
    (hR : ∀ m m' i, R m m' → m'.refusal? i = m.refusal? i ∧ R (m.receive i) (m'.receive i))
    (h : R m m') (inputs : List Input) : SameCourse R inputs m m' := by
  induction inputs generalizing m m' with
  | nil => exact .nil
  | cons i inputs ih =>
    obtain ⟨hrefusal, hnext⟩ := hR m m' i h
    exact .cons ⟨hrefusal, hnext⟩ (ih hnext)

/-! ### The cache along a run -/

lemma caches_announce (m : Machine) : m.board.Caches (after announce m).board := by
  have hcaches := Exec.caches_currentHandle m.board
  unfold after
  rcases hquiet : m.board.core.halted || m.observers.isEmpty with _ | _
  · rcases hcurrent : Exec.currentHandle m.board with ⟨e, b⟩ | ⟨fault, b⟩
    · rw [Exec.after_of_ok hcurrent] at hcaches
      rw [announce_of_ok hquiet hcurrent]
      exact hcaches
    · rw [Exec.after_of_error hcurrent] at hcaches
      rw [announce_of_error hquiet hcurrent]
      exact hcaches
  · rw [announce_of_quiet hquiet]
    exact .of_bus_eq rfl

lemma caches_step (m : Machine) : m.board.Caches (m.perform .step).board := by
  have hcaches := m.caches_announce
  rcases hannounce : announce m with ⟨⟨⟩, m₁⟩ | ⟨fault, m₁⟩
  · rw [after, hannounce] at hcaches
    rw [perform_of_announce hannounce]
    exact Board.Caches.trans hcaches (Exec.caches_step m₁.board)
  · rw [after, hannounce] at hcaches
    rw [perform_of_announce_error hannounce]
    exact hcaches

/-- Writing a register does not touch the bus. -/
lemma bus_writeRegister (id value : Word) :
    Exec.Establishes (fun b b' => b'.bus = b.bus) (writeRegister id value) := by
  let Same (b b' : Board) : Prop := b'.bus = b.bus
  have htrans {b b' b'' : Board} (h : Same b b') (h' : Same b' b'') : Same b b'' := h'.trans h
  have hload : Exec.Establishes Same (Exec.loadStatus value) := by
    intro b
    unfold Exec.after Exec.loadStatus
    cases b.core.regs.loadStatus value <;> rfl
  have hseq {α β : Type} {x : Exec α} {f : α → Exec β} (hx : Exec.Establishes Same x)
      (hf : ∀ a, Exec.Establishes Same (f a)) : Exec.Establishes Same (x >>= f) :=
    .seq (R := Same) htrans hx hf
  unfold writeRegister writeStatus
  refine .ite (hseq (fun _ => rfl) fun before => ?_) (.ite (fun _ => rfl) fun _ => rfl)
  refine hseq hload fun _ => hseq (fun _ => rfl) fun set => ?_
  exact .ite (fun _ => rfl) fun _ => rfl

/-- Whatever a machine receives, what is done to its cache are operations on it. -/
lemma caches_receive (m : Machine) (i : Input) : m.board.Caches (m.receive i).board := by
  cases i with
  | command c =>
    cases c with
    | step => exact m.caches_step
    | request line =>
      refine .of_bus_eq ?_
      show (m.board.request line).bus = _
      unfold Board.request
      split <;> rfl
    | acknowledge mask => exact .of_bus_eq rfl
  | setMaster on => exact .of_bus_eq rfl
  | setEnabled mask => exact .of_bus_eq rfl
  | writeRegister id value =>
    rw [receive, board_after_onBoard]
    exact .of_bus_eq (bus_writeRegister id value m.board)
  | reset entry => exact .operate m.board.bus.cache .clear trivial

lemma roomy_receive (h : m.board.bus.cache.Roomy) (i : Input) :
    (m.receive i).board.bus.cache.Roomy :=
  (m.caches_receive i).roomy h

/-- A program of the handheld is stored in memory. -/
lemma reaches_handheld (program : List (Word × Word)) :
    Bus.handheld.cache.Reaches (handheld program).board.bus.cache := by
  have hstores (bus : Bus) : bus.cache.Reaches
      (program.foldl (fun bus word => bus.store .word word.1 word.2) bus).cache := by
    induction program generalizing bus with
    | nil => exact .refl _
    | cons word program ih => exact (Exec.reaches_store bus .word word.1 word.2).trans (ih _)
  exact hstores .handheld

/-- What is stored in memory leaves the room in the cache of the handheld. -/
lemma roomy_handheld (program : List (Word × Word)) :
    (handheld program).board.bus.cache.Roomy :=
  (reaches_handheld program).roomy Bus.built_handheld.roomy

lemma genuine_handheld (program : List (Word × Word)) :
    (handheld program).board.bus.cache.Genuine :=
  (reaches_handheld program).genuine Bus.built_handheld.genuine

end Machine

end Armv4T
