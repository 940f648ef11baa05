import Mathlib
import Armv4T.Machine.Basic
import Armv4T.Proofs.Step.Execute

/-!
# Running a machine

A machine is driven by steps and by what devices do to the interrupt lines in between
(`Machine.Command`). The points at which it fetches (`Machine.fetches`) are those where its steps
start, and those where execution continues after the instruction, since the successor is fetched
ahead; an interrupt may then go somewhere else.

`Machine.step_spec` is the step lemma of everything that follows: on a board in step, with a tidy
cache, a step whose fetches stay in a set of points without shared slots leaves such a board, unless
it fails.
-/

namespace Armv4T

namespace Board

variable {F : Set Point} {I : Bus → Prop}

/-- Looking at the interrupts changes nothing on the bus. Where it redirects execution it forgets
the current decoding. -/
lemma updateInterrupts_keeps (b : Board) :
    b.updateInterrupts.bus = b.bus ∧
      b.updateInterrupts.core.cacheEnabled = b.core.cacheEnabled ∧
      (b.updateInterrupts.core.current = none ∨
        b.updateInterrupts.core.current = b.core.current ∧
          b.updateInterrupts.core.point = b.core.point) := by
  have hraise : ∀ b : Board, b.raiseIrq.bus = b.bus ∧
      b.raiseIrq.core.cacheEnabled = b.core.cacheEnabled ∧
      (b.raiseIrq.core.current = none ∨
        b.raiseIrq.core.current = b.core.current ∧ b.raiseIrq.core.point = b.core.point) := by
    intro b
    unfold raiseIrq
    split
    · exact ⟨rfl, rfl, .inr ⟨rfl, rfl⟩⟩
    · exact ⟨rfl, rfl, .inl rfl⟩
  have hwake : b.wake.bus = b.bus ∧ b.wake.core.cacheEnabled = b.core.cacheEnabled ∧
      b.wake.core.current = b.core.current ∧ b.wake.core.point = b.core.point := by
    rcases b.wake_cases with h | h <;> rw [h] <;> exact ⟨rfl, rfl, rfl, rfl⟩
  obtain ⟨hbus, henabled, hcurrent, hpoint⟩ := hwake
  rw [updateInterrupts_eq]
  split
  · obtain ⟨hbus', henabled', hcurrent'⟩ := hraise (b.wake.mapIrq ({ · with armed := false }))
    exact ⟨hbus'.trans hbus, henabled'.trans henabled,
      hcurrent'.imp_right fun h => ⟨h.1.trans hcurrent, h.2.trans hpoint⟩⟩
  · exact ⟨hbus, henabled, .inr ⟨hcurrent, hpoint⟩⟩

lemma sustained_updateInterrupts (b : Board) : Sustained F I b b.updateInterrupts := by
  obtain ⟨hbus, henabled, -⟩ := b.updateInterrupts_keeps
  exact ⟨by rw [hbus], henabled, by rw [hbus]; exact id,
    fun _ => by rw [hbus]; exact id⟩

lemma Synced.updateInterrupts {b : Board} (h : b.Synced) : b.updateInterrupts.Synced := by
  obtain ⟨hbus, -, hcurrent⟩ := b.updateInterrupts_keeps
  intro id e hid hget
  rcases hcurrent with hnone | ⟨hsame, hpoint⟩
  · exact nomatch hnone.symm.trans hid
  · rw [hbus] at hget
    rw [hpoint]
    exact h id e (hsame.symm.trans hid) hget

end Board

namespace Machine

/-- What happens to a running machine: a step, a request on an interrupt line, or the withdrawal of
requests. -/
inductive Command
  | step
  | request (line : Word)
  | acknowledge (mask : UInt16)
  deriving DecidableEq, Repr

/-- The machine that an action leaves behind, whether it stops with a fault or not. -/
def after {α : Type} (x : Action α) (m : Machine) : Machine :=
  match x m with
  | .ok _ m => m
  | .error _ m => m

/-- The machine after a command. -/
def perform (m : Machine) : Command → Machine
  | .step => after step m
  | .request line => m.mapBoard (·.request line)
  | .acknowledge mask => m.mapBoard (·.mapIrq (·.acknowledge mask))

/-- A property of the machine holds before the first command and after every command. -/
def Always (P : Machine → Prop) : List Command → Machine → Prop
  | [], m => P m
  | c :: cs, m => P m ∧ Always P cs (m.perform c)

/-- A property of the machine holds whenever a step is made. -/
def EachStep (P : Machine → Prop) : List Command → Machine → Prop
  | [], _ => True
  | c :: cs, m => (c = .step → P m) ∧ EachStep P cs (m.perform c)

/-- The points at which a step fetches: where it starts, and where execution continues after its
instruction. -/
def fetches (m : Machine) : List Point :=
  if m.board.core.halted then []
  else
    m.board.core.point ::
      match announce m with
      | .ok _ m =>
        match Exec.executeNext m.board with
        | .ok _ b => [b.core.point]
        | .error _ _ => []
      | .error _ _ => []

/-- The points at which a run fetches. -/
def fetched : List Command → Machine → List Point
  | [], _ => []
  | .step :: cs, m => m.fetches ++ fetched cs (m.perform .step)
  | c :: cs, m => fetched cs (m.perform c)

/-- No two points at which a run fetches share a slot of the cache. -/
def NoSharedSlot (cs : List Command) (m : Machine) : Prop :=
  Set.InjOn m.board.bus.cache.place { p | p ∈ m.fetched cs }

/-- The handheld with words stored at the given addresses. -/
def handheld (program : List (Word × Word)) : Machine :=
  { board := { bus := program.foldl (fun bus (a, w) => bus.store .word a w) .handheld } }

/-! ### One step -/

variable {F : Set Point} {I : Bus → Prop} {m : Machine}

lemma onBoard_of_ok {α : Type} {x : Exec α} {a : α} {b : Board} (h : x m.board = .ok a b) :
    onBoard x m = .ok a (m.mapBoard fun _ => b) := by
  obtain ⟨board, observers, breakpoints, totalCycles⟩ := m
  have hx : x board = _ := h
  unfold onBoard
  simp only [hx]
  rfl

lemma onBoard_of_error {α : Type} {x : Exec α} {e : Fault} {b : Board}
    (h : x m.board = .error e b) : onBoard x m = .error e (m.mapBoard fun _ => b) := by
  obtain ⟨board, observers, breakpoints, totalCycles⟩ := m
  have hx : x board = _ := h
  unfold onBoard
  simp only [hx]
  rfl

/-- A step of a running core fetches where it starts. -/
lemma point_mem_fetches (h : m.board.core.halted = false) : m.board.core.point ∈ m.fetches := by
  unfold fetches
  rw [h]
  exact List.mem_cons_self

/-- Telling the observers of the next instruction leaves a board in step with the same program
counter. -/
lemma announce_spec (hI : Bus.Upkeep F I) (ht : m.board.bus.cache.Tidy F) (hs : m.board.Synced)
    (hF : m.board.core.halted = false → m.board.core.point ∈ F) :
    (∃ m₁, announce m = .ok () m₁ ∧ m.board.Sustained F I m₁.board ∧ m₁.board.Synced ∧
      m₁.board.core.point = m.board.core.point ∧
      m₁.board.core.halted = m.board.core.halted) ∨
      ∃ fault m₁, announce m = .error fault m₁ ∧ m.board.Sustained F I m₁.board ∧
        m₁.board.Remembers m.board.core.point := by
  rcases hquiet : m.board.core.halted || m.observers.isEmpty with _ | _
  · have hrunning : m.board.core.halted = false := (Bool.or_eq_false_iff.mp hquiet).1
    rcases Exec.currentHandle_spec ht hs (hF hrunning) with
      ⟨id, h, b, hcurrent, hr⟩ | ⟨fault, b, -, hcurrent, hu, hdead⟩
    · left
      refine ⟨(m.mapBoard fun _ => b).notify (.stepStarted h.address h.opcode), ?_,
        hr.sustained hI, ?_, ?_, ?_⟩
      · unfold announce
        rw [hquiet, onBoard_of_ok hcurrent]
        rfl
      · intro id' e hid hget
        have hpoint : b.core.point = m.board.core.point := by
          rw [hr.core]
          rfl
        have hid' : b.core.current = some id' := hid
        obtain rfl : id' = id := by
          rw [hr.core] at hid'
          exact (Option.some.inj hid').symm
        rw [hr.only e hget, hr.point]
        exact hpoint.symm
      · show b.core.point = _
        rw [hr.core]
        rfl
      · show b.core.halted = _
        rw [hr.core]
    · right
      refine ⟨fault, m.mapBoard fun _ => b, ?_, hu.sustained hI, ?_⟩
      · unfold announce
        rw [hquiet, onBoard_of_error hcurrent]
        rfl
      · intro id e hid hget
        have hid' : b.core.current = some id := hid
        rw [hu.core] at hid'
        rw [hid', Option.bind_some, hu.entries id e hget] at hdead
        exact nomatch hdead
  · left
    refine ⟨m, ?_, .refl _, hs, rfl, rfl⟩
    unfold announce
    rw [hquiet]
    rfl

/-- A step of a board in step with a tidy cache, whose fetches stay in a set of points without
shared slots, leaves such a board. If it fails then what is remembered, as far as it is live, was
decoded where the step started. -/
theorem step_spec (hI : Bus.Upkeep F I) (ht : m.board.bus.cache.Tidy F) (hs : m.board.Synced)
    (hF : ∀ p ∈ m.fetches, p ∈ F) (hinj : Set.InjOn m.board.bus.cache.place F) :
    (∃ m', step m = .ok () m' ∧ m.board.Sustained F I m'.board ∧ m'.board.Synced) ∨
      ∃ fault m', step m = .error fault m' ∧ m.board.Sustained F I m'.board ∧
        m'.board.Remembers m.board.core.point := by
  have hpoint (hrunning : m.board.core.halted = false) : m.board.core.point ∈ F :=
    hF _ (point_mem_fetches hrunning)
  rcases announce_spec hI ht hs hpoint with
    ⟨m₁, hannounce, hb₁, hs₁, hpoint₁, hhalted₁⟩ | ⟨fault, m₁, hannounce, hb₁, hremembers⟩
  · have hstep (b : Board) (h : Exec.step m₁.board = .ok () b) :
        step m = .ok () ((m₁.mapBoard fun _ => b).account m₁.board.core.cycles) := by
      unfold step
      rw [hannounce]
      simp only [onBoard_of_ok h]
    have hfail (fault : Fault) (b : Board) (h : Exec.step m₁.board = .error fault b) :
        step m = .error fault ((m₁.mapBoard fun _ => b).account m₁.board.core.cycles) := by
      unfold step
      rw [hannounce]
      simp only [onBoard_of_error h]
    rcases hhalted : m.board.core.halted with _ | _
    · have ht₁ := hb₁.tidy ht
      have hinj₁ : Set.InjOn m₁.board.bus.cache.place F := by rwa [hb₁.place]
      have hF₁ : m₁.board.core.point ∈ F := hpoint₁ ▸ hpoint hhalted
      have hexec : Exec.step m₁.board =
          (Exec.executeNext >>= fun _ => Exec.update Board.updateInterrupts) m₁.board := by
        rw [Exec.step_apply, hhalted₁, hhalted]
        rfl
      rcases Exec.executeNext_spec hI ht₁ hs₁ hF₁ hinj₁ with
        ⟨b, hrun, hok⟩ | ⟨fault, b, hrun, hb, hremembers⟩
      · rw [Exec.bind_of_ok hrun] at hexec
        have hmem : b.core.point ∈ F := by
          refine hF _ ?_
          unfold fetches
          rw [hhalted, hannounce]
          simp only [hrun]
          exact .tail _ List.mem_cons_self
        obtain ⟨hb, hs'⟩ := hok hmem
        exact .inl ⟨_, hstep _ hexec, hb₁.trans (hb.trans b.sustained_updateInterrupts),
          hs'.updateInterrupts⟩
      · rw [Exec.bind_of_error hrun] at hexec
        exact .inr ⟨fault, _, hfail fault _ hexec, hb₁.trans hb, hpoint₁ ▸ hremembers⟩
    · have hexec : Exec.step m₁.board = .ok () m₁.board.updateInterrupts := by
        rw [Exec.step_apply, hhalted₁, hhalted]
        rfl
      exact .inl ⟨_, hstep _ hexec, hb₁.trans m₁.board.sustained_updateInterrupts,
        hs₁.updateInterrupts⟩
  · refine .inr ⟨fault, m₁, ?_, hb₁, hremembers⟩
    unfold step
    rw [hannounce]

/-! ### Starting -/

/-- A machine that starts over has forgotten all decodings. -/
lemma reset_spec (m : Machine) (entry : Word) :
    (m.reset entry).board.bus.cache.Tidy F ∧ (m.reset entry).board.Synced ∧
      (m.reset entry).board.bus.cache.layout = m.board.bus.cache.layout := by
  refine ⟨InstructionCache.tidy_of_dead fun id => InstructionCache.get?_clear _ id, ?_,
    InstructionCache.layout_clear _⟩
  intro id h hcurrent
  exact nomatch hcurrent

/-- What devices do to the interrupt lines leaves the bus and the core. -/
lemma perform_line {c : Command} (hc : c ≠ .step) (m : Machine) :
    (m.perform c).board.bus = m.board.bus ∧ (m.perform c).board.core = m.board.core := by
  cases c with
  | step => exact absurd rfl hc
  | request line =>
    show (m.board.request line).bus = _ ∧ (m.board.request line).core = _
    unfold Board.request
    split <;> exact ⟨rfl, rfl⟩
  | acknowledge mask => exact ⟨rfl, rfl⟩

/-- A board in step stays in step. -/
lemma synced_perform_line {c : Command} (hc : c ≠ .step) (hs : m.board.Synced) :
    (m.perform c).board.Synced := by
  obtain ⟨hbus, hcore⟩ := perform_line hc m
  intro id e hcurrent hget
  rw [hcore] at hcurrent ⊢
  rw [hbus] at hget
  exact hs id e hcurrent hget

/-- Nothing is fetched meanwhile. -/
lemma fetched_line {c : Command} (hc : c ≠ .step) (cs : List Command) (m : Machine) :
    fetched (c :: cs) m = fetched cs (m.perform c) := by
  cases c with
  | step => exact absurd rfl hc
  | request | acknowledge => rfl

end Machine

end Armv4T
