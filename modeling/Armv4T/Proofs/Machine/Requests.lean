import Mathlib
import Armv4T.Machine.Debug
import Armv4T.Proofs.Machine.Commands
import Armv4T.Proofs.Step.Interrupts

/-!
# Interrupt requests along a run

Besides its commands a machine may receive changes of the enables, writes of registers from a
debugger, and resets (`Machine.Input`). Two properties of the interrupt lines hold along every run
of such inputs.

No eligible request is lost: unless the enables are changed, whenever a request is eligible and IRQ
is enabled, the interrupt is armed (`Machine.attends_receiveAll`).

And no interrupt is taken without a reason: IRQ was enabled, and a request is eligible, or one was
when it was withdrawn and the interrupt has been armed since (`Machine.requested_or_withdrawn`). The
second case is not excluded, because withdrawing a request does not disarm the interrupt
(`Machine.not_forall_requested`).
-/

namespace Armv4T.Machine

/-- What a running machine may receive. -/
inductive Input
  | command (c : Command)
  | setMaster (on : Bool)
  | setEnabled (mask : UInt16)
  | writeRegister (id value : Word)
  | reset (entry : Word)
  deriving DecidableEq, Repr

namespace Input

/-- Whether an input changes the enables. -/
def configures : Input → Bool
  | setMaster _ => true
  | setEnabled _ => true
  | _ => false

/-- Whether an input may make an eligible request ineligible, and leaves the interrupt armed. -/
def withdraws : Input → Bool
  | command (.acknowledge _) => true
  | i => i.configures

end Input

/-- The machine after an input. -/
def receive (m : Machine) : Input → Machine
  | .command c => m.perform c
  | .setMaster on => m.mapBoard (·.mapIrq ({ · with master := on }))
  | .setEnabled mask => m.mapBoard (·.mapIrq ({ · with enabled := mask }))
  | .writeRegister id value => after (onBoard (writeRegister id value)) m
  | .reset entry => m.reset entry

/-- The machine after a run of inputs. -/
def receiveAll (m : Machine) (inputs : List Input) : Machine := inputs.foldl receive m

/-- The next step of the machine gets to looking at the interrupts, and looks at them on a board. -/
def Updates (m : Machine) (b : Board) : Prop :=
  ∃ m₁, announce m = .ok () m₁ ∧ m₁.board.Updates b

variable {m : Machine}

/-! ### The announcement of a step -/

lemma announce_of_quiet (h : (m.board.core.halted || m.observers.isEmpty) = true) :
    announce m = .ok () m := by
  rw [announce, if_pos h]

lemma announce_of_ok (h : (m.board.core.halted || m.observers.isEmpty) = false) {e : Handle}
    {b : Board} (hcurrent : Exec.currentHandle m.board = .ok e b) :
    announce m = .ok () ((m.mapBoard fun _ => b).notify (.stepStarted e.address e.opcode)) := by
  unfold announce
  rw [h, onBoard_of_ok hcurrent]
  rfl

lemma announce_of_error (h : (m.board.core.halted || m.observers.isEmpty) = false) {fault : Fault}
    {b : Board} (hcurrent : Exec.currentHandle m.board = .error fault b) :
    announce m = .error fault (m.mapBoard fun _ => b) := by
  unfold announce
  rw [h, onBoard_of_error hcurrent]
  rfl

/-- A step that could be announced is that of the core, and its cycles are accounted for. -/
lemma step_of_announce {m₁ : Machine} (h : announce m = .ok () m₁) :
    step m = match Exec.step m₁.board with
      | .ok _ b => .ok () ((m₁.mapBoard fun _ => b).account m₁.board.core.cycles)
      | .error fault b => .error fault ((m₁.mapBoard fun _ => b).account m₁.board.core.cycles) := by
  unfold step
  rw [h]
  dsimp only
  rcases hrun : Exec.step m₁.board with ⟨⟨⟩, b⟩ | ⟨fault, b⟩
  · rw [onBoard_of_ok hrun]
  · rw [onBoard_of_error hrun]

lemma step_of_announce_error {m₁ : Machine} {fault : Fault} (h : announce m = .error fault m₁) :
    step m = .error fault m₁ := by
  unfold step
  rw [h]

/-- The machine after a step that could be announced, whether or not it failed then. -/
lemma perform_of_announce {m₁ : Machine} (h : announce m = .ok () m₁) :
    m.perform .step =
      (m₁.mapBoard fun _ => Exec.step.after m₁.board).account m₁.board.core.cycles := by
  rw [perform, after, step_of_announce h, Exec.after]
  rcases Exec.step m₁.board with _ | _ <;> rfl

lemma perform_of_announce_error {m₁ : Machine} {fault : Fault} (h : announce m = .error fault m₁) :
    m.perform .step = m₁ := by
  rw [perform, after, step_of_announce_error h]

/-! ### One input -/

lemma board_after_onBoard {α : Type} (x : Exec α) (m : Machine) :
    (after (onBoard x) m).board = x.after m.board := by
  rcases hx : x m.board with ⟨a, b⟩ | ⟨fault, b⟩
  · rw [after, onBoard_of_ok hx, Exec.after_of_ok hx]
    rfl
  · rw [after, onBoard_of_error hx, Exec.after_of_error hx]
    rfl

/-- Telling the observers of the next instruction changes nothing that an instruction can see. -/
lemma announce_cases (m : Machine) :
    (∃ m₁, announce m = .ok () m₁ ∧ m₁.board.bare = m.board.bare) ∨
      ∃ fault m₁, announce m = .error fault m₁ ∧ m₁.board.bare = m.board.bare := by
  have hbare := Exec.quiet_currentHandle.unchanged m.board
  rcases hquiet : m.board.core.halted || m.observers.isEmpty with _ | _
  · rcases hcurrent : Exec.currentHandle m.board with ⟨h, b⟩ | ⟨fault, b⟩
    · rw [Exec.after_of_ok hcurrent] at hbare
      exact .inl ⟨_, announce_of_ok hquiet hcurrent, hbare⟩
    · rw [Exec.after_of_error hcurrent] at hbare
      exact .inr ⟨fault, _, announce_of_error hquiet hcurrent, hbare⟩
  · exact .inl ⟨m, announce_of_quiet hquiet, rfl⟩

/-- What a step does before it looks at the interrupts heeds them. -/
lemma Updates.heeds {b : Board} (h : m.Updates b) : m.board.Heeds b := by
  obtain ⟨m₁, hannounce, hupdates⟩ := h
  rcases m.announce_cases with ⟨m₂, hok, hbare⟩ | ⟨fault, m₂, herror, -⟩
  · obtain rfl : m₂ = m₁ := (EStateM.Result.ok.inj (hok.symm.trans hannounce)).2
    exact (Board.Heeds.of_bare hbare).trans hupdates.heeds
  · exact nomatch herror.symm.trans hannounce

/-- A step looks at the interrupts, or fails before it gets to that. -/
lemma perform_step_cases (m : Machine) :
    (∃ b, m.Updates b ∧ (m.perform .step).board = b.updateInterrupts) ∨
      (∀ b, ¬m.Updates b) ∧ m.board.Heeds (m.perform .step).board := by
  rcases m.announce_cases with ⟨m₁, hannounce, hbare⟩ | ⟨fault, m₁, hannounce, hbare⟩
  · have hm₁ (h : ∀ b, ¬m₁.board.Updates b) (b : Board) : ¬m.Updates b := by
      rintro ⟨m₂, hannounce₂, hupdates⟩
      obtain rfl : m₁ = m₂ := (EStateM.Result.ok.inj (hannounce.symm.trans hannounce₂)).2
      exact h b hupdates
    have hstep : (m.perform .step).board = Exec.step.after m₁.board := by
      rw [perform_of_announce hannounce]
      rfl
    rw [hstep]
    rcases Exec.step_cases m₁.board with ⟨b, hupdates, hok⟩ | ⟨hnone, fault, b, hheeds, herror⟩
    · exact .inl ⟨b, ⟨m₁, hannounce, hupdates⟩, Exec.after_of_ok hok⟩
    · rw [Exec.after_of_error herror]
      exact .inr ⟨hm₁ hnone, (Board.Heeds.of_bare hbare).trans hheeds⟩
  · have hnone (b : Board) : ¬m.Updates b := by
      rintro ⟨m₂, hannounce₂, -⟩
      exact nomatch hannounce.symm.trans hannounce₂
    rw [perform_of_announce_error hannounce]
    exact .inr ⟨hnone, .of_bare hbare⟩

/-- A write of a register from outside heeds the interrupts. -/
lemma heeds_writeRegister (id value : Word) :
    Exec.Establishes Board.Heeds (writeRegister id value) := by
  have hR := Exec.passage_heeds
  have hset (f : Core → Core) (hf : ∀ c, (f c).regs.flags = c.regs.flags) :
      Exec.Establishes Board.Heeds (Exec.onCore f) :=
    fun b => .of_irq_eq rfl fun henabled => by rwa [← hf b.core]
  unfold writeRegister writeStatus
  refine .ite (.bind hR ((Exec.Quiet.core _).establishes hR) fun before => ?_)
    (.ite (hset _ fun _ => rfl) (hset _ fun _ => rfl))
  refine .bind hR (.loadStatus hR rfl value) fun _ => ?_
  refine .bind hR ((Exec.Quiet.core _).establishes hR) fun set => ?_
  exact .ite (hset _ fun _ => rfl) ((Exec.Quiet.pure ()).establishes hR)

/-! ### No eligible request is lost -/

/-- No input loses an eligible request, unless it changes the enables. -/
theorem attends_receive (h : m.board.Attends) {i : Input} (hi : i.configures = false) :
    (m.receive i).board.Attends := by
  cases i with
  | command c =>
    cases c with
    | step =>
      rcases m.perform_step_cases with ⟨b, hupdates, hstep⟩ | ⟨-, hheeds⟩
      · rw [receive, hstep]
        exact (hupdates.heeds.attends h).updateInterrupts
      · exact hheeds.attends h
    | request line =>
      show (m.board.request line).Attends
      unfold Board.request
      split
      · exact Board.attends_testIrq _
      · exact h
    | acknowledge mask => exact fun hrequested => h hrequested.of_acknowledge
  | setMaster on => exact nomatch hi
  | setEnabled mask => exact nomatch hi
  | writeRegister id value =>
    rw [receive, board_after_onBoard]
    exact (heeds_writeRegister id value m.board).attends h
  | reset entry =>
    intro hrequested
    exact nomatch hrequested.1

/-- No eligible request is lost along a run: as long as the enables are not changed, whenever a
request is eligible and IRQ is enabled, the interrupt is armed. -/
theorem attends_receiveAll (h : m.board.Attends) {inputs : List Input}
    (hinputs : ∀ i ∈ inputs, i.configures = false) : (m.receiveAll inputs).board.Attends := by
  induction inputs generalizing m with
  | nil => exact h
  | cons i rest ih =>
    have hi : i.configures = false := hinputs i List.mem_cons_self
    exact ih (attends_receive h hi) fun j hj => hinputs j (.tail i hj)

/-- A machine whose lines are enabled while IRQ is disabled. -/
def masked : Machine :=
  ({} : Machine).receiveAll [.setMaster true, .setEnabled 1, .writeRegister statusRegister 0x9F]

/-- A request, and a write of the status word that enables IRQ. -/
def unmasking : List Input := [.command (.request 0), .writeRegister statusRegister 0x1F]

/-- A request that is made while IRQ is disabled is armed when a debugger enables IRQ. -/
theorem attends_receiveAll_unmasking :
    masked.board.Attends ∧ (∀ i ∈ unmasking, i.configures = false) ∧
      (masked.receiveAll unmasking).board.irq.Requested ∧
      (masked.receiveAll unmasking).board.irq.armed = true := by
  have hattends : masked.board.Attends := by decide +kernel
  have hinputs : ∀ i ∈ unmasking, i.configures = false := by decide
  have hrequested : (masked.receiveAll unmasking).board.irq.Requested := by decide +kernel
  have henabled : (masked.receiveAll unmasking).board.core.regs.flags.i = false := by
    decide +kernel
  exact ⟨hattends, hinputs, hrequested, attends_receiveAll hattends hinputs hrequested henabled⟩

/-! ### No interrupt is taken without a reason -/

/-- During a run, an input has withdrawn an eligible request for which the interrupt was armed. It
has been armed since, and no other request has become eligible. -/
def Withdrawn (m : Machine) (inputs : List Input) : Prop :=
  ∃ early i late, inputs = early ++ i :: late ∧ i.withdraws = true ∧
    (m.receiveAll early).board.irq.armed = true ∧ (m.receiveAll early).board.irq.Requested ∧
    ∀ since, since <+: late →
      (m.receiveAll (early ++ i :: since)).board.irq.armed = true ∧
        ¬(m.receiveAll (early ++ i :: since)).board.irq.Requested

/-- An interrupt that is armed without an eligible request was armed before the last input, and
without a request unless that input withdrew it. -/
lemma armed_of_armed_receive {i : Input} (harmed : (m.receive i).board.irq.armed = true)
    (hnone : ¬(m.receive i).board.irq.Requested) :
    m.board.irq.armed = true ∧ (¬m.board.irq.Requested ∨ i.withdraws = true) := by
  have of_heeds {b : Board} (hheeds : m.board.Heeds b) (harmed : b.irq.armed = true)
      (hnone : ¬b.irq.Requested) : m.board.irq.armed = true ∧
        (¬m.board.irq.Requested ∨ i.withdraws = true) := by
    rw [hheeds.requested_iff] at hnone
    exact ⟨(hheeds.cause harmed).resolve_right hnone, .inl hnone⟩
  cases i with
  | command c =>
    cases c with
    | step =>
      rcases m.perform_step_cases with ⟨b, -, hstep⟩ | ⟨-, hheeds⟩
      · rw [receive, hstep, Board.irq_updateInterrupts] at harmed
        exact nomatch harmed
      · exact of_heeds hheeds harmed hnone
    | request line =>
      replace harmed : (m.board.request line).irq.armed = true := harmed
      replace hnone : ¬(m.board.request line).irq.Requested := hnone
      unfold Board.request at harmed hnone
      split at harmed
      · rename_i hline
        rw [if_pos hline] at hnone
        let raised := m.board.mapIrq (·.raise line)
        have hheeds : raised.Heeds raised.testIrq := .testIrq rfl
        rw [hheeds.requested_iff] at hnone
        refine ⟨(hheeds.cause harmed).resolve_right hnone, .inl fun hrequested => ?_⟩
        exact hnone (hrequested.raise line)
      · rename_i hline
        rw [if_neg hline] at hnone
        exact ⟨harmed, .inl hnone⟩
    | acknowledge mask => exact ⟨harmed, .inr rfl⟩
  | setMaster on => exact ⟨harmed, .inr rfl⟩
  | setEnabled mask => exact ⟨harmed, .inr rfl⟩
  | writeRegister id value =>
    rw [receive, board_after_onBoard] at harmed hnone
    exact of_heeds (heeds_writeRegister id value m.board) harmed hnone
  | reset entry => exact nomatch harmed

lemma receiveAll_concat (m : Machine) (inputs : List Input) (i : Input) :
    m.receiveAll (inputs ++ [i]) = (m.receiveAll inputs).receive i :=
  List.foldl_concat receive m i inputs

/-- Along a run, an armed interrupt has an eligible request, or one that was withdrawn. -/
lemma requested_or_withdrawn_of_armed (h : m.board.irq.armed = true → m.board.irq.Requested)
    (inputs : List Input) (harmed : (m.receiveAll inputs).board.irq.armed = true) :
    (m.receiveAll inputs).board.irq.Requested ∨ m.Withdrawn inputs := by
  induction inputs using List.reverseRecOn with
  | nil => exact .inl (h harmed)
  | append_singleton inputs i ih =>
    rw [or_iff_not_imp_left]
    intro hnone
    have hlast := receiveAll_concat m inputs i
    rw [hlast] at harmed hnone
    obtain ⟨harmed', hwithdraws⟩ := armed_of_armed_receive harmed hnone
    by_cases hrequested : (m.receiveAll inputs).board.irq.Requested
    · have hi := hwithdraws.resolve_left (not_not.mpr hrequested)
      refine ⟨inputs, i, [], rfl, hi, harmed', hrequested, fun since hsince => ?_⟩
      obtain rfl := List.prefix_nil.mp hsince
      rw [hlast]
      exact ⟨harmed, hnone⟩
    · obtain ⟨early, j, late, rfl, hj, harmed₀, hrequested₀, hsince⟩ :=
        (ih harmed').resolve_left hrequested
      refine ⟨early, j, late ++ [i], by simp, hj, harmed₀, hrequested₀, fun since hprefix => ?_⟩
      rcases List.prefix_concat_iff.mp hprefix with rfl | hprefix
      · rw [← List.cons_append, ← List.append_assoc, hlast]
        exact ⟨harmed, hnone⟩
      · exact hsince since hprefix

/-- No interrupt is taken without a reason. Along every run from a machine that is not armed without
a request, when looking at the interrupts enters the interrupt exception then IRQ was enabled, and a
request is eligible, or one was withdrawn while the interrupt was armed for it. -/
theorem requested_or_withdrawn (h : m.board.irq.armed = true → m.board.irq.Requested)
    {inputs : List Input} {b : Board} (hupdates : (m.receiveAll inputs).Updates b)
    (htaken : b.TakesIrq) :
    b.core.regs.flags.i = false ∧ (b.irq.Requested ∨ m.Withdrawn inputs) := by
  obtain ⟨harmed, henabled⟩ := b.takesIrq_iff.mp htaken
  refine ⟨henabled, ?_⟩
  rw [hupdates.heeds.requested_iff]
  rcases hupdates.heeds.cause harmed with harmed' | hrequested
  · exact requested_or_withdrawn_of_armed h inputs harmed'
  · exact .inl hrequested

/-! ### A request that is withdrawn -/

/-- A machine without observers looks at the interrupts on the board that its instruction leaves. -/
lemma updates_after (hobservers : m.observers = []) (hrunning : m.board.core.halted = false)
    (hfinishes : Exec.executeNext.run' m.board = some ()) :
    m.Updates (Exec.executeNext.after m.board) := by
  refine ⟨m, ?_, ?_⟩
  · unfold announce
    rw [hobservers, List.isEmpty_nil, Bool.or_true]
    rfl
  · rw [Board.Updates, hrunning]
    exact Exec.ok_of_finishes hfinishes

/-- A machine that executes `MOV r0, r0` next. -/
def idling : Machine := (handheld [(0x03000000, 0xE1A00000)]).reset 0x03000000

/-- A request on the first line, which is withdrawn at once. -/
def withdrawal : List Input :=
  [.setMaster true, .setEnabled 1, .command (.request 0), .command (.acknowledge 1)]

/-- The interrupt is taken all the same. -/
lemma takesIrq_withdrawal : ∃ b, (idling.receiveAll withdrawal).Updates b ∧ b.TakesIrq ∧
    ¬b.irq.Requested := by
  have hupdates : (idling.receiveAll withdrawal).Updates
      (Exec.executeNext.after (idling.receiveAll withdrawal).board) :=
    updates_after rfl (by decide +kernel) (by decide +kernel)
  exact ⟨_, hupdates, by decide +kernel, by decide +kernel⟩

/-- The interrupt is taken for a request that was withdrawn. -/
theorem requested_or_withdrawn_withdrawal :
    (idling.board.irq.armed = true → idling.board.irq.Requested) ∧
    ∃ b, (idling.receiveAll withdrawal).Updates b ∧ b.TakesIrq ∧
      b.core.regs.flags.i = false ∧ idling.Withdrawn withdrawal := by
  have hidle : idling.board.irq.armed = true → idling.board.irq.Requested := by decide +kernel
  obtain ⟨b, hupdates, htaken, hnone⟩ := takesIrq_withdrawal
  obtain ⟨henabled, hreason⟩ := requested_or_withdrawn hidle hupdates htaken
  exact ⟨hidle, b, hupdates, htaken, henabled, hreason.resolve_left hnone⟩

/-- It is not true that an interrupt is taken only while a request is eligible, not even if nothing
but commands and changes of the enables is received. -/
theorem not_forall_requested :
    ¬∀ (m : Machine) (inputs : List Input) (b : Board),
      (∀ i ∈ inputs, i.configures = true ∨ ∃ c, i = .command c) →
      (m.board.irq.armed = true → m.board.irq.Requested) → (m.receiveAll inputs).Updates b →
      b.TakesIrq → b.irq.Requested ∧ b.core.regs.flags.i = false := by
  intro hall
  have hinputs : ∀ i ∈ withdrawal, i.configures = true ∨ ∃ c, i = .command c := by
    simp [withdrawal, Input.configures]
  obtain ⟨b, hupdates, htaken, hnone⟩ := takesIrq_withdrawal
  exact hnone (hall idling withdrawal b hinputs (by decide +kernel) hupdates htaken).1

end Armv4T.Machine
