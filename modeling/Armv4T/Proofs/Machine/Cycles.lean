import Mathlib
import Armv4T.Proofs.Bus.Configured
import Armv4T.Proofs.Exec.Cycles
import Armv4T.Proofs.Machine.Course

/-!
# Accounting for cycles

The core counts the cycles of its instructions, and the machine counts those of its steps: it
compares the count of the core before and after a step, adds the difference to its own, and tells
the observers, which add it to theirs. A failing step is accounted for like any other. One that
fails when it is announced adds nothing to any count, because nothing has been executed yet.

Counts have 64 bits, and what the observers are told of a step has 32. So the counts agree
(`Machine.Tallies`) as long as none overflows and no step takes more than the observers can be told.
A step takes less than `2 ^ 37` cycles (`Exec.Counts`), so that no count overflows in the first
`2 ^ 27` steps.
-/

namespace Armv4T

/-! ### Counts of 64 bits -/

/-- Where counting on does not overflow, the count is the sum. -/
lemma UInt64.toNat_eq_add_toNat_sub {x y : UInt64} (h : x.toNat + (y - x).toNat < UInt64.size) :
    y.toNat = x.toNat + (y - x).toNat := by
  calc y.toNat = (x + (y - x)).toNat := by rw [UInt64.add_comm, UInt64.sub_add_cancel]
    _ = x.toNat + (y - x).toNat := by rw [UInt64.toNat_add, Nat.mod_eq_of_lt h]

/-- A number below `2 ^ 32` survives in the lower half. -/
lemma UInt64.toUInt64_toUInt32_ofNat {n : ℕ} (h : n < UInt32.size) :
    (UInt64.ofNat n).toUInt32.toUInt64 = .ofNat n := by
  have hsize : UInt32.size ≤ UInt64.size := by decide
  have hn : (UInt64.ofNat n).toNat = n := UInt64.toNat_ofNat_of_lt' (h.trans_le hsize)
  refine UInt64.toNat_inj.mp ?_
  rw [UInt32.toNat_toUInt64, UInt64.toNat_toUInt32, hn]
  exact Nat.mod_eq_of_lt h

/-! ### One step of the core -/

/-- Looking at the interrupts takes no cycles. -/
lemma Board.cycles_updateInterrupts (b : Board) :
    b.updateInterrupts.core.cycles = b.core.cycles := by
  have hwake : b.wake.core.cycles = b.core.cycles := by
    rcases b.wake_cases with h | h
    · rw [h]
    · rw [h]
      rfl
  rw [updateInterrupts_eq]
  split
  · unfold raiseIrq
    split
    · exact hwake
    · exact hwake
  · exact hwake

namespace Exec

variable {longest : ℕ}

/-- Refilling the pipeline is charged for at once. -/
lemma spends_refill : Spends longest 0 1 refill :=
  .bind (.core _) fun _ => .bind (.chargeBus (.refill _ _) trivial) fun _ => .setReg _ _

lemma spends_advance (h : Handle) : Spends longest 0 1 (advance h) := by
  have hfree {x : Exec Unit} (hx : Quiet x) : Spends longest 0 1 x :=
    (Spends.quiet hx).weaken le_rfl (Nat.zero_le 1)
  unfold advance
  refine .ite (hfree (quiet_followCurrent _)) (.bind (.core _) fun passed => ?_)
  refine .ite (.bind spends_refill fun _ => ?_) (hfree (quiet_setCurrent none))
  exact .ite (.quiet (quiet_followCurrent _)) (.quiet (quiet_setCurrent none))

/-- The next instruction takes cycles if it finishes. It makes no burst longer than what is found to
be executed. -/
lemma spendsFrom_executeNext {b : Board}
    (hburst : ∀ h b₁, currentHandle b = .ok h b₁ → h.instruction.burst ≤ longest) :
    SpendsFrom b longest 1 20 executeNext := by
  rw [executeNext_eq]
  refine (Spends.quiet quiet_currentHandle b).bind fun h b₁ hfound => ?_
  have hpipelined : Spends longest 0 0 (onCore (pipelined h.set)) := .onCore fun _ => rfl
  have hinstruction := spends_instruction (hburst h b₁ hfound)
  exact hpipelined.bind (fun _ => hinstruction.bind fun _ => spends_advance h) b₁

lemma spends_updateInterrupts : Spends longest 0 0 (update Board.updateInterrupts) :=
  .free_of_apply (g := fun _ => ()) (fun _ => rfl) Board.cycles_updateInterrupts fun b =>
    congrArg Bus.wiring b.updateInterrupts_keeps.1

/-- A step, of a running core or of a halted one. -/
lemma spendsFrom_step {b : Board}
    (hburst : ∀ h b₁, currentHandle b = .ok h b₁ → h.instruction.burst ≤ longest) :
    SpendsFrom b longest (if b.core.halted then 0 else 1) 20 step := by
  have hnext : SpendsFrom b longest (if b.core.halted then 0 else 1) 20
      (if b.core.halted then pure () else executeNext) := by
    cases b.core.halted with
    | true => exact (Spends.pure () b).weaken le_rfl (Nat.zero_le 20)
    | false => exact spendsFrom_executeNext hburst
  have hthen := hnext.bind fun _ b₁ _ => spends_updateInterrupts b₁
  rw [Nat.zero_add] at hthen
  unfold SpendsFrom at hthen ⊢
  rw [step_apply]
  exact hthen

/-- A step from any board. -/
lemma spendsFrom_step_of_board (b : Board) :
    SpendsFrom b 17 (if b.core.halted then 0 else 1) 20 step :=
  spendsFrom_step fun h _ _ => h.instruction.burst_le

/-- The cycles that a step adds to the count of the core. -/
def cost (b : Board) : ℕ := ((step.after b).core.cycles - b.core.cycles).toNat

/-- What a step does to the count of cycles. As long as the count does not overflow, the step of a
running core raises it if it finishes, and no step lowers it. It can overflow only where less than
`2 ^ 37` cycles are left. -/
structure Counts (b : Board) : Prop where
  bounded : cost b < 2 ^ 37
  halted : b.core.halted = true → (step.after b).core.cycles = b.core.cycles
  increases : b.core.cycles.toNat + cost b < UInt64.size → b.core.halted = false →
    ∀ b', step b = .ok () b' → b.core.cycles < b'.core.cycles
  never_decreases : b.core.cycles.toNat + cost b < UInt64.size →
    b.core.cycles ≤ (step.after b).core.cycles

end Exec

lemma Board.Paid.toNat_sub {longest least most : ℕ} {b b' : Board}
    (h : b.Paid longest least most b') (hmost : most ≤ 20) :
    (b.bus.WaitsFit → least ≤ (b'.core.cycles - b.core.cycles).toNat) ∧
      (b'.core.cycles - b.core.cycles).toNat < 2 ^ 37 := by
  obtain ⟨cost, hleast, hcost, hcycles⟩ := h.cost
  have hbound : cost < 2 ^ 37 := by
    have hcharges : most * UInt32.size ≤ 20 * UInt32.size := Nat.mul_le_mul_right _ hmost
    have hsize : UInt32.size = 2 ^ 32 := rfl
    omega
  have hsub : b'.core.cycles - b.core.cycles = .ofNat cost := by
    rw [hcycles, UInt64.add_comm, UInt64.add_sub_cancel]
  have hcost' : (b'.core.cycles - b.core.cycles).toNat = cost := by
    rw [hsub, UInt64.toNat_ofNat_of_lt' (hbound.trans (by decide))]
  rw [hcost']
  exact ⟨hleast, hbound⟩

namespace Exec

variable {b : Board}

lemma cost_lt (b : Board) : cost b < 2 ^ 37 :=
  ((spendsFrom_step_of_board b).paid_after.toNat_sub le_rfl).2

/-- A halted core looks at the interrupts only. -/
lemma cycles_step_of_halted (h : b.core.halted = true) :
    (step.after b).core.cycles = b.core.cycles := by
  have hstep : step b = .ok () b.updateInterrupts := by
    rw [step_apply, h]
    rfl
  rw [after_of_ok hstep, b.cycles_updateInterrupts]

/-- A running core executes an instruction. -/
lemma cost_pos (hfit : b.bus.WaitsFit) (hrunning : b.core.halted = false) {b' : Board}
    (hok : step b = .ok () b') : 0 < cost b := by
  have hpaid := ((spendsFrom_step_of_board b).paid_of_ok hok).toNat_sub le_rfl
  rw [hrunning] at hpaid
  rw [cost, after_of_ok hok]
  exact hpaid.1 hfit

/-- Where waiting times fit, every step counts as it should. -/
lemma counts (hfit : b.bus.WaitsFit) : Counts b := by
  have hsum (hroom : b.core.cycles.toNat + cost b < UInt64.size) :
      (step.after b).core.cycles.toNat = b.core.cycles.toNat + cost b :=
    UInt64.toNat_eq_add_toNat_sub hroom
  refine ⟨cost_lt b, cycles_step_of_halted, fun hroom hrunning b' hok => ?_, fun hroom => ?_⟩
  · rw [UInt64.lt_iff_toNat_lt, ← after_of_ok hok, hsum hroom]
    exact Nat.lt_add_of_pos_right (cost_pos hfit hrunning hok)
  · rw [UInt64.le_iff_toNat_le, hsum hroom]
    exact Nat.le_add_right _ _

end Exec

/-! ### One step of the machine -/

namespace Machine

/-- The cycles that a command adds to the count of the core. -/
def cost (m : Machine) (c : Command) : ℕ :=
  ((m.perform c).board.core.cycles - m.board.core.cycles).toNat

/-- From one machine to another, all counts have moved on by the same number of cycles, of which
the observers see the lower half. -/
structure Accounts (cycles : UInt64) (m m' : Machine) : Prop where
  core : m'.board.core.cycles = m.board.core.cycles + cycles
  total : m'.totalCycles = m.totalCycles + cycles
  metrics : ∀ (i : ℕ) (p : Metrics), m.observers[i]? = some (.metrics p) →
    ∃ q : Metrics, m'.observers[i]? = some (.metrics q) ∧
      q.cycles = p.cycles + cycles.toUInt32.toUInt64

variable {m m₁ m' : Machine} {cycles : UInt64}

/-- What takes no cycles makes no difference to what does. -/
lemma Accounts.zero_trans (h : m.Accounts 0 m₁) (h' : m₁.Accounts cycles m') :
    m.Accounts cycles m' where
  core := by rw [h'.core, h.core, UInt64.add_zero]
  total := by rw [h'.total, h.total, UInt64.add_zero]
  metrics i p hp := by
    obtain ⟨q, hq, hcycles⟩ := h.metrics i p hp
    obtain ⟨q', hq', hcycles'⟩ := h'.metrics i q hq
    have hzero : q.cycles = p.cycles := hcycles.trans (UInt64.add_zero _)
    exact ⟨q', hq', hzero ▸ hcycles'⟩

/-- Nothing that is counted or counts has changed. -/
lemma accounts_zero (hcore : m'.board.core.cycles = m.board.core.cycles)
    (htotal : m'.totalCycles = m.totalCycles) (hobservers : m'.observers = m.observers) :
    m.Accounts 0 m' where
  core := hcore.trans (UInt64.add_zero _).symm
  total := htotal.trans (UInt64.add_zero _).symm
  metrics i p hp := ⟨p, by rw [hobservers, hp], (UInt64.add_zero _).symm⟩

/-- Telling the observers of the next instruction takes no cycles. -/
lemma announce_accounts (m : Machine) :
    (∃ m₁, announce m = .ok () m₁ ∧ m.Accounts 0 m₁) ∨
      ∃ fault m₁, announce m = .error fault m₁ ∧ m.Accounts 0 m₁ := by
  have hbare := Exec.quiet_currentHandle.unchanged m.board
  rcases hquiet : m.board.core.halted || m.observers.isEmpty with _ | _
  · have hfound {b : Board} (h : b.bare = m.board.bare) : m.Accounts 0 (m.mapBoard fun _ => b) :=
      accounts_zero (Board.core_of_bare h Core.cycles fun _ => rfl) rfl rfl
    rcases hcurrent : Exec.currentHandle m.board with ⟨e, b⟩ | ⟨fault, b⟩
    · rw [Exec.after_of_ok hcurrent] at hbare
      refine .inl ⟨_, announce_of_ok hquiet hcurrent, (hfound hbare).core, (hfound hbare).total,
        fun i p hp => ⟨p.notify (.stepStarted e.address e.opcode), ?_, ?_⟩⟩
      · show (m.observers.map _)[i]? = _
        rw [List.getElem?_map, hp]
        rfl
      · exact (UInt64.add_zero _).symm
    · rw [Exec.after_of_error hcurrent] at hbare
      exact .inr ⟨fault, _, announce_of_error hquiet hcurrent, hfound hbare⟩
  · exact .inl ⟨m, announce_of_quiet hquiet, accounts_zero rfl rfl rfl⟩

/-- The cycles of a step are accounted for, if the count does not overflow. -/
lemma accounts_account
    (hroom : m.board.core.cycles.toNat + Exec.cost m.board < UInt64.size) :
    m.Accounts (.ofNat (Exec.cost m.board))
      ((m.mapBoard fun _ => Exec.step.after m.board).account m.board.core.cycles) := by
  set before := m.board.core.cycles
  set now := (Exec.step.after m.board).core.cycles
  have htaken : UInt64.ofNat (Exec.cost m.board) = now - before := UInt64.ofNat_toNat
  have hle : before ≤ now := by
    rw [UInt64.le_iff_toNat_le, UInt64.toNat_eq_add_toNat_sub hroom]
    exact Nat.le_add_right _ _
  have hspent : (if now < before then 0 else now - before) = now - before :=
    if_neg (UInt64.not_lt.mpr hle)
  have haccount : (m.mapBoard fun _ => Exec.step.after m.board).account before =
      { (m.mapBoard fun _ => Exec.step.after m.board) with
        totalCycles := m.totalCycles + (now - before) }.notify
          (.stepEnded (now - before).toUInt32) := by
    rw [← hspent]
    rfl
  rw [haccount, htaken]
  refine ⟨?_, rfl, fun i p hp => ⟨p.notify (.stepEnded _), ?_, rfl⟩⟩
  · show now = before + (now - before)
    rw [UInt64.add_comm, UInt64.sub_add_cancel]
  · show (m.observers.map _)[i]? = _
    rw [List.getElem?_map, hp]
    rfl

/-- Every command but a step leaves all counts alone. -/
lemma accounts_line {c : Command} (hc : c ≠ .step) (m : Machine) : m.Accounts 0 (m.perform c) := by
  have hcycles : (m.perform c).board.core.cycles = m.board.core.cycles := by
    rw [(perform_line hc m).2]
  cases c with
  | step => exact absurd rfl hc
  | request | acknowledge => exact accounts_zero hcycles rfl rfl

lemma Accounts.cost_eq_zero {c : Command} (h : m.Accounts 0 (m.perform c)) : m.cost c = 0 := by
  rw [cost, h.core, UInt64.add_zero, UInt64.sub_self]
  rfl

/-- A command either leaves all counts alone, or it is a step that was announced, and then it is
that of the core. -/
lemma perform_cases (m : Machine) (c : Command) :
    m.Accounts 0 (m.perform c) ∨
      ∃ m₁, m.Accounts 0 m₁ ∧ m.cost c = Exec.cost m₁.board ∧ m.perform c =
        (m₁.mapBoard fun _ => Exec.step.after m₁.board).account m₁.board.core.cycles := by
  cases c with
  | step =>
    rcases m.announce_accounts with ⟨m₁, hannounce, hzero⟩ | ⟨fault, m₁, hannounce, hzero⟩
    · have hperform := perform_of_announce hannounce
      have hbefore : m₁.board.core.cycles = m.board.core.cycles :=
        hzero.core.trans (UInt64.add_zero _)
      refine .inr ⟨m₁, hzero, ?_, hperform⟩
      rw [cost, hperform, ← hbefore]
      rfl
    · refine .inl ?_
      rw [perform_of_announce_error hannounce]
      exact hzero
  | request | acknowledge =>
    refine .inl (accounts_line ?_ m)
    simp

lemma cost_lt (m : Machine) (c : Command) : m.cost c < 2 ^ 37 := by
  rcases m.perform_cases c with hzero | ⟨m₁, -, hcost, -⟩
  · rw [hzero.cost_eq_zero]
    decide
  · rw [hcost]
    exact Exec.cost_lt m₁.board

/-- Every command is accounted for, if the count does not overflow. -/
lemma accounts_perform {c : Command}
    (hroom : m.board.core.cycles.toNat + m.cost c < UInt64.size) :
    m.Accounts (.ofNat (m.cost c)) (m.perform c) := by
  rcases m.perform_cases c with hzero | ⟨m₁, hzero, hcost, hperform⟩
  · rw [hzero.cost_eq_zero]
    exact hzero
  · have hbefore : m₁.board.core.cycles = m.board.core.cycles :=
      hzero.core.trans (UInt64.add_zero _)
    rw [hcost, ← hbefore] at hroom
    rw [hcost, hperform]
    exact hzero.zero_trans (accounts_account hroom)

/-! ### Runs -/

/-- The cycles that a run adds up to. -/
def spent : List Command → Machine → ℕ
  | [], _ => 0
  | c :: cs, m => m.cost c + spent cs (m.perform c)

/-- The machine after a run. -/
def performAll (m : Machine) (cs : List Command) : Machine := cs.foldl perform m

lemma spent_le (m : Machine) (cs : List Command) : m.spent cs ≤ cs.length * 2 ^ 37 := by
  induction cs generalizing m with
  | nil => exact Nat.zero_le _
  | cons c cs ih =>
    have hfirst := m.cost_lt c
    have hrest := ih (m.perform c)
    rw [spent, List.length_cons, Nat.add_mul]
    omega

variable {cs : List Command}

/-- If the counts of the machine and of the core agree then they do after a run that does not
overflow them, and both have moved on by the cycles of its commands. -/
lemma total_performAll (htotal : m.totalCycles = m.board.core.cycles)
    (hroom : m.board.core.cycles.toNat + m.spent cs < UInt64.size) :
    (m.performAll cs).totalCycles = (m.performAll cs).board.core.cycles ∧
      (m.performAll cs).totalCycles.toNat = m.totalCycles.toNat + m.spent cs := by
  induction cs generalizing m with
  | nil => exact ⟨htotal, rfl⟩
  | cons c cs ih =>
    rw [spent] at hroom
    have hfirst : m.board.core.cycles.toNat + m.cost c < UInt64.size := by omega
    have hcommand := accounts_perform hfirst
    have hcycles : (m.perform c).board.core.cycles.toNat = m.board.core.cycles.toNat + m.cost c :=
      UInt64.toNat_eq_add_toNat_sub hfirst
    have htotal' : (m.perform c).totalCycles = (m.perform c).board.core.cycles := by
      rw [hcommand.total, hcommand.core, htotal]
    obtain ⟨hagree, hsum⟩ := ih htotal' (by omega)
    refine ⟨hagree, hsum.trans ?_⟩
    rw [htotal', htotal, spent]
    omega

/-- An observer that has counted what the machine has goes on to do so, as long as it is told all
the cycles of every step. -/
lemma metrics_performAll
    (hroom : m.board.core.cycles.toNat + m.spent cs < UInt64.size)
    (hcost : EachStep (fun m => m.cost .step < UInt32.size) cs m) {i : ℕ} {p : Metrics}
    (hp : m.observers[i]? = some (.metrics p)) (htotal : p.cycles = m.totalCycles) :
    ∃ q : Metrics, (m.performAll cs).observers[i]? = some (.metrics q) ∧
      q.cycles = (m.performAll cs).totalCycles := by
  induction cs generalizing m p with
  | nil => exact ⟨p, hp, htotal⟩
  | cons c cs ih =>
    rw [spent] at hroom
    have hfirst : m.board.core.cycles.toNat + m.cost c < UInt64.size := by omega
    have hcommand := accounts_perform hfirst
    have hcycles : (m.perform c).board.core.cycles.toNat = m.board.core.cycles.toNat + m.cost c :=
      UInt64.toNat_eq_add_toNat_sub hfirst
    have hlower : m.cost c < UInt32.size := by
      by_cases hc : c = .step
      · exact hc ▸ hcost.1 hc
      · rw [(accounts_line hc m).cost_eq_zero]
        decide
    obtain ⟨q, hq, hsum⟩ := hcommand.metrics i p hp
    have htotal' : q.cycles = (m.perform c).totalCycles := by
      rw [hsum, hcommand.total, htotal, UInt64.toUInt64_toUInt32_ofNat hlower]
    exact ih (by omega) hcost.2 hq htotal'

/-- On the handheld, which is built as its map says, waiting times fit. -/
lemma waitsFit_handheld (program : List (Word × Word)) :
    (handheld program).board.bus.WaitsFit := by
  obtain ⟨bus, hbus, hconfigured⟩ := Bus.exists_configured_handheld.2
  obtain rfl : Bus.handheld = bus := Except.ok.inj (Bus.ofMap_handheld.symm.trans hbus)
  have hwaits : ∀ c ∈ MemoryMap.handheld.regions, c.wait.Fit := by
    simp [MemoryMap.handheld, WaitStates.Fit, UInt32.size]
  have hregions (bus : Bus) :
      (program.foldl (fun bus word => bus.store .word word.1 word.2) bus).regions =
        bus.regions := by
    induction program generalizing bus with
    | nil => rfl
    | cons word program ih =>
      exact (ih _).trans (bus.sameShape_store .word word.1 word.2).regions
  exact Bus.WaitsFit.of_regions (hconfigured.forall_wait_iff.mpr hwaits) (hregions .handheld)

/-- What the counts come to after a run from a reset: that of the machine is the one of the core,
and so is that of every observer that was there at the reset, if each step took fewer cycles than
observers can be told of. -/
structure Tallies (m : Machine) (entry : Word) (cs : List Command) : Prop where
  bounded : (m.reset entry).spent cs ≤ cs.length * 2 ^ 37
  total : (m.reset entry).spent cs < UInt64.size →
    ((m.reset entry).performAll cs).totalCycles =
        ((m.reset entry).performAll cs).board.core.cycles ∧
      ((m.reset entry).performAll cs).totalCycles.toNat = (m.reset entry).spent cs
  metrics : (m.reset entry).spent cs < UInt64.size →
    EachStep (fun m => m.cost .step < UInt32.size) cs (m.reset entry) →
    ∀ (i : ℕ) (p : Metrics), m.observers[i]? = some (.metrics p) →
      ∃ q : Metrics, ((m.reset entry).performAll cs).observers[i]? = some (.metrics q) ∧
        q.cycles = ((m.reset entry).performAll cs).totalCycles

/-- Cycles are accounted for. On a bus whose waiting times fit, the step of a running core raises
the count of cycles if it finishes, that of a halted core leaves it, and no step lowers it. Along
every run from a reset, failing steps included, the count of the machine is that of the core, and
that of an observer is that of the machine. -/
theorem cycles_accounted :
    (∀ b : Board, b.bus.WaitsFit → Exec.Counts b) ∧
      ∀ (m : Machine) (entry : Word) (cs : List Command), m.Tallies entry cs := by
  refine ⟨fun b hfit => Exec.counts hfit, fun m entry cs => ?_⟩
  have hroom' (hroom : (m.reset entry).spent cs < UInt64.size) :
      (m.reset entry).board.core.cycles.toNat + (m.reset entry).spent cs < UInt64.size := by
    have hzero : (m.reset entry).board.core.cycles = 0 := rfl
    rwa [hzero, UInt64.toNat_zero, Nat.zero_add]
  refine ⟨spent_le _ cs, fun hroom => ?_, fun hroom hcost i p hp => ?_⟩
  · obtain ⟨hagree, hsum⟩ := total_performAll rfl (hroom' hroom)
    exact ⟨hagree, hsum.trans (Nat.zero_add _)⟩
  · have hstarted : (m.reset entry).observers[i]? = some (.metrics (p.notify .started)) := by
      show (m.observers.map _)[i]? = _
      rw [List.getElem?_map, hp]
      rfl
    exact metrics_performAll (hroom' hroom) hcost hstarted rfl

/-- A move, a request in between, and an undefined instruction, as an observer counts them. -/
theorem cycles_accounted_failing :
    let m : Machine :=
      { handheld [(0x03000000, 0xE3A00001), (0x03000004, 0xEE000000)] with
        observers := [.metrics {}] }
    let cs : List Command := [.step, .request 3, .step]
    m.board.bus.WaitsFit ∧ Exec.Counts m.board ∧
      ((m.reset 0x03000000).performAll cs).totalCycles =
        ((m.reset 0x03000000).performAll cs).board.core.cycles ∧
      ∃ q : Metrics, ((m.reset 0x03000000).performAll cs).observers[0]? = some (.metrics q) ∧
        q.cycles = ((m.reset 0x03000000).performAll cs).totalCycles := by
  intro m cs
  have hfit : m.board.bus.WaitsFit := waitsFit_handheld _
  have hrun := cycles_accounted.2 m 0x03000000 cs
  have hroom : (m.reset 0x03000000).spent cs < UInt64.size := hrun.bounded.trans_lt (by decide)
  have hcost : EachStep (fun m => m.cost .step < UInt32.size) cs (m.reset 0x03000000) := by
    have hfirst : (m.reset 0x03000000).cost .step < 16 := by decide +kernel
    have hlast : (((m.reset 0x03000000).perform .step).perform (.request 3)).cost .step < 16 := by
      decide +kernel
    have hsize : 16 < UInt32.size := by decide
    exact ⟨fun _ => hfirst.trans hsize, nofun, fun _ => hlast.trans hsize, trivial⟩
  exact ⟨hfit, cycles_accounted.1 m.board hfit, (hrun.total hroom).1,
    hrun.metrics hroom hcost 0 {} rfl⟩

end Machine

end Armv4T
