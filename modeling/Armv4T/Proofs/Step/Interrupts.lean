import Mathlib
import Armv4T.Proofs.Step.Exception
import Armv4T.Proofs.Step.Passage

/-!
# Requests during a step

A request on an enabled line is eligible while the lines are enabled as a whole
(`InterruptLines.Requested`). It is not taken at once: it arms the interrupt, and the next look at
the interrupts enters the exception, unless IRQ is disabled (`Board.takesIrq_iff`). What an
instruction may do to the lines is to arm them for an eligible request, and what it may not do is to
enable IRQ without looking for one (`Board.Heeds`). Every instruction keeps to that
(`Exec.heeds_executeNext`), because every write of a status word looks at the lines again.
-/

namespace Armv4T

namespace InterruptLines

/-- A request is eligible, as far as the lines are concerned. -/
def Requested (l : InterruptLines) : Prop := l.master = true ∧ l.pending ≠ 0

instance (l : InterruptLines) : Decidable l.Requested :=
  inferInstanceAs (Decidable (l.master = true ∧ l.pending ≠ 0))

/-- A request does not withdraw another one. -/
lemma Requested.raise {l : InterruptLines} (h : l.Requested) (line : Word) :
    (l.raise line).Requested := by
  refine ⟨h.1, fun hnone => h.2 ?_⟩
  have hpending : (l.raise line).pending =
      l.pending ||| (l.enabled &&& (1 <<< line.toUInt16)) := by
    apply UInt16.toBitVec_inj.mp
    ext i
    simp [pending, InterruptLines.raise, Bool.and_or_distrib_left]
  exact (UInt16.or_eq_zero_iff.mp (hpending.symm.trans hnone)).1

/-- Withdrawing requests makes none. -/
lemma Requested.of_acknowledge {l : InterruptLines} {mask : UInt16}
    (h : (l.acknowledge mask).Requested) : l.Requested := by
  refine ⟨h.1, fun hnone => h.2 ?_⟩
  show l.enabled &&& (l.flags &&& ~~~mask) = 0
  have hnone' : l.enabled &&& l.flags = 0 := hnone
  rw [← UInt16.and_assoc, hnone', UInt16.zero_and]

variable (l : InterruptLines) (irqDisabled : Bool)

/-- A test of the lines does nothing but arm them. -/
lemma test_eq : l.test irqDisabled = { l with armed := (l.test irqDisabled).armed } := by
  unfold test
  split <;> rfl

lemma armed_test : (l.test irqDisabled).armed = true ↔
    l.armed = true ∨ l.Requested ∧ irqDisabled = false := by
  unfold test Requested
  split_ifs with h
  · simp_all
  · simp_all

end InterruptLines

namespace Board

/-! ### Looking at the interrupts -/

/-- Looking at the interrupts enters the interrupt exception, as can be seen on the registers. -/
def TakesIrq (b : Board) : Prop := b.updateInterrupts.core.regs ≠ b.core.regs

instance (b : Board) : Decidable b.TakesIrq :=
  inferInstanceAs (Decidable (b.updateInterrupts.core.regs ≠ b.core.regs))

/-- The interrupt is taken if it is armed and IRQ is not disabled. -/
lemma takesIrq_iff (b : Board) :
    b.TakesIrq ↔ b.irq.armed = true ∧ b.core.regs.flags.i = false := by
  constructor
  · intro htaken
    refine ⟨?_, (b.updateInterrupts_cases.resolve_left htaken).1⟩
    by_contra hidle
    rw [TakesIrq, updateInterrupts_eq, if_neg hidle] at htaken
    exact htaken b.wake_regs
  · rintro ⟨harmed, henabled⟩ hregs
    rw [← wake_regs] at henabled
    have hpasses : ¬(b.wake.mapIrq ({ · with armed := false })).core.regs.flags.i = true :=
      Bool.eq_false_iff.mp henabled
    have hi : b.updateInterrupts.core.regs.flags.i = true := by
      rw [updateInterrupts_eq, if_pos harmed, raiseIrq, if_neg hpasses]
      rfl
    rw [hregs, ← wake_regs, henabled] at hi
    exact Bool.false_ne_true hi

/-- Taking the interrupt enters its exception. -/
lemma TakesIrq.entered {b : Board} (h : b.TakesIrq) :
    b.updateInterrupts.Entered b.core.regs.mode .irq irqVector :=
  (b.updateInterrupts_cases.resolve_left h).2

/-- Looking at the interrupts leaves nothing armed, and changes nothing else of the lines. -/
lemma irq_updateInterrupts (b : Board) :
    b.updateInterrupts.irq = { b.irq with armed := false } := by
  have hwake : (b.wake.mapIrq ({ · with armed := false })).irq = { b.irq with armed := false } := by
    rw [← b.wake_irq]
    rfl
  rw [updateInterrupts_eq]
  split
  · unfold raiseIrq
    split <;> exact hwake
  · rename_i hidle
    have hidle' : b.irq.armed = false := Bool.eq_false_iff.mpr hidle
    rw [wake_irq, ← hidle']

/-! ### No eligible request is lost -/

/-- An eligible request is armed, unless IRQ is disabled. -/
def Attends (b : Board) : Prop :=
  b.irq.Requested → b.core.regs.flags.i = false → b.irq.armed = true

instance (b : Board) : Decidable b.Attends :=
  inferInstanceAs (Decidable (b.irq.Requested → b.core.regs.flags.i = false → b.irq.armed = true))

/-- After a test of the lines no eligible request is lost. -/
lemma attends_testIrq (b : Board) : b.testIrq.Attends := by
  intro hrequested henabled
  have hlines : b.testIrq.irq = b.irq.test b.core.regs.flags.i := rfl
  rw [hlines] at hrequested ⊢
  rw [InterruptLines.test_eq] at hrequested
  exact (b.irq.armed_test _).mpr (.inr ⟨hrequested, henabled⟩)

/-- Looking at the interrupts loses no eligible request: where it disarms them, IRQ is disabled
afterwards. -/
lemma Attends.updateInterrupts {b : Board} (h : b.Attends) : b.updateInterrupts.Attends := by
  intro hrequested henabled
  have hdisabled : ¬b.TakesIrq := by
    intro htaken
    exact Bool.false_ne_true (henabled.symm.trans htaken.entered.disabled)
  have hregs : b.updateInterrupts.core.regs = b.core.regs := not_not.mp hdisabled
  rw [irq_updateInterrupts] at hrequested
  rw [hregs] at henabled
  exact absurd (b.takesIrq_iff.mpr ⟨h hrequested henabled, henabled⟩) hdisabled

/-- What an instruction may do to the interrupt lines: it arms them only for an eligible request,
and it loses no eligible request. -/
structure Heeds (b b' : Board) : Prop where
  lines : b'.irq = { b.irq with armed := b'.irq.armed }
  cause : b'.irq.armed = true → b.irq.armed = true ∨ b.irq.Requested
  attends : b.Attends → b'.Attends

namespace Heeds

variable {b b' b'' : Board}

lemma requested_iff (h : b.Heeds b') : b'.irq.Requested ↔ b.irq.Requested := by
  rw [h.lines]
  exact Iff.rfl

lemma trans (h : b.Heeds b') (h' : b'.Heeds b'') : b.Heeds b'' where
  lines := by
    rw [h'.lines, h.lines]
  cause := by
    intro harmed
    rcases h'.cause harmed with harmed' | hrequested
    · exact h.cause harmed'
    · exact .inr (h.requested_iff.mp hrequested)
  attends := fun hb => h'.attends (h.attends hb)

/-- It is enough to leave the lines alone and not to enable IRQ. -/
lemma of_irq_eq (hirq : b'.irq = b.irq)
    (hi : b'.core.regs.flags.i = false → b.core.regs.flags.i = false) : b.Heeds b' where
  lines := by rw [hirq]
  cause := fun harmed => .inl (hirq ▸ harmed)
  attends := by
    intro hb hrequested henabled
    rw [hirq] at hrequested ⊢
    exact hb hrequested (hi henabled)

lemma of_bare (h : b'.bare = b.bare) : b.Heeds b' := by
  obtain ⟨hcore, -, hirq⟩ := bare_eq_iff.mp h
  have hi : b'.core.bare.regs.flags.i = b.core.bare.regs.flags.i := by rw [hcore]
  exact .of_irq_eq hirq fun henabled => hi.symm.trans henabled

/-- Or to test the lines in the end. -/
lemma testIrq {b₁ : Board} (h : b₁.irq = b.irq) : b.Heeds b₁.testIrq where
  lines := by
    rw [← h]
    exact b₁.irq.test_eq _
  cause := by
    intro harmed
    rw [← h]
    exact ((b₁.irq.armed_test _).mp harmed).imp_right And.left
  attends := fun _ => b₁.attends_testIrq

end Heeds

end Board

/-- No change of the core enables IRQ. -/
lemma Core.Change.enabled {s : Exec.Scope} {f : Core → Core} (h : Change s f) {c : Core}
    (henabled : (f c).regs.flags.i = false) : c.regs.flags.i = false := by
  cases h with
  | mapFlags hf => exact (hf c.regs.flags).1.symm.trans henabled
  | testCondition cond => rwa [← c.testCondition_regs cond]
  | @evalSingle a _ =>
    obtain ⟨rn, offset, up, indexing⟩ := a
    cases offset <;> cases indexing <;> exact henabled
  | switchMode mode => rwa [← (c.regs.switchMode_unbanked mode).2.1]
  | trap _ _ => exact nomatch henabled
  | setReg | setSet | charge | evalOperand | halt => exact henabled

namespace Exec

/-- The primitive actions of all instructions heed the interrupts. -/
lemma passage_heeds : Board.Passage .full Board.Heeds where
  of_bare := .of_bare
  trans := .trans
  mapCore hf _ := .of_irq_eq rfl hf.enabled
  loadStatus _ _ _ _ _ _ := .testIrq rfl
  writeSaved mask value b := by
    refine .of_irq_eq rfl fun henabled => ?_
    have hflags : (Arm.writeSaved mask value b.core.regs).flags = b.core.regs.flags := by
      unfold Arm.writeSaved
      split <;> rfl
    rwa [← hflags]
  writeCurrent _ := .testIrq rfl
  store _ _ _ _ _ := .of_irq_eq rfl id

/-- Every instruction heeds the interrupts, also one that fails. -/
theorem heeds_executeNext : Establishes Board.Heeds executeNext :=
  establishes_executeNext passage_heeds fun _ _ => .of_irq_eq rfl id

end Exec

/-! ### Getting to look at the interrupts -/

/-- A step of the board gets to looking at the interrupts, and looks at them on another board. -/
def Board.Updates (b b₁ : Board) : Prop :=
  (if b.core.halted then pure () else Exec.executeNext : Exec Unit) b = .ok () b₁

namespace Exec

variable {b b' : Board}

/-- What a step does before it looks at the interrupts heeds them. -/
lemma heeds_attempt (b : Board) :
    b.Heeds ((if b.core.halted then pure () else executeNext : Exec Unit).after b) := by
  have hall : Establishes Board.Heeds (if b.core.halted then pure () else executeNext : Exec Unit) :=
    .ite ((Quiet.pure ()).establishes passage_heeds) heeds_executeNext
  exact hall b

/-- A step that finishes ends with a look at the interrupts. -/
lemma exists_updates_of_step (h : step b = .ok () b') :
    ∃ b₁, b.Updates b₁ ∧ b' = b₁.updateInterrupts := by
  rw [step_apply] at h
  obtain ⟨⟨⟩, b₁, hupdates, hlooked⟩ := exists_of_bind_ok h
  exact ⟨b₁, hupdates, (EStateM.Result.ok.inj hlooked).2.symm⟩

/-- A step looks at the interrupts, or fails before it gets to that. -/
lemma step_cases (b : Board) :
    (∃ b₁, b.Updates b₁ ∧ step b = .ok () b₁.updateInterrupts) ∨
      (∀ b₁, ¬b.Updates b₁) ∧ ∃ fault b₁, b.Heeds b₁ ∧ step b = .error fault b₁ := by
  have hb := heeds_attempt b
  rw [step_apply]
  rcases hrun : (if b.core.halted then pure () else executeNext : Exec Unit) b with
    ⟨⟨⟩, b₁⟩ | ⟨fault, b₁⟩
  · exact .inl ⟨b₁, hrun, bind_of_ok hrun⟩
  · rw [after_of_error hrun] at hb
    exact .inr ⟨fun _ hupdates => (nomatch hrun.symm.trans hupdates), fault, b₁, hb,
      bind_of_error hrun⟩

end Exec

lemma Board.Updates.heeds {b b₁ : Board} (h : b.Updates b₁) : b.Heeds b₁ := by
  have hb := Exec.heeds_attempt b
  rwa [Exec.after_of_ok h] at hb

/-- Without an armed interrupt and an eligible request, a step takes no interrupt. -/
lemma Board.Updates.not_takesIrq {b b₁ : Board} (h : b.Updates b₁) (hidle : b.irq.armed = false)
    (hnone : ¬b.irq.Requested) : ¬b₁.TakesIrq := by
  rw [takesIrq_iff]
  rintro ⟨harmed, -⟩
  rcases h.heeds.cause harmed with harmed' | hrequested
  · exact nomatch hidle.symm.trans harmed'
  · exact hnone hrequested

end Armv4T
