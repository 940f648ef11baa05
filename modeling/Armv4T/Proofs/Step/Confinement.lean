import Mathlib
import Armv4T.Proofs.Machine.Commands
import Armv4T.Proofs.Step.Exception
import Armv4T.Proofs.Step.Quiet

/-!
# User mode is confined

A step from User mode that finishes leaves User mode only through an exception: a software interrupt
that traps, or an interrupt request (`Board.Entered`). Without an exception, whatever the
instruction and the memory, the interrupt masks, every saved status word and every register of
another mode are as they were (`Board.Confined`). So no run of steps reaches another mode except
through the vectors.
-/

namespace Armv4T

/-- A board in User mode, with the interrupt masks of another board, with its saved status words and
with its registers, except for the copies that User mode selects. -/
structure Board.Confined (b b' : Board) : Prop where
  mode : b'.core.regs.mode = .user
  i : b'.core.regs.flags.i = b.core.regs.flags.i
  f : b'.core.regs.flags.f = b.core.regs.flags.f
  content : ∀ p, (∀ a, a ≠ .spsr → Mode.user.select a ≠ p) →
    b'.core.regs.content p = b.core.regs.content p

/-! ### Guarded registers -/

/-- The copies that User mode does not see are guarded. -/
lemma Registers.Guarded.content_eq {r s : Registers} (h : r.Guarded s) (hmode : r.mode = .user)
    {p : PhysicalReg} (hp : ∀ a, a ≠ .spsr → Mode.user.select a ≠ p) :
    s.content p = r.content p := by
  rw [content, content, h.mode, hmode]
  by_cases hselected : Mode.user.select p.name = p
  · have hname : p.name = .spsr := by_contra fun hne => hp p.name hne hselected
    rw [if_pos hselected, if_pos hselected, hname]
    exact h.spsr
  · rw [if_neg hselected, if_neg hselected]
    cases p with
    | low i => exact absurd rfl hselected
    | high fiq i => simp only [slot, h.high, h.fiqHigh]
    | sp bank | lr bank | spsr bank => simp only [slot, h.banks]

namespace Board.Confined

variable {b b' b'' : Board}

lemma of_guarded (h : b.core.regs.Guarded b'.core.regs) (hmode : b.core.regs.mode = .user) :
    b.Confined b' :=
  ⟨h.mode.trans hmode, h.i, h.f, fun _ hp => h.content_eq hmode hp⟩

lemma trans (h : b.Confined b') (h' : b'.Confined b'') : b.Confined b'' :=
  ⟨h'.mode, h'.i.trans h.i, h'.f.trans h.f, fun p hp => (h'.content p hp).trans (h.content p hp)⟩

end Board.Confined

namespace Exec

/-! ### Executing an instruction -/

/-- A board on which a software interrupt has trapped: nothing is remembered of the next
instruction. -/
def Trapped (b : Board) : Prop :=
  b.Entered .user .supervisor trapVector ∧ b.core.current = none

variable {b b' : Board}

/-- A software interrupt traps, or is served and keeps the guarded part. -/
lemma softwareInterrupt_user (hmode : b.core.regs.mode = .user) {comment : Word} {set : InstrSet}
    (hok : (do Bios.softwareInterrupt comment; prefetch set : Exec Unit) b = .ok () b') :
    b.core.regs.Guarded b'.core.regs ∨ Trapped b' := by
  obtain ⟨u, b₁, hserved, hfetch⟩ := exists_of_bind_ok hok
  obtain ⟨-, rfl⟩ := EStateM.Result.ok.inj (hfetch.symm.trans (prefetch_apply set b₁))
  unfold Bios.softwareInterrupt at hserved
  split_ifs at hserved
  · obtain ⟨-, rfl⟩ := EStateM.Result.ok.inj hserved
    refine .inr ⟨?_, rfl⟩
    rw [← hmode]
    exact b.entered_enterException _ _ _ rfl
  · obtain ⟨-, rfl⟩ := EStateM.Result.ok.inj hserved
    exact .inl (.refl _)
  · exact .inl (keeps_dispatch .user comment b u b₁ hmode hserved)

/-- In User mode an instruction keeps the guarded part, unless it is a software interrupt that
traps. -/
lemma instruction_user (hmode : b.core.regs.mode = .user) {h : Handle}
    (hok : instruction h b = .ok () b') :
    b.core.regs.Guarded b'.core.regs ∨ Trapped b' ∧ h.instruction.writesPc = false := by
  unfold instruction at hok
  rcases hi : h.instruction with ⟨cond, op⟩ | i
  · rw [hi] at hok
    by_cases hinterrupt : ∃ comment, op = .softwareInterrupt comment
    · obtain ⟨comment, rfl⟩ := hinterrupt
      obtain ⟨passed, b₁, htest, hact⟩ := exists_of_bind_ok (x := testCondition cond) hok
      have hkept := Keeps.testCondition cond b passed b₁ hmode htest
      cases passed with
      | true =>
        refine (softwareInterrupt_user (hkept.mode.trans hmode) hact).imp hkept.trans ?_
        exact fun htrapped => ⟨htrapped, rfl⟩
      | false => exact .inl (hkept.trans (Keeps.prefetch .arm b₁ () b' (hkept.mode.trans hmode) hact))
    · have hother : ∀ comment, op ≠ .softwareInterrupt comment :=
        fun comment e => hinterrupt ⟨comment, e⟩
      exact .inl (Arm.keeps_exec ⟨cond, op⟩ h.address hother b () b' hmode hok)
  · rw [hi] at hok
    by_cases hinterrupt : ∃ comment, i = .softwareInterrupt comment
    · obtain ⟨comment, rfl⟩ := hinterrupt
      refine (softwareInterrupt_user hmode hok).imp_right fun htrapped => ⟨htrapped, rfl⟩
    · have hother : ∀ comment, i ≠ .softwareInterrupt comment :=
        fun comment e => hinterrupt ⟨comment, e⟩
      exact .inl (Thumb.keeps_exec i h.address hother b () b' hmode hok)

/-! ### Fetching and advancing -/

section

variable {m : Mode}

lemma Quiet.keeps {α : Type} {x : Exec α} (h : Quiet x) : Keeps m x := by
  intro b a b' _ hok
  have hregs : b'.bare.core.regs = b.bare.core.regs := by rw [h.bare hok]
  exact .of_eq hregs

lemma keeps_refill : Keeps m refill :=
  .bind (.core _) fun _ => .bind (.chargeBus _) fun _ => .setReg _ _

lemma keeps_advance (h : Handle) : Keeps m (advance h) := by
  have hfollow := (quiet_followCurrent h.next).keeps (m := m)
  have hforget := (quiet_setCurrent none).keeps (m := m)
  unfold advance
  refine .ite hfollow (.bind (.core _) fun passed => .ite ?_ hforget)
  exact .bind keeps_refill fun _ => .ite hfollow hforget

end

/-- After a trap nothing more happens to the registers: there is no current decoding to follow. -/
lemma Trapped.advance (htrapped : Trapped b) {h : Handle} (hw : h.instruction.writesPc = false)
    (hok : advance h b = .ok () b') : b'.Entered .user .supervisor trapVector := by
  obtain ⟨hentered, hcurrent⟩ := htrapped
  have hforget := advance_of_forgotten hw hcurrent
  obtain ⟨-, rfl⟩ := EStateM.Result.ok.inj (hok.symm.trans hforget)
  exact hentered.of_regs_eq rfl

/-- The next instruction of User mode keeps the guarded part, unless it traps. -/
lemma executeNext_user (hmode : b.core.regs.mode = .user) (hok : executeNext b = .ok () b') :
    b.core.regs.Guarded b'.core.regs ∨ b'.Entered .user .supervisor trapVector := by
  rw [executeNext_apply] at hok
  obtain ⟨h, b₁, hcurrent, hrest⟩ := exists_of_bind_ok hok
  have hfetched := quiet_currentHandle.keeps b h b₁ hmode hcurrent
  let b₂ := b₁.mapCore (pipelined h.set)
  have hpipelined : b.core.regs.Guarded b₂.core.regs :=
    hfetched.trans (.write b₁.core.regs .pc _)
  obtain ⟨u, b₃, hinstruction, hadvance⟩ :=
    exists_of_bind_ok (x := instruction h) (b := b₂) hrest
  rcases instruction_user (hpipelined.mode.trans hmode) hinstruction with
    hkept | ⟨htrapped, hw⟩
  · have hexecuted := hpipelined.trans hkept
    exact .inl (hexecuted.trans
      (keeps_advance h b₃ () b' (hexecuted.mode.trans hmode) hadvance))
  · exact .inr (htrapped.advance hw hadvance)

/-- A step from User mode that finishes keeps the guarded part, or enters an exception. -/
lemma step_user (hmode : b.core.regs.mode = .user) (hok : step b = .ok () b') :
    b.core.regs.Guarded b'.core.regs ∨ b'.Entered .user .supervisor trapVector ∨
      b'.Entered .user .irq irqVector := by
  rw [step_apply] at hok
  obtain ⟨u, b₁, hexecute, hupdate⟩ := exists_of_bind_ok hok
  obtain ⟨-, rfl⟩ := EStateM.Result.ok.inj hupdate
  have hexecuted :
      b.core.regs.Guarded b₁.core.regs ∨ b₁.Entered .user .supervisor trapVector := by
    split at hexecute
    · obtain ⟨-, rfl⟩ := EStateM.Result.ok.inj hexecute
      exact .inl (.refl _)
    · exact executeNext_user hmode hexecute
  rcases hexecuted with hkept | hentered
  · rcases b₁.updateInterrupts_cases with hregs | ⟨-, hentered⟩
    · exact .inl (hkept.trans (.of_eq hregs))
    · rw [hkept.mode, hmode] at hentered
      exact .inr (.inr hentered)
  · exact .inr (.inl hentered.updateInterrupts)

/-! ### Runs -/

/-- One board is followed by another if devices change the interrupt lines and then a step
finishes. -/
def Stepped (b b' : Board) : Prop := ∃ lines, step { b with irq := lines } = .ok () b'

/-- A step from User mode that finishes either leaves User mode confined, or enters an exception. -/
lemma Stepped.user (h : Stepped b b') (hmode : b.core.regs.mode = .user) :
    b.Confined b' ∨ b'.Entered .user .supervisor trapVector ∨ b'.Entered .user .irq irqVector := by
  obtain ⟨lines, hok⟩ := h
  have hstep := step_user (b := { b with irq := lines }) hmode hok
  exact hstep.imp_left fun hkept => .of_guarded hkept hmode

/-- A run that starts confined stays confined up to the first exception. -/
lemma confined_run {start : Board} {bs : List Board} (hb : start.Confined b)
    (hrun : List.IsChain Stepped (b :: bs)) :
    (∀ c ∈ bs, start.Confined c) ∨
      ∃ before c after, bs = before ++ c :: after ∧ (∀ d ∈ before, start.Confined d) ∧
        (c.Entered .user .supervisor trapVector ∨ c.Entered .user .irq irqVector) := by
  induction bs generalizing b with
  | nil => exact .inl fun c hc => nomatch hc
  | cons c cs ih =>
    obtain ⟨hstep, hrest⟩ := List.isChain_cons_cons.mp hrun
    rcases hstep.user hb.mode with hconfined | hentered
    · have hc := hb.trans hconfined
      rcases ih hc hrest with hall | ⟨before, d, after, rfl, hbefore, hentered⟩
      · exact .inl (List.forall_mem_cons.mpr ⟨hc, hall⟩)
      · exact .inr ⟨c :: before, d, after, rfl, List.forall_mem_cons.mpr ⟨hc, hbefore⟩, hentered⟩
    · exact .inr ⟨[], c, cs, rfl, (fun d hd => nomatch hd), hentered⟩

/-- User mode is confined. A step from User mode that finishes leaves the mode, the interrupt masks,
the saved status words and the registers of other modes as they were, or enters an exception: in
Supervisor mode at the vector of software interrupts, or in IRQ mode at the vector of interrupt
requests. So on a run of steps, all boards are confined, or all up to one that has just entered an
exception. -/
theorem user_confined (hmode : b.core.regs.mode = .user) :
    (∀ b', step b = .ok () b' → b.Confined b' ∨
      b'.Entered .user .supervisor trapVector ∨ b'.Entered .user .irq irqVector) ∧
    ∀ bs, List.IsChain Stepped (b :: bs) → (∀ c ∈ bs, b.Confined c) ∨
      ∃ before c after, bs = before ++ c :: after ∧ (∀ d ∈ before, b.Confined d) ∧
        (c.Entered .user .supervisor trapVector ∨ c.Entered .user .irq irqVector) := by
  refine ⟨fun b' hok => Stepped.user ⟨b.irq, hok⟩ hmode, fun bs hrun => ?_⟩
  exact confined_run (.of_guarded (.refl _) hmode) hrun

/-- A board in User mode that executes a software interrupt next. -/
def trapping : Board :=
  ((Machine.handheld [(0x03000000, 0xEF000000)]).reset 0x03000000).board.mapCore
    (·.switchMode .user)

/-- A software interrupt leaves User mode, so that it must have entered an exception. -/
theorem user_confined_trapping : trapping.core.regs.mode = .user ∧
    ∃ b', step trapping = .ok () b' ∧
      (b'.Entered .user .supervisor trapVector ∨ b'.Entered .user .irq irqVector) := by
  have hmode : trapping.core.regs.mode = .user := trapping.core.regs.mode_switchMode .user
  have hfinishes : step.run' trapping = some () := by decide +kernel
  have hleaves : (step.after trapping).core.regs.mode = .supervisor := by decide +kernel
  rcases hstep : step trapping with ⟨u, b'⟩ | ⟨fault, b'⟩
  · rw [after_of_ok hstep] at hleaves
    refine ⟨hmode, b', rfl, ((user_confined hmode).1 b' hstep).resolve_left fun h => ?_⟩
    exact nomatch h.mode.symm.trans hleaves
  · rw [EStateM.run', EStateM.run, hstep] at hfinishes
    exact nomatch hfinishes

end Exec

end Armv4T
