import Mathlib
import Armv4T.Proofs.Exec.Abreast
import Armv4T.Proofs.Step.Caching

/-!
# Steps of boards abreast

What boards abreast execute are the same instructions, if what they remember leads both to the
decoding of the same instruction or neither (`Exec.Finds`). Then a step ends in the same way on
both, and leaves them abreast (`Exec.concur_step`). Only what they remember of decodings may differ
after it, and the scratch that the next instruction does not read.
-/

namespace Armv4T

/-! ### Fetches -/

namespace Board.Abreast

variable {executing : Bool} {T T' : Remembered → Remembered → Prop} {b c : Board}

/-- What depends on the registers alone is the same. -/
lemma eq_of_regs {α : Type} (h : Abreast executing T b c) (f : Core → α)
    (hf : ∀ c, f c = f { regs := c.regs }) : f c.core = f b.core := by
  rw [hf c.core, h.regs, ← hf]

/-- Other decodings may be remembered. -/
lemma remembering (h : Abreast executing T b c) {current current' : Option HandleId}
    {cache cache' : InstructionCache}
    (hT : T' ⟨current, b.core.cacheEnabled, cache⟩ ⟨current', c.core.cacheEnabled, cache'⟩)
    (journal journal' : Array Notice) :
    Abreast executing T' ⟨{ b.core with current }, { b.bus with cache }, b.irq, journal⟩
      ⟨{ c.core with current := current' }, { c.bus with cache := cache' }, c.irq, journal'⟩ :=
  ⟨h.regs, h.cycles, h.halted, h.passed, ⟨h.memory.wiring, h.memory.sizes, h.memory.contents⟩,
    h.irq, hT⟩

/-- The same instruction is decoded from memory. -/
lemma decoded (h : Abreast executing T b c) (address : Word) :
    c.decoded address = b.decoded address := by
  rw [Board.decoded, Board.decoded, h.regs, h.memory.opcodeAt]

end Board.Abreast

namespace Exec

open Board (Abreast)

/-- Boards abreast fetch in the same way, if both find something in the cache or neither does. -/
lemma loadHandle_cases_abreast {executing : Bool} {T : Remembered → Remembered → Prop} {b c : Board}
    (hbc : Abreast executing T b c) {address : Word}
    (hsome : (c.searched address).1.isSome = (b.searched address).1.isSome) :
    (∃ found found', (b.searched address).1 = some found ∧ (c.searched address).1 = some found' ∧
      loadHandle address b = .ok found (b.remember (b.searched address).2) ∧
      loadHandle address c = .ok found' (c.remember (c.searched address).2)) ∨
    (∃ fault, loadHandle address b = .error fault (b.remember (b.searched address).2) ∧
      loadHandle address c = .error fault (c.remember (c.searched address).2)) ∨
    ∃ journal journal',
      loadHandle address b =
        .ok (((b.searched address).2.insert (b.decoded address)).1, b.decoded address)
          { b.remember ((b.searched address).2.insert (b.decoded address)).2 with journal } ∧
      loadHandle address c =
        .ok (((c.searched address).2.insert (b.decoded address)).1, b.decoded address)
          { c.remember ((c.searched address).2.insert (b.decoded address)).2 with
            journal := journal' } := by
  have hfault := hbc.memory.eq_of_wiring (·.fault? address) fun _ => rfl
  rcases loadHandle_cases address b with ⟨found, hfound, hb⟩ | ⟨fault, hmiss, hbad, hb⟩ |
      ⟨journal, hmiss, hgood, hb⟩ <;>
    rcases loadHandle_cases address c with ⟨found', hfound', hc⟩ | ⟨fault', hmiss', hbad', hc⟩ |
      ⟨journal', hmiss', hgood', hc⟩
  · exact .inl ⟨found, found', hfound, hfound', hb, hc⟩
  · simp [hfound, hmiss'] at hsome
  · simp [hfound, hmiss'] at hsome
  · simp [hmiss, hfound'] at hsome
  · obtain rfl : fault' = fault := Option.some.inj (hbad'.symm.trans (hfault.trans hbad))
    exact .inr (.inl ⟨fault', hb, hc⟩)
  · exact nomatch hbad.symm.trans (hfault.symm.trans hgood')
  · simp [hmiss, hfound'] at hsome
  · exact nomatch hgood.symm.trans (hfault.symm.trans hbad')
  · rw [hbc.decoded] at hc
    exact .inr (.inr ⟨journal, journal', hb, hc⟩)

/-! ### Results that concur -/

/-- Two results give related values and leave related boards, or they are the same fault. -/
inductive Concur {α : Type} (H : α → α → Prop) (S : Board → Board → Prop) :
    EStateM.Result Fault Board α → EStateM.Result Fault Board α → Prop
  | ok {a a' : α} (ha : H a a') {b c : Board} (h : S b c) : Concur H S (.ok a b) (.ok a' c)
  | error (e : Fault) {b c : Board} (h : S b c) : Concur H S (.error e b) (.error e c)

section

variable {α β : Type} {H : α → α → Prop} {K : β → β → Prop} {S S' : Board → Board → Prop}

lemma Concur.of_agree {r r' : EStateM.Result Fault Board α} (h : Agree S r r') :
    Concur (· = ·) S r r' := by
  cases h with
  | ok a h => exact .ok rfl h
  | error e h => exact .error e h

/-- Actions in a row concur, also if the boards are related in another way in the end. -/
lemma Concur.bind {x y : Exec α} {f g : α → Exec β} {b c : Board} (h : Concur H S (x b) (y c))
    (hS : ∀ {b c}, S b c → S' b c)
    (hf : ∀ {a a'}, H a a' → ∀ {b c}, S b c → Concur K S' (f a b) (g a' c)) :
    Concur K S' ((x >>= f) b) ((y >>= g) c) := by
  show Concur K S' (EStateM.bind x f b) (EStateM.bind y g c)
  unfold EStateM.bind
  revert h
  generalize x b = r
  generalize y c = r'
  intro h
  cases h with
  | ok ha h => exact hf ha h
  | error e h => exact .error e (hS h)

end

open Remembered (Tenable)

/-- Boards abreast find related handles for their next instructions, and look for related
successors. Related handles are of the same instruction. -/
structure Finds (T : Remembered → Remembered → Prop) (H : Handle → Handle → Prop) : Prop
    extends Tenable T where
  point : ∀ {h h'}, H h h' → h'.point = h.point
  instruction : ∀ {h h'}, H h h' → h'.instruction = h.instruction
  current : ∀ {b c}, Abreast false T b c →
    Concur H (Abreast false T) (currentHandle b) (currentHandle c)
  follow : ∀ {h h'}, H h h' → ∀ {b c}, Abreast false T b c →
    Concur (· = ·) (Abreast false T) (followCurrent h.next b) (followCurrent h'.next c)

/-! ### The execution of an instruction -/

variable {T : Remembered → Remembered → Prop} {H : Handle → Handle → Prop} {b c : Board}
  {h h' : Handle}

lemma concur_forget (hT : Tenable T) (hbc : Abreast true T b c) :
    Concur (· = ·) (Abreast false T) (setCurrent none b) (setCurrent none c) :=
  .ok rfl { hbc.resting with remembered := hT.forget hbc.remembered }

/-- After the same instruction, execution continues in the same way. -/
lemma concur_advance (hT : Finds T H) (hh : H h h') (hbc : Abreast true T b c) :
    Concur (· = ·) (Abreast false T) (advance h b) (advance h' c) := by
  unfold advance
  rw [hT.instruction hh]
  rcases h.instruction.writesPc with _ | _
  · exact hT.follow hh hbc.resting
  · have hread : Concur (· = ·) (Abreast true T) (core Core.conditionPassed b)
        (core Core.conditionPassed c) :=
      .ok (hbc.passed rfl).symm hbc
    refine hread.bind .resting ?_
    rintro passed _ rfl b c hbc
    cases passed with
    | false => exact concur_forget hT.toTenable hbc
    | true =>
      have hrefill : Made .full refill := made_refill rfl
      refine (Concur.of_agree (hrefill.respects_abreast hT.toTenable b c hbc)).bind .resting ?_
      rintro _ _ - b c hbc
      cases h.instruction.isFixedJump with
      | false => exact concur_forget hT.toTenable hbc
      | true => exact hT.follow hh hbc.resting

/-- Boards abreast execute the same instruction, and it leaves them abreast. -/
theorem concur_executeNext (hT : Finds T H) (hbc : Abreast false T b c) :
    Concur (· = ·) (Abreast false T) (executeNext b) (executeNext c) := by
  rw [executeNext_apply, executeNext_apply]
  refine (hT.current hbc).bind id ?_
  intro h h' hh b c hbc
  have hpoint := hT.point hh
  have hset : h'.set = h.set := congrArg Point.set hpoint
  have haddress : h'.address = h.address := congrArg Point.address hpoint
  have hsame : instruction h' = instruction h := by
    unfold instruction
    rw [hT.instruction hh, haddress]
  have hinstruction : Made .full (instruction h) :=
    made_instruction (Scope.covers_full h.instruction) (.inl rfl)
  -- the outcome of the condition test is set before it counts
  have hpipelined : Abreast true T (b.mapCore (pipelined h.set)) (c.mapCore (pipelined h.set)) := by
    refine { hbc with regs := ?_, passed := fun _ => rfl }
    show c.core.regs.write .pc (c.core.regs.read .pc + _) = b.core.regs.write .pc _
    rw [hbc.regs]
    rfl
  rw [hset, hsame]
  show Concur _ _ ((instruction h >>= fun _ => advance h) (b.mapCore (pipelined h.set)))
    ((instruction h >>= fun _ => advance h') (c.mapCore (pipelined h.set)))
  refine (Concur.of_agree (hinstruction.respects_abreast hT.toTenable _ _ hpipelined)).bind
    .resting ?_
  rintro _ _ - b c hbc
  exact concur_advance hT hh hbc

end Exec

/-! ### Interrupts -/

namespace Board.Abreast

variable {executing : Bool} {T : Remembered → Remembered → Prop} {b c : Board}

lemma raiseIrq (hT : Remembered.Tenable T) (h : Abreast executing T b c) :
    Abreast executing T b.raiseIrq c.raiseIrq := by
  have hnext := h.eq_of_regs Core.nextAddress fun _ => rfl
  unfold Board.raiseIrq
  rw [h.regs, hnext]
  split
  · exact h
  · have hregs := h.eq_of_regs
      (fun x => (x.enterException .irq irqVector (b.core.nextAddress + 4)).regs) fun _ => rfl
    exact { h with regs := hregs, halted := rfl, remembered := hT.forget h.remembered }

lemma wake (h : Abreast executing T b c) : Abreast executing T b.wake c.wake := by
  unfold Board.wake
  rw [h.halted, h.irq]
  split
  · exact { h with halted := rfl }
  · exact h

lemma updateInterrupts (hT : Remembered.Tenable T) (h : Abreast executing T b c) :
    Abreast executing T b.updateInterrupts c.updateInterrupts := by
  rw [updateInterrupts_eq, updateInterrupts_eq, h.irq]
  split
  · exact (h.wake.mapIrq _).raiseIrq hT
  · exact h.wake

end Board.Abreast

namespace Exec

open Board (Abreast)

variable {T : Remembered → Remembered → Prop} {H : Handle → Handle → Prop} {b c : Board}

/-- A step ends in the same way on boards abreast, and leaves them abreast. -/
theorem concur_step (hT : Finds T H) (hbc : Abreast false T b c) :
    Concur (· = ·) (Abreast false T) (step b) (step c) := by
  have hrun : Concur (· = ·) (Abreast false T)
      ((if b.core.halted then pure () else executeNext : Exec Unit) b)
      ((if b.core.halted then pure () else executeNext : Exec Unit) c) := by
    split
    · exact .ok rfl hbc
    · exact concur_executeNext hT hbc
  rw [step_apply, step_apply, hbc.halted]
  refine hrun.bind id ?_
  rintro _ _ - b c hbc
  exact .ok rfl (hbc.updateInterrupts hT.toTenable)

end Exec

end Armv4T
