import Mathlib
import Armv4T.Proofs.Bus.Shape
import Armv4T.Proofs.Machine.Commands
import Armv4T.Proofs.Step.Quiet

/-!
# Boards that remember different things

Two boards are twins (`Board.Twin`) if they differ in nothing but what they remember of decodings,
be it that the cache of one of them is switched off. Here the bus is not strict, so that finding the
next instruction and looking for its successor cannot fail, and changes nothing else (`Exec.Quiet`).

What twins execute is the same instruction, if they are in step and what they remember is what
memory holds, and twins that execute the same instruction remain twins (`Exec.executeNext_twin`).
-/

namespace Armv4T

namespace Board

/-- Two boards differ in what they remember of decodings, and their bus is not strict. -/
structure Twin (b c : Board) : Prop where
  bare : b.bare = c.bare
  strict : b.bus.strict = false

variable {b c : Board}

/-- What depends on the core but not on its decodings is the same on twins. -/
lemma Twin.core_eq {α : Type} (h : b.Twin c) (f : Core → α) (hf : ∀ c, f c = f c.bare) :
    f b.core = f c.core := by
  rw [hf b.core, hf c.core, (bare_eq_iff.mp h.bare).1]

lemma Twin.point (h : b.Twin c) : b.core.point = c.core.point := h.core_eq Core.point fun _ => rfl

lemma Twin.strict_right (h : b.Twin c) : c.bus.strict = false :=
  (strict_of_bare h.bare).symm.trans h.strict

/-- What changes only what is remembered leaves twins. -/
lemma Twin.congr (h : b.Twin c) {b' c' : Board} (hb : b'.bare = b.bare) (hc : c'.bare = c.bare) :
    b'.Twin c' :=
  ⟨hb.trans (h.bare.trans hc.symm), (strict_of_bare hb).trans h.strict⟩

/-- A cache is tidy and holds what memory holds, and the bus keeps its invariant. -/
structure Sound (F : Set Point) (I : Bus → Prop) (b : Board) : Prop where
  tidy : b.bus.cache.Tidy F
  invariant : I b.bus
  coherent : b.bus.Coherent

lemma Sustained.sound {F : Set Point} {I : Bus → Prop} (h : Sustained F I b c) (hb : b.Sound F I) :
    c.Sound F I := by
  obtain ⟨hinvariant, hcoherent⟩ := h.coherent hb.tidy ⟨hb.invariant, hb.coherent⟩
  exact ⟨h.tidy hb.tidy, hinvariant, hcoherent⟩

lemma Twin.opcodeAt (h : b.Twin c) : b.bus.opcodeAt = c.bus.opcodeAt :=
  Bus.opcodeAt_congr (bare_eq_iff.mp h.bare).2.1

end Board

/-- Plain actions leave twins. -/
lemma stable_twin {free : Bool} : Stable free Board.Twin := by
  have hs : Stable free fun b c => b.bare = c.bare := stable_bare
  exact
    { core := fun h => hs.core h.bare
      bus := fun h => hs.bus h.bare
      irq := fun h => hs.irq h.bare
      mapCore := fun hf h => ⟨hs.mapCore hf h.bare, h.strict⟩
      mapIrq := fun f _ _ h => ⟨hs.mapIrq f h.bare, h.strict⟩
      note := fun n _ _ h => ⟨hs.note n h.bare, h.strict⟩
      store := fun width address value _ _ h =>
        ⟨hs.store width address value h.bare,
          (Bus.sameShape_store _ width address value).strict.trans h.strict⟩ }

namespace Exec

open Board (Twin)

/-! ### Twins stay twins -/

/-- Quiet actions without a result leave twins, be they the same action or not. -/
lemma matches_of_quiet {x y : Exec Unit} (hx : Quiet x) (hy : Quiet y) : Matches Twin x y := by
  intro b c h
  obtain ⟨⟨⟩, b', hok, hb⟩ := hx.exists_ok h.strict
  obtain ⟨⟨⟩, c', hok', hc⟩ := hy.exists_ok h.strict_right
  rw [hok, hok']
  exact .ok () (h.congr hb hc)

lemma plain_refill : Plain true refill := by
  have hmade : Made ⟨true, true, true, true⟩ refill := made_refill rfl
  exact hmade.plain id

lemma plain_pipelined (set : InstrSet) : Plain true (onCore (pipelined set)) :=
  .onCore ⟨fun _ => rfl, fun _ => rfl, fun _ => .inr ⟨rfl, .inl rfl⟩⟩

/-- After the same instruction, execution continues in the same way. -/
lemma matches_advance {h h' : Handle} (hi : h'.instruction = h.instruction) :
    Matches Twin (advance h) (advance h') := by
  have hfollow := matches_of_quiet (quiet_followCurrent h.next) (quiet_followCurrent h'.next)
  have hforget := matches_of_quiet (quiet_setCurrent none) (quiet_setCurrent none)
  unfold advance
  rw [hi]
  by_cases hw : h.instruction.writesPc
  · rw [hw]
    have hread : Plain true (core Core.conditionPassed) := .core _ fun _ => rfl
    refine matches_bind (hread.respects stable_twin) fun passed => ?_
    cases passed with
    | false => exact hforget
    | true =>
      refine matches_bind (plain_refill.respects stable_twin) fun _ => ?_
      cases h.instruction.isFixedJump with
      | false => exact hforget
      | true => exact hfollow
  · rw [Bool.not_eq_true] at hw
    rw [hw]
    exact hfollow

variable {F : Set Point} {I : Bus → Prop} {b c : Board}

/-- The next instructions of twins are equal, if both are in step and remember what memory holds. -/
lemma currentHandle_twin (h : b.Twin c) (hb : b.Sound F I) (hc : c.Sound F I) (hs : b.Synced)
    (hs' : c.Synced) (hF : b.core.point ∈ F) :
    ∃ e e' b' c', currentHandle b = .ok e b' ∧ currentHandle c = .ok e' c' ∧ b'.Twin c' ∧
      e'.point = e.point ∧ e'.opcode = e.opcode ∧ e.instruction = .decode e.set e.opcode ∧
      e'.instruction = e.instruction := by
  have hfault := Bus.fault?_of_lenient h.strict b.core.nextAddress
  have hfault' := Bus.fault?_of_lenient h.strict_right c.core.nextAddress
  rcases currentHandle_spec hb.tidy hs hF with
    ⟨id, e, b', hok, hr⟩ | ⟨fault, b', hfail, -⟩
  swap
  · exact nomatch hfault.symm.trans hfail
  rcases currentHandle_spec hc.tidy hs' (h.point ▸ hF) with
    ⟨id', e', c', hok', hr'⟩ | ⟨fault, c', hfail, -⟩
  swap
  · exact nomatch hfault'.symm.trans hfail
  have hpoint : e'.point = e.point := by rw [hr.point, hr'.point, h.point]
  have hset : e'.set = e.set := congrArg Point.set hpoint
  have haddress : e'.address = e.address := congrArg Point.address hpoint
  have hopcode : e'.opcode = e.opcode := by
    rw [(hr.coherent hb.coherent).2, (hr'.coherent hc.coherent).2, hset, haddress, h.opcodeAt]
  refine ⟨e, e', b', c', hok, hok', h.congr ?_ ?_, hpoint, hopcode, hr.fits.decoded, ?_⟩
  · exact Board.bare_eq_iff.mpr ⟨by rw [hr.core]; rfl, hr.bus, hr.irq⟩
  · exact Board.bare_eq_iff.mpr ⟨by rw [hr'.core]; rfl, hr'.bus, hr'.irq⟩
  · rw [hr'.fits.decoded, hr.fits.decoded, hset, hopcode]

/-- Twins that are in step and remember what memory holds execute the same instruction and remain
twins. -/
theorem executeNext_twin (h : b.Twin c) (hb : b.Sound F I) (hc : c.Sound F I) (hs : b.Synced)
    (hs' : c.Synced) (hF : b.core.point ∈ F) :
    Agree Twin (executeNext b) (executeNext c) := by
  obtain ⟨e, e', b', c', hok, hok', htwin, hpoint, -, hdecoded, hinstruction⟩ :=
    currentHandle_twin h hb hc hs hs' hF
  have hset : e'.set = e.set := congrArg Point.set hpoint
  have haddress : e'.address = e.address := congrArg Point.address hpoint
  have hsame : instruction e' = instruction e := by
    unfold instruction
    rw [hinstruction, haddress]
  rw [executeNext_apply, executeNext_apply, bind_of_ok hok, bind_of_ok hok', hset, hsame]
  have hplain : Plain true (instruction e) := plain_instruction e hdecoded (.inl rfl)
  refine matches_bind ((plain_pipelined e.set).respects stable_twin) (fun _ => ?_) b' c' htwin
  exact matches_bind (hplain.respects stable_twin) fun _ => matches_advance hinstruction

end Exec

/-! ### Interrupts -/

namespace Board.Twin

variable {b c : Board}

lemma irq (h : b.Twin c) : b.irq = c.irq := (bare_eq_iff.mp h.bare).2.2

lemma mapIrq (h : b.Twin c) (f : InterruptLines → InterruptLines) :
    (b.mapIrq f).Twin (c.mapIrq f) := by
  have hs : Stable true Board.Twin := stable_twin
  exact hs.mapIrq f h

lemma note (h : b.Twin c) (n : Notice) : (b.note n).Twin (c.note n) := by
  have hs : Stable true Board.Twin := stable_twin
  exact hs.note n h

lemma mapCore (h : b.Twin c) {f : Core → Core} (hf : Core.Action true f) :
    (b.mapCore f).Twin (c.mapCore f) :=
  stable_twin.mapCore hf h

lemma raiseIrq (h : b.Twin c) : b.raiseIrq.Twin c.raiseIrq := by
  have hdisabled := h.core_eq (·.regs.flags.i) fun _ => rfl
  have hnext := h.core_eq Core.nextAddress fun _ => rfl
  unfold Board.raiseIrq
  rw [hdisabled, hnext]
  split
  · exact h
  · let enter (x : Core) : Core :=
      { x.enterException .irq irqVector (c.core.nextAddress + 4) with halted := false }
    have henter : Core.Action true enter := ⟨fun _ => rfl, fun _ => rfl, fun _ => .inl rfl⟩
    exact (h.mapCore henter).note _

/-- What happens to the interrupts after a step has nothing to do with decodings. -/
lemma updateInterrupts (h : b.Twin c) : b.updateInterrupts.Twin c.updateInterrupts := by
  have hwake : b.wake.Twin c.wake := by
    have hhalted := h.core_eq Core.halted fun _ => rfl
    unfold wake
    rw [hhalted, h.irq]
    split
    · exact h.mapCore ⟨fun _ => rfl, fun _ => rfl, fun _ => .inr ⟨rfl, .inl rfl⟩⟩
    · exact h
  rw [updateInterrupts_eq, updateInterrupts_eq, h.irq]
  split
  · exact (hwake.mapIrq _).raiseIrq
  · exact hwake

/-- Nor has a request on an interrupt line. -/
lemma request (h : b.Twin c) (line : Word) : (b.request line).Twin (c.request line) := by
  have htest (b : Board) : b.testIrq = b.mapIrq (·.test b.core.regs.flags.i) := rfl
  have hraise := h.mapIrq (·.raise line)
  have hdisabled := hraise.core_eq (·.regs.flags.i) fun _ => rfl
  unfold Board.request
  split
  · rw [htest, htest, hdisabled]
    exact hraise.mapIrq _
  · exact h.note _

end Board.Twin

/-- Twins that are in step and remember what memory holds remain twins. -/
theorem Exec.step_twin {F : Set Point} {I : Bus → Prop} {b c : Board} (h : b.Twin c)
    (hb : b.Sound F I) (hc : c.Sound F I) (hs : b.Synced) (hs' : c.Synced)
    (hF : b.core.halted = false → b.core.point ∈ F) :
    Agree Board.Twin (step b) (step c) := by
  have hupdate : Respects Board.Twin (update Board.updateInterrupts) :=
    fun b c h => .ok () h.updateInterrupts
  have hrun : Agree Board.Twin ((if b.core.halted then pure () else executeNext : Exec Unit) b)
      ((if b.core.halted then pure () else executeNext : Exec Unit) c) := by
    rcases hhalted : b.core.halted with _ | _
    · exact executeNext_twin h hb hc hs hs' (hF hhalted)
    · exact .ok () h
  rw [step_apply, step_apply, ← h.core_eq Core.halted fun _ => rfl]
  exact agree_bind hrun fun _ => hupdate

end Armv4T
