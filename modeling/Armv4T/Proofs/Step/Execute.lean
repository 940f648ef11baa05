import Mathlib
import Armv4T.Proofs.Exec.Thumb
import Armv4T.Proofs.Step.Current
import Armv4T.Proofs.Step.Jump

/-!
# One step

A step finds the current instruction, executes it and then looks for its successor. This file puts
the specifications of the three together (`Exec.executeNext_spec`, `Exec.step_spec`): on a board
that is in step, with a tidy cache, a step that succeeds leaves such a board again. A step that
stops with a fault keeps the cache tidy, but it may leave the reference to the instruction that
failed behind, although the program counter has gone on.

Whether the cache is coherent depends on what stores do to it, which is a matter of the memory map.
It enters here as an invariant of the bus that makes stores keep the cache coherent (`Bus.Upkeep`).
-/

namespace Armv4T

/-- An invariant of the bus under which stores keep a tidy cache coherent. -/
structure Bus.Upkeep (F : Set Point) (I : Bus → Prop) : Prop where
  store : ∀ {bus : Bus} (width : StoreWidth) (address value : Word), bus.cache.Tidy F → I bus →
    bus.Coherent → I (bus.store width address value) ∧ (bus.store width address value).Coherent
  congr : ∀ {bus bus' : Bus}, bus'.bare = bus.bare → bus'.cache.layout = bus.cache.layout →
    I bus → I bus'

/-- What every phase of a step keeps. -/
structure Board.Sustained (F : Set Point) (I : Bus → Prop) (b b' : Board) : Prop where
  layout : b'.bus.cache.layout = b.bus.cache.layout
  cacheEnabled : b'.core.cacheEnabled = b.core.cacheEnabled
  tidy : b.bus.cache.Tidy F → b'.bus.cache.Tidy F
  coherent : b.bus.cache.Tidy F → I b.bus ∧ b.bus.Coherent → I b'.bus ∧ b'.bus.Coherent

namespace Board.Sustained

variable {F : Set Point} {I : Bus → Prop} {b b' b'' : Board}

lemma refl (b : Board) : Sustained F I b b := ⟨rfl, rfl, id, fun _ => id⟩

lemma trans (h : Sustained F I b b') (h' : Sustained F I b' b'') : Sustained F I b b'' where
  layout := h'.layout.trans h.layout
  cacheEnabled := h'.cacheEnabled.trans h.cacheEnabled
  tidy := fun ht => h'.tidy (h.tidy ht)
  coherent := fun ht hc => h'.coherent (h.tidy ht) (h.coherent ht hc)

/-- A change of the core that does not switch the cache. -/
lemma mapCore (b : Board) {f : Core → Core} (h : (f b.core).cacheEnabled = b.core.cacheEnabled) :
    Sustained F I b (b.mapCore f) where
  layout := rfl
  cacheEnabled := h
  tidy := id
  coherent := fun _ => id

lemma place (h : Sustained F I b b') : b'.bus.cache.place = b.bus.cache.place :=
  InstructionCache.place_eq_of_layout_eq h.layout

end Board.Sustained

namespace Board

variable (b : Board)

/-- The board after the first part of a look at the interrupts, which wakes it for a request. -/
def wake : Board := if b.core.halted && b.irq.pending != 0 then b.resume else b

lemma wake_cases : b.wake = b ∨ b.wake = b.resume := by
  unfold wake
  split
  · exact .inr rfl
  · exact .inl rfl

lemma wake_regs : b.wake.core.regs = b.core.regs := by
  rcases b.wake_cases with h | h <;> rw [h]
  rfl

lemma wake_irq : b.wake.irq = b.irq := by
  rcases b.wake_cases with h | h <;> rw [h]
  rfl

lemma updateInterrupts_eq : b.updateInterrupts =
    if b.irq.armed then (b.wake.mapIrq ({ · with armed := false })).raiseIrq else b.wake := by
  rw [← wake_irq]
  rfl

end Board

namespace Exec

open Board (Sustained)

variable {F : Set Point} {I : Bus → Prop} {b b' : Board}

lemma Ready.sustained (hI : Bus.Upkeep F I) {id : HandleId} {h : Handle} (hr : Ready F b id h b') :
    Sustained F I b b' where
  layout := hr.layout
  cacheEnabled := by rw [hr.core]
  tidy := fun _ => hr.tidy
  coherent := fun _ hc => ⟨hI.congr hr.bus hr.layout hc.1, (hr.coherent hc.2).1⟩

lemma Followed.sustained (hI : Bus.Upkeep F I) {n : HandleId} (hf : Followed F b n b') :
    Sustained F I b b' where
  layout := hf.layout
  cacheEnabled := by rw [hf.core]
  tidy := fun _ => hf.tidy
  coherent := fun _ hc => ⟨hI.congr hf.bus hf.layout hc.1, hf.coherent hc.2⟩

lemma Unloaded.sustained (hI : Bus.Upkeep F I) (hu : Unloaded F b b') : Sustained F I b b' where
  layout := hu.layout
  cacheEnabled := by rw [hu.core]
  tidy := fun _ => hu.tidy
  coherent := fun _ hc => ⟨hI.congr hu.bus hu.layout hc.1,
    hc.2.of_entries hu.bus fun id e he => .inr ⟨e, hu.entries id e he, rfl, rfl⟩⟩

/-- A plain action keeps what every phase keeps. -/
lemma Plain.sustained (hI : Bus.Upkeep F I) {free : Bool} {α : Type} {x : Exec α}
    (hx : Plain free x) (b : Board) : Sustained F I b (x.after b) where
  layout := (hx.kept b).cache.layout
  cacheEnabled := (hx.kept b).cacheEnabled
  tidy := fun ht => ht.marked (hx.kept b).cache
  coherent := by
    let P := fun bus : Bus => bus.cache.Tidy F ∧ I bus ∧ bus.Coherent
    have hstore : ∀ bus width address value, P bus → P (bus.store width address value) :=
      fun bus width address value ⟨ht, hi, hc⟩ =>
        ⟨ht.marked (bus.marked_store width address value), hI.store width address value ht hi hc⟩
    exact fun ht hc => (hx.keeps_bus hstore ⟨ht, hc⟩).2

/-! ### Looking for the successor -/

/-- What a step does once the instruction has been executed. -/
def advance (h : Handle) : Exec Unit := do
  if !h.instruction.writesPc then followCurrent h.next
  else if ← core Core.conditionPassed then
    refill
    if h.instruction.isFixedJump then followCurrent h.next else setCurrent none
  else setCurrent none

/-- The core as an instruction finds it: the program counter has moved on by one instruction. -/
def pipelined (set : InstrSet) (c : Core) : Core :=
  { c.setReg .pc (c.pc + set.width) with conditionPassed := true }

/-- After a jump whose target the opcode does not fix, the pipeline is filled there and nothing is
remembered as the next instruction. -/
lemma exists_advance_of_jump {h : Handle} (hw : h.instruction.writesPc = true)
    (hfixed : h.instruction.isFixedJump = false) (hpassed : b.core.conditionPassed = true) :
    ∃ c, advance h b = .ok () (b.mapCore fun _ => c) ∧ c.current = none ∧
      c.halted = b.core.halted ∧ c.regs = b.core.regs.write .pc
        (Word.alignDown b.core.pc b.core.width + b.core.width) := by
  have hadvance : advance h b = (refill >>= fun _ => setCurrent none) b := by
    unfold advance
    rw [hw, hfixed]
    show (if b.core.conditionPassed = true then _ else _ : Exec Unit) b = _
    rw [hpassed]
    rfl
  rw [hadvance]
  exact ⟨_, rfl, rfl, rfl, rfl⟩

/-- Filling the pipeline is made of primitive actions. It writes the program counter. -/
lemma made_refill {s : Scope} (h : s.jumps = true) : Made s refill := by
  refine .bind (.core _ fun _ => rfl) fun target => ?_
  refine .bind (.chargeBus fun bus => ?_) fun _ => .setReg (.inl h) _
  obtain ⟨set, pc⟩ := target
  cases set <;> rfl

lemma executeNext_apply (b : Board) :
    executeNext b = (currentHandle >>= fun h => do
      onCore (pipelined h.set)
      instruction h
      advance h) b := rfl

lemma executeNext_eq : executeNext = (currentHandle >>= fun h => do
    onCore (pipelined h.set)
    instruction h
    advance h) := funext executeNext_apply

/-- A step of a running core executes an instruction, and every step that gets that far looks at the
interrupts. -/
lemma step_apply (b : Board) :
    step b = ((if b.core.halted then pure () else executeNext) >>= fun _ =>
      update Board.updateInterrupts) b := by
  show (if !b.core.halted then _ >>= _ else _ : Exec Unit) b = _
  cases b.core.halted <;> rfl

/-- Either an action succeeds, and if its program counter ends up in the set then the board is in
step; or it fails, and what it remembers was decoded at the point where the step started. -/
def Outcome (F : Set Point) (I : Bus → Prop) (p : Point) (b : Board) (x : Exec Unit) : Prop :=
  (∃ b', x b = .ok () b' ∧ (b'.core.point ∈ F → Sustained F I b b' ∧ b'.Synced)) ∨
    ∃ fault b', x b = .error fault b' ∧ Sustained F I b b' ∧ b'.Remembers p

/-- A board that remembers nothing is in step. -/
lemma outcome_setCurrent_none (p : Point) (b : Board) :
    Outcome F I p b (setCurrent none) := by
  refine .inl ⟨_, rfl, fun _ => ⟨.mapCore b rfl, ?_⟩⟩
  intro id e hcurrent
  exact nomatch hcurrent

/-- Following the link of the current instruction, or forgetting it. -/
lemma outcome_followCurrent (hI : Bus.Upkeep F I) (ht : b.bus.cache.Tidy F)
    (hinj : Set.InjOn b.bus.cache.place F) {id : HandleId} {h : Handle}
    (hcurrent : b.core.current = none ∨ b.core.current = some id ∧ Executed F b id h) :
    Outcome F I h.point b (followCurrent h.next) := by
  have hforget (hnone : (if b.core.cacheEnabled then b.core.current else none) = none) :
      Outcome F I h.point b (followCurrent h.next) := by
    unfold Outcome
    rw [followCurrent_of_none h.next hnone]
    exact outcome_setCurrent_none _ b
  rcases henabled : b.core.cacheEnabled with _ | _
  · exact hforget (by rw [henabled]; rfl)
  rcases hcurrent with hnone | ⟨hsome, hx⟩
  · exact hforget (by rw [hnone, ite_self])
  have heq : followCurrent h.next b = follow id h.next b :=
    followCurrent_of_some h.next (by rw [henabled, if_pos rfl, hsome])
  rcases follow_spec ht hx henabled hinj with
    ⟨n, b', hfollow, hcore, hf⟩ | ⟨fault, b', -, hfollow, hu⟩
  · refine .inl ⟨b', heq.trans hfollow, fun hF => ?_⟩
    have hpoint : b'.core.point = b.core.point := by
      rw [hcore]
      rfl
    replace hf := hf (hpoint ▸ hF)
    exact ⟨hf.sustained hI, hf.synced hinj⟩
  · refine .inr ⟨fault, b', heq.trans hfollow, hu.sustained hI, ?_⟩
    intro id' e hid hget
    obtain rfl : id' = id := by
      rw [hu.core, hsome] at hid
      exact (Option.some.inj hid).symm
    rw [hx.only e (hu.entries id' e hget)]

/-- What was done before an action that turns out well, or badly, does not change how it turns out.
-/
lemma Outcome.of_eq {p : Point} {b₁ : Board} {x y : Exec Unit} (hxy : x b = y b₁)
    (hb : Sustained F I b b₁) (h : Outcome F I p b₁ y) : Outcome F I p b x := by
  rcases h with ⟨b', hy, hok⟩ | ⟨fault, b', hy, hsustained, hremembers⟩
  · exact .inl ⟨b', hxy.trans hy, fun hF => ⟨hb.trans (hok hF).1, (hok hF).2⟩⟩
  · exact .inr ⟨fault, b', hxy.trans hy, hb.trans hsustained, hremembers⟩

/-- Filling the pipeline leaves the program counter one instruction behind the target, and the
target rounded down is where execution continues. -/
lemma refill_apply (b : Board) :
    ∃ c, refill b = .ok () (b.mapCore fun _ => c) ∧ c.current = b.core.current ∧
      c.cacheEnabled = b.core.cacheEnabled ∧
      c.point = ⟨b.core.regs.set, Word.alignDown b.core.pc b.core.regs.set.width⟩ := by
  let target := Word.alignDown b.core.pc b.core.regs.set.width
  let c := (b.core.charge (b.bus.waitFetch b.core.regs.set target +
    b.bus.waitPrefetch b.core.regs.set target)).setReg .pc (target + b.core.regs.set.width)
  have hset : c.regs.set = b.core.regs.set := rfl
  refine ⟨c, rfl, rfl, rfl, ?_⟩
  rw [Core.point, Core.nextAddress, Core.pc_setReg_pc, Core.width, hset, UInt32.add_sub_cancel]

lemma width_ne_zero (set : InstrSet) : set.width ≠ 0 := by
  cases set <;> decide

end Exec

lemma Handle.Fits.congr {F : Set Point} {c c' : InstructionCache} {h : Handle} (hf : h.Fits F c)
    (hlayout : c'.layout = c.layout) : h.Fits F c' := by
  refine ⟨hf.mem, hf.decoded, ?_⟩
  rw [InstructionCache.place_eq_of_layout_eq hlayout]
  exact hf.next

namespace Exec

open Board (Sustained)

variable {F : Set Point} {I : Bus → Prop} {b b' : Board}

/-- The board on which the current instruction is executed. -/
structure Poised (F : Set Point) (b : Board) (id : HandleId) (h : Handle) (b₁ b₂ : Board) :
    Prop where
  ready : Ready F b id h b₁
  board : b₂ = b₁.mapCore (pipelined h.set)

namespace Poised

variable {id : HandleId} {h : Handle} {b₁ b₂ b₃ : Board}

lemma current (hp : Poised F b id h b₁ b₂) : b₂.core.current = some id := by
  rw [hp.board]
  show b₁.core.current = some id
  rw [hp.ready.core]

lemma set (hp : Poised F b id h b₁ b₂) : b₂.core.regs.set = h.set := by
  have hset : h.set = b.core.regs.set := congrArg Point.set hp.ready.point
  rw [hp.board, hset]
  show b₁.core.regs.set = _
  rw [hp.ready.core]

/-- While an instruction executes, the program counter reads two instructions ahead of it. -/
lemma pc (hp : Poised F b id h b₁ b₂) : b₂.core.pc = h.address + h.set.width + h.set.width := by
  have hset : h.set = b.core.regs.set := congrArg Point.set hp.ready.point
  have haddress : h.address = b.core.pc - b.core.regs.set.width :=
    congrArg Point.address hp.ready.point
  have hpc₁ : b₁.core.pc = b.core.pc := by
    rw [hp.ready.core]
    rfl
  have hpc₂ : b₂.core.pc = b₁.core.pc + h.set.width := by
    rw [hp.board]
    exact Core.pc_setReg_pc _ _
  rw [hpc₂, hpc₁, haddress, hset, UInt32.sub_add_cancel]

lemma sustained (hI : Bus.Upkeep F I) (hp : Poised F b id h b₁ b₂) : Sustained F I b b₂ := by
  rw [hp.board]
  exact (hp.ready.sustained hI).trans (.mapCore _ rfl)

/-- The reference to the instruction leads to nothing else after it was executed. -/
lemma only {free : Bool} (hp : Poised F b id h b₁ b₂) (hk : Board.Kept free b₂ b₃) :
    ∀ e, b₃.bus.cache.get? id = some e → e = h := by
  intro e he
  refine hp.ready.only e ?_
  have hget := hk.cache.get? he
  rwa [hp.board] at hget

/-- Where execution continues at the successor, the link of the instruction may be followed. -/
lemma executed {free : Bool} (hp : Poised F b id h b₁ b₂) (hk : Board.Kept free b₂ b₃)
    (hsuccessor : h.successor = b₃.core.point)
    (hloop : h.point = b₃.core.point → b₃.bus.cache.find? h.address h.set = none →
      h.opcode = b₃.bus.opcodeAt h.set h.address) : Executed F b₃ id h := by
  have hlayout : b₃.bus.cache.layout = b.bus.cache.layout := by
    rw [hk.cache.layout, hp.board]
    exact hp.ready.layout
  exact
    { fits := hp.ready.fits.congr hlayout
      place := by rw [InstructionCache.place_eq_of_layout_eq hlayout, hp.ready.place]
      only := hp.only hk
      successor := hsuccessor
      loop := hloop }

/-- After an instruction that does not redirect the program counter, the next one is its
successor. -/
lemma outcome_sequential (hI : Bus.Upkeep F I) (hp : Poised F b id h b₁ b₂)
    (hk : Board.Kept false b₂ b₃) (ht : b₃.bus.cache.Tidy F)
    (hinj : Set.InjOn b₃.bus.cache.place F) (hw : h.instruction.writesPc = false) :
    Outcome F I b.core.point b₃ (advance h) := by
  have hadvance : advance h b₃ = followCurrent h.next b₃ := by
    unfold advance
    rw [hw]
    rfl
  have hcurrent : b₃.core.current = none ∨
      b₃.core.current = some id ∧ Executed F b₃ id h := by
    refine hk.current.imp_right fun ⟨hsame, hkept⟩ => ⟨hsame.trans hp.current, ?_⟩
    obtain ⟨hpc, hset⟩ := hkept.resolve_left Bool.false_ne_true
    have hset₃ : b₃.core.regs.set = h.set := hset.trans hp.set
    have hnext : b₃.core.nextAddress = h.address + h.set.width := by
      rw [Core.nextAddress, Core.width, hset₃, hpc, hp.pc, UInt32.add_sub_cancel]
    have hsuccessor : h.successor = b₃.core.point := by
      rw [Handle.successor, Instruction.jumpOffset?_eq_none hw, Core.point, hset₃, hnext]
    refine hp.executed hk hsuccessor fun hself => ?_
    -- an instruction is not its own successor
    have haddress : h.address = h.address + h.set.width := by
      rw [← hnext]
      exact congrArg Point.address hself
    exact absurd (left_eq_add.mp haddress) (width_ne_zero h.set)
  rw [← hp.ready.point]
  exact (outcome_followCurrent hI ht hinj hcurrent).of_eq hadvance (.refl b₃)

/-- After a branch to a fixed target that is taken, the next instruction is its successor. -/
lemma outcome_jump (hI : Bus.Upkeep F I) (hp : Poised F b id h b₁ b₂) (ht : b₂.bus.cache.Tidy F)
    (hinj : Set.InjOn b₂.bus.cache.place F) {offset : Word} {c : Core}
    (hoffset : h.instruction.jumpOffset? = some offset) (hjump : b₂.core.Jump offset c)
    (hk : Board.Kept true b₂ (b₂.mapCore fun _ => c)) (hpassed : c.conditionPassed = true) :
    Outcome F I b.core.point (b₂.mapCore fun _ => c) (advance h) := by
  obtain ⟨c', hrefill, hcurrent', henabled', hpoint'⟩ := refill_apply (b₂.mapCore fun _ => c)
  have hfixed : h.instruction.isFixedJump = true := by
    rw [← Instruction.isSome_jumpOffset?, hoffset]
    rfl
  have hwrites : h.instruction.writesPc = true := by
    by_contra hw
    rw [Instruction.jumpOffset?_eq_none (Bool.eq_false_iff.mpr hw)] at hoffset
    exact nomatch hoffset
  have hadvance : advance h (b₂.mapCore fun _ => c) =
      followCurrent h.next (b₂.mapCore fun _ => c') := by
    have htest : core Core.conditionPassed (b₂.mapCore fun _ => c) = .ok true _ :=
      congrArg (EStateM.Result.ok · _) hpassed
    unfold advance
    rw [hwrites, hfixed]
    exact (bind_of_ok htest).trans (bind_of_ok hrefill)
  have hk' : Board.Kept true b₂ (b₂.mapCore fun _ => c') :=
    ⟨hk.cache, henabled'.trans hk.cacheEnabled,
      (hk.current.imp hcurrent'.trans fun h => ⟨hcurrent'.trans h.1, .inl rfl⟩)⟩
  have hsuccessor : h.successor = c'.point := by
    have hset : c.regs.set = h.set := hjump.set.trans hp.set
    have hpc : c.pc = h.address + h.set.width + h.set.width + offset := by
      rw [hjump.pc hpassed, hp.pc]
    rw [hpoint', Handle.successor, hoffset]
    show (⟨h.set, _⟩ : Point) = ⟨c.regs.set, Word.alignDown c.pc c.regs.set.width⟩
    rw [hset, hpc]
  have hloop : h.point = c'.point → b₂.bus.cache.find? h.address h.set = none →
      h.opcode = b₂.bus.opcodeAt h.set h.address := by
    intro _ hmiss
    have hbus : b₂.bus = b₁.bus := by
      rw [hp.board]
      rfl
    rw [hbus] at hmiss ⊢
    rw [Bus.opcodeAt_congr hp.ready.bus]
    exact hp.ready.fresh hmiss
  have hcurrent : c'.current = none ∨
      c'.current = some id ∧ Executed F (b₂.mapCore fun _ => c') id h :=
    hk'.current.imp_right fun hsame =>
      ⟨hsame.1.trans hp.current, hp.executed hk' hsuccessor hloop⟩
  have hb : Sustained F I (b₂.mapCore fun _ => c) (b₂.mapCore fun _ => c') :=
    ⟨rfl, henabled', fun h => h, fun _ h => h⟩
  have ht' : (b₂.mapCore fun _ => c').bus.cache.Tidy F := ht
  have hfollow := outcome_followCurrent hI ht' hinj hcurrent
  rw [← hp.ready.point]
  exact hfollow.of_eq hadvance hb

/-- After any other instruction that may redirect the program counter, nothing is remembered. -/
lemma outcome_forget (p : Point) (hw : h.instruction.writesPc = true)
    (hforget : h.instruction.isFixedJump = false ∨ b₃.core.conditionPassed = false) :
    Outcome F I p b₃ (advance h) := by
  have htest : core Core.conditionPassed b₃ = .ok b₃.core.conditionPassed b₃ := rfl
  have hadvance : advance h b₃ = (if b₃.core.conditionPassed then refill >>= fun _ =>
      if h.instruction.isFixedJump then followCurrent h.next else setCurrent none
    else setCurrent none : Exec Unit) b₃ := by
    unfold advance
    rw [hw]
    exact bind_of_ok htest
  rcases hpassed : b₃.core.conditionPassed with _ | _
  · rw [hpassed] at hadvance
    exact (outcome_setCurrent_none p b₃).of_eq hadvance (.refl b₃)
  · have hfixed := hforget.resolve_right (by rw [hpassed]; decide)
    obtain ⟨c, hrefill, -, henabled, -⟩ := refill_apply b₃
    rw [hpassed, hfixed] at hadvance
    have hb : Sustained F I b₃ (b₃.mapCore fun _ => c) := .mapCore b₃ henabled
    exact (outcome_setCurrent_none p _).of_eq (hadvance.trans (bind_of_ok hrefill)) hb

end Poised

/-- On a board in step with a tidy cache, the next instruction is the one at the program counter. If
it succeeds then the board is in step again, and if it fails then what is remembered, as far as it
is live, is the decoding of the instruction that failed. -/
theorem executeNext_spec (hI : Bus.Upkeep F I) (ht : b.bus.cache.Tidy F) (hs : b.Synced)
    (hF : b.core.point ∈ F) (hinj : Set.InjOn b.bus.cache.place F) :
    Outcome F I b.core.point b executeNext := by
  rcases currentHandle_spec ht hs hF with
    ⟨id, h, b₁, hcurrent, hready⟩ | ⟨fault, b₁, -, hcurrent, hu, hdead⟩
  · let b₂ := b₁.mapCore (pipelined h.set)
    have hp : Poised F b id h b₁ b₂ := ⟨hready, rfl⟩
    have hb₂ : Sustained F I b b₂ := hp.sustained hI
    have hexec : executeNext b = (instruction h >>= fun _ => advance h) b₂ := by
      rw [executeNext_apply, bind_of_ok hcurrent]
      rfl
    have hplain : Plain h.instruction.writesPc (instruction h) :=
      plain_instruction h hready.fits.decoded (Bool.eq_false_or_eq_true _)
    have hk := hplain.kept b₂
    have hb₃ : Sustained F I b _ := hb₂.trans (hplain.sustained hI b₂)
    rcases hrun : instruction h b₂ with ⟨u, b₃⟩ | ⟨fault, b₃⟩
    · rw [after_of_ok hrun] at hk hb₃
      have ht₃ := hb₃.tidy ht
      have hinj₃ : Set.InjOn b₃.bus.cache.place F := by rwa [hb₃.place]
      refine Outcome.of_eq (hexec.trans (bind_of_ok hrun)) hb₃ ?_
      rcases hw : h.instruction.writesPc with _ | _
      · rw [hw] at hk
        exact hp.outcome_sequential hI hk ht₃ hinj₃ hw
      · rcases hoffset : h.instruction.jumpOffset? with _ | offset
        · refine Poised.outcome_forget _ hw (.inl ?_)
          rw [← Instruction.isSome_jumpOffset?, hoffset]
          rfl
        · obtain ⟨c, hjumped, hjump⟩ := instruction_jump hoffset b₂
          obtain rfl : b₃ = b₂.mapCore fun _ => c := by
            rw [hrun] at hjumped
            cases hjumped
            rfl
          rcases hpassed : c.conditionPassed with _ | _
          · exact Poised.outcome_forget _ hw (.inr hpassed)
          · rw [hw] at hk
            exact hp.outcome_jump hI ht₃ hinj₃ hoffset hjump hk hpassed
    · rw [after_of_error hrun] at hk hb₃
      refine .inr ⟨fault, b₃, hexec.trans (bind_of_error hrun), hb₃, ?_⟩
      intro id' e hid hget
      rcases hk.current with hnone | ⟨hsame, -⟩
      · exact nomatch hnone.symm.trans hid
      · obtain rfl : id' = id := Option.some.inj (hid.symm.trans (hsame.trans hp.current))
        rw [hp.only hk e hget, hready.point]
  · refine .inr ⟨fault, b₁, ?_, hu.sustained hI, ?_⟩
    · rw [executeNext_apply, bind_of_error hcurrent]
    · intro id e hid hget
      rw [hu.core] at hid
      rw [hid, Option.bind_some, hu.entries id e hget] at hdead
      exact nomatch hdead

end Exec

end Armv4T
