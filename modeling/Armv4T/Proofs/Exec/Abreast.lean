import Mathlib
import Armv4T.Proofs.Bus.SameMemory
import Armv4T.Proofs.Exec.Made

/-!
# Boards abreast

Two boards are abreast (`Board.Abreast`) if they are equal in what a program can see from one step
to the next, in the registers, the cycles, the halt, the memory and the interrupt lines, while what
they remember of decodings is only related. The output of the barrel shifter is left out, and the
outcome of the last condition test counts only during an instruction, which starts by setting it.

An instruction leaves such boards abreast (`Exec.Made.respects_abreast`), if the relation survives
what is done to decodings: the current one is forgotten, and pages of the cache are marked invalid
(`Remembered.Tenable`).
-/

namespace Armv4T

/-! ### What changes of the core depend on -/

namespace Core.Change

variable {s : Exec.Scope} {f : Core → Core}

/-- A change does not depend on what an instruction does not see. -/
lemma seen (h : Change s f) (c : Core) : (f c).seen = (f c.seen).seen := by
  cases h with
  | setReg _ value => rfl
  | setSet _ set => rfl
  | mapFlags _ => rfl
  | charge cycles => rfl
  | testCondition cond =>
    unfold Core.testCondition
    split <;> rfl
  | evalOperand operand => cases operand <;> rfl
  | @evalSingle a _ =>
    obtain ⟨rn, offset, up, indexing⟩ := a
    cases offset <;> cases indexing <;> rfl
  | switchMode mode => rfl
  | halt => rfl
  | trap _ returnAddress => rfl

/-- A change forgets the current decoding of every core or of none. -/
lemma current (h : Change s f) : (∀ c, (f c).current = none) ∨ ∀ c, (f c).current = c.current := by
  cases h with
  | trap _ returnAddress => exact .inl fun _ => rfl
  | testCondition cond =>
    refine .inr fun c => ?_
    unfold Core.testCondition
    split <;> rfl
  | evalSingle _ => exact .inr fun c => (Core.evalSingle_keeps c _).2.1
  | setReg | setSet | mapFlags | charge | evalOperand | switchMode | halt => exact .inr fun _ => rfl

end Core.Change

/-! ### What is remembered -/

/-- What a board remembers of decodings: the current one, if it is known, whether decodings are
cached, and the cache. -/
structure Remembered where
  current : Option HandleId
  enabled : Bool
  cache : InstructionCache

/-- What a board remembers of decodings. -/
def Board.remembered (b : Board) : Remembered := ⟨b.core.current, b.core.cacheEnabled, b.bus.cache⟩

namespace Remembered

/-- A relation that survives what is done to decodings apart from using them. -/
structure Tenable (T : Remembered → Remembered → Prop) : Prop where
  layout : ∀ {r r'}, T r r' → r'.cache.layout = r.cache.layout
  forget : ∀ {r r'}, T r r' → T { r with current := none } { r' with current := none }
  clear : ∀ {r r'}, T r r' →
    T { r with cache := r.cache.clear } { r' with cache := r'.cache.clear }
  invalidatePage : ∀ {r r'}, T r r' → ∀ address,
    T { r with cache := r.cache.invalidatePage address }
      { r' with cache := r'.cache.invalidatePage address }

variable {T : Remembered → Remembered → Prop} {r r' : Remembered}

lemma Tenable.invalidateFrom (hT : Tenable T) {current current' : Option HandleId}
    {enabled enabled' : Bool} (c c' : InstructionCache) (cursor last : Word) :
    T ⟨current, enabled, c⟩ ⟨current', enabled', c'⟩ →
      T ⟨current, enabled, c.invalidateFrom cursor last⟩
        ⟨current', enabled', c'.invalidateFrom cursor last⟩ := by
  fun_induction InstructionCache.invalidateFrom c cursor last generalizing c' with
  | case1 c cursor next marked hstop =>
    intro h
    rw [InstructionCache.invalidateFrom.eq_def c', InstructionCache.nextPage_congr (hT.layout h),
      if_pos hstop]
    exact hT.invalidatePage h cursor
  | case2 c cursor next marked hgo ih =>
    intro h
    rw [InstructionCache.invalidateFrom.eq_def c', InstructionCache.nextPage_congr (hT.layout h),
      if_neg hgo]
    exact ih _ (hT.invalidatePage h cursor)

/-- The relation survives a store. -/
lemma Tenable.invalidate (hT : Tenable T) (h : T r r') (address len : Word) :
    T { r with cache := r.cache.invalidate address len }
      { r' with cache := r'.cache.invalidate address len } := by
  simp only [InstructionCache.invalidate, hT.layout h]
  split
  · exact h
  · exact hT.invalidateFrom _ _ _ _ h

end Remembered

open Remembered (Tenable)

/-! ### Boards abreast -/

/-- Two boards are equal in what a program can see, and what they remember of decodings is related.
While they execute an instruction the outcome of the last condition test is equal too. -/
structure Board.Abreast (executing : Bool) (T : Remembered → Remembered → Prop) (b c : Board) :
    Prop where
  regs : c.core.regs = b.core.regs
  cycles : c.core.cycles = b.core.cycles
  halted : c.core.halted = b.core.halted
  passed : executing = true → c.core.conditionPassed = b.core.conditionPassed
  memory : b.bus.SameMemory c.bus
  irq : c.irq = b.irq
  remembered : T b.remembered c.remembered

namespace Board.Abreast

variable {executing : Bool} {T : Remembered → Remembered → Prop} {b c : Board}

/-- Between steps less is equal. -/
lemma resting (h : Abreast true T b c) : Abreast false T b c :=
  { h with passed := nofun }

/-- Instructions see the same core. -/
lemma seen (h : Abreast true T b c) : c.core.seen = b.core.seen := by
  show Core.mk c.core.regs c.core.cycles 0 false c.core.conditionPassed c.core.halted none true =
    Core.mk b.core.regs b.core.cycles 0 false b.core.conditionPassed b.core.halted none true
  rw [h.regs, h.cycles, h.passed rfl, h.halted]

lemma mapIrq (h : Abreast executing T b c) (f : InterruptLines → InterruptLines) :
    Abreast executing T (b.mapIrq f) (c.mapIrq f) :=
  { h with irq := congrArg f h.irq }

lemma testIrq (h : Abreast executing T b c) : Abreast executing T b.testIrq c.testIrq := by
  show Abreast executing T (b.mapIrq (·.test b.core.regs.flags.i))
    (c.mapIrq (·.test c.core.regs.flags.i))
  rw [h.regs]
  exact h.mapIrq _

lemma note? (h : Abreast executing T b c) (n n' : Option Notice) :
    Abreast executing T (b.note? n) (c.note? n') := by
  cases n <;> cases n' <;> exact { h with }

/-- The registers are written anew on both sides, and the current decoding is kept or forgotten. -/
lemma setRegs (hT : Tenable T) (h : Abreast executing T b c) (regs : Registers) (keeps : Bool) :
    Abreast executing T
      (b.mapCore fun x => { x with regs, current := if keeps then x.current else none })
      (c.mapCore fun x => { x with regs, current := if keeps then x.current else none }) := by
  refine { h with regs := rfl, remembered := ?_ }
  cases keeps with
  | true => exact h.remembered
  | false => exact hT.forget h.remembered

/-- A change that instructions are made of leaves the boards abreast. -/
lemma change (hT : Tenable T) (h : Abreast true T b c) {s : Exec.Scope} {f : Core → Core}
    (hf : Core.Change s f) : Abreast true T (b.mapCore f) (c.mapCore f) := by
  have hseen : (f c.core).seen = (f b.core).seen := by
    rw [hf.seen c.core, h.seen, ← hf.seen]
  have hremembered (b : Board) : (b.mapCore f).remembered =
      ⟨(f b.core).current, b.core.cacheEnabled, b.bus.cache⟩ := by
    have haction : Core.Action true f := hf.action fun _ => rfl
    rw [← haction.cacheEnabled]
    rfl
  have hregs : (f c.core).regs = (f b.core).regs := congrArg (·.regs) hseen
  have hcycles : (f c.core).cycles = (f b.core).cycles := congrArg (·.cycles) hseen
  have hhalted : (f c.core).halted = (f b.core).halted := congrArg (·.halted) hseen
  have hpassed : (f c.core).conditionPassed = (f b.core).conditionPassed :=
    congrArg (·.conditionPassed) hseen
  refine ⟨hregs, hcycles, hhalted, fun _ => hpassed, h.memory, h.irq, ?_⟩
  rw [hremembered, hremembered]
  rcases hf.current with hnone | hsame
  · rw [hnone, hnone]
    exact hT.forget h.remembered
  · rw [hsame, hsame]
    exact h.remembered

lemma store (hT : Tenable T) (h : Abreast executing T b c) (width : StoreWidth)
    (address value : Word) :
    Abreast executing T (b.mapBus (·.store width address value))
      (c.mapBus (·.store width address value)) := by
  refine { h with memory := h.memory.store width address value, remembered := ?_ }
  have hwritable : c.bus.writable? (width.align address) = b.bus.writable? (width.align address) :=
    h.memory.eq_of_wiring (·.writable? (width.align address)) fun _ => rfl
  show T ⟨b.core.current, b.core.cacheEnabled, (b.bus.store width address value).cache⟩
    ⟨c.core.current, c.core.cacheEnabled, (c.bus.store width address value).cache⟩
  simp only [Bus.store, hwritable]
  rcases b.bus.writable? (width.align address) with _ | ⟨storage, offset⟩
  · exact h.remembered
  · exact hT.invalidate h.remembered _ _

end Board.Abreast

/-! ### Instructions -/

namespace Exec

open Board (Abreast)

variable {executing : Bool} {T : Remembered → Remembered → Prop}

/-- Loading a status word depends on the registers alone. -/
lemma respects_loadStatus (hT : Tenable T) (status : Word) :
    Respects (Abreast executing T) (loadStatus status) := by
  intro b c h
  unfold loadStatus
  rw [h.regs]
  rcases b.core.regs.loadStatus status with fault | regs
  · exact .error fault h
  · have hset := (h.setRegs hT regs (decide (regs.set = b.core.regs.set))).testIrq
    simp only [decide_eq_true_eq] at hset
    exact .ok () hset

lemma respects_writeStatus (hT : Tenable T) (saved : Bool) (mask : Word)
    (source : Arm.StatusSource) :
    Respects (Abreast true T) (Arm.writeStatus saved mask source) := by
  rw [Arm.writeStatus_eq]
  refine matches_bind (fun b c h => ?_) fun value => ?_
  · have hvalue : Arm.sourceValue source c.core = Arm.sourceValue source b.core := by
      cases source with
      | register rm =>
        show c.core.regs.read rm = b.core.regs.read rm
        rw [h.regs]
      | immediate value => rfl
    show Agree _ (.ok (Arm.sourceValue source b.core) b) (.ok (Arm.sourceValue source c.core) c)
    rw [hvalue]
    exact .ok _ h
  · cases saved with
    | true =>
      exact fun b c h => .ok () { h with regs := congrArg (Arm.writeSaved mask value) h.regs }
    | false =>
      intro b c h
      show Agree _ (Arm.putCurrent mask value b) (Arm.putCurrent mask value c)
      rw [Arm.putCurrent_apply, Arm.putCurrent_apply, h.regs]
      rcases Arm.writeCurrent mask value b.core.regs with fault | regs
      · exact .error fault h
      · exact .ok () (h.setRegs hT regs true).testIrq

/-- What is made of primitive actions does the same on boards abreast, and leaves them so. -/
theorem Made.respects_abreast (hT : Tenable T) {s : Scope} {α : Type} {x : Exec α}
    (hx : Made s x) : Respects (Abreast true T) x := by
  induction hx with
  | pure a => exact fun b c h => .ok a h
  | throw e => exact fun b c h => .error e h
  | bind _ _ ihx ihf => exact matches_bind ihx ihf
  | core f hf =>
    intro b c h
    show Agree _ (.ok (f b.core) b) (.ok (f c.core) c)
    rw [hf c.core, h.seen, ← hf]
    exact .ok _ h
  | bus f hf =>
    intro b c h
    show Agree _ (.ok (f b.bus) b) (.ok (f c.bus) c)
    rw [h.memory.eq_of_wiring f hf]
    exact .ok _ h
  | @irq _ k _ ihk =>
    intro b c h
    show Agree _ (k b.irq b) (k c.irq c)
    rw [h.irq]
    exact ihk b.irq b c h
  | onCore hf => exact fun b c h => .ok () (h.change hT hf)
  | loadStatus _ status => exact respects_loadStatus hT status
  | writeStatus saved mask source => exact respects_writeStatus hT saved mask source
  | note n => exact fun b c h => .ok () (h.note? (some n) (some n))
  | load kind address =>
    intro b c h
    have hfault := h.memory.eq_of_wiring (·.fault? address) fun _ => rfl
    unfold Exec.load
    rw [hfault, h.memory.load]
    rcases b.bus.fault? address with _ | fault
    · exact .ok _ (h.note? _ _)
    · exact .error fault h
  | store _ width address value =>
    intro b c h
    have hfault := h.memory.eq_of_wiring (·.fault? (width.align address)) fun _ => rfl
    unfold Exec.store
    rw [hfault]
    rcases b.bus.fault? (width.align address) with _ | fault
    · exact .ok _ ((h.store hT width address value).note? _ _)
    · exact .error fault h

end Exec

end Armv4T
