import Mathlib
import Armv4T.Arm.Exec
import Armv4T.Proofs.Exec.Plain

/-!
# What instructions are made of

The instructions of both sets are put together from a few primitive actions: reading, changing the
core in one of ten ways (`Core.Change`), writing a status word, and touching memory. Of an action
that is put together from them we say that it is made of them (`Exec.Made`). What holds of an
instruction because it holds of its parts is proved by induction on how it is made, with one case
per primitive action instead of one per instruction.

What an instruction reads of the core is neither what is remembered of decodings nor the output of
the barrel shifter (`Core.seen`), which is scratch: an instruction that uses it writes it first. Of
the bus it reads the regions with their wait states (`Bus.wiring`), and memory by loads alone.

Four of the primitive actions are rare: writing the program counter or the instruction set,
trapping, restoring the saved status word, and storing. A scope (`Exec.Scope`) says which of them an
action may contain, so that what holds without them can be said of the instructions that do without.
-/

namespace Armv4T

/-- The core as an instruction sees it. -/
def Core.seen (c : Core) : Core := { c.bare with shifterOperand := 0, shifterCarry := false }

/-- The bus without its contents. -/
def Bus.wiring (b : Bus) : Bus := { b.bare with storages := #[] }

/-- What an action may do besides what every instruction may do: write the program counter or the
instruction set, trap, restore the saved status word, or store. -/
structure Exec.Scope where
  jumps : Bool
  traps : Bool
  restores : Bool
  stores : Bool

/-- The changes of the core that instructions are made of. Writes of a status word are not among
them, because they look at the interrupts too. -/
inductive Core.Change (s : Exec.Scope) : (Core → Core) → Prop
  | setReg {r : Reg} (h : s.jumps = true ∨ r ≠ .pc) (value : Word) : Change s (·.setReg r value)
  | setSet (h : s.jumps = true) (set : InstrSet) : Change s (·.setSet set)
  | mapFlags {f : Flags → Flags} (h : ∀ l, (f l).i = l.i ∧ (f l).f = l.f) :
    Change s fun c => c.setFlags (f c.regs.flags)
  | charge (cycles : Word) : Change s (·.charge cycles)
  | testCondition (cond : Condition) : Change s fun c => (c.testCondition cond).2
  | evalOperand (operand : Operand) : Change s (·.evalOperand operand)
  | evalSingle {a : SingleAddress} (h : s.jumps = true ∨ a.writesPc = false) :
    Change s fun c => (c.evalSingle a).2
  | switchMode (mode : Mode) : Change s (·.switchMode mode)
  | halt : Change s ({ · with halted := true })
  | trap (h : s.traps = true) (returnAddress : Word) :
    Change s (·.enterException .supervisor trapVector returnAddress)

namespace Exec

/-- An action made of primitive actions. -/
inductive Made (s : Scope) : {α : Type} → Exec α → Prop
  | pure {α : Type} (a : α) : Made s (pure a)
  | throw {α : Type} (e : Fault) : Made s (throw e : Exec α)
  | bind {α β : Type} {x : Exec α} {f : α → Exec β} (hx : Made s x) (hf : ∀ a, Made s (f a)) :
    Made s (x >>= f)
  | core {α : Type} (f : Core → α) (h : ∀ c, f c = f c.seen) : Made s (core f)
  | bus {α : Type} (f : Bus → α) (h : ∀ b, f b = f b.wiring) : Made s (bus f)
  | irq {α : Type} {k : InterruptLines → Exec α} (hk : ∀ l, Made s (k l)) :
    Made s (fun b => k b.irq b)
  | onCore {f : Core → Core} (h : Core.Change s f) : Made s (onCore f)
  | loadStatus (h : s.restores = true) (status : Word) : Made s (loadStatus status)
  | writeStatus (saved : Bool) (mask : Word) (source : Arm.StatusSource) :
    Made s (Arm.writeStatus saved mask source)
  | note (n : Notice) : Made s (update (·.note n))
  | load (kind : LoadKind) (address : Word) : Made s (load kind address)
  | store (h : s.stores = true) (width : StoreWidth) (address value : Word) :
    Made s (store width address value)

/-! ### Putting actions together -/

namespace Made

variable {s : Scope} {α : Type}

lemma ite {p : Prop} [Decidable p] {x y : Exec α} (hx : Made s x) (hy : Made s y) :
    Made s (if p then x else y) := by
  split
  · exact hx
  · exact hy

/-- Something done under a condition, and something after it. -/
lemma whenThen {p : Prop} [Decidable p] {x : Exec Unit} {k : Unit → Exec α} (hx : Made s x)
    (hk : ∀ u, Made s (k u)) : Made s (if p then x >>= k else k ()) :=
  .ite (.bind hx hk) (hk ())

/-- One of two things done, and something after it. -/
lemma iteThen {β : Type} {p : Prop} [Decidable p] {x y : Exec β} {k : β → Exec α}
    (hx : Made s x) (hy : Made s y) (hk : ∀ a, Made s (k a)) :
    Made s (if p then x >>= k else y >>= k) :=
  .ite (.bind hx hk) (.bind hy hk)

lemma when {p : Prop} [Decidable p] {x : Exec Unit} (hx : Made s x) :
    Made s (if p then x else Pure.pure ()) :=
  .ite hx (.pure ())

lemma reg (r : Reg) : Made s (Exec.reg r) := .core _ fun _ => rfl

lemma setReg {r : Reg} (h : s.jumps = true ∨ r ≠ .pc) (value : Word) :
    Made s (Exec.setReg r value) := .onCore (.setReg h value)

lemma mapFlags {f : Flags → Flags} (h : ∀ l, (f l).i = l.i ∧ (f l).f = l.f) :
    Made s (Exec.mapFlags f) := .onCore (.mapFlags h)

lemma charge (cycles : Word) : Made s (Exec.charge cycles) := .onCore (.charge cycles)

lemma chargeBus {f : Bus → Word} (h : ∀ b, f b = f b.wiring) : Made s (Exec.chargeBus f) :=
  .bind (.bus f h) fun cycles => .charge cycles

lemma prefetch (set : InstrSet) : Made s (Exec.prefetch set) :=
  .bind (.core _ fun _ => rfl) fun _ => .chargeBus fun _ => by cases set <;> rfl

lemma testCondition (cond : Condition) : Made s (Exec.testCondition cond) := by
  have hparts : Exec.testCondition cond = (do
      let passed ← Exec.core fun c => (c.testCondition cond).1
      Exec.onCore fun c => (c.testCondition cond).2
      Pure.pure passed) := rfl
  rw [hparts]
  refine .bind (.core _ fun c => ?_) fun passed => .bind (.onCore (.testCondition cond)) fun _ =>
    .pure _
  unfold Core.testCondition
  split <;> rfl

lemma evalAddress {a : SingleAddress} (h : s.jumps = true ∨ a.writesPc = false) :
    Made s (Arm.evalAddress a) := by
  have hparts : Arm.evalAddress a = (do
      let address ← Exec.core fun c => (c.evalSingle a).1
      Exec.onCore fun c => (c.evalSingle a).2
      Pure.pure address) := rfl
  rw [hparts]
  refine .bind (.core _ fun c => ?_) fun address => .bind (.onCore (.evalSingle h)) fun _ =>
    .pure _
  obtain ⟨rn, offset, up, indexing⟩ := a
  cases offset <;> cases indexing <;> rfl

end Made

end Exec

/-! ### Made actions are plain -/

section

variable {s : Exec.Scope} {free : Bool}

namespace Core

/-- A change of the core that keeps the current decoding, the program counter and the set. -/
lemma Action.of_keeps {f : Core → Core} (hbare : ∀ c, (f c).bare = (f c.bare).bare)
    (hkeeps : ∀ c, (f c).cacheEnabled = c.cacheEnabled ∧ (f c).current = c.current ∧
      (f c).pc = c.pc ∧ (f c).regs.set = c.regs.set) : Action free f :=
  ⟨hbare, fun c => (hkeeps c).1, fun c => .inr ⟨(hkeeps c).2.1, .inr (hkeeps c).2.2⟩⟩

/-- Evaluating an address writes at most the base. -/
lemma evalSingle_keeps (c : Core) (a : SingleAddress) :
    (c.evalSingle a).2.cacheEnabled = c.cacheEnabled ∧ (c.evalSingle a).2.current = c.current ∧
      (c.evalSingle a).2.regs.set = c.regs.set ∧
      (a.writesPc = false → (c.evalSingle a).2.pc = c.pc) := by
  obtain ⟨rn, offset, up, indexing⟩ := a
  have hoffset : (c.evalOffset offset).2.pc = c.pc := by cases offset <;> rfl
  refine ⟨?_, ?_, ?_, fun h => ?_⟩
  · cases offset <;> cases indexing <;> rfl
  · cases offset <;> cases indexing <;> rfl
  · cases offset <;> cases indexing <;> rfl
  · cases indexing with
    | pre => exact hoffset
    | post | preWriteback =>
      have hrn : rn ≠ .pc := by simpa [SingleAddress.writesPc] using h
      exact (Core.pc_setReg hrn _ _).trans hoffset

/-- A change does not depend on what is remembered of decodings. It is free if its scope lets it
jump. -/
lemma Change.action {f : Core → Core} (h : Change s f) (hs : s.jumps = true → free = true) :
    Action free f := by
  cases h with
  | setReg hr value =>
    refine ⟨fun _ => rfl, fun _ => rfl, fun c => .inr ⟨rfl, ?_⟩⟩
    exact hr.imp hs fun hr => ⟨c.pc_setReg hr value, rfl⟩
  | setSet hjumps set => exact ⟨fun _ => rfl, fun _ => rfl, fun _ => .inr ⟨rfl, .inl (hs hjumps)⟩⟩
  | mapFlags _ => exact .of_keeps (fun _ => rfl) fun _ => ⟨rfl, rfl, rfl, rfl⟩
  | charge cycles => exact .of_keeps (fun _ => rfl) fun _ => ⟨rfl, rfl, rfl, rfl⟩
  | testCondition cond =>
    refine .of_keeps (fun c => ?_) fun c => ?_
    · unfold Core.testCondition
      split <;> rfl
    · unfold Core.testCondition
      split <;> exact ⟨rfl, rfl, rfl, rfl⟩
  | evalOperand operand => exact .of_keeps (fun _ => rfl) fun _ => ⟨rfl, rfl, rfl, rfl⟩
  | @evalSingle a ha =>
    refine ⟨fun c => ?_, fun c => (evalSingle_keeps c a).1, fun c => ?_⟩
    · obtain ⟨rn, offset, up, indexing⟩ := a
      cases offset <;> cases indexing <;> rfl
    · obtain ⟨-, hcurrent, hset, hpc⟩ := evalSingle_keeps c a
      exact .inr ⟨hcurrent, ha.imp hs fun e => ⟨hpc e, hset⟩⟩
  | switchMode mode =>
    refine .of_keeps (fun _ => rfl) fun c => ⟨rfl, rfl, ?_⟩
    exact ⟨(c.regs.switchMode_unbanked mode).1, (c.regs.switchMode_unbanked mode).2.2⟩
  | halt => exact .of_keeps (fun _ => rfl) fun _ => ⟨rfl, rfl, rfl, rfl⟩
  | trap _ returnAddress => exact ⟨fun _ => rfl, fun _ => rfl, fun _ => .inl rfl⟩

end Core

namespace Arm

open Exec (Plain)

/-- Writing the status word leaves the program counter and the set. -/
lemma writeCurrent_keeps {mask value : Word} {r r' : Registers}
    (h : writeCurrent mask value r = .ok r') : r'.read .pc = r.read .pc ∧ r'.set = r.set := by
  -- the flags are written first, and the mode is entered with the new flags
  let flagged : Registers :=
    if mask &&& Registers.conditionMask ≠ 0 then
      { r with
        flags := { r.flags with
          n := value.bit 31, z := value.bit 30, c := value.bit 29, v := value.bit 28 } }
    else r
  have hflagged : flagged.read .pc = r.read .pc ∧ flagged.set = r.set := by
    simp only [flagged]
    split <;> exact ⟨rfl, rfl⟩
  unfold writeCurrent at h
  by_cases hp : r.mode ≠ .user ∧ mask &&& Registers.controlMask ≠ 0
  · cases hmode : Mode.ofBits ((value &&& 0xF) ||| 0x10) with
    | error fault =>
      rw [if_pos hp, hmode] at h
      simp only [Except.map, bind, Except.bind, reduceCtorEq] at h
    | ok mode =>
      rw [if_pos hp, hmode] at h
      obtain rfl := Except.ok.inj h
      obtain ⟨hpc, -, hset⟩ := flagged.switchMode_unbanked mode
      exact ⟨hpc.trans hflagged.1, hset.trans hflagged.2⟩
  · rw [if_neg hp] at h
    obtain rfl := Except.ok.inj h
    exact hflagged

/-- The value that a write of a status word takes from its source. -/
def sourceValue (source : StatusSource) (c : Core) : Word :=
  match source with
  | .register rm => c.reg rm
  | .immediate value => value

/-- The core with the selected parts of the status word written, unless the mode does not exist. -/
def withCurrent (mask value : Word) (c : Core) : Core :=
  match writeCurrent mask value c.regs with
  | .ok regs => { c with regs }
  | .error _ => c

/-- Writing the current status word, as plain actions. -/
def putCurrent (mask value : Word) : Exec Unit := do
  match ← Exec.core fun c => writeCurrent mask value c.regs with
  | .ok _ =>
    Exec.onCore (withCurrent mask value)
    Exec.update Board.testIrq
  | .error fault => throw fault

lemma putCurrent_apply (mask value : Word) (b : Board) :
    putCurrent mask value b = match writeCurrent mask value b.core.regs with
      | .error fault => .error fault b
      | .ok regs => .ok () (b.mapCore ({ · with regs })).testIrq := by
  cases h : writeCurrent mask value b.core.regs with
  | error fault =>
    have hread : Exec.core (fun c => writeCurrent mask value c.regs) b = .ok (.error fault) b :=
      congrArg (EStateM.Result.ok · b) h
    exact Exec.bind_of_ok hread
  | ok regs =>
    have hread : Exec.core (fun c => writeCurrent mask value c.regs) b = .ok (.ok regs) b :=
      congrArg (EStateM.Result.ok · b) h
    have hwrite : b.mapCore (withCurrent mask value) = b.mapCore ({ · with regs }) := by
      have hcore : withCurrent mask value b.core = { b.core with regs } := by
        simp only [withCurrent, h]
      exact congrArg (fun c => (⟨c, b.bus, b.irq, b.journal⟩ : Board)) hcore
    have htest : EStateM.Result.ok () (b.mapCore (withCurrent mask value)).testIrq =
        (.ok () (b.mapCore ({ · with regs })).testIrq : EStateM.Result Fault Board Unit) := by
      rw [hwrite]
    exact (Exec.bind_of_ok hread).trans htest

lemma plain_putCurrent (mask value : Word) : Plain free (putCurrent mask value) := by
  refine .bind (.core _ fun _ => rfl) ?_
  rintro (fault | regs)
  · exact .throw fault
  · refine .bind (.onCore (.of_keeps (fun c => ?_) fun c => ?_)) fun _ => .testIrq
    · simp only [withCurrent, Core.bare]
      split <;> rfl
    · simp only [withCurrent]
      split
      · exact ⟨rfl, rfl, writeCurrent_keeps ‹_›⟩
      · exact ⟨rfl, rfl, rfl, rfl⟩

/-- Writing a status word, as plain actions. -/
lemma writeStatus_eq (saved : Bool) (mask : Word) (source : StatusSource) :
    writeStatus saved mask source = (do
      let value ← Exec.core (sourceValue source)
      if saved then Exec.onCore fun c => { c with regs := writeSaved mask value c.regs }
      else putCurrent mask value) := by
  funext b
  cases saved with
  | true => cases source <;> rfl
  | false =>
    show writeStatus false mask source b = putCurrent mask (sourceValue source b.core) b
    rw [putCurrent_apply]
    cases source <;> rfl

lemma plain_writeStatus (saved : Bool) (mask : Word) (source : StatusSource) :
    Plain free (writeStatus saved mask source) := by
  rw [writeStatus_eq]
  refine .bind (.core _ fun c => ?_) fun value => .ite (.onCore ?_) (plain_putCurrent mask value)
  · cases source <;> rfl
  · refine .of_keeps (fun _ => rfl) fun c => ?_
    unfold writeSaved
    split <;> exact ⟨rfl, rfl, rfl, rfl⟩

end Arm

namespace Exec

/-- Loading a status word leaves the program counter, and where it changes the set it forgets the
current decoding. -/
lemma plain_loadStatus (status : Word) : Plain free (loadStatus status) := by
  let load (c : Core) : Core := match c.regs.loadStatus status with
    | .ok regs => { c with regs, current := if regs.set = c.regs.set then c.current else none }
    | .error _ => c
  have hparts : loadStatus status = (do
      match ← core (·.regs.loadStatus status) with
      | .ok _ => do
        onCore load
        update Board.testIrq
      | .error fault => MonadExcept.throw fault) := by
    funext b
    show loadStatus status b = (match b.core.regs.loadStatus status with
      | .ok _ => onCore load >>= fun _ => update Board.testIrq
      | .error fault => MonadExcept.throw fault : Exec Unit) b
    unfold loadStatus
    cases h : b.core.regs.loadStatus status with
    | error fault => rfl
    | ok regs =>
      show EStateM.Result.ok () _ = .ok () ((b.mapCore load).testIrq)
      have hload : load b.core = { b.core with
          regs, current := if regs.set = b.core.regs.set then b.core.current else none } := by
        simp only [load, h]
      rw [Board.mapCore, Board.mapCore, hload]
  rw [hparts]
  refine .bind (.core _ fun _ => rfl) fun loaded => ?_
  cases loaded with
  | error fault => exact .throw fault
  | ok regs =>
    refine .bind (.onCore ⟨fun c => ?_, fun c => ?_, fun c => ?_⟩) fun _ => .testIrq
    · simp only [load, Core.bare]
      split <;> rfl
    · simp only [load]
      split <;> rfl
    · simp only [load, Registers.loadStatus]
      cases hmode : Mode.ofBits status with
      | error fault => exact .inr ⟨rfl, .inr ⟨rfl, rfl⟩⟩
      | ok mode =>
        by_cases hset : InstrSet.ofBit (status.bit 5) = c.regs.set
        · exact .inr ⟨if_pos hset, .inr ⟨(c.regs.switchMode_unbanked mode).1, hset⟩⟩
        · exact .inl (if_neg hset)

/-- What is made of primitive actions is plain. It is free if its scope lets it jump. -/
theorem Made.plain {α : Type} {x : Exec α} (h : Made s x) (hs : s.jumps = true → free = true) :
    Plain free x := by
  induction h with
  | pure a => exact .pure a
  | throw e => exact .throw e
  | bind _ _ ihx ihf => exact .bind ihx ihf
  | core f hf => exact .core f fun c => (hf c).trans (hf c.bare).symm
  | bus f hf => exact .bus f fun b => (hf b).trans (hf b.bare).symm
  | irq _ ihk => exact .irq ihk
  | onCore hf => exact .onCore (hf.action hs)
  | loadStatus _ status => exact plain_loadStatus status
  | writeStatus saved mask source => exact Arm.plain_writeStatus saved mask source
  | note n => exact .note n
  | load kind address => exact .load kind address
  | store _ width address value => exact .store width address value

end Exec

end

end Armv4T
