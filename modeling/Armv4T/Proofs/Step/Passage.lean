import Mathlib
import Armv4T.Proofs.Step.Execute
import Armv4T.Proofs.Step.Quiet

/-!
# What a step does to a board

Some properties of a step compare the board after it with the board before it: the program counter
stays, or no eligible request is lost. An action establishes such a relation
(`Exec.Establishes`) if the boards before and after it are related, whether it finishes or stops
with a fault.

A relation that is transitive, that does not see what is remembered of decodings, and that holds of
every primitive action of a scope (`Board.Passage`) is established by whatever is made of these
actions (`Exec.Made.establishes`). If it holds of the pipeline moving on, then the execution of the
next instruction establishes it (`Exec.establishes_executeNext`).
-/

namespace Armv4T

/-- A relation between the boards before and after an action that holds of the primitive actions of
a scope. -/
structure Board.Passage (s : Exec.Scope) (R : Board → Board → Prop) : Prop where
  of_bare : ∀ {b b' : Board}, b'.bare = b.bare → R b b'
  trans : ∀ {b b' b'' : Board}, R b b' → R b' b'' → R b b''
  mapCore : ∀ {f : Core → Core}, Core.Change s f → ∀ b : Board, R b (b.mapCore f)
  loadStatus : s.restores = true → ∀ {b : Board} {status : Word} {regs : Registers},
    b.core.regs.loadStatus status = .ok regs →
    ∀ current, R b (b.mapCore ({ · with regs, current })).testIrq
  writeSaved : ∀ (mask value : Word) (b : Board),
    R b (b.mapCore fun c => { c with regs := Arm.writeSaved mask value c.regs })
  writeCurrent : ∀ {b : Board} {mask value : Word} {regs : Registers},
    Arm.writeCurrent mask value b.core.regs = .ok regs →
    R b (b.mapCore ({ · with regs })).testIrq
  store : s.stores = true → ∀ (width : StoreWidth) (address value : Word) (b : Board),
    R b (b.mapBus (·.store width address value))

lemma Board.bare_note? (b : Board) (n : Option Notice) : (b.note? n).bare = b.bare := by
  cases n <;> rfl

namespace Exec

open Board (Passage)

variable {s : Scope} {R : Board → Board → Prop} {α β : Type}

/-- The boards before and after an action are related. -/
def Establishes (R : Board → Board → Prop) (x : Exec α) : Prop := ∀ b, R b (x.after b)

/-! ### Actions that establish a relation -/

lemma Quiet.establishes (hR : Passage s R) {x : Exec α} (hx : Quiet x) : Establishes R x :=
  fun b => hR.of_bare (hx.unchanged b)

namespace Establishes

/-- What is transitive is established by actions in a row. -/
lemma seq (htrans : ∀ {b b' b'' : Board}, R b b' → R b' b'' → R b b'') {x : Exec α}
    {f : α → Exec β} (hx : Establishes R x) (hf : ∀ a, Establishes R (f a)) :
    Establishes R (x >>= f) := by
  intro b
  have hfirst := hx b
  rcases hxb : x b with ⟨a, b'⟩ | ⟨fault, b'⟩
  · rw [after_of_ok hxb] at hfirst
    rw [after_bind_of_ok hxb]
    exact htrans hfirst (hf a b')
  · rw [after_of_error hxb] at hfirst
    rwa [after_bind_of_error hxb]

lemma bind (hR : Passage s R) {x : Exec α} {f : α → Exec β} (hx : Establishes R x)
    (hf : ∀ a, Establishes R (f a)) : Establishes R (x >>= f) :=
  seq (R := R) hR.trans hx hf

lemma ite {p : Prop} [Decidable p] {x y : Exec α} (hx : Establishes R x) (hy : Establishes R y) :
    Establishes R (if p then x else y) := by
  split
  · exact hx
  · exact hy

lemma loadStatus (hR : Passage s R) (h : s.restores = true) (status : Word) :
    Establishes R (loadStatus status) := by
  intro b
  unfold after Exec.loadStatus
  cases hload : b.core.regs.loadStatus status with
  | error fault => exact hR.of_bare rfl
  | ok regs => exact hR.loadStatus h hload _

lemma writeStatus (hR : Passage s R) (saved : Bool) (mask : Word) (source : Arm.StatusSource) :
    Establishes R (Arm.writeStatus saved mask source) := by
  rw [Arm.writeStatus_eq]
  refine .bind hR ((Quiet.core _).establishes hR) fun value => .ite (hR.writeSaved mask value) ?_
  intro b
  rw [after, Arm.putCurrent_apply]
  cases hwrite : Arm.writeCurrent mask value b.core.regs with
  | error fault => exact hR.of_bare rfl
  | ok regs => exact hR.writeCurrent hwrite

lemma store (hR : Passage s R) (h : s.stores = true) (width : StoreWidth) (address value : Word) :
    Establishes R (store width address value) := by
  intro b
  unfold after Exec.store
  rcases b.bus.fault? (width.align address) with _ | fault
  · exact hR.trans (hR.store h width address value b) (hR.of_bare (Board.bare_note? _ _))
  · exact hR.of_bare rfl

end Establishes

/-- What is made of the primitive actions of a scope establishes every relation that holds of
them. -/
theorem Made.establishes (hR : Passage s R) {x : Exec α} (hx : Made s x) : Establishes R x := by
  induction hx with
  | pure a => exact (Quiet.pure a).establishes hR
  | throw e => exact fun b => hR.of_bare rfl
  | bind _ _ ihx ihf => exact .bind hR ihx ihf
  | core f _ => exact (Quiet.core f).establishes hR
  | bus f _ => exact (Quiet.bus f).establishes hR
  | irq _ ihk => exact fun b => ihk b.irq b
  | onCore hf => exact fun b => hR.mapCore hf b
  | loadStatus h status => exact .loadStatus hR h status
  | writeStatus saved mask source => exact .writeStatus hR saved mask source
  | note n => exact (Quiet.note n).establishes hR
  | load kind address => exact (Quiet.load kind address).establishes hR
  | store h width address value => exact .store hR h width address value

/-! ### The next instruction -/

/-- The scope of every instruction. -/
def Scope.full : Scope := ⟨true, true, true, true⟩

lemma Scope.covers_full (i : Instruction) : Scope.full.Covers i :=
  ⟨.inl rfl, .inl rfl, .inl rfl, .inl rfl⟩

lemma establishes_advance (hR : Passage s R) (hs : s.jumps = true) (h : Handle) :
    Establishes R (advance h) := by
  have hquiet {x : Exec Unit} (hx : Quiet x) : Establishes R x := hx.establishes hR
  have hrefill : Establishes R refill := (made_refill hs).establishes hR
  unfold advance
  refine .ite (hquiet (quiet_followCurrent _)) (.bind hR ((Quiet.core _).establishes hR) ?_)
  intro passed
  refine .ite (.bind hR hrefill fun _ => ?_) (hquiet (quiet_setCurrent none))
  exact .ite (hquiet (quiet_followCurrent _)) (hquiet (quiet_setCurrent none))

/-- The execution of the next instruction, whichever it is, establishes every relation that holds of
all primitive actions and of the pipeline moving on. -/
theorem establishes_executeNext (hR : Passage .full R)
    (hpipelined : ∀ set (b : Board), R b (b.mapCore (pipelined set))) :
    Establishes R executeNext := by
  have hinstruction (h : Handle) : Establishes R (instruction h) :=
    (made_instruction (Scope.covers_full h.instruction) (.inl rfl)).establishes hR
  rw [executeNext_eq]
  refine .bind hR (quiet_currentHandle.establishes hR) fun h => ?_
  refine .bind hR (hpipelined h.set) fun _ => .bind hR (hinstruction h) fun _ => ?_
  exact establishes_advance hR rfl h

end Exec

end Armv4T
