import Mathlib
import Armv4T.Arm.Exec
import Armv4T.Thumb.Exec
import Armv4T.Proofs.Step.Jump

/-!
# What User mode may not change

The mode, the interrupt masks, the saved status word and the registers of other modes are guarded:
in User mode no instruction may change them, unless it enters an exception. `Registers.Guarded`
says that they are the same in two register files. Most actions keep them in every mode
(`Exec.Keeps`). The instructions that can change them look at the mode first, and what they find in
User mode makes them do something else: a write of the status word leaves its control byte alone, a
return from an exception finds no saved status word, and a transfer of the User bank comes back to
the mode it started in.
-/

namespace Armv4T

/-- Two register files have the same guarded part. -/
structure Registers.Guarded (r s : Registers) : Prop where
  mode : s.mode = r.mode
  i : s.flags.i = r.flags.i
  f : s.flags.f = r.flags.f
  spsr : s.spsr = r.spsr
  banks : s.banks = r.banks
  high : s.high = r.high
  fiqHigh : s.fiqHigh = r.fiqHigh

namespace Registers.Guarded

variable {r s t : Registers}

lemma refl (r : Registers) : r.Guarded r := ⟨rfl, rfl, rfl, rfl, rfl, rfl, rfl⟩

lemma trans (h : r.Guarded s) (h' : s.Guarded t) : r.Guarded t :=
  ⟨h'.mode.trans h.mode, h'.i.trans h.i, h'.f.trans h.f, h'.spsr.trans h.spsr,
    h'.banks.trans h.banks, h'.high.trans h.high, h'.fiqHigh.trans h.fiqHigh⟩

lemma of_eq (h : s = r) : r.Guarded s := h ▸ refl r

/-- A write of a visible register is not guarded. -/
lemma write (r : Registers) (i : Reg) (value : Word) : r.Guarded (r.write i value) :=
  ⟨rfl, rfl, rfl, rfl, rfl, rfl, rfl⟩

end Registers.Guarded

namespace Exec

variable {α β : Type}

/-- Where an action that starts in mode `m` finishes, the guarded part is as it was. -/
def Keeps (m : Mode) (x : Exec α) : Prop :=
  ∀ b a b', b.core.regs.mode = m → x b = .ok a b' → b.core.regs.Guarded b'.core.regs

namespace Keeps

variable {m : Mode} {x y : Exec α}

/-! ### Primitive actions -/

/-- An action that cannot fail and leaves the guarded part. -/
lemma of_apply {g : Board → α} {f : Board → Board} (hx : ∀ b, x b = .ok (g b) (f b))
    (h : ∀ b : Board, b.core.regs.mode = m → b.core.regs.Guarded (f b).core.regs) :
    Keeps m x := by
  intro b a b' hmode hok
  rw [hx b] at hok
  obtain ⟨-, rfl⟩ := EStateM.Result.ok.inj hok
  exact h b hmode

lemma pure (a : α) : Keeps m (Pure.pure a) := of_apply (fun _ => rfl) fun _ _ => .refl _

lemma throw (e : Fault) : Keeps m (MonadExcept.throw e : Exec α) :=
  fun _ _ _ _ h => nomatch h

lemma core (f : Core → α) : Keeps m (Exec.core f) := of_apply (fun _ => rfl) fun _ _ => .refl _

lemma reg (r : Reg) : Keeps m (Exec.reg r) := core _

/-- A change of the core that leaves the guarded part. -/
lemma onCore {f : Core → Core} (h : ∀ c : Core, c.regs.mode = m → c.regs.Guarded (f c).regs) :
    Keeps m (Exec.onCore f) := of_apply (fun _ => rfl) fun b => h b.core

lemma setReg (r : Reg) (value : Word) : Keeps m (Exec.setReg r value) :=
  onCore fun c _ => .write c.regs r value

/-- A change of the condition flags. -/
lemma mapFlags {f : Flags → Flags} (h : ∀ l, (f l).i = l.i ∧ (f l).f = l.f) :
    Keeps m (Exec.mapFlags f) :=
  onCore fun c _ => ⟨rfl, (h c.regs.flags).1, (h c.regs.flags).2, rfl, rfl, rfl, rfl⟩

lemma charge (cycles : Word) : Keeps m (Exec.charge cycles) := onCore fun _ _ => .refl _

lemma chargeBus (f : Bus → Word) : Keeps m (Exec.chargeBus f) :=
  of_apply (g := fun _ => ()) (f := fun b => b.mapCore (·.charge (f b.bus))) (fun _ => rfl)
    fun _ _ => .refl _

lemma prefetch (set : InstrSet) : Keeps m (Exec.prefetch set) :=
  of_apply (prefetch_apply set) fun _ _ => .refl _

lemma testCondition (cond : Condition) : Keeps m (Exec.testCondition cond) :=
  of_apply (testCondition_apply cond) fun b _ => .of_eq (b.core.testCondition_regs cond)

lemma note (n : Notice) : Keeps m (Exec.update (·.note n)) :=
  of_apply (g := fun _ => ()) (fun _ => rfl) fun _ _ => .refl _

lemma core_note? (b : Board) (n : Option Notice) : (b.note? n).core = b.core := by
  cases n <;> rfl

lemma load (kind : LoadKind) (address : Word) : Keeps m (Exec.load kind address) := by
  intro b a b' _ hok
  unfold Exec.load at hok
  split at hok
  · exact nomatch hok
  · obtain ⟨-, rfl⟩ := EStateM.Result.ok.inj hok
    rw [core_note?]
    exact .refl _

lemma store (width : StoreWidth) (address value : Word) :
    Keeps m (Exec.store width address value) := by
  intro b a b' _ hok
  unfold Exec.store at hok
  split at hok
  · exact nomatch hok
  · obtain ⟨-, rfl⟩ := EStateM.Result.ok.inj hok
    rw [core_note?]
    exact .refl _

/-! ### Putting actions together -/

lemma bind {f : α → Exec β} (hx : Keeps m x) (hf : ∀ a, Keeps m (f a)) : Keeps m (x >>= f) := by
  intro b c b'' hmode hok
  obtain ⟨a, b', hxb, hfb⟩ := exists_of_bind_ok hok
  have hfirst := hx b a b' hmode hxb
  exact hfirst.trans (hf a b' c b'' (hfirst.mode.trans hmode) hfb)

/-- Reading the core, where what follows may use that the mode is `m`. -/
lemma bindCore {f : Core → α} {k : α → Exec β} (hk : ∀ c, c.regs.mode = m → Keeps m (k (f c))) :
    Keeps m (Exec.core f >>= k) :=
  fun b c b' hmode hok => hk b.core hmode b c b' hmode hok

lemma ite {p : Prop} [Decidable p] (hx : Keeps m x) (hy : Keeps m y) :
    Keeps m (if p then x else y) := by
  split
  · exact hx
  · exact hy

lemma when {p : Prop} [Decidable p] {x : Exec Unit} (hx : Keeps m x) :
    Keeps m (if p then x else Pure.pure ()) := ite hx (pure ())

/-- Something done under a condition, and something after it. -/
lemma whenThen {p : Prop} [Decidable p] {x : Exec Unit} {k : Unit → Exec β} (hx : Keeps m x)
    (hk : ∀ u, Keeps m (k u)) : Keeps m (if p then x >>= k else k ()) :=
  ite (bind hx hk) (hk ())

/-- One of two things done, and something after it. -/
lemma iteThen {p : Prop} [Decidable p] {k : α → Exec β} (hx : Keeps m x) (hy : Keeps m y)
    (hk : ∀ a, Keeps m (k a)) : Keeps m (if p then x >>= k else y >>= k) :=
  ite (bind hx hk) (bind hy hk)

end Keeps

/-! ### Services -/

lemma keeps_putDivision (m : Mode) (numerator denominator : Word) :
    Keeps m (Bios.putDivision numerator denominator) := by
  unfold Bios.putDivision
  exact .whenThen (.note _) fun _ => .bind (.setReg _ _) fun _ => .bind (.setReg _ _) fun _ =>
    .setReg _ _

lemma keeps_halt (m : Mode) : Keeps m (update Board.halt) := by
  refine .of_apply (g := fun _ => ()) (fun _ => rfl) fun b _ => ?_
  show b.core.regs.Guarded
    ((b.mapCore ({ · with halted := true })).note? _).core.regs
  rw [Keeps.core_note?]
  exact .refl _

lemma keeps_dispatch (m : Mode) (comment : Word) : Keeps m (Bios.dispatch comment) := by
  unfold Bios.dispatch
  refine .bind (.reg _) fun r0 => .bind (.reg _) fun r1 => ?_
  split
  · exact keeps_halt m
  · exact keeps_putDivision m _ _
  · exact keeps_putDivision m _ _
  · exact .setReg _ _
  · exact .setReg _ _
  · exact .setReg _ _
  · exact .throw _

end Exec

/-! ### ARM instructions -/

namespace Arm

open Exec (Keeps)

variable {m : Mode}

lemma keeps_afterFetch (cond : Condition) {act : Exec Unit} (h : Keeps m act) :
    Keeps m (afterFetch cond act) :=
  .bind (.prefetch _) fun _ => .bind (.testCondition _) fun _ => .when h

lemma keeps_insteadOfFetch (cond : Condition) {act : Exec Unit} (h : Keeps m act) :
    Keeps m (insteadOfFetch cond act) :=
  .bind (.testCondition _) fun _ => .ite h (.prefetch _)

/-- Without a saved status word, no operation returns from an exception. -/
lemma keeps_dataProcessing (hm : m.hasSpsr = false) (op : AluOp) (setFlags : Bool) (rd rn : Reg)
    (operand : Operand) : Keeps m (dataProcessing op setFlags rd rn operand) := by
  unfold dataProcessing
  refine .bind (.onCore fun _ _ => .refl _) fun _ => .bind (.core _) fun result => ?_
  have hput : Keeps m (if !op.isTest then Exec.setReg rd result.value else pure ()) :=
    .when (.setReg _ _)
  refine .ite (.bindCore fun c hmode => ?_) hput
  simp only [hmode, hm, Bool.and_false, Bool.false_eq_true, if_false]
  exact .bind (.mapFlags fun _ => ⟨rfl, rfl⟩) fun _ => hput

lemma keeps_readStatus (rd : Reg) (saved : Bool) : Keeps m (readStatus rd saved) :=
  .bind (.core _) fun _ => .setReg _ _

/-- In User mode a write of the status word reaches the condition flags only. -/
lemma guarded_writeCurrent {mask value : Word} {r r' : Registers} (hmode : r.mode = .user)
    (h : writeCurrent mask value r = .ok r') : r.Guarded r' := by
  have hunprivileged : ¬(r.mode ≠ .user ∧ mask &&& Registers.controlMask ≠ 0) :=
    fun e => e.1 hmode
  unfold writeCurrent at h
  rw [if_neg hunprivileged] at h
  obtain rfl := Except.ok.inj h
  split <;> exact ⟨rfl, rfl, rfl, rfl, rfl, rfl, rfl⟩

lemma keeps_writeStatus (saved : Bool) (mask : Word) (source : StatusSource) :
    Keeps .user (writeStatus saved mask source) := by
  intro b a b' hmode hok
  unfold writeStatus at hok
  dsimp only at hok
  split at hok
  · obtain ⟨-, rfl⟩ := EStateM.Result.ok.inj hok
    refine .of_eq (?_ : writeSaved mask _ b.core.regs = b.core.regs)
    rw [writeSaved, hmode]
    rfl
  · split at hok
    · exact nomatch hok
    · rename_i regs hwrite
      obtain ⟨-, rfl⟩ := EStateM.Result.ok.inj hok
      exact guarded_writeCurrent hmode hwrite

lemma keeps_multiply (accumulate setFlags : Bool) (rd rn rs rm : Reg) :
    Keeps m (multiply accumulate setFlags rd rn rs rm) := by
  unfold multiply
  refine .bind (.reg rs) fun multiplier => .bind (.charge _) fun _ => ?_
  refine .bind (.reg rm) fun value => .iteThen (.reg rn) (.pure 0) fun addend => ?_
  refine .whenThen (.charge 1) fun _ => .whenThen (.mapFlags fun _ => ⟨rfl, rfl⟩) fun _ => ?_
  exact .setReg _ _

lemma keeps_multiplyLong (signed accumulate setFlags : Bool) (rdHi rdLo rs rm : Reg) :
    Keeps m (multiplyLong signed accumulate setFlags rdHi rdLo rs rm) := by
  unfold multiplyLong
  refine .bind (.reg rs) fun multiplier => .bind (.charge _) fun _ => ?_
  refine .bind (.reg rm) fun value => .bind (.core _) fun addend => ?_
  refine .whenThen (.charge 1) fun _ => .whenThen (.mapFlags fun _ => ⟨rfl, rfl⟩) fun _ => ?_
  exact .bind (.setReg _ _) fun _ => .setReg _ _

lemma keeps_swap (byte : Bool) (rd rn rm : Reg) : Keeps m (swap byte rd rn rm) := by
  unfold swap
  refine .bind (.reg rn) fun address => .bind (.reg rm) fun value => ?_
  have hput (old : Word) : Keeps m (do Exec.setReg rd old; Exec.charge 1) :=
    .bind (.setReg _ _) fun _ => .charge 1
  refine .ite ?_ ?_
  · refine .bind (.chargeBus _) fun _ => .bind (.load _ _) fun old => ?_
    exact .bind (.store _ _ _) fun _ => .bind (.pure _) fun old => hput old
  · refine .bind (.chargeBus _) fun _ => .bind (.load _ _) fun old => ?_
    exact .bind (.store _ _ _) fun _ => .bind (.pure _) fun old => hput old

lemma keeps_evalAddress (a : SingleAddress) : Keeps m (evalAddress a) := by
  refine .of_apply (g := fun b => (b.core.evalSingle a).1)
    (f := fun b => b.mapCore fun _ => (b.core.evalSingle a).2) (fun _ => rfl) fun b _ => ?_
  obtain ⟨rn, offset, up, indexing⟩ := a
  cases offset <;> cases indexing <;> exact ⟨rfl, rfl, rfl, rfl, rfl, rfl, rfl⟩

lemma keeps_loadSingle (kind : LoadKind) (rd : Reg) (a : SingleAddress) :
    Keeps m (loadSingle kind rd a) := by
  unfold loadSingle
  refine .bind (keeps_evalAddress a) fun address => .whenThen (.chargeBus _) fun _ => ?_
  refine .bind (.load _ _) fun value => .whenThen (.chargeBus _) fun _ => ?_
  exact .bind (.charge 1) fun _ => .setReg _ _

lemma keeps_chargeAtPc : Keeps m chargeAtPc := .bind (.core _) fun _ => .chargeBus _

lemma keeps_storeSingle (width : StoreWidth) (rd : Reg) (a : SingleAddress) :
    Keeps m (storeSingle width rd a) :=
  .bind (.core _) fun _ => .bind (keeps_evalAddress a) fun _ => .bind (.store _ _ _) fun _ =>
    .bind (.chargeBus _) fun _ => keeps_chargeAtPc

lemma keeps_blockAddress (a : BlockAddress) (store : Bool) : Keeps m (blockAddress a store) := by
  unfold blockAddress
  refine .bind (.reg _) fun base => ?_
  refine .ite (.whenThen (.store _ _ _) fun _ => .bind (.setReg _ _) fun _ => .pure _) (.pure _)

lemma keeps_loadWords (address : Word) (list : List Reg) : Keeps m (loadWords address list) := by
  induction list generalizing address with
  | nil => exact .pure ()
  | cons r rest ih => exact .bind (.load _ _) fun _ => .bind (.setReg _ _) fun _ => ih _

lemma keeps_storeWords (address : Word) (list : List Reg) : Keeps m (storeWords address list) := by
  induction list generalizing address with
  | nil => exact .pure ()
  | cons r rest ih => exact .bind (.core _) fun _ => .bind (.store _ _ _) fun _ => ih _

/-- User and System mode share all their registers, so that from User mode the User bank is the
current one, and coming back from System mode changes nothing but the mode. -/
lemma keeps_inBank (user : Bool) {act : Exec Unit} (h : ∀ m, Keeps m act) :
    Keeps .user (inBank user act) := by
  cases user with
  | false => exact h .user
  | true =>
    intro b a b' hmode hok
    have hsystem : b.core.regs.switchMode .system = { b.core.regs with mode := .system } := by
      rw [Registers.switchMode, hmode]
      rfl
    let b₁ := b.mapCore (·.switchMode .system)
    have hinside : inBank true act b =
        (act >>= fun _ => Exec.onCore (·.switchMode b.core.regs.mode)) b₁ := rfl
    rw [hinside] at hok
    obtain ⟨u, b₂, hact, hlast⟩ := Exec.exists_of_bind_ok hok
    obtain ⟨-, rfl⟩ := EStateM.Result.ok.inj hlast
    have hkept : Registers.Guarded { b.core.regs with mode := .system } b₂.core.regs := by
      rw [← hsystem]
      exact h _ b₁ u b₂ rfl hact
    have hback : b₂.core.regs.switchMode b.core.regs.mode =
        { b₂.core.regs with mode := b.core.regs.mode } := by
      rw [Registers.switchMode, hkept.mode, hmode]
      rfl
    show b.core.regs.Guarded (b₂.core.regs.switchMode b.core.regs.mode)
    rw [hback]
    exact ⟨rfl, hkept.i, hkept.f, hkept.spsr, hkept.banks, hkept.high, hkept.fiqHigh⟩

/-- In User mode a block load returns from no exception. -/
lemma keeps_loadMultiple (userBank : Bool) (list : RegList) (a : BlockAddress) :
    Keeps .user (loadMultiple userBank list a) := by
  unfold loadMultiple
  refine .bind (keeps_blockAddress a false) fun start => ?_
  refine .bind (keeps_inBank _ fun m => keeps_loadWords _ _) fun _ => ?_
  refine .bind (.chargeBus _) fun _ => .bind (.charge 1) fun _ => .when ?_
  refine .bindCore fun c hmode => ?_
  simp only [hmode]
  exact .pure ()

lemma keeps_storeMultiple (userBank : Bool) (list : RegList) (a : BlockAddress) :
    Keeps .user (storeMultiple userBank list a) := by
  unfold storeMultiple
  refine .bind keeps_chargeAtPc fun _ => .bind (keeps_blockAddress a true) fun start => ?_
  refine .bind (keeps_inBank _ fun m => keeps_storeWords _ _) fun _ => ?_
  exact .ite (.chargeBus _) (.chargeBus _)

lemma keeps_branch (link : Bool) (offset : Word) : Keeps m (branch link offset) := by
  unfold branch
  refine .bind (.prefetch _) fun _ => .bind (.core _) fun pc => ?_
  exact .whenThen (.setReg _ _) fun _ => .setReg _ _

lemma keeps_branchExchange (rm : Reg) : Keeps m (branchExchange rm) :=
  .bind (.reg rm) fun _ => .bind (.onCore fun _ _ => ⟨rfl, rfl, rfl, rfl, rfl, rfl, rfl⟩) fun _ =>
    .setReg _ _

/-- In User mode every ARM instruction but the software interrupt keeps the guarded part. -/
lemma keeps_exec (i : Instr) (address : Word) (h : ∀ comment, i.op ≠ .softwareInterrupt comment) :
    Keeps .user (exec i address) := by
  obtain ⟨cond, op⟩ := i
  cases op with
  | dataProcessing op setFlags rd rn operand =>
    exact keeps_afterFetch _ (keeps_dataProcessing rfl op setFlags rd rn operand)
  | readStatus rd saved => exact keeps_afterFetch _ (keeps_readStatus rd saved)
  | writeStatus saved mask source => exact keeps_afterFetch _ (keeps_writeStatus saved mask source)
  | multiply accumulate setFlags rd rn rs rm =>
    exact keeps_afterFetch _ (keeps_multiply accumulate setFlags rd rn rs rm)
  | multiplyLong signed accumulate setFlags rdHi rdLo rs rm =>
    exact keeps_afterFetch _ (keeps_multiplyLong signed accumulate setFlags rdHi rdLo rs rm)
  | swap byte rd rn rm => exact keeps_afterFetch _ (keeps_swap byte rd rn rm)
  | load kind rd a => exact keeps_afterFetch _ (keeps_loadSingle kind rd a)
  | store width rd a => exact keeps_insteadOfFetch _ (keeps_storeSingle width rd a)
  | loadMultiple userBank list a => exact keeps_afterFetch _ (keeps_loadMultiple userBank list a)
  | storeMultiple userBank list a =>
    exact keeps_insteadOfFetch _ (keeps_storeMultiple userBank list a)
  | branch link offset => exact keeps_insteadOfFetch _ (keeps_branch link offset)
  | branchExchange rm => exact keeps_afterFetch _ (keeps_branchExchange rm)
  | softwareInterrupt comment => exact absurd rfl (h comment)
  | undefined opcode => exact .throw _

end Arm

/-! ### Thumb instructions -/

namespace Thumb

open Exec (Keeps)

variable {m : Mode}

lemma keeps_setSum (s : Sum) : Keeps m (setSum s) := .mapFlags fun _ => ⟨rfl, rfl⟩

lemma keeps_putSum (rd : Reg) (s : Sum) : Keeps m (putSum rd s) :=
  .bind (keeps_setSum s) fun _ => .setReg _ _

lemma keeps_putLogical (rd : Reg) (value : Word) : Keeps m (putLogical rd value) :=
  .bind (.mapFlags fun _ => ⟨rfl, rfl⟩) fun _ => .setReg _ _

lemma keeps_putShift (rd : Reg) (shifted : Word × Bool) : Keeps m (putShift rd shifted) :=
  .bind (.mapFlags fun _ => ⟨rfl, rfl⟩) fun _ => .setReg _ _

lemma keeps_shiftByRegister (kind : ShiftKind) (rd rs : Reg) :
    Keeps m (shiftByRegister kind rd rs) :=
  .bind (.core _) fun _ => .bind (.charge 1) fun _ => keeps_putShift _ _

lemma keeps_alu (op : AluOp) (rd rm : Reg) : Keeps m (alu op rd rm) := by
  unfold alu
  refine .bind (.reg rd) fun a => .bind (.reg rm) fun b => .bind (.core _) fun _ => ?_
  cases op with
  | and | eor | orr | bic | mvn => exact keeps_putLogical _ _
  | lsl | lsr | asr | ror => exact keeps_shiftByRegister _ _ _
  | adc | sbc | neg => exact keeps_putSum _ _
  | tst => exact .mapFlags fun _ => ⟨rfl, rfl⟩
  | cmp | cmn => exact keeps_setSum _
  | mul => exact .bind (.charge _) fun _ => keeps_putLogical _ _

lemma keeps_immediate (op : ImmediateOp) (rd : Reg) (value : Word) :
    Keeps m (immediate op rd value) := by
  refine .bind (.reg rd) fun a => ?_
  cases op with
  | mov => exact keeps_putLogical _ _
  | cmp => exact keeps_setSum _
  | add | sub => exact keeps_putSum _ _

lemma keeps_load (kind : LoadKind) (rd : Reg) (address : Word) :
    Keeps m (load kind rd address) :=
  .bind (.load _ _) fun _ => .bind (.chargeBus _) fun _ => .bind (.charge 1) fun _ => .setReg _ _

lemma keeps_chargeAtPc : Keeps m chargeAtPc := .bind (.core _) fun _ => .chargeBus _

lemma keeps_store (width : StoreWidth) (rd : Reg) (address : Word) :
    Keeps m (store width rd address) :=
  .bind (.reg rd) fun _ => .bind (.store _ _ _) fun _ => .bind keeps_chargeAtPc fun _ =>
    .chargeBus _

lemma keeps_pushWords (address : Word) (list : List Reg) : Keeps m (pushWords address list) := by
  induction list generalizing address with
  | nil => exact .pure _
  | cons r rest ih => exact .bind (.reg r) fun _ => .bind (.store _ _ _) fun _ => ih _

lemma keeps_push (list : RegList) (lr : Bool) : Keeps m (push list lr) :=
  .bind (.reg .sp) fun _ => .bind (keeps_pushWords _ _) fun _ => .bind (.chargeBus _) fun _ =>
    .setReg _ _

lemma keeps_popWords (address : Word) (list : List Reg) : Keeps m (popWords address list) := by
  induction list generalizing address with
  | nil => exact .pure _
  | cons r rest ih =>
    exact .bind (.chargeBus _) fun _ => .bind (.load _ _) fun _ => .bind (.setReg _ _) fun _ =>
      ih _

lemma keeps_pop (list : RegList) (pc : Bool) : Keeps m (pop list pc) := by
  unfold pop
  refine .bind (.charge 1) fun _ => .bind (.reg .sp) fun start => ?_
  refine .bind (keeps_popWords _ _) fun after => .ite ?_ ?_
  · exact .bind (.load _ _) fun _ => .bind (.setReg _ _) fun _ => .bind (.chargeBus _) fun _ =>
      .setReg _ _
  · exact .bind (.chargeBus _) fun _ => .setReg _ _

lemma keeps_storeWords (rn : Reg) (base address : Word) (list : List Reg) :
    Keeps m (storeWords rn base address list) := by
  induction list generalizing address with
  | nil => exact .pure _
  | cons r rest ih => exact .bind (.reg r) fun _ => .bind (.store _ _ _) fun _ => ih _

lemma keeps_storeMultiple (rn : Reg) (list : RegList) : Keeps m (storeMultiple rn list) :=
  .bind keeps_chargeAtPc fun _ => .bind (.reg rn) fun _ =>
    .bind (keeps_storeWords _ _ _ _) fun _ => .bind (.chargeBus _) fun _ => .setReg _ _

lemma keeps_loadWords (address : Word) (list : List Reg) : Keeps m (loadWords address list) := by
  induction list generalizing address with
  | nil => exact .pure _
  | cons r rest ih => exact .bind (.load _ _) fun _ => .bind (.setReg _ _) fun _ => ih _

lemma keeps_loadMultiple (rn : Reg) (list : RegList) : Keeps m (loadMultiple rn list) :=
  .bind (.reg rn) fun _ => .bind (keeps_loadWords _ _) fun _ => .bind (.chargeBus _) fun _ =>
    .when (.setReg _ _)

lemma keeps_branchExchange (rm : Reg) : Keeps m (branchExchange rm) :=
  .bind (.reg rm) fun _ => .bind (.onCore fun _ _ => ⟨rfl, rfl, rfl, rfl, rfl, rfl, rfl⟩) fun _ =>
    .setReg _ _

lemma keeps_callLow (offset : Word) : Keeps m (callLow offset) :=
  .bind (.core _) fun _ => .bind (.reg .lr) fun _ => .bind (.setReg _ _) fun _ => .setReg _ _

lemma keeps_branchBy (offset : Word) : Keeps m (branchBy offset) :=
  .bind (.core _) fun _ => .setReg _ _

lemma keeps_act (i : Instr) (address : Word) (h : ∀ comment, i ≠ .softwareInterrupt comment) :
    Keeps m (act i address) := by
  cases i with
  | shift kind rd rm amount => exact .bind (.core _) fun _ => keeps_putShift _ _
  | addRegister subtract rd rn rm =>
    exact .bind (.reg rn) fun _ => .bind (.reg rm) fun _ => keeps_putSum _ _
  | addSmall subtract rd rn value => exact .bind (.reg rn) fun _ => keeps_putSum _ _
  | moveLow rd rn => exact .bind (.reg rn) fun _ => keeps_putSum _ _
  | immediate op rd value => exact keeps_immediate op rd value
  | alu op rd rm => exact keeps_alu op rd rm
  | addHigh rd rm => exact .bind (.reg rd) fun _ => .bind (.reg rm) fun _ => .setReg _ _
  | compareHigh rn rm => exact .bind (.reg rn) fun _ => .bind (.reg rm) fun _ => keeps_setSum _
  | moveHigh rd rm => exact .bind (.reg rm) fun _ => .setReg _ _
  | branchExchange rm => exact keeps_branchExchange rm
  | load kind rd a => exact .bind (.core _) fun _ => keeps_load _ _ _
  | store width rd a => exact .bind (.core _) fun _ => keeps_store _ _ _
  | addPc rd offset => exact .bind (.core _) fun _ => .setReg _ _
  | addSp rd offset => exact .bind (.reg .sp) fun _ => .setReg _ _
  | adjustSp down offset => exact .bind (.reg .sp) fun _ => .setReg _ _
  | push list lr => exact keeps_push list lr
  | pop list pc => exact keeps_pop list pc
  | storeMultiple rn list => exact keeps_storeMultiple rn list
  | loadMultiple rn list => exact keeps_loadMultiple rn list
  | branchIf cond offset => exact .bind (.testCondition cond) fun _ => .when (keeps_branchBy offset)
  | softwareInterrupt comment => exact absurd rfl (h comment)
  | branch offset => exact keeps_branchBy offset
  | callHigh offset => exact .bind (.core _) fun _ => .setReg _ _
  | callLow offset => exact keeps_callLow offset
  | undefined opcode => exact .throw _

/-- In every mode, every Thumb instruction but the software interrupt keeps the guarded part. -/
lemma keeps_exec (i : Instr) (address : Word) (h : ∀ comment, i ≠ .softwareInterrupt comment) :
    Keeps m (exec i address) := by
  unfold exec
  exact .whenThen (.prefetch _) fun _ => keeps_act i address h

end Thumb

end Armv4T
