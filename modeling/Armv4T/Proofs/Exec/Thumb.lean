import Mathlib
import Armv4T.Thumb.Decode
import Armv4T.Step
import Armv4T.Proofs.Exec.Arm
import Armv4T.Word.Lemmas

/-!
# What Thumb instructions are made of

Every Thumb instruction is made of primitive actions, and no Thumb instruction restores the saved
status word. Whether one redirects the program counter can be read off its kind (`Instr.writesPc`)
because most kinds name low registers only: that is true of the instructions that opcodes decode to,
and is stated here as `Instr.SparesPc`.
-/

namespace Armv4T.Thumb

open Exec (Made Scope)

/-- An instruction that leaves the program counter alone. -/
def Instr.SparesPc : Instr → Prop
  | .shift _ rd _ _ | .addRegister _ rd _ _ | .addSmall _ rd _ _ | .moveLow rd _
  | .immediate _ rd _ | .alu _ rd _ | .addHigh rd _ | .moveHigh rd _ | .load _ rd _
  | .addPc rd _ | .addSp rd _ => rd ≠ .pc
  | .pop list pc => pc = false ∧ list.contains .pc = false
  | .storeMultiple rn _ => rn ≠ .pc
  | .loadMultiple rn list => rn ≠ .pc ∧ list.contains .pc = false
  | .branchExchange _ | .branchIf .. | .branch _ | .callLow _ | .undefined _ => False
  | .compareHigh .. | .store .. | .adjustSp .. | .push .. | .softwareInterrupt _
  | .callHigh _ => True

/-! ### Decoded instructions -/

/-- A register named by three bits is not the program counter. -/
lemma lowAt_ne_pc (w : Word) {lo : Word} (h : lo.toNat < 32) : lowAt w lo ≠ .pc := by
  intro e
  have hlt : (w.field lo 3).toNat < 2 ^ (3 : Word).toNat := Word.field_lt w h (by decide)
  have hval : (w.field lo 3).toNat % 16 = 15 := congrArg Fin.val e
  have h8 : (w.field lo 3).toNat < 8 := hlt
  omega

/-- The low eight bits list low registers only. -/
lemma lowList_contains_pc (w : Word) : (lowList w).contains .pc = false := by
  have hlt : (w.field 0 8).toNat < 2 ^ (8 : Word).toNat :=
    Word.field_lt w (by decide) (by decide)
  have h256 : (w.field 0 8).toNat < 256 := hlt
  show (w.field 0 8).bit 15 = false
  rw [Word.bit_eq_decide _ (by decide)]
  have hzero : (w.field 0 8).toNat / 2 ^ (15 : Word).toNat = 0 :=
    Nat.div_eq_of_lt (lt_trans h256 (by decide))
  rw [hzero]
  rfl

/-- An instruction that redirects the program counter only if its kind says so. -/
def Instr.Honest (i : Instr) : Prop := i.writesPc = false → i.SparesPc

lemma honest_ite {p : Prop} [Decidable p] {i j : Instr} (hi : i.Honest) (hj : j.Honest) :
    (if p then i else j).Honest := by
  split
  · exact hi
  · exact hj

lemma honest_decodeHigh (w : Word) : (decodeHigh w).Honest := by
  intro h
  unfold decodeHigh at h ⊢
  dsimp only at h ⊢
  split at h
  · exact beq_eq_false_iff_ne.mp h
  · trivial
  · exact beq_eq_false_iff_ne.mp h
  · exact nomatch h

lemma honest_decodeAddSub (w : Word) : (decodeAddSub w).Honest := by
  intro _
  unfold decodeAddSub
  split_ifs <;> exact lowAt_ne_pc w (by decide)

lemma honest_decodeRegisterTransfer (w : Word) : (decodeRegisterTransfer w).Honest := by
  intro _
  unfold decodeRegisterTransfer
  dsimp only
  split <;> first | trivial | exact lowAt_ne_pc w (by decide)

lemma honest_decodeOffsetTransfer (w : Word) : (decodeOffsetTransfer w).Honest := by
  intro _
  unfold decodeOffsetTransfer
  dsimp only
  split_ifs <;> first | trivial | exact lowAt_ne_pc w (by decide)

lemma honest_decodeHalfTransfer (w : Word) : (decodeHalfTransfer w).Honest := by
  intro _
  unfold decodeHalfTransfer
  dsimp only
  split_ifs <;> first | trivial | exact lowAt_ne_pc w (by decide)

lemma honest_decodeStackTransfer (w : Word) : (decodeStackTransfer w).Honest := by
  intro _
  unfold decodeStackTransfer
  dsimp only
  split_ifs <;> first | trivial | exact lowAt_ne_pc w (by decide)

lemma honest_decodeAddress (w : Word) : (decodeAddress w).Honest := by
  intro _
  unfold decodeAddress
  split_ifs <;> exact lowAt_ne_pc w (by decide)

lemma honest_decodeStack (w : Word) : (decodeStack w).Honest := by
  intro h
  unfold decodeStack at h ⊢
  split_ifs at h ⊢
  · exact ⟨h, lowList_contains_pc w⟩
  · trivial

lemma honest_decodeMultiple (w : Word) : (decodeMultiple w).Honest := by
  intro _
  unfold decodeMultiple
  split_ifs
  · exact ⟨lowAt_ne_pc w (by decide), lowList_contains_pc w⟩
  · exact lowAt_ne_pc w (by decide)

lemma honest_decodeConditional (w : Word) : (decodeConditional w).Honest := by
  intro h
  unfold decodeConditional at h ⊢
  split at h
  · trivial
  · exact nomatch h
  · exact nomatch h

/-- An instruction that an opcode decodes to redirects the program counter only if its kind says
so. -/
lemma honest_decode (w : Word) : (decode w).Honest := by
  have low {lo : Word} (h : lo.toNat < 32) : lowAt w lo ≠ .pc := lowAt_ne_pc w h
  unfold decode
  refine honest_ite (fun _ => low (by decide)) ?_
  refine honest_ite (honest_decodeHigh w) ?_
  refine honest_ite (honest_decodeAddSub w) ?_
  refine honest_ite (fun _ => low (by decide)) ?_
  refine honest_ite (fun _ => low (by decide)) ?_
  refine honest_ite (fun _ => low (by decide)) ?_
  refine honest_ite (honest_decodeRegisterTransfer w) ?_
  refine honest_ite (honest_decodeOffsetTransfer w) ?_
  refine honest_ite (honest_decodeStack w) ?_
  refine honest_ite (honest_decodeHalfTransfer w) ?_
  refine honest_ite (honest_decodeStackTransfer w) ?_
  refine honest_ite (honest_decodeAddress w) ?_
  refine honest_ite (fun _ => trivial) ?_
  refine honest_ite (honest_decodeMultiple w) ?_
  refine honest_ite (honest_decodeConditional w) ?_
  refine honest_ite (fun h => nomatch h) ?_
  refine honest_ite (fun _ => trivial) ?_
  exact honest_ite (fun h => nomatch h) fun h => nomatch h

/-! ### Operations on registers -/

section

variable {s : Scope} {rd : Reg}

lemma made_setSum (sum : Sum) : Made s (setSum sum) := .mapFlags fun _ => ⟨rfl, rfl⟩

lemma made_putSum (sum : Sum) (h : s.jumps = true ∨ rd ≠ .pc) : Made s (putSum rd sum) :=
  .bind (made_setSum sum) fun _ => .setReg h _

lemma made_putLogical (value : Word) (h : s.jumps = true ∨ rd ≠ .pc) :
    Made s (putLogical rd value) :=
  .bind (.mapFlags fun _ => ⟨rfl, rfl⟩) fun _ => .setReg h _

lemma made_putShift (shifted : Word × Bool) (h : s.jumps = true ∨ rd ≠ .pc) :
    Made s (putShift rd shifted) :=
  .bind (.mapFlags fun _ => ⟨rfl, rfl⟩) fun _ => .setReg h _

lemma made_shiftByRegister (kind : ShiftKind) (rs : Reg) (h : s.jumps = true ∨ rd ≠ .pc) :
    Made s (shiftByRegister kind rd rs) :=
  .bind (.core _ fun _ => rfl) fun _ => .bind (.charge 1) fun _ => made_putShift _ h

lemma made_alu (op : AluOp) (rm : Reg) (h : s.jumps = true ∨ rd ≠ .pc) :
    Made s (alu op rd rm) := by
  unfold alu
  refine .bind (.reg rd) fun a => .bind (.reg rm) fun b => .bind (.core _ fun _ => rfl) fun _ => ?_
  cases op with
  | and | eor | orr | bic | mvn => exact made_putLogical _ h
  | lsl | lsr | asr | ror => exact made_shiftByRegister _ _ h
  | adc | sbc | neg => exact made_putSum _ h
  | tst => exact .mapFlags fun _ => ⟨rfl, rfl⟩
  | cmp | cmn => exact made_setSum _
  | mul => exact .bind (.charge _) fun _ => made_putLogical _ h

lemma made_immediate (op : ImmediateOp) (value : Word) (h : s.jumps = true ∨ rd ≠ .pc) :
    Made s (immediate op rd value) := by
  refine .bind (.reg rd) fun a => ?_
  cases op with
  | mov => exact made_putLogical _ h
  | cmp => exact made_setSum _
  | add | sub => exact made_putSum _ h

/-! ### Transfers -/

lemma made_load (kind : LoadKind) (address : Word) (h : s.jumps = true ∨ rd ≠ .pc) :
    Made s (load kind rd address) := by
  refine .bind (.load _ _) fun value => .bind (.chargeBus fun _ => ?_) fun _ =>
    .bind (.charge 1) fun _ => .setReg h _
  cases kind <;> rfl

lemma made_chargeAtPc : Made s chargeAtPc :=
  .bind (.core _ fun _ => rfl) fun _ => .chargeBus fun _ => rfl

lemma made_store (hs : s.stores = true) (width : StoreWidth) (rd : Reg) (address : Word) :
    Made s (store width rd address) := by
  refine .bind (.reg rd) fun value => .bind (.store hs _ _ _) fun _ => .bind made_chargeAtPc fun _ =>
    .chargeBus fun _ => ?_
  cases width <;> rfl

lemma made_pushWords (hs : s.stores = true) (address : Word) (list : List Reg) :
    Made s (pushWords address list) := by
  induction list generalizing address with
  | nil => exact .pure _
  | cons r rest ih => exact .bind (.reg r) fun value => .bind (.store hs _ _ _) fun _ => ih _

lemma made_push (hs : s.stores = true) (list : RegList) (lr : Bool) : Made s (push list lr) :=
  .bind (.reg .sp) fun _ => .bind (made_pushWords hs _ _) fun _ =>
    .bind (.chargeBus fun _ => rfl) fun _ => .setReg (.inr (by decide)) _

lemma made_popWords (address : Word) {list : List Reg} (h : s.jumps = true ∨ Reg.pc ∉ list) :
    Made s (popWords address list) := by
  induction list generalizing address with
  | nil => exact .pure _
  | cons r rest ih =>
    have hr : s.jumps = true ∨ r ≠ .pc := h.imp_right fun e he => e (he ▸ List.mem_cons_self)
    have hrest : s.jumps = true ∨ Reg.pc ∉ rest := h.imp_right fun e he => e (.tail _ he)
    exact .bind (.chargeBus fun _ => rfl) fun _ => .bind (.load _ _) fun value =>
      .bind (.setReg hr _) fun _ => ih _ hrest

lemma made_pop {list : RegList} {pc : Bool} (hlist : s.jumps = true ∨ list.contains .pc = false)
    (hpc : s.jumps = true ∨ pc = false) : Made s (pop list pc) := by
  unfold pop
  refine .bind (.charge 1) fun _ => .bind (.reg .sp) fun start => ?_
  refine .bind (made_popWords _ (hlist.imp_right RegList.pc_notMem)) fun after => ?_
  have hsp (value : Word) : Made s (Exec.setReg .sp value) := .setReg (.inr (by decide)) _
  cases pc with
  | true =>
    have hfree : s.jumps = true ∨ Reg.pc ≠ .pc := .inl (hpc.resolve_right (by decide))
    exact .bind (.load _ _) fun target => .bind (.setReg hfree _) fun _ =>
      .bind (.chargeBus fun _ => rfl) fun _ => hsp _
  | false => exact .bind (.chargeBus fun _ => rfl) fun _ => hsp _

lemma made_storeWords (hs : s.stores = true) (rn : Reg) (base address : Word) (list : List Reg) :
    Made s (storeWords rn base address list) := by
  induction list generalizing address with
  | nil => exact .pure _
  | cons r rest ih => exact .bind (.reg r) fun value => .bind (.store hs _ _ _) fun _ => ih _

lemma made_storeMultiple (hs : s.stores = true) {rn : Reg} (list : RegList)
    (h : s.jumps = true ∨ rn ≠ .pc) : Made s (storeMultiple rn list) :=
  .bind made_chargeAtPc fun _ => .bind (.reg rn) fun _ =>
    .bind (made_storeWords hs _ _ _ _) fun _ =>
      .bind (.chargeBus fun _ => rfl) fun _ => .setReg h _

lemma made_loadWords (address : Word) {list : List Reg} (h : s.jumps = true ∨ Reg.pc ∉ list) :
    Made s (loadWords address list) := by
  induction list generalizing address with
  | nil => exact .pure _
  | cons r rest ih =>
    have hr : s.jumps = true ∨ r ≠ .pc := h.imp_right fun e he => e (he ▸ List.mem_cons_self)
    have hrest : s.jumps = true ∨ Reg.pc ∉ rest := h.imp_right fun e he => e (.tail _ he)
    exact .bind (.load _ _) fun value => .bind (.setReg hr _) fun _ => ih _ hrest

lemma made_loadMultiple {rn : Reg} {list : RegList} (hrn : s.jumps = true ∨ rn ≠ .pc)
    (hlist : s.jumps = true ∨ list.contains .pc = false) : Made s (loadMultiple rn list) :=
  .bind (.reg rn) fun _ =>
    .bind (made_loadWords _ (hlist.imp_right RegList.pc_notMem)) fun _ =>
      .bind (.chargeBus fun _ => rfl) fun _ => .when (.setReg hrn _)

/-! ### Branches -/

lemma made_branchExchange (h : s.jumps = true) (rm : Reg) : Made s (branchExchange rm) :=
  .bind (.reg rm) fun _ => .bind (.onCore (.setSet h _)) fun _ => .setReg (.inl h) _

lemma made_callLow (h : s.jumps = true) (offset : Word) : Made s (callLow offset) :=
  .bind (.core _ fun _ => rfl) fun _ => .bind (.reg .lr) fun _ =>
    .bind (.setReg (.inl h) _) fun _ => .setReg (.inl h) _

lemma made_branchBy (h : s.jumps = true) (offset : Word) : Made s (branchBy offset) :=
  .bind (.core _ fun _ => rfl) fun _ => .setReg (.inl h) _

lemma made_act {i : Instr} (h : s.jumps = true ∨ i.SparesPc)
    (htraps : s.traps = true ∨ (Instruction.thumb i).isSoftwareInterrupt = false)
    (hstores : s.stores = true ∨ i.stores = false) (address : Word) : Made s (act i address) := by
  cases i with
  | shift kind rd rm amount => exact .bind (.core _ fun _ => rfl) fun _ => made_putShift _ h
  | addRegister subtract rd rn rm =>
    exact .bind (.reg rn) fun _ => .bind (.reg rm) fun _ => made_putSum _ h
  | addSmall subtract rd rn value => exact .bind (.reg rn) fun _ => made_putSum _ h
  | moveLow rd rn => exact .bind (.reg rn) fun _ => made_putSum _ h
  | immediate op rd value => exact made_immediate _ _ h
  | alu op rd rm => exact made_alu _ _ h
  | addHigh rd rm => exact .bind (.reg rd) fun _ => .bind (.reg rm) fun _ => .setReg h _
  | compareHigh rn rm => exact .bind (.reg rn) fun _ => .bind (.reg rm) fun _ => made_setSum _
  | moveHigh rd rm => exact .bind (.reg rm) fun _ => .setReg h _
  | branchExchange rm => exact made_branchExchange (h.resolve_right id) rm
  | load kind rd a =>
    refine .bind (.core _ fun _ => ?_) fun _ => made_load _ _ h
    cases a <;> rfl
  | store width rd a =>
    refine .bind (.core _ fun _ => ?_) fun _ => made_store (hstores.resolve_right nofun) _ _ _
    cases a <;> rfl
  | addPc rd offset => exact .bind (.core _ fun _ => rfl) fun _ => .setReg h _
  | addSp rd offset => exact .bind (.reg .sp) fun _ => .setReg h _
  | adjustSp down offset => exact .bind (.reg .sp) fun _ => .setReg (.inr (by decide)) _
  | push list lr => exact made_push (hstores.resolve_right nofun) list lr
  | pop list pc => exact made_pop (h.imp_right And.right) (h.imp_right And.left)
  | storeMultiple rn list => exact made_storeMultiple (hstores.resolve_right nofun) _ h
  | loadMultiple rn list =>
    exact made_loadMultiple (h.imp_right And.left) (h.imp_right And.right)
  | branchIf cond offset =>
    exact .bind (.testCondition cond) fun _ => .when (made_branchBy (h.resolve_right id) offset)
  | softwareInterrupt comment =>
    have hs : s.traps = true := htraps.resolve_right (by simp [Instruction.isSoftwareInterrupt])
    exact .bind (.softwareInterrupt hs _) fun _ => .prefetch _
  | branch offset => exact made_branchBy (h.resolve_right id) offset
  | callHigh offset => exact .bind (.core _ fun _ => rfl) fun _ => .setReg (.inr (by decide)) _
  | callLow offset => exact made_callLow (h.resolve_right id) offset
  | undefined opcode => exact .throw _

end

/-- Every Thumb instruction is made of primitive actions, of the rare ones only those that its kind
allows. -/
theorem made_exec {s : Scope} {i : Instr} (h : s.jumps = true ∨ i.SparesPc)
    (htraps : s.traps = true ∨ (Instruction.thumb i).isSoftwareInterrupt = false)
    (hstores : s.stores = true ∨ i.stores = false) (address : Word) : Made s (exec i address) := by
  unfold exec
  exact .whenThen (.prefetch _) fun _ => made_act h htraps hstores address

end Armv4T.Thumb

namespace Armv4T.Exec

/-- An instruction is made of primitive actions, of the rare ones only those that it is said to
contain. Unless it may jump, it must be one that an opcode decodes to. -/
theorem made_instruction {s : Scope} {h : Handle} (hs : s.Covers h.instruction)
    (hdecoded : s.jumps = true ∨ ∃ set opcode, h.instruction = .decode set opcode) :
    Made s (instruction h) := by
  unfold instruction
  rcases hi : h.instruction with i | i
  · rw [hi] at hs
    exact Arm.made_exec hs h.address
  · rw [hi] at hs
    refine Thumb.made_exec ?_ hs.traps hs.stores h.address
    rcases hdecoded with hjumps | ⟨set, opcode, hdecoded⟩
    · exact .inl hjumps
    · obtain rfl : i = Thumb.decode opcode := by
        cases set with
        | arm => exact nomatch hi.symm.trans hdecoded
        | thumb => exact Instruction.thumb.inj (hi.symm.trans hdecoded)
      exact hs.jumps.imp_right fun e => Thumb.honest_decode opcode e

/-- Executing a decoded instruction is plain, and it is free if the instruction redirects the
program counter. -/
theorem plain_instruction {free : Bool} (h : Handle)
    (hdecoded : h.instruction = .decode h.set h.opcode)
    (hfree : free = true ∨ h.instruction.writesPc = false) : Plain free (instruction h) := by
  have hmade : Made ⟨free, true, true, true⟩ (instruction h) :=
    made_instruction ⟨hfree, .inl rfl, .inl rfl, .inl rfl⟩ (.inr ⟨_, _, hdecoded⟩)
  exact hmade.plain id

end Armv4T.Exec
