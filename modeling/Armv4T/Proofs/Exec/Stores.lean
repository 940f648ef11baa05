import Mathlib
import Armv4T.Proofs.Bus.SameMemory
import Armv4T.Proofs.Exec.Multiple
import Armv4T.Proofs.Step.Passage

/-!
# The stores of an instruction

Where an instruction stores is settled before it is executed, by the instruction and the registers
that it finds (`Instruction.targets`). It issues stores to these targets, in their order, and
nothing else that it does changes memory; one that stops with a fault has issued the first of them
(`Exec.issues_instruction`). This holds on every bus, strict or not, and says nothing of the values
that are stored. What becomes of a store is a matter of the bus, which drops it in a read-only
region.
-/

namespace Armv4T

/-! ### Targets -/

/-- Where a store goes: its width, and the address as it is given. -/
structure Target where
  width : StoreWidth
  address : Word
  deriving DecidableEq, Repr

def Write.target (w : Write) : Target := ⟨w.width, w.address⟩

namespace Target

/-- The targets of stores of words at consecutive addresses. -/
def ascending (address : Word) (count : ℕ) : List Target :=
  (Word.wordsFrom address count).map (.mk .word)

lemma ascending_succ (address : Word) (count : ℕ) :
    ascending address (count + 1) = ⟨.word, address⟩ :: ascending (address + 4) count := by
  rw [ascending, Word.wordsFrom_succ]
  rfl

lemma ascending_concat (address : Word) (count : ℕ) :
    ascending address (count + 1) =
      ascending address count ++ [⟨.word, address + 4 * .ofNat count⟩] := by
  simp [ascending, Word.wordsFrom, List.range_succ]

end Target

/-- The targets of an ARM operation whose condition holds. A block store that drops the base from
its list stores it first, below the others. -/
def Arm.Op.targets (op : Op) (r : Registers) : List Target :=
  match op with
  | .swap byte _ rn _ => [⟨if byte then .byte else .word, r.read rn⟩]
  | .store width _ a => [⟨width, (Core.evalSingle { regs := r } a).1⟩]
  | .storeMultiple _ list a =>
    (baseStore a r).map Write.target ++ Target.ascending (r.read a.rn + a.start) list.toList.length
  | _ => []

/-- The targets of a Thumb instruction. A push stores from the top down. -/
def Thumb.Instr.targets (i : Instr) (r : Registers) : List Target :=
  match i with
  | .store width _ a => [⟨width, addressOf { regs := r } a⟩]
  | .push list lr =>
    let count := (pushed list lr).length
    (Target.ascending (r.read .sp - 4 * .ofNat count) count).reverse
  | .storeMultiple rn list => Target.ascending (r.read rn) list.toList.length
  | _ => []

namespace Instruction

/-- The targets of an instruction that finds the given registers. -/
def targets (i : Instruction) (r : Registers) : List Target :=
  match i with
  | arm i => if i.cond.passes r.flags then i.op.targets r else []
  | thumb i => i.targets r

/-- An instruction that is not said to store has no targets. -/
lemma targets_of_not_stores {i : Instruction} (h : i.stores = false) (r : Registers) :
    i.targets r = [] := by
  rcases i with ⟨cond, op⟩ | i
  · have hop : op.targets r = [] := by
      cases op with
      | swap | store | storeMultiple => exact nomatch h
      | _ => rfl
    simp only [targets, hop, ite_self]
  · cases i with
    | store | push | storeMultiple => exact nomatch h
    | _ => rfl

end Instruction

/-! ### Issued stores -/

namespace Board

/-- The memory of the second board is that of the first one after stores to the given targets, in
their order. -/
def Wrote (b b' : Board) (targets : List Target) : Prop :=
  ∃ writes : List Write, writes.map Write.target = targets ∧
    Bus.SameMemory (b.bus.storeAll writes) b'.bus

namespace Wrote

variable {b b' b'' : Board} {ts ts' : List Target}

lemma of_sameMemory (h : Bus.SameMemory b.bus b'.bus) : b.Wrote b' [] := ⟨[], rfl, h⟩

lemma of_bus_eq (h : b'.bus = b.bus) : b.Wrote b' [] := of_sameMemory (h ▸ .refl b.bus)

lemma of_bare (h : b'.bare = b.bare) : b.Wrote b' [] :=
  .of_sameMemory (.of_bare (bare_eq_iff.mp h).2.1)

lemma trans (h : b.Wrote b' ts) (h' : b'.Wrote b'' ts') : b.Wrote b'' (ts ++ ts') := by
  obtain ⟨writes, rfl, hsame⟩ := h
  obtain ⟨writes', rfl, hsame'⟩ := h'
  refine ⟨writes ++ writes', List.map_append, ?_⟩
  have happend : b.bus.storeAll (writes ++ writes') =
      (b.bus.storeAll writes).storeAll writes' := List.foldl_append
  rw [happend]
  exact (hsame.storeAll writes').trans hsame'

end Wrote

end Board

namespace Exec

open Board (Passage)

variable {α β : Type} {r s : Registers} {x : Exec α} {k : α → Exec β} {P : α → Prop} {Q : β → Prop}
  {ts ts' : List Target}

/-- From a board on, an action issues stores to the given targets, in their order, and changes
nothing else in memory. Where it finishes it has issued all of them, and its value is as `P` says;
where it stops with a fault it has issued the first of them. -/
def IssuesFrom (x : Exec α) (b : Board) (P : α → Prop) (targets : List Target) : Prop :=
  (∃ a b', x b = .ok a b' ∧ P a ∧ b.Wrote b' targets) ∨
    ∃ fault b' done, x b = .error fault b' ∧ done <+: targets ∧ b.Wrote b' done

/-- What comes after an action that finishes issues its stores after those of the action. -/
lemma IssuesFrom.seq {b b₁ : Board} {a : α} (hok : x b = .ok a b₁) (hfirst : b.Wrote b₁ ts)
    (hk : IssuesFrom (k a) b₁ Q ts') : IssuesFrom (x >>= k) b Q (ts ++ ts') := by
  rcases hk with ⟨c, b₂, hok', hvalue, hsecond⟩ | ⟨fault, b₂, done, herror, hdone, hsecond⟩
  · exact .inl ⟨c, b₂, (bind_of_ok hok).trans hok', hvalue, hfirst.trans hsecond⟩
  · refine .inr ⟨fault, b₂, ts ++ done, (bind_of_ok hok).trans herror, ?_, hfirst.trans hsecond⟩
    exact (List.prefix_append_right_inj ts).mpr hdone

/-- Actions in a row issue their stores in a row. -/
lemma IssuesFrom.bind {b : Board} (hx : IssuesFrom x b P ts)
    (hk : ∀ a b', P a → IssuesFrom (k a) b' Q ts') : IssuesFrom (x >>= k) b Q (ts ++ ts') := by
  rcases hx with ⟨a, b₁, hok, hvalue, hfirst⟩ | ⟨fault, b₁, done, herror, hdone, hfirst⟩
  · exact .seq hok hfirst (hk a b₁ hvalue)
  · exact .inr ⟨fault, b₁, done, bind_of_error herror, hdone.trans (List.prefix_append ts ts'),
      hfirst⟩

/-- An action issues these stores from every board with the registers `r`. -/
def Issues (x : Exec α) (r : Registers) (P : α → Prop) (targets : List Target) : Prop :=
  ∀ b : Board, b.core.regs = r → IssuesFrom x b P targets

namespace Issues

lemma bind (hx : Issues x r P ts) (hk : ∀ a, P a → ∀ s, Issues (k a) s Q ts') :
    Issues (x >>= k) r Q (ts ++ ts') :=
  fun b hregs => (hx b hregs).bind fun a b₁ hvalue => hk a hvalue b₁.core.regs b₁ rfl

/-- Something that always finishes and makes no stores comes first. -/
lemma before {a : α} (hx : ∀ bus, Transfers x bus r a s []) (hk : Issues (k a) s Q ts) :
    Issues (x >>= k) r Q ts := by
  intro b hregs
  obtain ⟨b₁, hok, ht⟩ := hx b.bus b rfl hregs
  exact .seq hok (.of_bus_eq ht.bus) (hk b₁ ht.regs)

lemma of_transfers {a : α} (hx : ∀ bus, Transfers x bus r a s []) : Issues x r (· = a) [] := by
  intro b hregs
  obtain ⟨b₁, hok, ht⟩ := hx b.bus b rfl hregs
  exact .inl ⟨a, b₁, hok, rfl, .of_bus_eq ht.bus⟩

/-- What leaves memory as it is issues nothing. -/
lemma of_establishes (h : Establishes (fun b b' => Bus.SameMemory b.bus b'.bus) x)
    (r : Registers) : Issues x r (fun _ => True) [] := by
  intro b _
  have hsame := h b
  rcases hrun : x b with ⟨a, b'⟩ | ⟨fault, b'⟩
  · rw [after_of_ok hrun] at hsame
    exact .inl ⟨a, b', hrun, trivial, .of_sameMemory hsame⟩
  · rw [after_of_error hrun] at hsame
    exact .inr ⟨fault, b', [], hrun, List.prefix_rfl, .of_sameMemory hsame⟩

end Issues

/-- Every primitive action but stores. -/
def Scope.storeless : Scope := ⟨true, true, true, false⟩

/-- The other primitive actions leave memory as it is. -/
lemma passage_sameMemory : Passage .storeless fun b b' => Bus.SameMemory b.bus b'.bus where
  of_bare h := .of_bare (Board.bare_eq_iff.mp h).2.1
  trans := .trans
  mapCore _ b := .refl b.bus
  loadStatus _ b _ _ _ _ := .refl b.bus
  writeSaved _ _ b := .refl b.bus
  writeCurrent {b} _ _ _ _ := .refl b.bus
  store h := nomatch h

lemma Made.issues (h : Made .storeless x) (r : Registers) : Issues x r (fun _ => True) [] :=
  .of_establishes (h.establishes passage_sameMemory) r

/-- What comes after the last store makes none. -/
lemma Issues.last (hx : Issues x r P ts) (hk : ∀ a, Made .storeless (k a)) :
    Issues (x >>= k) r (fun _ => True) ts :=
  List.append_nil ts ▸ hx.bind fun a _ s => (hk a).issues s

lemma issues_store (r : Registers) (width : StoreWidth) (address value : Word) :
    Issues (store width address value) r (fun _ => True) [⟨width, address⟩] := by
  intro b _
  have hbus : Bus.SameMemory (b.bus.storeAll [⟨width, address, value⟩])
      ((store width address value).after b).bus := by
    rw [b.bus_after_store]
    exact .refl _
  rcases hrun : store width address value b with ⟨⟨⟩, b'⟩ | ⟨fault, b'⟩
  · rw [after_of_ok hrun] at hbus
    exact .inl ⟨(), b', hrun, trivial, _, rfl, hbus⟩
  · rw [after_of_error hrun] at hbus
    exact .inr ⟨fault, b', _, hrun, List.prefix_rfl, _, rfl, hbus⟩

end Exec

/-! ### ARM instructions -/

namespace Arm

open Exec

variable {act : Exec Unit} {ts : List Target} {r : Registers}

lemma issues_afterFetch {cond : Condition} (h : Issues act r (fun _ => True) ts) :
    Issues (afterFetch cond act) r (fun _ => True) (if cond.passes r.flags then ts else []) := by
  refine .before (transfers_prefetch · r .arm) <| .before (transfers_testCondition · r cond) ?_
  cases cond.passes r.flags with
  | true => exact h
  | false => exact Made.issues (.pure ()) r

lemma issues_insteadOfFetch {cond : Condition} (h : Issues act r (fun _ => True) ts) :
    Issues (insteadOfFetch cond act) r (fun _ => True)
      (if cond.passes r.flags then ts else []) := by
  refine .before (transfers_testCondition · r cond) ?_
  cases cond.passes r.flags with
  | true => exact h
  | false => exact Made.issues (.prefetch .arm) r

/-- The address of a single transfer depends on the registers alone. -/
lemma transfers_evalAddress (bus : Bus) (r : Registers) (a : SingleAddress) :
    Transfers (evalAddress a) bus r (Core.evalSingle { regs := r } a).1
      (Core.evalSingle { regs := r } a).2.regs [] := by
  rintro b - rfl
  obtain ⟨rn, offset, up, indexing⟩ := a
  refine ⟨b.mapCore fun _ => (b.core.evalSingle ⟨rn, offset, up, indexing⟩).2, ?_, ?_, ?_, rfl, rfl⟩
  all_goals cases offset <;> cases indexing <;> rfl

lemma issues_swap (r : Registers) (byte : Bool) (rd rn rm : Reg) :
    Issues (swap byte rd rn rm) r (fun _ => True) ((Op.swap byte rd rn rm).targets r) := by
  have hput (old : Word) : Made .storeless (do Exec.setReg rd old; Exec.charge 1) :=
    .bind (.setReg (.inl rfl) _) fun _ => .charge 1
  have hexchange (kind : LoadKind) (width : StoreWidth) (wait : Bus → Word) : Issues (do
      Exec.chargeBus wait
      let old ← Exec.load kind (r.read rn)
      Exec.store width (r.read rn) (r.read rm)
      let old ← pure old
      Exec.setReg rd old
      Exec.charge 1) r (fun _ => True) [⟨width, r.read rn⟩] := by
    refine .before (transfers_chargeBus · r wait) ?_
    refine (Made.issues (.load kind _) r).bind fun old _ s => ?_
    exact (issues_store s width _ _).last fun _ => .bind (.pure _) hput
  refine .before (transfers_reg · r rn) <| .before (transfers_reg · r rm) ?_
  cases byte with
  | true => exact hexchange .byte .byte _
  | false => exact hexchange .word .word _

lemma issues_storeSingle (r : Registers) (width : StoreWidth) (rd : Reg) (a : SingleAddress) :
    Issues (storeSingle width rd a) r (fun _ => True) ((Op.store width rd a).targets r) := by
  refine .before (transfers_storeValue · r rd) <| .before (transfers_evalAddress · r a) ?_
  refine (issues_store _ width _ _).last fun _ => .bind (.chargeBus fun _ => ?_) fun _ =>
    made_chargeAtPc
  cases width <;> rfl

/-- A base that is dropped from its list is stored, and nothing else. -/
lemma issues_blockAddress (r : Registers) (a : BlockAddress) :
    Issues (blockAddress a true) r (· = r.read a.rn + a.start)
      ((baseStore a r).map Write.target) := by
  have hsetReg (s : Registers) : Issues
      (do Exec.setReg a.rn (r.read a.rn + a.delta); return r.read a.rn + a.start) s
      (· = r.read a.rn + a.start) [] :=
    .of_transfers fun bus => (transfers_setReg bus s a.rn _).before (transfers_pure bus _ _)
  refine .before (transfers_reg · r a.rn) ?_
  unfold baseStore
  cases a.writeback with
  | false => exact .of_transfers (transfers_pure · r _)
  | true =>
    cases a.overlap with
    | false => exact hsetReg r
    | true => exact (issues_store r .word _ _).bind fun _ _ s => hsetReg s

lemma issues_storeWords (r : Registers) (address : Word) (list : List Reg) :
    Issues (storeWords address list) r (fun _ => True) (Target.ascending address list.length) := by
  induction list generalizing r address with
  | nil => exact Made.issues (.pure ()) r
  | cons i rest ih =>
    rw [List.length_cons, Target.ascending_succ]
    exact .before (transfers_storeValue · r i) <|
      (issues_store r .word address _).bind fun _ _ s => ih s _

lemma issues_inBank (user : Bool) (h : ∀ s, Issues act s (fun _ => True) ts) (r : Registers) :
    Issues (inBank user act) r (fun _ => True) ts := by
  unfold inBank
  split
  · refine (Made.issues (.core _ fun _ => rfl) r).bind fun mode _ s => ?_
    refine (Made.issues (.onCore (.switchMode _)) s).bind fun _ _ s => ?_
    exact (h s).last fun _ => .onCore (.switchMode _)
  · exact h r

lemma issues_storeMultiple (r : Registers) (userBank : Bool) (list : RegList) (a : BlockAddress) :
    Issues (storeMultiple userBank list a) r (fun _ => True)
      ((Op.storeMultiple userBank list a).targets r) := by
  refine .before (transfers_chargeAtPc · r fun pc => (·.wait32 pc)) ?_
  refine (issues_blockAddress r a).bind ?_
  rintro _ rfl s
  refine (issues_inBank userBank (issues_storeWords · _ list.toList) s).last fun _ => ?_
  exact .ite (.chargeBus fun _ => rfl) (.chargeBus fun _ => rfl)

end Arm

/-! ### Thumb instructions -/

namespace Thumb

open Exec

lemma issues_store (r : Registers) (width : StoreWidth) (rd : Reg) (a : Address) (address : Word) :
    Issues (act (.store width rd a) address) r (fun _ => True)
      ((Instr.store width rd a).targets r) := by
  have haddress (c : Core) : addressOf c a = addressOf { regs := c.regs } a := by
    cases a <;> rfl
  refine .before (transfers_core · r haddress) <| .before (transfers_reg · r rd) ?_
  refine (Exec.issues_store r width _ _).last fun _ => .bind made_chargeAtPc fun _ =>
    .chargeBus fun _ => ?_
  cases width <;> rfl

/-- Stores go down from the top of the words that are pushed. -/
lemma issues_pushWords (r : Registers) (bottom : Word) (list : List Reg) :
    Issues (pushWords (bottom + 4 * .ofNat list.length - 4) list) r (fun _ => True)
      (Target.ascending bottom list.length).reverse := by
  induction list generalizing r with
  | nil => exact Made.issues (.pure _) r
  | cons i rest ih =>
    have htop : bottom + 4 * .ofNat (i :: rest).length - 4 =
        bottom + 4 * .ofNat rest.length := by
      rw [List.length_cons, Word.add_four_mul_succ]
      grind
    rw [htop, List.length_cons, Target.ascending_concat, List.reverse_concat]
    exact .before (transfers_reg · r i) <|
      (Exec.issues_store r .word _ _).bind fun _ _ s => ih s

lemma issues_push (r : Registers) (list : RegList) (lr : Bool) :
    Issues (push list lr) r (fun _ => True) ((Instr.push list lr).targets r) := by
  let regs := (if lr then [Reg.lr] else []) ++ list.toList.reverse
  have hlength : regs.length = (pushed list lr).length := by
    cases lr <;> simp [regs, pushed]
  let bottom := r.read .sp - 4 * .ofNat (pushed list lr).length
  have htop : bottom + 4 * .ofNat regs.length - 4 = r.read .sp - 4 := by
    rw [hlength]
    grind
  have hwords := issues_pushWords r bottom regs
  rw [htop, hlength] at hwords
  refine .before (transfers_reg · r .sp) <| hwords.last fun _ => ?_
  exact .bind (.chargeBus fun _ => rfl) fun _ => .setReg (.inl rfl) _

lemma issues_storeWords (r : Registers) (rn : Reg) (stored address : Word) (list : List Reg) :
    Issues (storeWords rn stored address list) r (fun _ => True)
      (Target.ascending address list.length) := by
  induction list generalizing r address with
  | nil => exact Made.issues (.pure ()) r
  | cons i rest ih =>
    rw [List.length_cons, Target.ascending_succ]
    exact .before (transfers_reg · r i) <|
      (Exec.issues_store r .word address _).bind fun _ _ s => ih s _

lemma issues_storeMultiple (r : Registers) (rn : Reg) (list : RegList) :
    Issues (storeMultiple rn list) r (fun _ => True) ((Instr.storeMultiple rn list).targets r) := by
  refine .before (transfers_chargeAtPc · r fun pc => (·.wait pc)) ?_
  refine .before (transfers_reg · r rn) ?_
  refine (issues_storeWords r rn _ _ list.toList).last fun _ => ?_
  exact .bind (.chargeBus fun _ => rfl) fun _ => .setReg (.inl rfl) _

end Thumb

/-- An instruction issues stores to its targets and changes nothing else in memory, on every bus,
whether it finishes or stops with a fault. -/
theorem Exec.issues_instruction (h : Handle) (r : Registers) :
    Issues (instruction h) r (fun _ => True) (h.instruction.targets r) := by
  cases hstores : h.instruction.stores with
  | false =>
    rw [Instruction.targets_of_not_stores hstores]
    have hcovers : Scope.storeless.Covers h.instruction :=
      ⟨.inl rfl, .inl rfl, .inl rfl, .inr hstores⟩
    exact (made_instruction hcovers (.inl rfl)).issues r
  | true =>
    unfold instruction
    rcases hi : h.instruction with ⟨cond, op⟩ | i <;> rw [hi] at hstores
    · cases op with
      | swap byte rd rn rm => exact Arm.issues_afterFetch (Arm.issues_swap r byte rd rn rm)
      | store width rd a => exact Arm.issues_insteadOfFetch (Arm.issues_storeSingle r width rd a)
      | storeMultiple userBank list a =>
        exact Arm.issues_insteadOfFetch (Arm.issues_storeMultiple r userBank list a)
      | _ => exact nomatch hstores
    · cases i with
      | store width rd a => exact Thumb.issues_store r width rd a h.address
      | push list lr => exact .before (transfers_prefetch · r .thumb) (Thumb.issues_push r list lr)
      | storeMultiple rn list => exact Thumb.issues_storeMultiple r rn list
      | _ => exact nomatch hstores

end Armv4T
