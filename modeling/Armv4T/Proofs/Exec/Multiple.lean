import Mathlib
import Armv4T.Proofs.Decode.Form
import Armv4T.Proofs.Exec.Transfers
import Armv4T.Proofs.Registers.Lists
import Armv4T.Proofs.Registers.Status

/-!
# Block transfers of both instruction sets

What the block transfers of each set do, for every base and every list. A load with increment leaves
the loaded words over the base that is written back (`loadResult`), a store with increment stores
the registers in their order (`storeWrites`), and both sets push to the same words below the stack
pointer. The ARM set rounds the addresses of a load down, which the Thumb set does not.
-/

namespace Armv4T

/-! ### What the transfers of the Thumb set do -/

namespace Thumb

open Exec

variable {bus : Bus} (address : Word)

/-- The words of a block load are in the registers of its list. The base has been written back
first. -/
def loadResult (bus : Bus) (round : Word → Word) (r : Registers) (rn : Reg) (list : List Reg) :
    Registers :=
  (r.write rn (r.read rn + 4 * .ofNat list.length)).writeAll
    (loaded bus round (r.read rn) list)

/-- The stores of a block store. The base stores the value that is written back, unless it is the
first one. -/
def storeWrites (r : Registers) (rn : Reg) (list : List Reg) : List Write :=
  let stop := r.read rn + 4 * .ofNat list.length
  let stored := if list.head? = some rn then r.read rn else stop
  burst (r.read rn) (list.map fun i => if i = rn then stored else r.read i)

/-- A base that comes first is stored as it is. -/
lemma storeWrites_cons (r : Registers) {rn : Reg} {rest : List Reg} (h : rn ∉ rest) :
    storeWrites r rn (rn :: rest) =
      ⟨.word, r.read rn, r.read rn⟩ :: burst (r.read rn + 4) (rest.map r.read) := by
  have hvalues : rest.map (fun i => if i = rn then r.read rn else r.read i) = rest.map r.read :=
    List.map_congr_left fun i hi => if_neg fun e : i = rn => h (e ▸ hi)
  simp only [storeWrites, List.head?_cons, if_true, List.map_cons, burst_cons, hvalues]

/-- A base that does not come first is stored as it is written back. -/
lemma storeWrites_of_head (r : Registers) {rn : Reg} {list : List Reg} (h : list.head? ≠ some rn) :
    storeWrites r rn list = burst (r.read rn)
      (list.map (r.write rn (r.read rn + 4 * .ofNat list.length)).read) := by
  rw [storeWrites, if_neg h]
  refine congrArg _ (List.map_congr_left fun i _ => ?_)
  split
  · rename_i heq
    rw [heq, Registers.read_write_self]
  · rename_i hne
    exact (Registers.read_write_of_ne hne _ _).symm

lemma transfers_loadMultiple (hstrict : bus.strict = false) (r : Registers) (rn : Reg)
    (list : RegList) :
    Transfers (exec (.loadMultiple rn list) address) bus r () (loadResult bus id r rn list.toList)
      [] := by
  have hwritten : (∃ p ∈ loaded bus id (r.read rn) list.toList, rn = p.1) ↔
      list.contains rn = true := by
    rw [mem_loaded]
    simp [RegList.toList]
  refine (transfers_prefetch bus r .thumb).before <| (transfers_reg bus r rn).before <|
    (transfers_loadWords hstrict r (r.read rn) list.toList).before <|
      (transfers_chargeBus bus _ _).before ?_
  unfold loadResult
  cases hlist : list.contains rn with
  | true =>
    rw [Registers.writeAll_write_of_mem (hwritten.mpr hlist)]
    exact transfers_pure bus _ ()
  | false =>
    have hkept : ¬∃ p ∈ loaded bus id (r.read rn) list.toList, rn = p.1 := by
      rw [hwritten, hlist]
      exact Bool.false_ne_true
    rw [Registers.writeAll_write fun p hp e => hkept ⟨p, hp, e⟩]
    exact transfers_setReg bus _ rn _

lemma transfers_pop (hstrict : bus.strict = false) (r : Registers) {list : RegList}
    (hsp : .sp ∉ list.toList) :
    Transfers (exec (.pop list false) address) bus r () (loadResult bus id r .sp list.toList)
      [] := by
  refine (transfers_prefetch bus r .thumb).before <| (transfers_charge bus r 1).before <|
    (transfers_reg bus r .sp).before <|
      (transfers_popWords hstrict r (r.read .sp) list.toList).before <|
        (transfers_chargeBus bus _ _).before ?_
  rw [loadResult, Registers.writeAll_write]
  · exact transfers_setReg bus _ .sp _
  · exact fun p hp e => hsp ((mem_loaded _).mp ⟨p, hp, e⟩)

lemma transfers_storeMultiple (hstrict : bus.strict = false) (r : Registers) (rn : Reg)
    (list : RegList) :
    Transfers (exec (.storeMultiple rn list) address) bus r ()
      (r.write rn (r.read rn + 4 * .ofNat list.toList.length))
      (storeWrites r rn list.toList) := by
  have hcomm : 4 * .ofNat list.toList.length = list.count * 4 := UInt32.mul_comm _ _
  rw [storeWrites, hcomm]
  let stop := r.read rn + list.count * 4
  let stored := if list.toList.head? = some rn then r.read rn else stop
  exact (transfers_chargeAtPc bus r fun pc => (·.wait pc)).before <|
    (transfers_reg bus r rn).before <|
      (transfers_storeWords hstrict r rn stored (r.read rn) list.toList).after <|
        (transfers_chargeBus _ r _).before (transfers_setReg _ r rn stop)

/-- The registers that a push stores, in the order of their addresses. -/
def pushed (list : RegList) (lr : Bool) : List Reg := list.toList ++ if lr then [.lr] else []

lemma transfers_push (hstrict : bus.strict = false) (r : Registers) (list : RegList) (lr : Bool) :
    let bottom := r.read .sp - 4 * .ofNat (pushed list lr).length
    Transfers (exec (.push list lr) address) bus r () (r.write .sp bottom)
      (burst bottom ((pushed list lr).map r.read)).reverse := by
  intro bottom
  let regs := (if lr then [Reg.lr] else []) ++ list.toList.reverse
  have hregs : regs.reverse = pushed list lr := by
    cases lr <;> simp [regs, pushed]
  have htop : bottom + 4 * .ofNat regs.length - 4 = r.read .sp - 4 := by
    have hlength : regs.length = (pushed list lr).length := by rw [← hregs, List.length_reverse]
    rw [hlength]
    grind
  have hwords := transfers_pushWords hstrict r bottom regs
  rw [htop, hregs] at hwords
  have hbottom : bottom - 4 + 4 = bottom := by grind
  refine (transfers_prefetch bus r .thumb).before <| (transfers_reg bus r .sp).before <|
    hwords.after <| (transfers_chargeBus _ r _).before ?_
  rw [hbottom]
  exact transfers_setReg _ r .sp bottom

end Thumb

/-! ### What the transfers of the ARM set do -/

namespace Arm

open Exec

variable {bus : Bus} {act : Exec Unit} {r s : Registers} {writes : List Write}

lemma transfers_afterFetch {cond : Condition} (hcond : cond.passes r.flags = true)
    (h : Transfers act bus r () s writes) : Transfers (afterFetch cond act) bus r () s writes :=
  (transfers_prefetch bus r .arm).before <|
    (transfers_testCondition_of_passes bus r hcond).before h

lemma transfers_insteadOfFetch {cond : Condition} (hcond : cond.passes r.flags = true)
    (h : Transfers act bus r () s writes) : Transfers (insteadOfFetch cond act) bus r () s writes :=
  (transfers_testCondition_of_passes bus r hcond).before h

/-- The registers after a block transfer has written its base back, if it does. -/
def writtenBack (a : BlockAddress) (r : Registers) : Registers :=
  if a.writeback then r.write a.rn (r.read a.rn + a.delta) else r

/-- The store of the base that a block store has dropped from its list. -/
def baseStore (a : BlockAddress) (r : Registers) : List Write :=
  if a.writeback && a.overlap then [⟨.word, r.read a.rn + a.start - 4, r.read a.rn⟩] else []

/-- The base is written back if it is to be, and a store that drops it from its list stores it
first. -/
lemma transfers_blockAddress (hstrict : bus.strict = false) (r : Registers) (a : BlockAddress)
    (store : Bool) :
    Transfers (blockAddress a store) bus r (r.read a.rn + a.start) (writtenBack a r)
      (if store then baseStore a r else []) := by
  have hsetReg (bus : Bus) : Transfers
      (do Exec.setReg a.rn (r.read a.rn + a.delta); return r.read a.rn + a.start) bus r
      (r.read a.rn + a.start) (r.write a.rn (r.read a.rn + a.delta)) [] :=
    (transfers_setReg bus r a.rn _).before (transfers_pure bus _ _)
  refine (transfers_reg bus r a.rn).before ?_
  unfold writtenBack baseStore
  cases a.writeback with
  | false =>
    have hnone : (if store then if false && a.overlap then
        [⟨.word, r.read a.rn + a.start - 4, r.read a.rn⟩] else [] else []) = ([] : List Write) := by
      cases store <;> rfl
    rw [hnone]
    exact transfers_pure bus r _
  | true =>
    cases store with
    | false => exact hsetReg bus
    | true =>
      cases a.overlap with
      | false => exact hsetReg bus
      | true => exact (transfers_store hstrict r .word _ _).after (hsetReg _)

lemma transfers_loadMultiple (hstrict : bus.strict = false) (r : Registers) (a : BlockAddress)
    (list : RegList) :
    Transfers (loadMultiple false list a) bus r ()
      ((writtenBack a r).writeAll
        (loaded bus (Word.alignDown · 4) (r.read a.rn + a.start) list.toList)) [] :=
  (transfers_blockAddress hstrict r a false).before <|
    (transfers_loadWords hstrict _ _ list.toList).before <|
      (transfers_chargeBus bus _ _).before <| (transfers_charge bus _ 1).before <|
        transfers_pure bus _ ()

lemma transfers_storeMultiple (hstrict : bus.strict = false) (r : Registers) (a : BlockAddress)
    (list : RegList) :
    Transfers (storeMultiple false list a) bus r () (writtenBack a r)
      (baseStore a r ++ burst (r.read a.rn + a.start)
        (list.toList.map (writtenBack a r).storeValue)) := by
  refine (transfers_chargeAtPc bus r fun pc => (·.wait32 pc)).before <|
    (transfers_blockAddress hstrict r a true).bind <|
      (transfers_storeWords (bus.strict_storeAll _ ▸ hstrict) _ _ list.toList).after ?_
  split
  · exact transfers_chargeBus _ _ _
  · exact transfers_chargeBus _ _ _

variable {list : Fin 65536} {regs : List Reg}

/-- A load with increment, from the base on. -/
lemma transfers_ldmia (hstrict : bus.strict = false) (r : Registers) (rn : Reg)
    (hregs : (RegList.mk (.ofNat list)).toList = regs) (address : Word) :
    Transfers (exec ⟨.al, (Form.block true false rn false true true list).op⟩ address) bus r ()
      (Thumb.loadResult bus (Word.alignDown · 4) r rn regs) [] := by
  subst hregs
  have hload := transfers_loadMultiple hstrict r
    ⟨rn, 0, 4 * (RegList.mk (.ofNat list)).count, true, false⟩ ⟨.ofNat list⟩
  rw [UInt32.add_zero] at hload
  exact transfers_afterFetch rfl hload

/-- A store with increment, from the base on. -/
lemma transfers_stmia (hstrict : bus.strict = false) (r : Registers) (rn : Reg)
    (hregs : (RegList.mk (.ofNat list)).toList = regs) (hpc : .pc ∉ regs) (address : Word) :
    Transfers (exec ⟨.al, (Form.block false false rn false true true list).op⟩ address) bus r ()
      (r.write rn (r.read rn + 4 * .ofNat regs.length)) (Thumb.storeWrites r rn regs) := by
  subst hregs
  set l : RegList := ⟨.ofNat list⟩ with hl
  have hcount : l.count = .ofNat l.toList.length := rfl
  by_cases hhead : l.toList.head? = some rn
  · -- the base is stored first and taken from the list
    have hop : (Form.block false false rn false true true list).op =
        .storeMultiple false (l.erase rn) ⟨rn, 4, 4 * l.count, true, true⟩ := by
      simp [Form.op, BlockAddress.ofFields, ← hl, hhead]
    obtain ⟨rest, hlist⟩ := List.head?_eq_some_iff.mp hhead
    have hrest : (l.erase rn).toList = rest := RegList.toList_erase_of_head hlist
    obtain ⟨hrn, -⟩ := List.nodup_cons.mp (hlist ▸ l.nodup_toList)
    have hpc' : .pc ∉ (l.erase rn).toList := by
      rw [hrest]
      exact fun hmem => hpc (hlist ▸ List.mem_cons_of_mem rn hmem)
    have hbase : r.read rn + 4 - 4 = r.read rn := by grind
    have hstore := transfers_storeMultiple hstrict r ⟨rn, 4, 4 * l.count, true, true⟩ (l.erase rn)
    rw [Registers.map_storeValue hpc', hrest] at hstore
    simp only [writtenBack, baseStore, if_true, Bool.and_self] at hstore
    rw [Registers.map_read_write hrn, hbase, hcount] at hstore
    rw [hop, hlist, Thumb.storeWrites_cons r hrn, ← hlist]
    exact transfers_insteadOfFetch rfl hstore
  · have hop : (Form.block false false rn false true true list).op =
        .storeMultiple false l ⟨rn, 0, 4 * l.count, true, false⟩ := by
      simp [Form.op, BlockAddress.ofFields, ← hl, hhead]
    have hstore := transfers_storeMultiple hstrict r ⟨rn, 0, 4 * l.count, true, false⟩ l
    rw [Registers.map_storeValue hpc, UInt32.add_zero, hcount] at hstore
    rw [hop, Thumb.storeWrites_of_head r hhead]
    exact transfers_insteadOfFetch rfl hstore

/-- A store with decrement, up to the stack pointer. -/
lemma transfers_stmdb (hstrict : bus.strict = false) (r : Registers)
    (hregs : (RegList.mk (.ofNat list)).toList = regs) (hpc : .pc ∉ regs) (hsp : .sp ∉ regs)
    (address : Word) :
    let bottom := r.read .sp - 4 * .ofNat regs.length
    Transfers (exec ⟨.al, (Form.block false false .sp true false true list).op⟩ address) bus r ()
      (r.write .sp bottom) (burst bottom (regs.map r.read)) := by
  subst hregs
  set l : RegList := ⟨.ofNat list⟩ with hl
  intro bottom
  have hhead : l.toList.head? ≠ some .sp := fun h => hsp (List.mem_of_head? h)
  have hop : (Form.block false false .sp true false true list).op =
      .storeMultiple false l ⟨.sp, 0 - 4 * l.count, 0 - 4 * l.count, true, false⟩ := by
    simp [Form.op, BlockAddress.ofFields, ← hl, hhead]
  have hbottom : r.read .sp + (0 - 4 * l.count) = bottom := by
    have hcount : l.count = .ofNat l.toList.length := rfl
    grind
  have hstore := transfers_storeMultiple hstrict r
    ⟨.sp, 0 - 4 * l.count, 0 - 4 * l.count, true, false⟩ l
  simp only [writtenBack, baseStore, if_true, Bool.and_false, Bool.false_eq_true, if_false,
    List.nil_append] at hstore
  rw [Registers.map_storeValue hpc, hbottom, Registers.map_read_write hsp] at hstore
  rw [hop]
  exact transfers_insteadOfFetch rfl hstore

end Arm

end Armv4T
