import Mathlib
import Armv4T.Proofs.Exec.Ascending

/-!
# Block stores and the loads that undo them

A block store with a writeback leaves its base where the load of the opposite direction starts that
counts its base at the opposite time: both transfer the same words (`Arm.firstWord_steppedBase`),
and the second writeback undoes the first (`Arm.steppedBase_steppedBase`). A list without the
program counter and the base is stored as it is, in at most sixteen words, which the load reads back
from the memory of the handheld. So the store followed by its mirror image restores the base and
the registers of the list, whatever has become of them in between (`Arm.exec_block_mirror`).
-/

namespace Armv4T

namespace Arm

open Exec

/-! ### Opposite addressing modes -/

lemma steppedBase_steppedBase (base count : Word) (up : Bool) :
    steppedBase (steppedBase base count up) count (!up) = base := by
  cases up <;> simp only [steppedBase, Bool.not_true, Bool.not_false, if_true] <;> grind

/-- The opposite addressing mode finds the same words from the base that is written back. -/
lemma firstWord_steppedBase (base count : Word) (pre up : Bool) :
    firstWord (steppedBase base count up) count (!pre) (!up) = firstWord base count pre up := by
  cases pre <;> cases up <;>
    simp only [firstWord, steppedBase, Bool.not_true, Bool.not_false, if_true] <;> grind

/-! ### The store -/

section Store

variable {rn : Reg} {pre up : Bool} {list : RegList} {cond : Condition} {b : Board} {address : Word}

/-- A block store whose list has neither the program counter nor the base stores the registers as
they are, from the first word on, and writes the base back. -/
lemma exists_stored (hstrict : b.bus.strict = false) (hcond : cond.passes b.core.regs.flags = true)
    (hpc : .pc ∉ list.toList) (hrn : rn ∉ list.toList) {a : BlockAddress} {rest : RegList}
    (ha : BlockAddress.ofFields rn list pre up true true = (a, rest)) :
    ∃ b', exec ⟨cond, .storeMultiple false rest a⟩ address b = .ok () b' ∧
      b'.core.reg rn = steppedBase (b.core.reg rn) list.count up ∧
      b'.bus = b.bus.storeAll (burst (firstWord (b.core.reg rn) list.count pre up)
        (list.toList.map b.core.reg)) := by
  have hhead : ¬(true = true ∧ true = true ∧ list.toList.head? = some rn) :=
    fun h => hrn (List.mem_of_head? h.2.2)
  obtain ⟨rfl, rfl⟩ := Prod.mk.inj ((ofFields_of_ne true hhead).symm.trans ha)
  have hstore := transfers_storeMultiple hstrict b.core.regs
    ⟨rn, firstOffset list.count pre up, backOffset list.count up, true, false⟩ list
  rw [Registers.map_storeValue hpc] at hstore
  simp only [writtenBack, baseStore, if_true, Bool.and_false, Bool.false_eq_true, if_false,
    List.nil_append] at hstore
  rw [Registers.map_read_write hrn, add_firstOffset, add_backOffset] at hstore
  obtain ⟨b', hrun, ht⟩ := transfers_insteadOfFetch hcond hstore b rfl rfl
  refine ⟨b', hrun, ?_, ht.bus⟩
  rw [Core.reg, ht.regs, Registers.read_write_self]
  rfl

end Store

/-! ### The store and its mirror image -/

/-- On the handheld, a block store with a writeback and the load of the opposite addressing mode
undo each other, for every base, and every list with neither the program counter nor the base, if
all its words are writable. Whatever becomes of all other registers after the store, the load
restores the base and the registers of the list. -/
theorem exec_block_mirror (cond cond' : Condition) (rn : Reg) (pre up : Bool) (list : Fin 65536)
    {b : Board} {address address' : Word} (hs : Bus.SameShape .handheld b.bus)
    (hcond : cond.passes b.core.regs.flags = true)
    (hpc : .pc ∉ (RegList.mk (.ofNat list)).toList) (hrn : rn ∉ (RegList.mk (.ofNat list)).toList)
    (hwritable : ∀ k < (RegList.mk (.ofNat list)).toList.length, b.bus.Writable
      (firstWord (b.core.reg rn) (RegList.mk (.ofNat list)).count pre up + 4 * .ofNat k)) :
    ∃ b₁, exec (decode (encode cond (.block false false rn pre up true list))) address b =
        .ok () b₁ ∧
      ∀ c : Board, c.bus = b₁.bus → c.core.reg rn = b₁.core.reg rn →
        cond'.passes c.core.regs.flags = true →
        ∃ c', exec (decode (encode cond' (.block true false rn (!pre) (!up) true list))) address'
            c = .ok () c' ∧
          c'.core.reg rn = b.core.reg rn ∧
          ∀ i ∈ (RegList.mk (.ofNat list)).toList, c'.core.reg i = b.core.reg i := by
  set l : RegList := ⟨.ofNat list⟩ with hl
  have hmapped : b.bus.Mapped := Bus.built_handheld.mapped.sameShape hs
  have hroomy : b.bus.Roomy := Bus.roomy_handheld.sameShape hs
  have hstrict : b.bus.strict = false := hs.strict
  simp only [exec_encode]
  obtain ⟨b₁, hstore, hbase, hbus⟩ : ∃ b₁,
      exec ⟨cond, (Form.block false false rn pre up true list).op⟩ address b = .ok () b₁ ∧
      b₁.core.reg rn = steppedBase (b.core.reg rn) l.count up ∧
      b₁.bus = b.bus.storeAll (burst (firstWord (b.core.reg rn) l.count pre up)
        (l.toList.map b.core.reg)) :=
    exists_stored hstrict hcond hpc hrn rfl
  refine ⟨b₁, hstore, fun c hcbus hcbase hcond' => ?_⟩
  have hcstrict : c.bus.strict = false := by
    rw [hcbus, hbus, Bus.strict_storeAll, hstrict]
  obtain ⟨c', hload, hloaded⟩ : ∃ c',
      exec ⟨cond', (Form.block true false rn (!pre) (!up) true list).op⟩ address' c = .ok () c' ∧
      BlockLoaded rn (!pre) (!up) true l c c' :=
    exists_blockLoaded hcstrict hcond' rfl
  have hstart : c.core.reg rn = steppedBase (b.core.reg rn) l.count up := hcbase.trans hbase
  refine ⟨c', hload, ?_, fun i hi => ?_⟩
  · rw [hloaded.base rfl hrn, hstart, steppedBase_steppedBase]
  · obtain ⟨k, hk, rfl⟩ := List.getElem_of_mem hi
    have hlength : (l.toList.map b.core.reg).length = l.toList.length := List.length_map _
    have hword := hmapped.load_storeAll_burst hroomy (hlength.trans_le l.length_toList_le)
      (hlength ▸ hwritable) (hlength ▸ hk)
    rw [hloaded.words k hk, hstart, firstWord_steppedBase, hcbus, hbus, hword, List.getElem_map]

/-- The handheld with a base six bytes past the place where internal memory repeats. -/
def repeating : Board :=
  { core := { regs := Registers.writeAll {} [(.r0, 0x03008006), (.r1, 0x1111), (.r3, 0x3333)] }
    bus := Bus.handheld }

/-- STMDB of r1, r2 and r3, whose last word is the first one of internal memory, and the LDMIA that
follows the loss of the three. -/
theorem exec_block_mirror_stmdb :
    let list := (RegList.mk (.ofNat (0x000E : Fin 65536)))
    Bus.SameShape .handheld repeating.bus ∧
      Condition.al.passes repeating.core.regs.flags = true ∧ .pc ∉ list.toList ∧ 0 ∉ list.toList ∧
      (∀ k < list.toList.length, repeating.bus.Writable
        (firstWord (repeating.core.reg 0) list.count true false + 4 * .ofNat k)) ∧
      ∃ b₁, exec (decode (encode .al (.block false false 0 true false true 0x000E))) 0x03000000
          repeating = .ok () b₁ ∧
        ∃ c', exec (decode (encode .al (.block true false 0 false true true 0x000E))) 0x03000004
            { b₁ with core := { regs := Registers.write {} 0 (b₁.core.reg 0) } } = .ok () c' ∧
          c'.core.reg 0 = 0x03008006 ∧ c'.core.reg 1 = 0x1111 ∧ c'.core.reg 3 = 0x3333 := by
  intro list
  have hs : Bus.SameShape .handheld repeating.bus := .refl _
  have hpc : .pc ∉ list.toList := by decide
  have hrn : 0 ∉ list.toList := by decide
  have hwritable : ∀ k < list.toList.length, repeating.bus.Writable
      (firstWord (repeating.core.reg 0) list.count true false + 4 * .ofNat k) := by decide +kernel
  obtain ⟨b₁, hstore, hmirror⟩ :=
    exec_block_mirror .al .al 0 true false 0x000E hs rfl hpc hrn hwritable
  obtain ⟨c', hload, hbase, hlist⟩ :=
    hmirror { b₁ with core := { regs := Registers.write {} 0 (b₁.core.reg 0) } } rfl
      (Registers.read_write_self _ _ _) rfl
  exact ⟨hs, rfl, hpc, hrn, hwritable, b₁, hstore, c', hload, hbase, hlist 1 (by decide),
    hlist 3 (by decide)⟩

end Arm

end Armv4T
