import Mathlib
import Armv4T.Proofs.Decode.Arm
import Armv4T.Proofs.Exec.Multiple

/-!
# Thumb block transfers and their ARM equivalents

The block transfers of the Thumb set are those of the ARM set with shorter opcodes: LDMIA and STMIA
with a writeback, and the stack as STMDB and LDMIA of the stack pointer. The two sets transfer in
different orders, write the base back at different times and treat a base in the list in different
ways, and still they leave the same registers and the same memory
(`Thumb.blockTransfer_concurs_iff`), with one exception. The ARM set loads whole words from
addresses that it rounds down; the Thumb set does not round, and so a base that is not aligned
gives it rotated words.
-/

namespace Armv4T

/-! ### Equivalence -/

/-- Two boards look the same to a program: but for the program counter and the instruction set they
have the same registers, and their memory holds the same. -/
structure Board.Concurs (b c : Board) : Prop where
  regs : b.core.regs.Alike c.core.regs
  halted : b.core.halted = c.core.halted
  shape : Bus.SameShape b.bus c.bus
  contents : b.bus.contents = c.bus.contents
  irq : b.irq = c.irq

/-- Two transfers from boards that are alike, of which the stores come to the same, finish, and they
leave boards that look the same exactly if they leave the same registers. -/
lemma Exec.Transfers.concurs_iff {b c : Board} (h : b.Alike c) {x y : Exec Unit}
    {s s' : Registers} {writes writes' : List Write}
    (hx : Exec.Transfers x b.bus b.core.regs () s writes)
    (hy : Exec.Transfers y b.bus c.core.regs () s' writes')
    (hwrites : (b.bus.storeAll writes).contents = (b.bus.storeAll writes').contents) :
    ∃ b' c', x b = .ok () b' ∧ y c = .ok () c' ∧ (b'.Concurs c' ↔ s.Alike s') := by
  obtain ⟨b', hb, ht⟩ := hx b rfl rfl
  obtain ⟨c', hc, ht'⟩ := hy c h.bus.symm rfl
  refine ⟨b', c', hb, hc, fun hconcurs => ht.regs ▸ ht'.regs ▸ hconcurs.regs, fun halike => ?_⟩
  refine ⟨ht.regs ▸ ht'.regs ▸ halike, ht.halted.trans (h.halted.trans ht'.halted.symm), ?_, ?_,
    ht.irq.trans (h.irq.trans ht'.irq.symm)⟩
  · rw [ht.bus, ht'.bus, ← h.bus]
    exact (b.bus.sameShape_storeAll writes).symm.trans (b.bus.sameShape_storeAll writes')
  · rw [ht.bus, ht'.bus, ← h.bus, hwrites]

namespace Thumb

section Alike

variable {bus : Bus} {r s : Registers} {rn : Reg} {list : List Reg}

/-- Two ways of rounding load the same exactly if they load the same words. -/
lemma loadResult_alike_iff (h : r.Alike s) (hrn : rn ≠ .pc) (hnodup : list.Nodup)
    (hpc : .pc ∉ list) (round round' : Word → Word) :
    (loadResult bus round r rn list).Alike (loadResult bus round' s rn list) ↔
      ∀ x ∈ Word.wordsFrom (r.read rn) list.length,
        bus.load .word (round x) = bus.load .word (round' x) := by
  rw [loadResult, loadResult, ← h.read rn hrn, loaded, loaded,
    Registers.writeAll_alike_iff hnodup hpc (h.write rn _) (by simp) (by simp), List.map_inj_left]

lemma storeWrites_alike (h : r.Alike s) (hrn : rn ≠ .pc) (hpc : .pc ∉ list) :
    storeWrites r rn list = storeWrites s rn list := by
  have hread : ∀ i ∈ list, r.read i = s.read i := fun i hi => h.read i fun e => hpc (e ▸ hi)
  have hvalues (stored : Word) : list.map (fun i => if i = rn then stored else r.read i) =
      list.map fun i => if i = rn then stored else s.read i :=
    List.map_congr_left fun i hi => by rw [hread i hi]
  rw [storeWrites, storeWrites, h.read rn hrn, hvalues]

end Alike

/-- A block transfer of the Thumb set other than a pop of the program counter. Eight bits list the
low registers. -/
inductive BlockTransfer
  | load (rn : Fin 8) (list : Fin 256)
  | store (rn : Fin 8) (list : Fin 256)
  | push (list : Fin 256) (lr : Bool)
  | pop (list : Fin 256)

namespace BlockTransfer

/-- The registers that eight bits list. -/
def low (list : Fin 256) : RegList := ⟨.ofNat list⟩

/-- The same list in sixteen bits, and LR if it is listed too. -/
def wide (list : Fin 256) (lr : Bool) : Fin 65536 :=
  ⟨list + if lr then 2 ^ 14 else 0, by split <;> omega⟩

/-- The Thumb instruction. -/
def instr : BlockTransfer → Instr
  | load rn list => .loadMultiple (rn.castLE (by decide)) (low list)
  | store rn list => .storeMultiple (rn.castLE (by decide)) (low list)
  | push list lr => .push (low list) lr
  | pop list => .pop (low list) false

/-- The ARM instruction with the same list: LDMIA and STMIA of the base, and STMDB and LDMIA of the
stack pointer, all with a writeback. -/
def form : BlockTransfer → Arm.Form
  | load rn list => .block true false (rn.castLE (by decide)) false true true (wide list false)
  | store rn list => .block false false (rn.castLE (by decide)) false true true (wide list false)
  | push list lr => .block false false .sp true false true (wide list lr)
  | pop list => .block true false .sp false true true (wide list false)

/-- The addresses of the words that are loaded. -/
def loads (t : BlockTransfer) (r : Registers) : List Word :=
  match t with
  | load rn list => Word.wordsFrom (r.read (rn.castLE (by decide))) (low list).toList.length
  | pop list => Word.wordsFrom (r.read .sp) (low list).toList.length
  | store .. | push .. => []

lemma toNat_mask_low (list : Fin 256) : (low list).mask.toNat = list.val :=
  UInt32.toNat_ofNat_of_lt' (list.isLt.trans (by decide))

/-- Eight bits list no register above the seventh. -/
lemma contains_low (list : Fin 256) {i : Reg} (h : 8 ≤ i.val) : (low list).contains i = false := by
  have hpow : 2 ^ 8 ≤ 2 ^ i.val := Nat.pow_le_pow_right (by decide) h
  rw [RegList.contains_eq_testBit, toNat_mask_low]
  exact Nat.testBit_lt_two_pow (by omega)

lemma notMem_low (list : Fin 256) {i : Reg} (h : 8 ≤ i.val) : i ∉ (low list).toList := by
  simp [RegList.toList, contains_low list h]

lemma notMem_pushed {list : RegList} {i : Reg} (lr : Bool) (h : i ∉ list.toList) (hi : i ≠ .lr) :
    i ∉ pushed list lr := by
  cases lr <;> simp [pushed, h, hi]

lemma contains_wide (list : Fin 256) (i : Reg) :
    (RegList.mk (.ofNat (wide list true))).contains i =
      ((low list).contains i || decide (i = .lr)) := by
  have hsum : list.val + 2 ^ 14 = 2 ^ 14 ||| list.val := by
    have hor := Nat.two_pow_add_eq_or_of_lt (show list.val < 2 ^ 14 by omega) 1
    rwa [Nat.mul_one, Nat.add_comm] at hor
  have hmask : (UInt32.ofNat (wide list true)).toNat = 2 ^ 14 ||| list.val := by
    rw [← hsum]
    exact UInt32.toNat_ofNat_of_lt' ((wide list true).isLt.trans (by decide))
  rw [RegList.contains_eq_testBit, RegList.contains_eq_testBit, hmask, toNat_mask_low,
    Nat.testBit_or, Nat.testBit_two_pow, Bool.or_comm]
  simp [Fin.ext_iff, Reg.lr, eq_comm]

lemma toList_wide (list : Fin 256) (lr : Bool) :
    (RegList.mk (.ofNat (wide list lr))).toList = pushed (low list) lr := by
  cases lr with
  | false => exact (List.append_nil _).symm
  | true =>
    have hrange : List.finRange 16 = (List.finRange 16).take 14 ++ [Reg.lr, Reg.pc] := by decide
    have hother : ∀ i ∈ (List.finRange 16).take 14, i ≠ Reg.lr := by decide
    have hfirst : ((List.finRange 16).take 14).filter
        (RegList.mk (.ofNat (wide list true))).contains =
        ((List.finRange 16).take 14).filter (low list).contains :=
      List.filter_congr fun i hi => by simp [contains_wide, hother i hi]
    have hlr := contains_low list (i := .lr) (by decide)
    have hpc := contains_low list (i := .pc) (by decide)
    show _ = (low list).toList ++ [Reg.lr]
    rw [RegList.toList, RegList.toList, hrange, List.filter_append, List.filter_append, hfirst]
    simp [contains_wide, hlr, hpc, show Reg.pc ≠ Reg.lr by decide]

/-- What a transfer does in both sets, on a bus that is not strict: the stores come to the same
memory, and the registers are alike exactly if every word that is loaded is the same at its address
rounded down. -/
lemma exists_transfers (t : BlockTransfer) {b c : Board} (h : b.Alike c)
    (hm : b.bus.Mapped) (hroomy : b.bus.Roomy) (hstrict : b.bus.strict = false)
    (address address' : Word) :
    ∃ s s' writes writes',
      Exec.Transfers (exec t.instr address) b.bus b.core.regs () s writes ∧
      Exec.Transfers (Arm.exec ⟨.al, t.form.op⟩ address') b.bus c.core.regs () s' writes' ∧
      (b.bus.storeAll writes).contents = (b.bus.storeAll writes').contents ∧
      (s.Alike s' ↔ ∀ x ∈ t.loads b.core.regs,
        b.bus.load .word x = b.bus.load .word (Word.alignDown x 4)) := by
  have hpc (list : Fin 256) : .pc ∉ (low list).toList := notMem_low list (by decide)
  have hsp (list : Fin 256) : .sp ∉ (low list).toList := notMem_low list (by decide)
  have hlow (rn : Fin 8) : (rn.castLE (by decide) : Reg) ≠ Reg.pc := by
    intro e
    have hval : rn.val = 15 := congrArg Fin.val e
    omega
  have hwide (list : Fin 256) :
      (RegList.mk (.ofNat (wide list false))).toList = (low list).toList :=
    (toList_wide list false).trans (List.append_nil _)
  cases t with
  | load rn list =>
    exact ⟨_, _, [], [], transfers_loadMultiple address hstrict _ _ _,
      Arm.transfers_ldmia hstrict _ _ (hwide list) address', rfl,
      loadResult_alike_iff h.regs (hlow rn) (low list).nodup_toList (hpc list) id _⟩
  | store rn list =>
    refine ⟨_, _, _, _, transfers_storeMultiple address hstrict _ _ (low list),
      Arm.transfers_stmia hstrict _ _ (hwide list) (hpc list) address', ?_, ?_⟩
    · exact congrArg (fun ws => (b.bus.storeAll ws).contents)
        (storeWrites_alike h.regs (hlow rn) (hpc list))
    · rw [← h.regs.read _ (hlow rn)]
      exact iff_of_true (h.regs.write _ _) nofun
  | push list lr =>
    have hpushed : .pc ∉ pushed (low list) lr := notMem_pushed lr (hpc list) (by decide)
    have hlength : (pushed (low list) lr).length ≤ 16 := by
      rw [← toList_wide]
      exact RegList.length_toList_le _
    have hvalues : (pushed (low list) lr).map b.core.regs.read =
        (pushed (low list) lr).map c.core.regs.read :=
      List.map_congr_left fun i hi => h.regs.read i fun e => hpushed (e ▸ hi)
    refine ⟨_, _, _, _, transfers_push address hstrict _ (low list) lr,
      Arm.transfers_stmdb hstrict _ (toList_wide list lr) hpushed
        (notMem_pushed lr (hsp list) (by decide)) address', ?_, ?_⟩
    · rw [h.regs.read .sp (by decide), ← hvalues, hm.contents_storeAll (.refl _),
        hm.contents_storeAll (.refl _), hm.storeAll_reverse_burst hroomy]
      rwa [List.length_map]
    · rw [h.regs.read .sp (by decide)]
      exact iff_of_true (h.regs.write _ _) nofun
  | pop list =>
    exact ⟨_, _, [], [], transfers_pop address hstrict _ (hsp list),
      Arm.transfers_ldmia hstrict _ _ (hwide list) address', rfl,
      loadResult_alike_iff h.regs (by decide) (low list).nodup_toList (hpc list) id _⟩

end BlockTransfer

/-- A block transfer of the Thumb set and that of the ARM set with the same list always finish on
the bus of the handheld. They leave boards that look the same exactly if every word that is loaded
is the same at its address rounded down: always for the stores, and for the loads whenever the base
is aligned. -/
theorem blockTransfer_concurs_iff (t : BlockTransfer) {b c : Board}
    (hbus : Bus.SameShape .handheld b.bus) (h : b.Alike c) (address address' : Word) :
    (∃ b' c', exec t.instr address b = .ok () b' ∧
      Arm.exec ⟨.al, t.form.op⟩ address' c = .ok () c' ∧
      (b'.Concurs c' ↔ ∀ x ∈ t.loads b.core.regs,
        b.bus.load .word x = b.bus.load .word (Word.alignDown x 4))) ∧
    ∃ v, Arm.decode v = ⟨.al, t.form.op⟩ := by
  have hm : b.bus.Mapped := Bus.built_handheld.mapped.sameShape hbus
  have hroomy : b.bus.Roomy := Bus.roomy_handheld.sameShape hbus
  have hstrict : b.bus.strict = false := hbus.strict.trans (by decide +kernel)
  obtain ⟨s, s', writes, writes', hx, hy, hwrites, hiff⟩ :=
    t.exists_transfers h hm hroomy hstrict address address'
  obtain ⟨b', c', hb, hc, hconcurs⟩ := hx.concurs_iff h hy hwrites
  refine ⟨⟨b', c', hb, hc, hconcurs.trans hiff⟩, Arm.encode .al t.form, ?_⟩
  rw [Arm.decode, Arm.decode_cond_encode, Arm.decodeOp_layout t.form (Arm.toNat_encode .al t.form)]

/-- The handheld with a word in memory, and the stack pointer one byte behind its address. -/
def misaligned : Board :=
  { core := { regs := Registers.write {} .sp 0x03000101 }
    bus := Bus.handheld.store .word 0x03000100 0x44332211 }

lemma sameShape_misaligned : Bus.SameShape .handheld misaligned.bus :=
  Bus.handheld.sameShape_store .word 0x03000100 0x44332211

/-- Pushing all low registers and LR to a stack that is not aligned. -/
theorem blockTransfer_concurs_push :
    Bus.SameShape .handheld misaligned.bus ∧ misaligned.Alike misaligned ∧
      ∃ b' c', exec (.push ⟨0xFF⟩ true) 0 misaligned = .ok () b' ∧
        Arm.exec ⟨.al, (BlockTransfer.push 0xFF true).form.op⟩ 0 misaligned = .ok () c' ∧
        b'.Concurs c' := by
  obtain ⟨⟨b', c', hb, hc, hiff⟩, -⟩ :=
    blockTransfer_concurs_iff (.push 0xFF true) sameShape_misaligned (.refl misaligned) 0 0
  exact ⟨sameShape_misaligned, .refl _, b', c', hb, hc, hiff.mpr nofun⟩

/-- A pop from a stack that is not aligned gives a rotated word, and LDMIA of the stack pointer does
not. -/
theorem not_forall_blockTransfer_concurs :
    ¬∀ (t : BlockTransfer) (b c : Board) (address address' : Word),
      Bus.SameShape .handheld b.bus → b.Alike c →
      ∃ b' c', exec t.instr address b = .ok () b' ∧
        Arm.exec ⟨.al, t.form.op⟩ address' c = .ok () c' ∧ b'.Concurs c' := by
  intro hall
  obtain ⟨b', c', hb, hc, hconcurs⟩ :=
    hall (.pop 2) misaligned misaligned 0 0 sameShape_misaligned (.refl _)
  have hthumb : ((exec (BlockTransfer.pop 2).instr 0).after misaligned).core.reg 1 =
      0x11443322 := by
    decide +kernel
  have harm : ((Arm.exec ⟨.al, (BlockTransfer.pop 2).form.op⟩ 0).after misaligned).core.reg 1 =
      0x44332211 := by
    decide +kernel
  rw [Exec.after_of_ok hb] at hthumb
  rw [Exec.after_of_ok hc] at harm
  have hsame : b'.core.reg 1 = c'.core.reg 1 := hconcurs.regs.read 1 (by decide)
  rw [hthumb, harm] at hsame
  exact absurd hsame (by decide)

end Thumb

end Armv4T
