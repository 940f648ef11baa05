import Mathlib
import Armv4T.Proofs.Exec.Ascending
import Armv4T.Proofs.Registers.Physical

/-!
# Transfers of the User bank

A block transfer with the user-bank bit reads its base in the current mode, and then transfers the
registers of User mode in place of those that the current mode sees. The core does this by a change
to System mode and back. Changes of mode move values between the visible registers and the slots,
and no copy of a register changes by them, so what is left of the detour is what happens inside it:
a load changes the User copies of the registers in its list and no other copy (`Arm.UserLoaded`),
and a store writes the User copies to memory and changes no register (`Arm.UserStored`), in every
mode and for every list, base and addressing mode (`Arm.exec_userBank`).
-/

namespace Armv4T

/-! ### Registers that are written in a mode -/

namespace Registers

/-- Registers of a list have been written, some of them or all, and nothing else. -/
def Rewritten (list : List Reg) (r s : Registers) : Prop :=
  ∃ values : List (Reg × Word), (∀ q ∈ values, q.1 ∈ list) ∧ s = r.writeAll values

namespace Rewritten

variable {list : List Reg} {r s t : Registers}

lemma refl (list : List Reg) (r : Registers) : Rewritten list r r := ⟨[], by simp, rfl⟩

lemma trans (h : Rewritten list r s) (h' : Rewritten list s t) : Rewritten list r t := by
  obtain ⟨values, hvalues, rfl⟩ := h
  obtain ⟨values', hvalues', rfl⟩ := h'
  exact ⟨values ++ values', List.forall_mem_append.mpr ⟨hvalues, hvalues'⟩,
    List.foldl_append.symm⟩

lemma write {i : Reg} (h : i ∈ list) (r : Registers) (value : Word) :
    Rewritten list r (r.write i value) :=
  ⟨[(i, value)], List.forall_mem_singleton.mpr h, rfl⟩

/-- Only what is visible has changed. -/
lemma exists_eq (h : Rewritten list r s) : ∃ visible, s = { r with visible } := by
  obtain ⟨values, -, rfl⟩ := h
  induction values generalizing r with
  | nil => exact ⟨r.visible, rfl⟩
  | cons q values ih =>
    obtain ⟨visible, h⟩ := ih (r := r.write q.1 q.2)
    exact ⟨visible, h⟩

lemma mode_eq (h : Rewritten list r s) : s.mode = r.mode := by
  obtain ⟨visible, rfl⟩ := h.exists_eq
  rfl

lemma spsr_eq (h : Rewritten list r s) : s.spsr = r.spsr := by
  obtain ⟨visible, rfl⟩ := h.exists_eq
  rfl

lemma read_pc_eq (h : Rewritten list r s) (hpc : .pc ∉ list) : s.read .pc = r.read .pc := by
  obtain ⟨values, hvalues, rfl⟩ := h
  exact read_writeAll (fun q hq (e : .pc = q.1) => hpc (e ▸ hvalues q hq)) r

/-- No copy changes but those that the mode selects for the registers of the list. -/
lemma content_eq (h : Rewritten list r s) (hpc : .pc ∉ list) {p : PhysicalReg}
    (hp : ∀ i ∈ list, r.mode.select (.ofReg i) ≠ p) : s.content p = r.content p := by
  obtain ⟨values, hvalues, rfl⟩ := h
  induction values generalizing r with
  | nil => rfl
  | cons q values ih =>
    obtain ⟨hq, hvalues⟩ := List.forall_mem_cons.mp hvalues
    have hqpc : q.1 ≠ .pc := fun e => hpc (e ▸ hq)
    have hrest := ih (r := r.write q.1 q.2) hp hvalues
    rw [writeAll_cons, hrest, content_write hqpc, Function.update_of_ne (hp q.1 hq).symm]

end Rewritten

/-- The registers of two states are the same but for the User copies of the registers of a list. -/
structure SameButUser (list : List Reg) (r s : Registers) : Prop where
  others : ∀ p, (∀ i ∈ list, Mode.user.select (.ofReg i) ≠ p) → s.content p = r.content p
  pc : s.read .pc = r.read .pc
  mode : s.mode = r.mode
  set : s.set = r.set
  flags : s.flags = r.flags
  spsr : s.spsr = r.spsr

/-- Registers that are written between a change to System mode and one back are those of the User
bank. -/
lemma Rewritten.sameButUser {list : List Reg} {r s : Registers}
    (h : Rewritten list (r.switchMode .system) s) (hpc : .pc ∉ list) :
    SameButUser list r (s.switchMode r.mode) := by
  obtain ⟨hpcread, hflags, hset⟩ := r.switchMode_unbanked .system
  obtain ⟨hpcread', hflags', hset'⟩ := s.switchMode_unbanked r.mode
  obtain ⟨visible, hvisible⟩ := h.exists_eq
  have hothers : ∀ p, (∀ i ∈ list, Mode.user.select (.ofReg i) ≠ p) →
      (s.switchMode r.mode).content p = r.content p := by
    intro p hp
    rw [content_switchMode, h.content_eq hpc, content_switchMode]
    rwa [mode_switchMode]
  refine ⟨hothers, ?_, s.mode_switchMode r.mode, ?_, ?_, ?_⟩
  · rw [hpcread', h.read_pc_eq hpc, hpcread]
  · rw [hset', hvisible, hset]
  · rw [hflags', hvisible, hflags]
  · rw [← content_select_spsr, mode_switchMode, hothers, content_select_spsr]
    exact fun i _ e => NamedReg.ofReg_ne_spsr i (Mode.select_eq_select e)

end Registers

/-! ### The detour through System mode -/

namespace Arm

open Exec

/-- The value that a store of the User bank writes for a register. The program counter belongs to no
mode, and reads one word further. -/
def userValue (c : Core) (i : Reg) : Word :=
  if i = .pc then c.pc + 4 else c.regs.content (Mode.user.select (.ofReg i))

/-- What a block load of the User bank leaves: the words in the User copies of the registers of its
list, and every other copy and the rest of the core as they were. The base is what the current mode
sees. -/
structure UserLoaded (rn : Reg) (pre up : Bool) (list : RegList) (b b' : Board) : Prop where
  words : ∀ k (h : k < list.toList.length),
    b'.core.regs.content (Mode.user.select (.ofReg list.toList[k])) = b.bus.load .word
      (Word.alignDown (firstWord (b.core.reg rn) list.count pre up + 4 * .ofNat k) 4)
  regs : b.core.regs.SameButUser list.toList b'.core.regs
  bus : b'.bus = b.bus

/-- What a block store of the User bank leaves: the User copies of the registers of its list in the
words, and every copy, the program counter, the mode, the set and the flags as they were. -/
structure UserStored (rn : Reg) (pre up : Bool) (list : RegList) (b b' : Board) : Prop where
  words : b'.bus = b.bus.storeAll (list.toList.mapIdx fun k i =>
    ⟨.word, Word.alignDown (firstWord (b.core.reg rn) list.count pre up + 4 * .ofNat k) 4,
      userValue b.core i⟩)
  physical : b'.core.regs.physical = b.core.regs.physical

section Transfers

variable {bus : Bus} {r s : Registers} {act : Exec Unit} {writes : List Write} {list : RegList}

lemma transfers_switchMode (bus : Bus) (r : Registers) (m : Mode) :
    Transfers (onCore (·.switchMode m)) bus r () (r.switchMode m) [] := by
  rintro b - rfl
  exact ⟨_, rfl, rfl, rfl, rfl, rfl⟩

/-- What is done in the User bank is done in System mode, between two changes of mode. -/
lemma transfers_inBank (h : Transfers act bus (r.switchMode .system) () s writes) :
    Transfers (inBank true act) bus r () (s.switchMode r.mode) writes :=
  (transfers_core bus r fun _ => rfl).before <|
    (transfers_switchMode bus r .system).before <| h.after (transfers_switchMode _ s r.mode)

lemma transfers_loadMultiple_user (hstrict : bus.strict = false) (r : Registers) (a : BlockAddress)
    (hpc : list.contains .pc = false) :
    Transfers (loadMultiple true list a) bus r ()
      ((((writtenBack a r).switchMode .system).writeAll
        (loaded bus (Word.alignDown · 4) (r.read a.rn + a.start) list.toList)).switchMode
          (writtenBack a r).mode) [] := by
  unfold loadMultiple
  simp only [hpc, Bool.not_false, Bool.and_true, Bool.and_false]
  exact (transfers_blockAddress hstrict r a false).before <|
    (transfers_inBank (transfers_loadWords hstrict _ _ list.toList)).before <|
      (transfers_chargeBus bus _ _).before <| (transfers_charge bus _ 1).before <|
        transfers_pure bus _ ()

lemma transfers_storeMultiple_user (hstrict : bus.strict = false) (r : Registers)
    (a : BlockAddress) (list : RegList) :
    Transfers (storeMultiple true list a) bus r ()
      (((writtenBack a r).switchMode .system).switchMode (writtenBack a r).mode)
      (baseStore a r ++ burst (r.read a.rn + a.start)
        (list.toList.map ((writtenBack a r).switchMode .system).storeValue)) := by
  refine (transfers_chargeAtPc bus r fun pc => (·.wait32 pc)).before <|
    (transfers_blockAddress hstrict r a true).bind <|
      (transfers_inBank
        (transfers_storeWords (bus.strict_storeAll _ ▸ hstrict) _ _ list.toList)).after ?_
  split
  · exact transfers_chargeBus _ _ _
  · exact transfers_chargeBus _ _ _

end Transfers

section Fields

variable {rn : Reg} {pre up : Bool} {list : RegList} {cond : Condition} {b : Board} {address : Word}

lemma exists_userLoaded (hstrict : b.bus.strict = false)
    (hcond : cond.passes b.core.regs.flags = true) (hpc : .pc ∉ list.toList) {a : BlockAddress}
    {rest : RegList} (ha : BlockAddress.ofFields rn list pre up false false = (a, rest)) :
    ∃ b', exec ⟨cond, .loadMultiple true rest a⟩ address b = .ok () b' ∧
      UserLoaded rn pre up list b b' := by
  obtain ⟨rfl, rfl⟩ := Prod.mk.inj ((ofFields_of_ne false (by simp)).symm.trans ha)
  set a : BlockAddress :=
    ⟨rn, firstOffset list.count pre up, backOffset list.count up, false, false⟩
  have hlisted : list.contains .pc = false := by
    simpa [RegList.toList] using hpc
  have hload := transfers_loadMultiple_user hstrict b.core.regs a hlisted
  obtain ⟨b', hrun, ht⟩ := transfers_afterFetch hcond hload b rfl rfl
  have hfirst : b.core.reg rn + a.start = firstWord (b.core.reg rn) list.count pre up :=
    add_firstOffset _ _ _ _
  set values := loaded b.bus (Word.alignDown · 4) (b.core.reg rn + a.start) list.toList with hvalues
  set written := (b.core.regs.switchMode .system).writeAll values with hwritten
  have hrewritten : Registers.Rewritten list.toList (b.core.regs.switchMode .system) written :=
    ⟨values, fun q hq => (mem_loaded _).mp ⟨q, hq, rfl⟩, rfl⟩
  have hregs : b'.core.regs = written.switchMode b.core.regs.mode := ht.regs
  refine ⟨b', hrun, fun k hk => ?_, hregs ▸ hrewritten.sameButUser hpc, ht.bus⟩
  have hk' : list.toList[k] ≠ .pc := fun e => hpc (e ▸ List.getElem_mem hk)
  have hbank : Mode.user.bank = written.mode.bank := by
    rw [hrewritten.mode_eq, Registers.mode_switchMode]
    rfl
  rw [hregs, Registers.content_switchMode, Registers.content_select_ofReg hk' hbank, hwritten,
    hvalues, Registers.read_loaded list.nodup_toList, hfirst]

/-- A register of System mode, as a store writes it. -/
lemma storeValue_switchMode (c : Core) (i : Reg) :
    (c.regs.switchMode .system).storeValue i = userValue c i := by
  obtain ⟨hpc, -, -⟩ := c.regs.switchMode_unbanked .system
  unfold Registers.storeValue userValue
  split
  · rename_i hi
    rw [hi, hpc]
    rfl
  · rename_i hi
    have hbank : Mode.user.bank = (c.regs.switchMode .system).mode.bank := by
      rw [Registers.mode_switchMode]
      rfl
    rw [← Registers.content_select_ofReg hi hbank, Registers.content_switchMode]

lemma exists_userStored (hstrict : b.bus.strict = false)
    (hcond : cond.passes b.core.regs.flags = true) {a : BlockAddress} {rest : RegList}
    (ha : BlockAddress.ofFields rn list pre up false true = (a, rest)) :
    ∃ b', exec ⟨cond, .storeMultiple true rest a⟩ address b = .ok () b' ∧
      UserStored rn pre up list b b' := by
  obtain ⟨rfl, rfl⟩ := Prod.mk.inj ((ofFields_of_ne true (by simp)).symm.trans ha)
  set a : BlockAddress :=
    ⟨rn, firstOffset list.count pre up, backOffset list.count up, false, false⟩
  have hstore := transfers_storeMultiple_user hstrict b.core.regs a list
  obtain ⟨b', hrun, ht⟩ := transfers_insteadOfFetch hcond hstore b rfl rfl
  have hfirst : b.core.reg rn + a.start = firstWord (b.core.reg rn) list.count pre up :=
    add_firstOffset _ _ _ _
  have hvalues : list.toList.map (b.core.regs.switchMode .system).storeValue =
      list.toList.map (userValue b.core) :=
    List.map_congr_left fun i _ => storeValue_switchMode b.core i
  refine ⟨b', hrun, ?_, ?_⟩
  · rw [← Bus.storeAll_burst, ← hvalues, ← hfirst]
    exact ht.bus
  · rw [ht.regs]
    exact b.core.regs.physical_switchMode_switchMode .system

/-- On a bus that is not strict, a block transfer with the user-bank bit and without a writeback
finishes in every mode, for every list, base and addressing mode, if its condition holds; a load
must not list the program counter. A load changes the User copies of its list and no other copy,
and leaves the mode, the flags and the saved status word, and a store writes the User copies and
leaves all registers. -/
theorem exec_userBank (cond : Condition) (load : Bool) (rn : Reg) (pre up : Bool)
    (list : Fin 65536) {b : Board} {address : Word} (hstrict : b.bus.strict = false)
    (hcond : cond.passes b.core.regs.flags = true)
    (hpc : load = true → .pc ∉ (RegList.mk (.ofNat list)).toList) :
    ∃ b', exec (decode (encode cond (.block load true rn pre up false list))) address b =
        .ok () b' ∧
      if load then UserLoaded rn pre up ⟨.ofNat list⟩ b b'
      else UserStored rn pre up ⟨.ofNat list⟩ b b' := by
  rw [exec_encode]
  cases load with
  | true => exact exists_userLoaded hstrict hcond (hpc rfl) rfl
  | false => exact exists_userStored hstrict hcond rfl

/-- The handheld in FIQ mode, with a base two bytes behind the address of a word. -/
def interrupted : Board :=
  { core :=
      { regs := (Registers.switchMode {} .fiq).writeAll
          [(.r0, 0x03000102), (.ofWord 8, 0x8888), (.sp, 0xDDDD)] }
    bus := (Bus.handheld.store .word 0x03000100 0x1111).store .word 0x03000104 0x2222 }

/-- LDMIA of r8 and the stack pointer in FIQ mode, which has its own copies of both. -/
theorem exec_userBank_ldmia :
    interrupted.bus.strict = false ∧ Condition.al.passes interrupted.core.regs.flags = true ∧
      (true = true → .pc ∉ (RegList.mk (.ofNat (0x2100 : Fin 65536))).toList) ∧
      ∃ b', exec (decode (encode .al (.block true true 0 false true false 0x2100))) 0x03000000
          interrupted = .ok () b' ∧
        b'.core.regs.content (.high false 0) = 0x1111 ∧ b'.core.regs.content (.sp 0) = 0x2222 ∧
        b'.core.regs.content (.high true 0) = 0x8888 ∧ b'.core.regs.content (.sp 1) = 0xDDDD ∧
        b'.core.regs.mode = .fiq := by
  have hstrict : interrupted.bus.strict = false := by decide +kernel
  have hpc : true = true → .pc ∉ (RegList.mk (.ofNat (0x2100 : Fin 65536))).toList := by decide
  obtain ⟨b', hrun, hloaded⟩ := exec_userBank .al true 0 false true 0x2100 hstrict rfl hpc
  refine ⟨hstrict, rfl, hpc, b', hrun, ?_, ?_, ?_, ?_, hloaded.regs.mode⟩
  · exact (hloaded.words 0 (by decide)).trans (by decide +kernel)
  · exact (hloaded.words 1 (by decide)).trans (by decide +kernel)
  · exact (hloaded.regs.others _ (by decide)).trans (by decide +kernel)
  · exact (hloaded.regs.others _ (by decide)).trans (by decide +kernel)

end Fields

end Arm

end Armv4T
