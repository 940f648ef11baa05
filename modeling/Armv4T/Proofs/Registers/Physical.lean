import Mathlib
import Armv4T.Registers

/-!
# The physical registers behind the visible ones

The core has more registers than an instruction can name. Seven modes share r0 to r7, FIQ has an
r8 to r12 of its own, and SP, LR and SPSR exist once for each of the six banks. This file gives
every copy a name (`PhysicalReg`), says which copy a mode selects (`Mode.select`), and reads the
value of a copy off the register file: the live value is the visible one if the current mode
selects the copy, and the one in its slot otherwise (`Registers.phys`).

The main result is that the register file is an implementation of the plain array of copies
(`Physical`): changing the mode moves values between the visible registers and the slots, but no
copy changes its value, and a write changes the one copy that the current mode selects.
-/

namespace Armv4T

/-- What an instruction can name besides the program counter: r0 to r14, of which `high i` is the
register `8 + i`, and the saved status word. -/
inductive NamedReg
  | low (i : Fin 8)
  | high (i : Fin 5)
  | sp
  | lr
  | spsr
  deriving DecidableEq, Repr

namespace NamedReg

/-- The number of a named register; the saved status word has none. -/
def reg? : NamedReg → Option Reg
  | low i => some ⟨i, by omega⟩
  | high i => some ⟨8 + i, by omega⟩
  | sp => some .sp
  | lr => some .lr
  | spsr => none

/-- The name of a register other than the program counter. -/
def ofReg (i : Reg) : NamedReg :=
  if h : i.val < 8 then low ⟨i, h⟩
  else if h' : i.val < 13 then high ⟨i - 8, by omega⟩
  else if i = .sp then sp
  else lr

/-- Every register but the program counter has a name. -/
lemma reg?_ofReg {i : Reg} (h : i ≠ .pc) : (ofReg i).reg? = some i := by
  revert h
  revert i
  decide

/-- No register is named as the saved status word. -/
lemma ofReg_ne_spsr (i : Reg) : ofReg i ≠ spsr := by
  revert i
  decide

/-- A name is known by its register number. -/
lemma reg?_injective : Function.Injective reg? := by
  intro a b h
  cases a <;> cases b <;>
    simp_all [reg?, Reg.sp, Reg.lr, Fin.ext_iff] <;> omega

end NamedReg

/-- A copy of a register. -/
inductive PhysicalReg
  | low (i : Fin 8)
  | high (fiq : Bool) (i : Fin 5)
  | sp (bank : Fin 6)
  | lr (bank : Fin 6)
  | spsr (bank : Fin 6)
  deriving DecidableEq, Repr

/-- The name under which a copy is selected. -/
def PhysicalReg.name : PhysicalReg → NamedReg
  | low i => .low i
  | high _ i => .high i
  | sp _ => .sp
  | lr _ => .lr
  | spsr _ => .spsr

namespace Mode

/-- Whether a mode has its own r8 to r12. -/
def isFiq (m : Mode) : Bool := m == .fiq

/-- The copy of a register that a mode selects. -/
def select (m : Mode) : NamedReg → PhysicalReg
  | .low i => .low i
  | .high i => .high m.isFiq i
  | .sp => .sp m.bank
  | .lr => .lr m.bank
  | .spsr => .spsr m.bank

@[simp] lemma name_select (m : Mode) (a : NamedReg) : (m.select a).name = a := by
  cases a <;> rfl

/-- A copy is selected under one name only. -/
lemma select_eq_select {m n : Mode} {a b : NamedReg} (h : m.select a = n.select b) : a = b := by
  rw [← name_select m a, h, name_select]

/-- Only FIQ uses the second bank, so the bank decides about r8 to r12 too. -/
lemma isFiq_eq_of_bank_eq {m n : Mode} (h : m.bank = n.bank) : m.isFiq = n.isFiq := by
  revert h
  cases m <;> cases n <;> decide

/-- Modes with the same bank select the same copies. -/
lemma select_eq_of_bank_eq {m n : Mode} (h : m.bank = n.bank) : m.select = n.select := by
  funext a
  cases a <;> simp [select, h, isFiq_eq_of_bank_eq h]

end Mode

/-- Every copy is selected by some mode. -/
lemma PhysicalReg.exists_select (p : PhysicalReg) : ∃ m : Mode, m.select p.name = p := by
  have hbank : ∀ b : Fin 6, ∃ m : Mode, m.bank = b := by
    intro b
    fin_cases b
    exacts [⟨.user, rfl⟩, ⟨.fiq, rfl⟩, ⟨.irq, rfl⟩, ⟨.supervisor, rfl⟩, ⟨.abort, rfl⟩,
      ⟨.undefined, rfl⟩]
  cases p with
  | low i => exact ⟨.user, rfl⟩
  | high fiq i =>
    cases fiq
    · exact ⟨.user, rfl⟩
    · exact ⟨.fiq, rfl⟩
  | _ b =>
    obtain ⟨m, hm⟩ := hbank b
    exact ⟨m, by simp [Mode.select, PhysicalReg.name, hm]⟩

namespace Registers

/-- The visible value of a named register. -/
def named (r : Registers) (a : NamedReg) : Word :=
  match a.reg? with
  | some i => r.read i
  | none => r.spsr

/-- The value kept for a copy while no mode that selects it is current. The copies of r0 to r7 are
always selected. -/
def slot (r : Registers) : PhysicalReg → Word
  | .low i => r.named (.low i)
  | .high fiq i => if fiq then r.fiqHigh.get i else r.high.get i
  | .sp b => (r.banks.get b).sp
  | .lr b => (r.banks.get b).lr
  | .spsr b => (r.banks.get b).spsr

/-- The value of the copy that mode `m` selects under the name `a`: the visible one if the current
mode selects the same copy, and the one in its slot otherwise. -/
def phys (r : Registers) (m : Mode) (a : NamedReg) : Word :=
  if r.mode.select a = m.select a then r.named a else r.slot (m.select a)

/-- Changes a named register. -/
def put (r : Registers) (a : NamedReg) (value : Word) : Registers :=
  match a.reg? with
  | some i => r.write i value
  | none => { r with spsr := value }

/-- The visible registers are the copies that the current mode selects. -/
lemma phys_mode (r : Registers) (a : NamedReg) : r.phys r.mode a = r.named a := by
  simp [phys]

/-! ### Moving values between the visible registers and the slots -/

lemma visibleHigh_get (r : Registers) (i : Fin 5) : r.visibleHigh[i] = r.named (.high i) := by
  fin_cases i <;> rfl

/-- Showing values as r8 to r12 changes these registers and no others. -/
lemma named_showHigh (r : Registers) (h : Vector Word 5) (a : NamedReg) :
    (r.showHigh h).named a = match a with
      | .high i => h[i]
      | _ => r.named a := by
  cases a with
  | low i => fin_cases i <;> simp [named, NamedReg.reg?, showHigh, read]
  | high i => fin_cases i <;> simp [named, NamedReg.reg?, showHigh, read]
  | sp => simp [named, NamedReg.reg?, showHigh, read, Reg.sp]
  | lr => simp [named, NamedReg.reg?, showHigh, read, Reg.lr]
  | spsr => rfl

/-- After the exchange the visible r8 to r12 are those of the target mode, and the other visible
registers are as they were. -/
lemma named_exchangeHigh (r : Registers) (target : Mode) (a : NamedReg) :
    (r.exchangeHigh target).named a = match a with
      | .high i => r.phys target (.high i)
      | _ => r.named a := by
  by_cases h : r.mode = .fiq <;> by_cases ht : target = .fiq
  · cases a <;> simp [exchangeHigh, phys, Mode.select, h, ht]
  · have hshow : (r.exchangeHigh target).named a = (r.showHigh r.high).named a := by
      simp only [exchangeHigh, h, ht, if_true, if_false]
      rfl
    rw [hshow, named_showHigh]
    cases a <;> simp [phys, Mode.select, Mode.isFiq, slot, Vector.get_eq_getElem, h, ht]
  · have hshow : (r.exchangeHigh target).named a = (r.showHigh r.fiqHigh).named a := by
      simp only [exchangeHigh, h, ht, if_true, if_false]
      rfl
    rw [hshow, named_showHigh]
    cases a <;> simp [phys, Mode.select, Mode.isFiq, slot, Vector.get_eq_getElem, h, ht]
  · cases a <;> simp [exchangeHigh, phys, Mode.select, Mode.isFiq, h, ht]

/-- The exchange saves the visible r8 to r12 if the current mode selects them and the target does
not. -/
lemma slot_exchangeHigh (r : Registers) (target : Mode) (fiq : Bool) (i : Fin 5) :
    (r.exchangeHigh target).slot (.high fiq i) =
      if r.mode.isFiq = fiq ∧ target.isFiq ≠ fiq then r.named (.high i)
      else r.slot (.high fiq i) := by
  by_cases h : r.mode = .fiq <;> by_cases ht : target = .fiq <;> cases fiq <;>
    simp [exchangeHigh, slot, Mode.isFiq, h, ht, showHigh] <;> exact visibleHigh_get r i

@[simp] lemma banks_exchangeHigh (r : Registers) (target : Mode) :
    (r.exchangeHigh target).banks = r.banks := by
  unfold exchangeHigh showHigh
  split_ifs <;> rfl

@[simp] lemma mode_exchangeHigh (r : Registers) (target : Mode) :
    (r.exchangeHigh target).mode = r.mode := by
  unfold exchangeHigh showHigh
  split_ifs <;> rfl

/-- Saving a bank leaves what is visible. -/
lemma named_saveBank (r : Registers) (a : NamedReg) : r.saveBank.named a = r.named a := by
  cases a <;> rfl

/-- Saving a bank fills the slot of the current mode and no other. -/
lemma banks_saveBank (r : Registers) (b : Fin 6) :
    r.saveBank.banks.get b =
      if r.mode.bank = b then ⟨r.named .sp, r.named .lr, r.named .spsr⟩ else r.banks.get b := by
  by_cases h : r.mode.bank = b
  · subst h
    simp [saveBank, named, NamedReg.reg?, Vector.get_eq_getElem]
  · have hval : r.mode.bank.val ≠ b.val := fun e => h (Fin.ext e)
    simp [saveBank, Vector.get_eq_getElem, h, Vector.getElem_set_ne _ _ hval]

/-- Showing a bank changes SP, LR and SPSR. -/
lemma named_showBank (r : Registers) (b : Fin 6) (a : NamedReg) :
    (r.showBank b).named a = match a with
      | .sp => (r.banks.get b).sp
      | .lr => (r.banks.get b).lr
      | .spsr => (r.banks.get b).spsr
      | _ => r.named a := by
  cases a with
  | low i => fin_cases i <;> simp [named, NamedReg.reg?, showBank, read, write, Reg.sp, Reg.lr]
  | high i => fin_cases i <;> simp [named, NamedReg.reg?, showBank, read, write, Reg.sp, Reg.lr]
  | sp =>
    simp [named, NamedReg.reg?, showBank, read, write, Vector.get_eq_getElem, Reg.sp, Reg.lr]
  | lr =>
    simp [named, NamedReg.reg?, showBank, read, write, Vector.get_eq_getElem, Reg.sp, Reg.lr]
  | spsr => rfl

/-! ### Changing the mode -/

/-- After a change of mode the visible registers are the copies that the new mode selects. -/
lemma named_switchMode (r : Registers) (target : Mode) (a : NamedReg) :
    (r.switchMode target).named a = r.phys target a := by
  by_cases h : target.bank = r.mode.bank
  · have hvisible : (r.switchMode target).named a = r.named a := by
      rw [switchMode, if_pos h]
      cases a <;> rfl
    rw [hvisible, phys, Mode.select_eq_of_bank_eq h, if_pos rfl]
  · have hvisible : (r.switchMode target).named a =
        ((r.exchangeHigh target).saveBank.showBank target.bank).named a := by
      rw [switchMode, if_neg h]
      cases a <;> rfl
    have hne : r.mode.bank ≠ target.bank := fun e => h e.symm
    rw [hvisible, named_showBank]
    cases a with
    | low i => simp [named_saveBank, named_exchangeHigh, phys, Mode.select]
    | high i => simp [named_saveBank, named_exchangeHigh]
    | sp => simp only [banks_saveBank]; simp [phys, Mode.select, slot, hne]
    | lr => simp only [banks_saveBank]; simp [phys, Mode.select, slot, hne]
    | spsr => simp only [banks_saveBank]; simp [phys, Mode.select, slot, hne]

/-- A change of mode saves exactly the copies that the old mode selects and the new one does
not. -/
lemma slot_switchMode (r : Registers) (target : Mode) (p : PhysicalReg) :
    (r.switchMode target).slot p =
      if r.mode.select p.name = p ∧ target.select p.name ≠ p then r.named p.name
      else r.slot p := by
  by_cases h : target.bank = r.mode.bank
  · rw [Mode.select_eq_of_bank_eq h, if_neg (fun e => e.2 e.1), switchMode, if_pos h]
    cases p <;> rfl
  · have hslot : (r.switchMode target).slot p =
        match p with
        | .low i => r.named (.low i)
        | .high fiq i => (r.exchangeHigh target).slot (.high fiq i)
        | .sp b => ((r.exchangeHigh target).saveBank.banks.get b).sp
        | .lr b => ((r.exchangeHigh target).saveBank.banks.get b).lr
        | .spsr b => ((r.exchangeHigh target).saveBank.banks.get b).spsr := by
      cases p with
      | low i =>
        show (r.switchMode target).named (.low i) = _
        rw [named_switchMode]
        simp [phys, Mode.select]
      | _ => rw [switchMode, if_neg h]; rfl
    rw [hslot]
    cases p with
    | low i => simp [Mode.select, slot, PhysicalReg.name]
    | high fiq i => simp [slot_exchangeHigh, Mode.select, PhysicalReg.name]
    | sp b =>
      simp only [banks_saveBank, named_exchangeHigh, mode_exchangeHigh, banks_exchangeHigh]
      by_cases hb : r.mode.bank = b
      · subst hb; simp [Mode.select, PhysicalReg.name, h]
      · simp [Mode.select, PhysicalReg.name, slot, hb]
    | lr b =>
      simp only [banks_saveBank, named_exchangeHigh, mode_exchangeHigh, banks_exchangeHigh]
      by_cases hb : r.mode.bank = b
      · subst hb; simp [Mode.select, PhysicalReg.name, h]
      · simp [Mode.select, PhysicalReg.name, slot, hb]
    | spsr b =>
      simp only [banks_saveBank, named_exchangeHigh, mode_exchangeHigh, banks_exchangeHigh]
      by_cases hb : r.mode.bank = b
      · subst hb; simp [Mode.select, PhysicalReg.name, h]
      · simp [Mode.select, PhysicalReg.name, slot, hb]

@[simp] lemma mode_switchMode (r : Registers) (target : Mode) :
    (r.switchMode target).mode = target := by
  unfold switchMode
  split_ifs <;> rfl

/-- No copy changes its value when the mode changes. -/
lemma phys_switchMode (r : Registers) (target m : Mode) (a : NamedReg) :
    (r.switchMode target).phys m a = r.phys m a := by
  by_cases h : target.select a = m.select a
  · rw [phys, mode_switchMode, if_pos h, named_switchMode, phys, phys, h]
  · rw [phys, mode_switchMode, if_neg h, slot_switchMode, phys]
    simp [h]

/-- The program counter, the flags and the instruction set belong to no mode. -/
lemma switchMode_unbanked (r : Registers) (target : Mode) :
    (r.switchMode target).read .pc = r.read .pc ∧ (r.switchMode target).flags = r.flags ∧
      (r.switchMode target).set = r.set := by
  unfold switchMode exchangeHigh showHigh saveBank showBank write read Reg.sp Reg.lr Reg.pc
  split_ifs <;> simp

/-! ### Writing a register -/

/-- A write is seen under the name it is made to and under no other. -/
lemma named_put (r : Registers) (a b : NamedReg) (value : Word) :
    (r.put a value).named b = if a = b then value else r.named b := by
  rcases ha : a.reg? with _ | i <;> rcases hb : b.reg? with _ | j
  · have hab : a = b := NamedReg.reg?_injective (ha.trans hb.symm)
    simp [put, named, hb, hab]
  · have hab : a ≠ b := fun e => by simp [e, hb] at ha
    simp [put, named, ha, hb, hab, read]
  · have hab : a ≠ b := fun e => by simp [e, hb] at ha
    simp [put, named, ha, hb, hab, write]
  · by_cases hab : a = b
    · subst hab
      simp [put, named, ha, read, write]
    · have hij : i ≠ j := fun e => hab (NamedReg.reg?_injective (by rw [ha, hb, e]))
      have hval : i.val ≠ j.val := fun e => hij (Fin.ext e)
      simp [put, named, ha, hb, hab, read, write, Vector.getElem_set_ne _ _ hval]

/-- A write does not reach the copies that the current mode does not select. -/
lemma slot_put (r : Registers) (a : NamedReg) (value : Word) {p : PhysicalReg}
    (h : r.mode.select p.name ≠ p) : (r.put a value).slot p = r.slot p := by
  cases p with
  | low i => exact absurd rfl h
  | _ => unfold put; split <;> rfl

@[simp] lemma mode_put (r : Registers) (a : NamedReg) (value : Word) :
    (r.put a value).mode = r.mode := by
  unfold put
  split <;> rfl

/-- A write changes the copy that the current mode selects and no other. -/
lemma phys_put (r : Registers) (a : NamedReg) (value : Word) (m : Mode) (b : NamedReg) :
    (r.put a value).phys m b =
      if r.mode.select a = m.select b then value else r.phys m b := by
  by_cases h : r.mode.select b = m.select b
  · rw [phys, mode_put, if_pos h, named_put, phys, if_pos h]
    by_cases hab : a = b
    · rw [if_pos hab, if_pos (hab ▸ h)]
    · rw [if_neg hab, if_neg (fun e => hab (Mode.select_eq_select e))]
  · have hother : (r.put a value).slot (m.select b) = r.slot (m.select b) :=
      slot_put r a value (by simpa using h)
    have hne : r.mode.select a ≠ m.select b := fun e =>
      h (Mode.select_eq_select e ▸ e)
    rw [phys, mode_put, if_neg h, hother, if_neg hne, phys, if_neg h]

/-- No copy changes when the program counter is written. -/
lemma phys_write_pc (r : Registers) (value : Word) (m : Mode) (b : NamedReg) :
    (r.write .pc value).phys m b = r.phys m b := by
  have hnamed : ∀ c, (r.write .pc value).named c = r.named c := by
    intro c
    cases c with
    | low i => fin_cases i <;> simp [named, NamedReg.reg?, write, read, Reg.pc]
    | high i => fin_cases i <;> simp [named, NamedReg.reg?, write, read, Reg.pc]
    | sp => simp [named, NamedReg.reg?, write, read, Reg.pc, Reg.sp]
    | lr => simp [named, NamedReg.reg?, write, read, Reg.pc, Reg.lr]
    | spsr => rfl
  have hslot : ∀ p, (r.write .pc value).slot p = r.slot p := by
    intro p
    cases p with
    | low i => exact hnamed (.low i)
    | _ => rfl
  rw [phys, phys, hnamed, hslot]
  rfl

end Registers

/-! ### The array of copies -/

/-- The registers as the plain array of all copies, with what belongs to no mode beside it. -/
structure Physical where
  mode : Mode
  set : InstrSet
  flags : Flags
  pc : Word
  file : PhysicalReg → Word

/-- What is done to the registers: a change of mode, a write of a visible register, and a write of
the saved status word. -/
inductive RegisterOp
  | switch (target : Mode)
  | write (i : Reg) (value : Word)
  | writeSpsr (value : Word)

namespace Physical

/-- Changes the copy that the current mode selects. -/
def put (p : Physical) (a : NamedReg) (value : Word) : Physical :=
  { p with file := Function.update p.file (p.mode.select a) value }

/-- An operation on the array of copies: a change of mode is only that. -/
def perform (p : Physical) : RegisterOp → Physical
  | .switch target => { p with mode := target }
  | .write i value => if i = .pc then { p with pc := value } else p.put (.ofReg i) value
  | .writeSpsr value => p.put .spsr value

/-- A sequence of operations on the array of copies. -/
def run (p : Physical) (ops : List RegisterOp) : Physical := ops.foldl perform p

end Physical

namespace Registers

/-- An operation on the register file. -/
def perform (r : Registers) : RegisterOp → Registers
  | .switch target => r.switchMode target
  | .write i value => r.write i value
  | .writeSpsr value => { r with spsr := value }

/-- A sequence of operations on the register file. -/
def run (r : Registers) (ops : List RegisterOp) : Registers := ops.foldl perform r

/-- The value of a copy. -/
def content (r : Registers) (p : PhysicalReg) : Word :=
  if r.mode.select p.name = p then r.named p.name else r.slot p

/-- The array of copies that a register file stands for. -/
def physical (r : Registers) : Physical :=
  ⟨r.mode, r.set, r.flags, r.read .pc, r.content⟩

lemma content_select (r : Registers) (m : Mode) (a : NamedReg) :
    r.content (m.select a) = r.phys m a := by
  simp [content, phys]

/-- A register file is known by the copies that the modes select. -/
lemma content_eq_iff {r : Registers} {f : PhysicalReg → Word} :
    r.content = f ↔ ∀ m a, r.phys m a = f (m.select a) := by
  constructor
  · rintro rfl m a
    exact (r.content_select m a).symm
  · intro h
    funext p
    obtain ⟨m, hm⟩ := p.exists_select
    rw [← hm, content_select, h]

/-- A write under a name is a write of the copy. -/
lemma physical_put (r : Registers) (a : NamedReg) (value : Word) :
    (r.put a value).content = Function.update r.content (r.mode.select a) value := by
  rw [content_eq_iff]
  intro m b
  rw [phys_put, Function.update_apply, content_select]
  simp only [eq_comm]

/-- Each operation on the register file is the operation on the array of copies. -/
lemma physical_perform (r : Registers) (op : RegisterOp) :
    (r.perform op).physical = r.physical.perform op := by
  cases op with
  | switch target =>
    obtain ⟨hpc, hflags, hset⟩ := r.switchMode_unbanked target
    have hfile : (r.switchMode target).content = r.content := by
      rw [content_eq_iff]
      intro m a
      rw [phys_switchMode, content_select]
    simp only [perform, physical, Physical.perform, hpc, hflags, hset, hfile, mode_switchMode]
  | write i value =>
    by_cases hi : i = .pc
    · subst hi
      have hfile : (r.write .pc value).content = r.content := by
        rw [content_eq_iff]
        intro m a
        rw [phys_write_pc, content_select]
      have hpc : (r.write .pc value).read .pc = value := by simp [write, read]
      simp only [perform, physical, Physical.perform, if_pos, hfile, hpc]
      rfl
    · have hput : r.write i value = r.put (.ofReg i) value := by
        rw [put, NamedReg.reg?_ofReg hi]
      have hpc : (r.write i value).read .pc = r.read .pc := by
        have hval : i.val ≠ Reg.pc.val := fun e => hi (Fin.ext e)
        simp [write, read, Vector.getElem_set_ne _ _ hval]
      have hfile := physical_put r (.ofReg i) value
      rw [← hput] at hfile
      simp only [perform, physical, Physical.perform, if_neg hi, Physical.put, hpc, hfile]
      rfl
  | writeSpsr value =>
    have hput := physical_put r .spsr value
    simp only [perform, physical, Physical.perform, Physical.put]
    rw [← hput]
    rfl

/-- No copy changes with the mode. -/
lemma content_switchMode (r : Registers) (target : Mode) :
    (r.switchMode target).content = r.content :=
  congrArg Physical.file (r.physical_perform (.switch target))

lemma content_write_pc (r : Registers) (value : Word) : (r.write .pc value).content = r.content :=
  congrArg Physical.file (r.physical_perform (.write .pc value))

/-- A write of a register other than the program counter changes the copy that the mode selects. -/
lemma content_write {i : Reg} (h : i ≠ .pc) (r : Registers) (value : Word) :
    (r.write i value).content = Function.update r.content (r.mode.select (.ofReg i)) value := by
  rw [← physical_put, put, NamedReg.reg?_ofReg h]

/-- The copy of a register that a mode selects is what the modes of its bank see. -/
lemma content_select_ofReg {i : Reg} (h : i ≠ .pc) {r : Registers} {m : Mode}
    (hmode : m.bank = r.mode.bank) : r.content (m.select (.ofReg i)) = r.read i := by
  rw [Mode.select_eq_of_bank_eq hmode, content_select, phys_mode, named, NamedReg.reg?_ofReg h]

/-- The copy of the saved status word that the mode selects is what it sees. -/
lemma content_select_spsr (r : Registers) : r.content (r.mode.select .spsr) = r.spsr := by
  rw [content_select, phys_mode]
  rfl

/-- A change of mode and back leaves the registers as they are. -/
lemma physical_switchMode_switchMode (r : Registers) (m : Mode) :
    ((r.switchMode m).switchMode r.mode).physical = r.physical := by
  have hthere := r.physical_perform (.switch m)
  have hback := (r.switchMode m).physical_perform (.switch r.mode)
  rw [perform] at hthere hback
  rw [hback, hthere]
  rfl

/-- The register file implements the array of copies. After any sequence of operations it stands
for the array that the same operations make of the array it stood for. There a change of mode
leaves every copy, the program counter and the flags as they are and makes the copies of the new
mode visible, and a write changes the one copy that the current mode selects. -/
theorem run_refines_physical (r : Registers) (ops : List RegisterOp) :
    (r.run ops).physical = r.physical.run ops ∧
    (∀ target, (∀ m a, ((r.run ops).switchMode target).phys m a = (r.run ops).phys m a) ∧
      ((r.run ops).switchMode target).read .pc = (r.run ops).read .pc ∧
      ((r.run ops).switchMode target).flags = (r.run ops).flags ∧
      ∀ a, ((r.run ops).switchMode target).named a = (r.run ops).phys target a) ∧
    (∀ a value m b, ((r.run ops).put a value).phys m b =
      if (r.run ops).mode.select a = m.select b then value else (r.run ops).phys m b) ∧
    ∀ value m b, ((r.run ops).write .pc value).phys m b = (r.run ops).phys m b := by
  refine ⟨?_, ?_, phys_put _, phys_write_pc _⟩
  · induction ops generalizing r with
    | nil => rfl
    | cons op ops ih =>
      have hstep : (r.run (op :: ops)) = (r.perform op).run ops := rfl
      rw [hstep, ih, physical_perform]
      rfl
  · intro target
    obtain ⟨hpc, hflags, -⟩ := (r.run ops).switchMode_unbanked target
    exact ⟨phys_switchMode _ target, hpc, hflags, named_switchMode _ target⟩

end Registers

end Armv4T
