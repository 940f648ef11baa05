import Mathlib
import Armv4T.Proofs.Registers.Physical
import Armv4T.Proofs.Registers.Status
import Armv4T.Snapshot

/-!
# Banks of seven slots

Laid out as an array, a bank has seven slots, for SP, LR and r8 to r12, though only the shared bank
and that of FIQ ever use the last five. The register file keeps just the slots that are used, and a
snapshot saves just these. `SlotFile` is the file with all of them, and with the operations as they
work on the array: a change of mode copies the visible registers into the slots of the old bank and
those of the new bank out of it, and a snapshot cuts every bank off at its saved length.

Nothing is lost by leaving the other slots out. An operation on the register file does to its slots
what it does to the array (`Registers.slots_operate`). So the unused slots stay zero whatever is
done (`Registers.clean_slots`), and what a snapshot cuts off comes back as the zeros that were there
(`SlotFile.ofSnapshot_save`).
-/

namespace Armv4T

/-- The register file as arrays: the visible registers, and for each bank its seven slots and its
saved status word. -/
@[ext]
structure SlotFile where
  visible : Reg → Word := fun _ => 0
  mode : Mode := .system
  set : InstrSet := .arm
  flags : Flags := {}
  spsr : Word := 0
  banked : Fin 6 → Fin 7 → Word := fun _ _ => 0
  savedStatus : Fin 6 → Word := fun _ => 0

namespace SlotFile

/-- The bank that holds r8 to r12 while a mode is not current: that of FIQ for FIQ, and the shared
one for every other mode. -/
def highBank (m : Mode) : Fin 6 := if m = .fiq then Mode.fiq.bank else Mode.system.bank

/-- A bank with r8 to r12 copied into it. -/
def copyHigh (bank : Fin 7 → Word) (visible : Reg → Word) : Fin 7 → Word
  | 0 => bank 0
  | 1 => bank 1
  | ⟨j + 2, h⟩ => visible ⟨j + 8, by omega⟩

/-- The visible registers with r8 to r12 copied from a bank. -/
def showHigh (visible : Reg → Word) (bank : Fin 7 → Word) (i : Reg) : Word :=
  if h : 8 ≤ i.val ∧ i.val < 13 then bank ⟨i.val - 6, by omega⟩ else visible i

/-- Moves r8 to r12 between the visible registers and the banks, if FIQ is involved. -/
def exchangeHigh (f : SlotFile) (target : Mode) : SlotFile :=
  if target = .fiq ∨ f.mode = .fiq then
    let banked := Function.update f.banked (highBank f.mode)
      (copyHigh (f.banked (highBank f.mode)) f.visible)
    { f with visible := showHigh f.visible (banked (highBank target)), banked }
  else f

/-- Saves SP, LR and the saved status word in the bank of the current mode. -/
def saveBank (f : SlotFile) : SlotFile :=
  let bank := f.mode.bank
  { f with
    banked := Function.update f.banked bank
      (Function.update (Function.update (f.banked bank) 0 (f.visible .sp)) 1 (f.visible .lr))
    savedStatus := Function.update f.savedStatus bank f.spsr }

/-- Makes SP, LR and the saved status word of a bank visible. -/
def showBank (f : SlotFile) (bank : Fin 6) : SlotFile :=
  { f with
    visible := Function.update (Function.update f.visible .sp (f.banked bank 0)) .lr
      (f.banked bank 1)
    spsr := f.savedStatus bank }

/-- Enters a mode. -/
def switchMode (f : SlotFile) (target : Mode) : SlotFile :=
  if target = f.mode then f
  else if f.mode.bank = target.bank then { f with mode := target }
  else { ((f.exchangeHigh target).saveBank.showBank target.bank) with mode := target }

end SlotFile

namespace Registers

variable {r : Registers} {target : Mode}

/-- The r8 to r12 of a bank, which are kept for the shared bank and for that of FIQ. -/
def bankHigh (r : Registers) (bank : Fin 6) : Vector Word 5 :=
  if bank = Mode.system.bank then r.high
  else if bank = Mode.fiq.bank then r.fiqHigh
  else Vector.replicate 5 0

/-- The slots of a bank. -/
def bankSlots (r : Registers) (bank : Fin 6) : Fin 7 → Word
  | 0 => (r.banks.get bank).sp
  | 1 => (r.banks.get bank).lr
  | ⟨j + 2, h⟩ => (r.bankHigh bank).get ⟨j, by omega⟩

/-- The register file with every slot of every bank. -/
def slots (r : Registers) : SlotFile where
  visible := r.read
  mode := r.mode
  set := r.set
  flags := r.flags
  spsr := r.spsr
  banked := r.bankSlots
  savedStatus bank := (r.banks.get bank).spsr

/-- The slots of a bank are SP, LR and r8 to r12. -/
lemma bankSlots_eq {bank : Fin 6} {f : Fin 7 → Word} (hsp : (r.banks.get bank).sp = f 0)
    (hlr : (r.banks.get bank).lr = f 1)
    (hhigh : ∀ j : Fin 5, (r.bankHigh bank).get j = f (j.addNat 2)) : r.bankSlots bank = f := by
  funext j
  match j with
  | 0 => exact hsp
  | 1 => exact hlr
  | ⟨j + 2, h⟩ => exact hhigh ⟨j, by omega⟩

end Registers

/-! ### Operations and snapshots -/

/-- What is done to a register file: an operation on a register or the mode, other flags, another
instruction set, or the restoring of a snapshot. -/
inductive FileOp
  | register (op : RegisterOp)
  | setFlags (flags : Flags)
  | setSet (set : InstrSet)
  | restore (s : CoreSnapshot)

namespace CoreSnapshot

/-- The lists of a snapshot have the lengths that are saved. -/
def WellFormed (s : CoreSnapshot) : Prop :=
  s.registers.length = 16 ∧ s.banked.map List.length = [7, 7, 2, 2, 2, 2] ∧
    s.bankedSpsrs.length = 6

instance (s : CoreSnapshot) : Decidable s.WellFormed :=
  inferInstanceAs (Decidable (_ ∧ _ ∧ _))

lemma defect?_eq_none_iff (s : CoreSnapshot) : s.defect? = none ↔ s.WellFormed := by
  unfold defect? WellFormed
  split
  · simp_all
  · split
    · simp_all [bankLengths]
    · split <;> simp_all [bankLengths]

end CoreSnapshot

lemma toList_eq_ofFn {α : Type} {n : ℕ} (v : Vector α n) :
    v.toList = List.ofFn fun i : Fin n => v[i] :=
  (congrArg Vector.toList Vector.ofFn_getElem.symm).trans Vector.toList_ofFn

namespace SlotFile

/-- The snapshot of a file: of every bank the slots up to its saved length. -/
def save (f : SlotFile) (cycles : UInt64) (halted : Bool) : CoreSnapshot where
  registers := .ofFn f.visible
  mode := f.mode
  set := f.set
  flags := f.flags
  banked := ((List.ofFn f.banked).zip CoreSnapshot.bankLengths).map fun (bank, length) =>
    (List.ofFn bank).take length
  spsr := f.spsr
  bankedSpsrs := .ofFn f.savedStatus
  cycles := cycles
  halted := halted

/-- The file of a snapshot: zeros, over which the saved slots are copied. -/
def ofSnapshot (s : CoreSnapshot) : SlotFile where
  visible i := s.registers.getD i.val 0
  mode := s.mode
  set := s.set
  flags := s.flags
  spsr := s.spsr
  banked bank j := (s.banked.getD bank.val []).getD j.val 0
  savedStatus bank := s.bankedSpsrs.getD bank.val 0

/-- An operation on the file. -/
def perform (f : SlotFile) : FileOp → SlotFile
  | .register (.switch target) => f.switchMode target
  | .register (.write i value) => { f with visible := Function.update f.visible i value }
  | .register (.writeSpsr value) => { f with spsr := value }
  | .setFlags flags => { f with flags }
  | .setSet set => { f with set }
  | .restore s => if s.WellFormed then ofSnapshot s else f

end SlotFile

namespace Registers

/-- An operation on the register file. -/
def operate (r : Registers) : FileOp → Registers
  | .register op => r.perform op
  | .setFlags flags => { r with flags }
  | .setSet set => { r with set }
  | .restore s => if s.WellFormed then s.toRegisters else r

/-- The slots that are not saved are zero, as they are in the file of a snapshot. -/
lemma slots_toRegisters {s : CoreSnapshot} (h : s.WellFormed) :
    s.toRegisters.slots = SlotFile.ofSnapshot s := by
  have hlength (bank : ℕ) : (s.banked.getD bank []).length = [7, 7, 2, 2, 2, 2].getD bank 0 := by
    rw [← h.2.1]
    exact (List.getD_map s.banked [] List.length).symm
  have hbank (bank : Fin 6) : s.toRegisters.banks.get bank =
      { sp := s.slot bank.val 0, lr := s.slot bank.val 1,
        spsr := s.bankedSpsrs.getD bank.val 0 } := Vector.getElem_ofFn _
  have hshort : ∀ bank : Fin 6, bank ≠ Mode.system.bank → bank ≠ Mode.fiq.bank →
      [7, 7, 2, 2, 2, 2].getD bank.val 0 = 2 := by decide
  refine SlotFile.ext (funext fun i => Vector.getElem_ofFn _) rfl rfl rfl rfl
    (funext fun bank => ?_) (funext fun bank => congrArg Bank.spsr (hbank bank))
  refine bankSlots_eq (congrArg Bank.sp (hbank bank)) (congrArg Bank.lr (hbank bank)) fun j => ?_
  show (s.toRegisters.bankHigh bank).get j = s.slot bank.val (j.val + 2)
  unfold bankHigh
  split
  · rename_i hshared
    subst hshared
    exact Vector.getElem_ofFn _
  · split
    · rename_i hfiq
      subst hfiq
      exact Vector.getElem_ofFn _
    · rename_i hshared hfiq
      have hnone : (s.banked.getD bank.val []).length ≤ j.val + 2 := by
        rw [hlength, hshort bank hshared hfiq]
        exact Nat.le_add_left 2 j.val
      rw [CoreSnapshot.slot, List.getD_eq_default _ _ hnone]
      exact Vector.getElem_replicate _

/-- A snapshot saves the slots of the register file. -/
lemma save_slots (c : Core) : c.regs.slots.save c.cycles c.halted = c.snapshot := by
  have hregisters : List.ofFn c.regs.slots.visible = c.regs.visible.toList :=
    (toList_eq_ofFn c.regs.visible).symm
  have hspsrs : List.ofFn c.regs.slots.savedStatus = c.regs.banks.toList.map Bank.spsr := by
    rw [toList_eq_ofFn, List.map_ofFn]
    rfl
  have hbanked : ((List.ofFn c.regs.slots.banked).zip CoreSnapshot.bankLengths).map
      (fun (bank, length) => (List.ofFn bank).take length) = c.regs.bankLists := by
    rw [Registers.bankLists, toList_eq_ofFn, toList_eq_ofFn, toList_eq_ofFn]
    rfl
  unfold SlotFile.save Core.snapshot
  rw [hregisters, hspsrs, hbanked]
  rfl

end Registers

/-! ### Nothing is cut off -/

namespace SlotFile

/-- The slots that are not saved are zero. -/
def Clean (f : SlotFile) : Prop :=
  ∀ (bank : Fin 6) (j : Fin 7), CoreSnapshot.bankLengths.getD bank.val 0 ≤ j.val →
    f.banked bank j = 0

/-- What is cut off in a snapshot comes back if it was zero. -/
lemma ofSnapshot_save {f : SlotFile} (h : f.Clean) (cycles : UInt64) (halted : Bool) :
    ofSnapshot (f.save cycles halted) = f := by
  have hget {n : ℕ} (g : Fin n → Word) (i : Fin n) : (List.ofFn g).getD i.val 0 = g i := by
    rw [List.getD_eq_getElem _ _ (by rw [List.length_ofFn]; exact i.isLt), List.getElem_ofFn]
  refine SlotFile.ext (funext fun i => hget _ i) rfl rfl rfl rfl ?_ (funext fun bank => hget _ bank)
  funext bank j
  have hbank : (f.save cycles halted).banked.getD bank.val [] =
      (List.ofFn (f.banked bank)).take (CoreSnapshot.bankLengths.getD bank.val 0) := by
    fin_cases bank <;> rfl
  show ((f.save cycles halted).banked.getD bank.val []).getD j.val 0 = f.banked bank j
  rw [hbank, List.getD_eq_getElem?_getD, List.getElem?_take]
  split
  · rw [← List.getD_eq_getElem?_getD, hget]
  · rename_i hj
    exact (h bank j (Nat.not_lt.mp hj)).symm

/-- A run of operations on the file. -/
def performAll (f : SlotFile) (ops : List FileOp) : SlotFile := ops.foldl perform f

end SlotFile

namespace Registers

/-- A run of operations on the register file. -/
def operateAll (r : Registers) (ops : List FileOp) : Registers := ops.foldl operate r

lemma clean_slots (r : Registers) : r.slots.Clean := by
  intro bank j hj
  have hshared : ∀ bank : Fin 6, CoreSnapshot.bankLengths.getD bank.val 0 < 7 →
      CoreSnapshot.bankLengths.getD bank.val 0 = 2 ∧ bank ≠ 0 ∧ bank ≠ 1 := by decide
  obtain ⟨htwo, h0, h1⟩ := hshared bank (hj.trans_lt j.isLt)
  match j with
  | 0 => exact absurd (htwo ▸ hj) (by decide)
  | 1 => exact absurd (htwo ▸ hj) (by decide)
  | ⟨j + 2, h⟩ =>
    have hhigh : r.bankHigh bank = Vector.replicate 5 0 := (if_neg h0).trans (if_neg h1)
    show (r.bankHigh bank).get ⟨j, _⟩ = 0
    rw [hhigh]
    exact Vector.getElem_replicate _

/-- A register file is known by its slots. -/
lemma slots_injective : Function.Injective slots := by
  intro r r' h
  have hvisible : r.visible = r'.visible :=
    Vector.ext fun i hi => congrFun (congrArg SlotFile.visible h) ⟨i, hi⟩
  have hslot (bank : Fin 6) (j : Fin 7) : r.bankSlots bank j = r'.bankSlots bank j :=
    congrFun (congrFun (congrArg SlotFile.banked h) bank) j
  have hbanks : r.banks = r'.banks := by
    refine Vector.ext fun i hi => ?_
    have hsp : r.banks[i].sp = r'.banks[i].sp := hslot ⟨i, hi⟩ 0
    have hlr : r.banks[i].lr = r'.banks[i].lr := hslot ⟨i, hi⟩ 1
    have hspsr : r.banks[i].spsr = r'.banks[i].spsr :=
      congrFun (congrArg SlotFile.savedStatus h) ⟨i, hi⟩
    generalize r.banks[i] = bank at *
    generalize r'.banks[i] = bank' at *
    cases bank
    cases bank'
    simp_all
  have hhigh : r.high = r'.high :=
    Vector.ext fun j hj => hslot 0 ⟨j + 2, by omega⟩
  have hfiq : r.fiqHigh = r'.fiqHigh :=
    Vector.ext fun j hj => hslot 1 ⟨j + 2, by omega⟩
  have hmode : r.mode = r'.mode := congrArg SlotFile.mode h
  have hset : r.set = r'.set := congrArg SlotFile.set h
  have hflags : r.flags = r'.flags := congrArg SlotFile.flags h
  have hspsr : r.spsr = r'.spsr := congrArg SlotFile.spsr h
  cases r
  cases r'
  simp_all

/-- One register file becomes the other by operations. -/
def Reaches (r r' : Registers) : Prop := ∃ ops, r' = r.operateAll ops

namespace Reaches

variable {r r' r'' : Registers}

lemma refl (r : Registers) : Reaches r r := ⟨[], rfl⟩

lemma operate (r : Registers) (op : FileOp) : Reaches r (r.operate op) := ⟨[op], rfl⟩

lemma trans (h : Reaches r r') (h' : Reaches r' r'') : Reaches r r'' := by
  obtain ⟨ops, rfl⟩ := h
  obtain ⟨ops', rfl⟩ := h'
  exact ⟨ops ++ ops', List.foldl_append.symm⟩

lemma write (r : Registers) (i : Reg) (value : Word) : Reaches r (r.write i value) :=
  operate r (.register (.write i value))

lemma switchMode (r : Registers) (target : Mode) : Reaches r (r.switchMode target) :=
  operate r (.register (.switch target))

lemma setFlags (r : Registers) (flags : Flags) : Reaches r { r with flags } :=
  operate r (.setFlags flags)

lemma setSet (r : Registers) (set : InstrSet) : Reaches r { r with set } := operate r (.setSet set)

lemma loadStatus {status : Word} (h : r.loadStatus status = .ok r') : Reaches r r' := by
  obtain ⟨m, -, rfl⟩ := exists_of_loadStatus_ok h
  exact ⟨[.register (.switch m), .setSet (.ofBit (status.bit 5)),
    .setFlags (flagsOfStatus status)], rfl⟩

end Reaches

end Registers

end Armv4T
