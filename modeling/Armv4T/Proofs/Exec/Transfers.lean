import Mathlib
import Armv4T.Arm.Exec
import Armv4T.Thumb.Exec
import Armv4T.Proofs.Bus.Bursts
import Armv4T.Proofs.Exec.Alike

/-!
# What block transfers do

On a bus that is not strict a block transfer always finishes. What it does is said here by the
registers it leaves and the stores it makes, in their order (`Exec.Transfers`): the loops of both
instruction sets first, then the transfers of each set that are encoded with a writeback.
-/

namespace Armv4T

/-! ### Writing several registers -/

namespace Registers

variable {r s : Registers} {i j : Reg} {values : List (Reg × Word)}

lemma write_write (r : Registers) (i : Reg) (v w : Word) :
    (r.write i v).write i w = r.write i w := by
  simp [write]

lemma write_comm (h : i ≠ j) (r : Registers) (v w : Word) :
    (r.write i v).write j w = (r.write j w).write i v := by
  have hval : i.val ≠ j.val := fun e => h (Fin.ext e)
  simp only [write, Vector.set_comm _ _ hval]

lemma map_read_write {list : List Reg} (h : i ∉ list) (r : Registers) (v : Word) :
    list.map (r.write i v).read = list.map r.read :=
  List.map_congr_left fun j hj => read_write_of_ne (fun e : j = i => h (e ▸ hj)) r v

/-- The value that a store writes for a register: the program counter reads one word further. -/
def storeValue (r : Registers) (i : Reg) : Word := if i = .pc then r.read i + 4 else r.read i

/-- Registers other than the program counter are stored as they are. -/
lemma map_storeValue {list : List Reg} (h : .pc ∉ list) (r : Registers) :
    list.map r.storeValue = list.map r.read :=
  List.map_congr_left fun i hi => if_neg fun e : i = .pc => h (e ▸ hi)

/-- Writes registers one after the other. -/
def writeAll (r : Registers) (values : List (Reg × Word)) : Registers :=
  values.foldl (fun r p => r.write p.1 p.2) r

lemma writeAll_cons (r : Registers) (p : Reg × Word) (values : List (Reg × Word)) :
    r.writeAll (p :: values) = (r.write p.1 p.2).writeAll values := rfl

lemma read_writeAll (h : ∀ p ∈ values, i ≠ p.1) (r : Registers) :
    (r.writeAll values).read i = r.read i := by
  induction values generalizing r with
  | nil => rfl
  | cons p values ih =>
    obtain ⟨hp, hrest⟩ := List.forall_mem_cons.mp h
    rw [writeAll_cons, ih hrest, read_write_of_ne hp]

/-- A register that is written first may as well be written last, if it is not among the others. -/
lemma writeAll_write (h : ∀ p ∈ values, i ≠ p.1) (r : Registers) (v : Word) :
    (r.write i v).writeAll values = (r.writeAll values).write i v := by
  induction values generalizing r with
  | nil => rfl
  | cons p values ih =>
    obtain ⟨hp, hrest⟩ := List.forall_mem_cons.mp h
    rw [writeAll_cons, writeAll_cons, write_comm hp, ih hrest]

/-- A register that is among those written afterwards need not be written first. -/
lemma writeAll_write_of_mem (h : ∃ p ∈ values, i = p.1) (r : Registers) (v : Word) :
    (r.write i v).writeAll values = r.writeAll values := by
  induction values generalizing r with
  | nil => exact nomatch h
  | cons p values ih =>
    rw [writeAll_cons, writeAll_cons]
    by_cases hp : i = p.1
    · rw [hp, write_write]
    · have hrest : ∃ p ∈ values, i = p.1 := by
        obtain ⟨q, hq, hqi⟩ := h
        refine ⟨q, (List.mem_cons.mp hq).resolve_left ?_, hqi⟩
        rintro rfl
        exact hp hqi
      rw [write_comm hp, ih hrest]

/-- Loading different registers gives alike register files exactly if the same words are loaded. -/
lemma writeAll_alike_iff {list : List Reg} (hnodup : list.Nodup) (hpc : .pc ∉ list) (h : r.Alike s)
    {words words' : List Word} (hlength : words.length = list.length)
    (hlength' : words'.length = list.length) :
    (r.writeAll (list.zip words)).Alike (s.writeAll (list.zip words')) ↔ words = words' := by
  induction list generalizing r s words words' with
  | nil =>
    rw [List.length_eq_zero_iff.mp hlength, List.length_eq_zero_iff.mp hlength']
    exact ⟨fun _ => rfl, fun _ => h⟩
  | cons i rest ih =>
    obtain ⟨w, words, rfl⟩ := List.exists_cons_of_length_eq_add_one hlength
    obtain ⟨w', words', rfl⟩ := List.exists_cons_of_length_eq_add_one hlength'
    obtain ⟨hi, hrest⟩ := List.nodup_cons.mp hnodup
    obtain ⟨hipc, hpc⟩ := not_or.mp (List.mem_cons.not.mp hpc)
    have hlast (r : Registers) (w : Word) (words : List Word) :
        (r.writeAll ((i :: rest).zip (w :: words))).read i = w := by
      rw [List.zip_cons_cons, writeAll_cons, read_writeAll, read_write_self]
      intro p hp e
      exact hi (e ▸ (List.of_mem_zip hp).1)
    have hstep (w : Word) := ih hrest hpc (h.write i w) (Nat.succ_inj.mp hlength)
      (Nat.succ_inj.mp hlength')
    constructor
    · intro halike
      obtain rfl : w = w' := by
        have hread := halike.read i (Ne.symm hipc)
        rwa [hlast, hlast] at hread
      exact congrArg _ ((hstep w).mp halike)
    · intro heq
      obtain ⟨rfl, hwords⟩ := List.cons.inj heq
      exact (hstep w).mpr hwords

end Registers

/-! ### Results -/

/-- What has become of a board when registers and memory have been written and nothing else has
changed but what it counts, notices and remembers. -/
structure Board.Transferred (b b' : Board) (regs : Registers) (writes : List Write) : Prop where
  regs : b'.core.regs = regs
  halted : b'.core.halted = b.core.halted
  bus : b'.bus = b.bus.storeAll writes
  irq : b'.irq = b.irq

namespace Exec

variable {α β : Type} {bus : Bus} {r s t : Registers} {a : α} {c : β} {writes writes' : List Write}

/-- On every board with this bus and these registers `r`, an action finishes with the value `a` and
leaves the registers `s`, and it makes the given stores. -/
def Transfers (x : Exec α) (bus : Bus) (r : Registers) (a : α) (s : Registers)
    (writes : List Write) : Prop :=
  ∀ b : Board, b.bus = bus → b.core.regs = r → ∃ b', x b = .ok a b' ∧ b.Transferred b' s writes

namespace Transfers

lemma bind {x : Exec α} {k : α → Exec β} (hx : Transfers x bus r a s writes)
    (hk : Transfers (k a) (bus.storeAll writes) s c t writes') :
    Transfers (x >>= k) bus r c t (writes ++ writes') := by
  intro b hbus hregs
  obtain ⟨b₁, hfirst, h⟩ := hx b hbus hregs
  obtain ⟨b₂, hsecond, h'⟩ := hk b₁ (by rw [h.bus, hbus]) h.regs
  refine ⟨b₂, (bind_of_ok hfirst).trans hsecond, h'.regs, h'.halted.trans h.halted, ?_,
    h'.irq.trans h.irq⟩
  rw [h'.bus, h.bus]
  exact List.foldl_append.symm

/-- Something that makes no stores comes before the stores. -/
lemma before {x : Exec α} {k : α → Exec β} (hx : Transfers x bus r a s [])
    (hk : Transfers (k a) bus s c t writes) : Transfers (x >>= k) bus r c t writes :=
  hx.bind hk

/-- Something that makes no stores comes after the stores. -/
lemma after {x : Exec α} {k : α → Exec β} (hx : Transfers x bus r a s writes)
    (hk : Transfers (k a) (bus.storeAll writes) s c t []) : Transfers (x >>= k) bus r c t writes :=
  List.append_nil writes ▸ hx.bind hk

end Transfers

/-! ### Primitive actions -/

lemma transfers_pure (bus : Bus) (r : Registers) (a : α) : Transfers (pure a) bus r a r [] :=
  fun b _ hregs => ⟨b, rfl, hregs, rfl, rfl, rfl⟩

/-- What is read off the registers. -/
lemma transfers_core {f : Core → α} (bus : Bus) (r : Registers)
    (hf : ∀ c, f c = f { regs := c.regs }) :
    Transfers (core f) bus r (f { regs := r }) r [] := by
  rintro b - rfl
  rw [← hf]
  exact ⟨b, rfl, rfl, rfl, rfl, rfl⟩

lemma transfers_reg (bus : Bus) (r : Registers) (i : Reg) :
    Transfers (reg i) bus r (r.read i) r [] := transfers_core bus r fun _ => rfl

lemma transfers_storeValue (bus : Bus) (r : Registers) (i : Reg) :
    Transfers (core (·.storeValue i)) bus r (r.storeValue i) r [] :=
  transfers_core bus r fun _ => rfl

lemma transfers_setReg (bus : Bus) (r : Registers) (i : Reg) (value : Word) :
    Transfers (setReg i value) bus r () (r.write i value) [] := by
  rintro b - rfl
  exact ⟨_, rfl, rfl, rfl, rfl, rfl⟩

lemma transfers_charge (bus : Bus) (r : Registers) (cycles : Word) :
    Transfers (charge cycles) bus r () r [] := by
  rintro b - rfl
  exact ⟨_, rfl, rfl, rfl, rfl, rfl⟩

lemma transfers_chargeBus (bus : Bus) (r : Registers) (f : Bus → Word) :
    Transfers (chargeBus f) bus r () r [] := by
  rintro b - rfl
  exact ⟨_, rfl, rfl, rfl, rfl, rfl⟩

/-- Charging an access at the program counter. -/
lemma transfers_chargeAtPc (bus : Bus) (r : Registers) (f : Word → Bus → Word) :
    Transfers (do let pc ← core Core.pc; chargeBus (f pc)) bus r () r [] := by
  rintro b - rfl
  exact ⟨_, rfl, rfl, rfl, rfl, rfl⟩

lemma transfers_prefetch (bus : Bus) (r : Registers) (set : InstrSet) :
    Transfers (prefetch set) bus r () r [] :=
  transfers_chargeAtPc bus r fun pc => (·.waitPrefetch set pc)

/-- A condition is found to hold if the flags pass it. -/
lemma transfers_testCondition (bus : Bus) (r : Registers) (cond : Condition) :
    Transfers (testCondition cond) bus r (cond.passes r.flags) r [] := by
  rintro b - rfl
  obtain ⟨passed, htest⟩ := b.core.exists_testCondition_eq cond
  refine ⟨b.mapCore ({ · with conditionPassed := passed }), ?_, rfl, rfl, rfl, rfl⟩
  unfold testCondition
  rw [htest]
  rfl

lemma transfers_testCondition_of_passes {cond : Condition} (bus : Bus) (r : Registers)
    (h : cond.passes r.flags = true) : Transfers (testCondition cond) bus r true r [] := by
  have htest := transfers_testCondition bus r cond
  rwa [h] at htest

lemma transfers_load (hstrict : bus.strict = false) (r : Registers) (kind : LoadKind)
    (address : Word) : Transfers (load kind address) bus r (bus.load kind address) r [] := by
  rintro b rfl rfl
  have hfault : b.bus.fault? address = none := by simp [Bus.fault?, hstrict]
  unfold load
  rw [hfault]
  dsimp only
  rcases b.bus.loadNotice? address with _ | n
  · exact ⟨_, rfl, rfl, rfl, rfl, rfl⟩
  · exact ⟨_, rfl, rfl, rfl, rfl, rfl⟩

lemma transfers_store (hstrict : bus.strict = false) (r : Registers) (width : StoreWidth)
    (address value : Word) :
    Transfers (store width address value) bus r () r [⟨width, address, value⟩] := by
  rintro b rfl rfl
  have hfault : b.bus.fault? (width.align address) = none := by simp [Bus.fault?, hstrict]
  unfold store
  rw [hfault]
  dsimp only
  rcases b.bus.storeNotice? (width.align address) with _ | n
  · exact ⟨_, rfl, rfl, rfl, rfl, rfl⟩
  · exact ⟨_, rfl, rfl, rfl, rfl, rfl⟩

end Exec

/-! ### Loops over a list of registers -/

section Loops

open Exec

variable {bus : Bus} {list : List Reg}

lemma Bus.strict_storeAll (bus : Bus) (writes : List Write) :
    (bus.storeAll writes).strict = bus.strict := (bus.sameShape_storeAll writes).strict

/-- Registers with the words that are loaded into them. -/
def loaded (bus : Bus) (round : Word → Word) (address : Word) (list : List Reg) :
    List (Reg × Word) :=
  list.zip ((Word.wordsFrom address list.length).map fun x => bus.load .word (round x))

lemma loaded_cons (bus : Bus) (round : Word → Word) (address : Word) (i : Reg) (list : List Reg) :
    loaded bus round address (i :: list) =
      (i, bus.load .word (round address)) :: loaded bus round (address + 4) list := by
  rw [loaded, List.length_cons, Word.wordsFrom_succ]
  rfl

lemma mem_loaded {round : Word → Word} {i : Reg} (x : Word) :
    (∃ p ∈ loaded bus round x list, i = p.1) ↔ i ∈ list := by
  induction list generalizing x with
  | nil => simp [loaded]
  | cons j rest ih => simp [loaded_cons, ih]

lemma Thumb.transfers_loadWords (hstrict : bus.strict = false) (r : Registers) (address : Word)
    (list : List Reg) :
    Transfers (Thumb.loadWords address list) bus r (address + 4 * .ofNat list.length)
      (r.writeAll (loaded bus id address list)) [] := by
  induction list generalizing r address with
  | nil =>
    rw [List.length_nil, Word.add_four_mul_zero]
    exact transfers_pure bus r address
  | cons i rest ih =>
    rw [loaded_cons, List.length_cons, Word.add_four_mul_succ]
    exact (transfers_load hstrict r .word address).before <|
      (transfers_setReg bus r i _).before (ih _ _)

lemma Thumb.transfers_popWords (hstrict : bus.strict = false) (r : Registers) (address : Word)
    (list : List Reg) :
    Transfers (Thumb.popWords address list) bus r (address + 4 * .ofNat list.length)
      (r.writeAll (loaded bus id address list)) [] := by
  induction list generalizing r address with
  | nil =>
    rw [List.length_nil, Word.add_four_mul_zero]
    exact transfers_pure bus r address
  | cons i rest ih =>
    rw [loaded_cons, List.length_cons, Word.add_four_mul_succ]
    exact (transfers_chargeBus bus r _).before <|
      (transfers_load hstrict r .word address).before <|
        (transfers_setReg bus r i _).before (ih _ _)

lemma Arm.transfers_loadWords (hstrict : bus.strict = false) (r : Registers) (address : Word)
    (list : List Reg) :
    Transfers (Arm.loadWords address list) bus r ()
      (r.writeAll (loaded bus (Word.alignDown · 4) address list)) [] := by
  induction list generalizing r address with
  | nil => exact transfers_pure bus r ()
  | cons i rest ih =>
    rw [loaded_cons]
    exact (transfers_load hstrict r .word _).before <|
      (transfers_setReg bus r i _).before (ih _ _)

lemma Thumb.transfers_storeWords (hstrict : bus.strict = false) (r : Registers) (rn : Reg)
    (stored address : Word) (list : List Reg) :
    Transfers (Thumb.storeWords rn stored address list) bus r () r
      (burst address (list.map fun i => if i = rn then stored else r.read i)) := by
  induction list generalizing bus address with
  | nil => exact transfers_pure bus r ()
  | cons i rest ih =>
    rw [List.map_cons, burst_cons]
    exact (transfers_reg bus r i).before <|
      (transfers_store hstrict r .word address _).bind (ih (bus.strict_storeAll _ ▸ hstrict) _)

lemma Arm.transfers_storeWords (hstrict : bus.strict = false) (r : Registers) (address : Word)
    (list : List Reg) :
    Transfers (Arm.storeWords address list) bus r () r
      (burst address (list.map r.storeValue)) := by
  induction list generalizing bus address with
  | nil => exact transfers_pure bus r ()
  | cons i rest ih =>
    rw [List.map_cons, burst_cons]
    exact (transfers_storeValue bus r i).before <|
      (transfers_store hstrict r .word address _).bind (ih (bus.strict_storeAll _ ▸ hstrict) _)

/-- A push stores from the top down what a burst from the bottom stores upwards. -/
lemma Thumb.transfers_pushWords (hstrict : bus.strict = false) (r : Registers) (bottom : Word)
    (list : List Reg) :
    Transfers (Thumb.pushWords (bottom + 4 * .ofNat list.length - 4) list) bus r (bottom - 4) r
      (burst bottom (list.reverse.map r.read)).reverse := by
  induction list generalizing bus with
  | nil =>
    rw [List.length_nil, Word.add_four_mul_zero]
    exact transfers_pure bus r (bottom - 4)
  | cons i rest ih =>
    have htop : bottom + 4 * .ofNat (i :: rest).length - 4 =
        bottom + 4 * .ofNat rest.length := by
      rw [List.length_cons, Word.add_four_mul_succ]
      grind
    rw [htop, List.reverse_cons, List.map_append, List.map_singleton, burst_concat,
      List.reverse_concat, List.length_map, List.length_reverse]
    exact (transfers_reg bus r i).before <|
      (transfers_store hstrict r .word _ _).bind (ih (bus.strict_storeAll _ ▸ hstrict))

end Loops

end Armv4T
