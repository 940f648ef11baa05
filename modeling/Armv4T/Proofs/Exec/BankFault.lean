import Mathlib
import Armv4T.Proofs.Exec.UserBank
import Armv4T.Proofs.Step.Passage

/-!
# Faults in transfers of the User bank

A block transfer with the user-bank bit changes to System mode before its words and back after them.
A fault at one of the words ends it in between, and nothing changes the mode back then: the
core is left in System mode. Copies outside of the User bank are as they were, but the core now sees
other ones, among them another saved status word. So such a fault keeps what belongs to other
modes (`Arm.BankKept`) exactly if the core was in System mode before, or if the fault came before
the words, at the store of a base that the list drops (`Arm.bankKept_of_fault_iff`).
-/

namespace Armv4T

namespace Exec

variable {α β : Type} {x : Exec α} {k : α → Exec β} {bus : Bus} {r s : Registers} {a : α}
  {fault : Fault} {b b' : Board}

/-- A fault after something that always finishes is a fault of what follows. -/
lemma Transfers.exists_of_bind_error (hx : Transfers x bus r a s []) (hbus : b.bus = bus)
    (hregs : b.core.regs = r) (h : (x >>= k) b = .error fault b') :
    ∃ b₁ : Board, b₁.bus = bus ∧ b₁.core.regs = s ∧ k a b₁ = .error fault b' := by
  obtain ⟨b₁, hfirst, ht⟩ := hx b hbus hregs
  rw [bind_of_ok hfirst] at h
  exact ⟨b₁, ht.bus.trans hbus, ht.regs, h⟩

/-- Something that always finishes does not stop with a fault. -/
lemma Transfers.not_error (hx : Transfers x bus r a s []) (hbus : b.bus = bus)
    (hregs : b.core.regs = r) : x b ≠ .error fault b' := by
  obtain ⟨b₁, hrun, -⟩ := hx b hbus hregs
  rw [hrun]
  exact nofun

end Exec

namespace Arm

open Exec

section Faults

variable {act : Exec Unit} {cond : Condition} {fault : Fault} {b b' : Board} {list : RegList}

/-- A fault of an instruction that is fetched first is one of what the instruction does. -/
lemma exists_of_afterFetch_error (h : afterFetch cond act b = .error fault b') :
    ∃ b₁ : Board, b₁.bus = b.bus ∧ b₁.core.regs = b.core.regs ∧ act b₁ = .error fault b' := by
  obtain ⟨b₁, hbus, hregs, h⟩ :=
    (transfers_prefetch b.bus b.core.regs .arm).exists_of_bind_error rfl rfl h
  obtain ⟨b₂, hbus', hregs', h⟩ :=
    (transfers_testCondition b.bus b.core.regs cond).exists_of_bind_error hbus hregs h
  split at h
  · exact ⟨b₂, hbus', hregs', h⟩
  · exact absurd h ((transfers_pure _ _ ()).not_error rfl rfl)

lemma exists_of_insteadOfFetch_error (h : insteadOfFetch cond act b = .error fault b') :
    ∃ b₁ : Board, b₁.bus = b.bus ∧ b₁.core.regs = b.core.regs ∧ act b₁ = .error fault b' := by
  obtain ⟨b₁, hbus, hregs, h⟩ :=
    (transfers_testCondition b.bus b.core.regs cond).exists_of_bind_error rfl rfl h
  split at h
  · exact ⟨b₁, hbus, hregs, h⟩
  · exact absurd h ((transfers_prefetch _ _ .arm).not_error rfl rfl)

/-- A fault in the User bank is one in System mode. -/
lemma exists_of_inBank_error (h : inBank true act b = .error fault b') :
    ∃ b₁ : Board, b₁.bus = b.bus ∧ b₁.core.regs = b.core.regs.switchMode .system ∧
      act b₁ = .error fault b' := by
  obtain ⟨b₁, hbus, hregs, h⟩ :=
    (transfers_core (f := (·.regs.mode)) b.bus b.core.regs fun _ => rfl).exists_of_bind_error
      rfl rfl h
  obtain ⟨b₂, hbus', hregs', h⟩ :=
    (transfers_switchMode b.bus b.core.regs .system).exists_of_bind_error hbus hregs h
  rcases cases_of_bind_error h with h | ⟨-, b₃, -, h⟩
  · exact ⟨b₂, hbus', hregs', h⟩
  · exact absurd h ((transfers_switchMode _ _ _).not_error rfl rfl)

/-- A load has no base to store, and finds its address on every bus. -/
lemma transfers_loadAddress (bus : Bus) (r : Registers) (a : BlockAddress) :
    Transfers (blockAddress a false) bus r (r.read a.rn + a.start) (writtenBack a r) [] := by
  rintro b - rfl
  unfold blockAddress writtenBack
  cases a.writeback with
  | false => exact ⟨b, rfl, rfl, rfl, rfl, rfl⟩
  | true => exact ⟨_, rfl, rfl, rfl, rfl, rfl⟩

/-- A store faults and does nothing, or finishes and leaves the registers. -/
lemma store_cases (width : StoreWidth) (address value : Word) (b : Board) :
    (∃ fault, b.bus.fault? (width.align address) = some fault ∧
      store width address value b = .error fault b) ∨
    b.bus.fault? (width.align address) = none ∧
      ∃ b', store width address value b = .ok () b' ∧ b'.core.regs = b.core.regs := by
  unfold store
  rcases b.bus.fault? (width.align address) with _ | fault
  · rcases b.bus.storeNotice? (width.align address) with _ | n
    · exact .inr ⟨rfl, _, rfl, rfl⟩
    · exact .inr ⟨rfl, _, rfl, rfl⟩
  · exact .inl ⟨fault, rfl, rfl⟩

/-- However far a block load comes, it has written registers of its list. -/
lemma establishes_loadWords {all : List Reg} (address : Word) {list : List Reg}
    (hlist : ∀ i ∈ list, i ∈ all) :
    Establishes (fun b b' => Registers.Rewritten all b.core.regs b'.core.regs)
      (loadWords address list) := by
  induction list generalizing address with
  | nil => exact fun b => .refl all b.core.regs
  | cons i rest ih =>
    obtain ⟨hi, hrest⟩ := List.forall_mem_cons.mp hlist
    refine .seq .trans (fun b => ?_) fun value => .seq .trans (fun b => ?_) fun _ => ih _ hrest
    · rw [Board.regs_of_bare ((Quiet.load .word _).unchanged b)]
      exact .refl all b.core.regs
    · exact .write hi b.core.regs value

/-- A block store writes no register, however far it comes. -/
lemma establishes_storeWords (address : Word) (list : List Reg) :
    Establishes (fun b b' => b'.core.regs = b.core.regs) (storeWords address list) := by
  induction list generalizing address with
  | nil => exact fun _ => rfl
  | cons i rest ih =>
    refine .seq (fun h h' => h'.trans h) (fun _ => rfl) fun value =>
      .seq (fun h h' => h'.trans h) (fun b => ?_) fun _ => ih _
    rcases store_cases .word address value b with ⟨fault, -, hstore⟩ | ⟨-, b', hstore, hregs⟩
    · rw [after_of_error hstore]
    · rw [after_of_ok hstore, hregs]

/-- A fault of a block load of the User bank comes at one of its words. -/
lemma regs_of_loadMultiple_error {a : BlockAddress} (hpc : list.contains .pc = false)
    (h : loadMultiple true list a b = .error fault b') :
    Registers.Rewritten list.toList ((writtenBack a b.core.regs).switchMode .system)
      b'.core.regs := by
  unfold loadMultiple at h
  simp only [hpc, Bool.not_false, Bool.and_true, Bool.and_false] at h
  obtain ⟨b₁, hbus, hregs, h⟩ :=
    (transfers_loadAddress b.bus b.core.regs a).exists_of_bind_error rfl rfl h
  rcases cases_of_bind_error h with h | ⟨-, b₂, -, h⟩
  · obtain ⟨b₂, -, hregs', h⟩ := exists_of_inBank_error h
    have hwords := establishes_loadWords (b.core.regs.read a.rn + a.start)
      (fun i (hi : i ∈ list.toList) => hi) b₂
    rwa [after_of_error h, hregs', hregs] at hwords
  · obtain ⟨b₃, -, -, h⟩ := (transfers_chargeBus _ _ _).exists_of_bind_error rfl rfl h
    obtain ⟨b₄, -, -, h⟩ := (transfers_charge _ _ 1).exists_of_bind_error rfl rfl h
    exact absurd h ((transfers_pure _ _ ()).not_error rfl rfl)

/-- The store of a base that has been dropped from the list faults. -/
def BaseFaults (a : BlockAddress) (b : Board) : Prop :=
  a.writeback = true ∧ a.overlap = true ∧
    b.bus.fault? (Word.alignDown (b.core.reg a.rn + a.start - 4) 4) ≠ none

/-- A store finds its address, and has written the base back then, unless the store of the base
faults. -/
lemma blockAddress_store (a : BlockAddress) (b : Board) :
    (BaseFaults a b ∧ ∃ fault, blockAddress a true b = .error fault b) ∨
      ¬BaseFaults a b ∧ ∃ b', blockAddress a true b = .ok (b.core.reg a.rn + a.start) b' ∧
        b'.core.regs = writtenBack a b.core.regs := by
  unfold BaseFaults
  by_cases hback : a.writeback = true ∧ a.overlap = true
  · obtain ⟨hwriteback, hoverlap⟩ := hback
    have haddress : blockAddress a true =
        (do
          let base ← Exec.reg a.rn
          Exec.store .word (base + a.start - 4) base
          Exec.setReg a.rn (base + a.delta)
          return base + a.start) := by
      unfold blockAddress
      simp only [hwriteback, hoverlap, Bool.and_self, if_true]
    rcases store_cases .word (b.core.reg a.rn + a.start - 4) (b.core.reg a.rn) b with
      ⟨fault, hfault, hstore⟩ | ⟨hfault, b₁, hstore, hregs⟩
    · refine .inl ⟨⟨hwriteback, hoverlap, fun h => ?_⟩, fault, ?_⟩
      · exact nomatch hfault.symm.trans h
      · rw [haddress]
        exact (bind_of_ok (x := Exec.reg a.rn) rfl).trans (bind_of_error hstore)
    · let stepped := b.core.reg a.rn + a.delta
      refine .inr ⟨fun h => h.2.2 hfault, b₁.mapCore (·.setReg a.rn stepped), ?_, ?_⟩
      · rw [haddress]
        exact (bind_of_ok (x := Exec.reg a.rn) rfl).trans (bind_of_ok hstore)
      · rw [writtenBack, if_pos hwriteback]
        exact congrArg (Registers.write · a.rn _) hregs
  · refine .inr ⟨fun h => hback ⟨h.1, h.2.1⟩, ?_⟩
    have haddress : blockAddress a true = blockAddress a false := by
      unfold blockAddress
      cases hwriteback : a.writeback with
      | false => rfl
      | true =>
        have hoverlap : a.overlap = false := by simpa [hwriteback] using hback
        simp [hoverlap]
    obtain ⟨b', hrun, ht⟩ := transfers_loadAddress b.bus b.core.regs a b rfl rfl
    exact ⟨b', haddress ▸ hrun, ht.regs⟩

/-- A fault of a block store of the User bank comes at the store of a base that has been dropped
from the list, or at one of the words. -/
lemma regs_of_storeMultiple_error {a : BlockAddress}
    (h : storeMultiple true list a b = .error fault b') :
    (BaseFaults a b ∧ b'.core.regs = b.core.regs) ∨
      ¬BaseFaults a b ∧ b'.core.regs = (writtenBack a b.core.regs).switchMode .system := by
  unfold storeMultiple at h
  obtain ⟨b₁, hbus, hregs, h⟩ :=
    (transfers_chargeAtPc b.bus b.core.regs fun pc => (·.wait32 pc)).exists_of_bind_error rfl rfl h
  have hbase : BaseFaults a b₁ ↔ BaseFaults a b := by
    unfold BaseFaults Core.reg
    rw [hbus, hregs]
  rcases blockAddress_store a b₁ with ⟨hfaults, fault', haddress⟩ | ⟨hfaults, b₂, haddress, hregs'⟩
  · rw [bind_of_error haddress] at h
    obtain ⟨-, rfl⟩ := EStateM.Result.error.inj h
    exact .inl ⟨hbase.mp hfaults, hregs⟩
  · rw [bind_of_ok haddress] at h
    refine .inr ⟨hbase.not.mp hfaults, ?_⟩
    rcases cases_of_bind_error h with h | ⟨-, b₃, -, h⟩
    · obtain ⟨b₃, -, hswitched, h⟩ := exists_of_inBank_error h
      have hwords := establishes_storeWords (b₁.core.reg a.rn + a.start) list.toList b₃
      rw [after_of_error h] at hwords
      rw [hwords, hswitched, hregs', hregs]
    · split at h
      · exact absurd h ((transfers_chargeBus _ _ _).not_error rfl rfl)
      · exact absurd h ((transfers_chargeBus _ _ _).not_error rfl rfl)

end Faults

section Fields

variable {load : Bool} {rn : Reg} {pre up writeback : Bool} {list : RegList} {cond : Condition}
  {fault : Fault} {b b' : Board} {address : Word}

/-- The first store of a block store is that of a base which it drops from its list, and it
faults. -/
def BaseStoreFaults (load : Bool) (rn : Reg) (pre up writeback : Bool) (list : RegList)
    (b : Board) : Prop :=
  load = false ∧ writeback = true ∧ list.toList.head? = some rn ∧
    b.bus.fault? (Word.alignDown (firstWord (b.core.reg rn) list.count pre up) 4) ≠ none

/-- What a fault leaves of a load: the base is written back, the mode is System mode, and registers
of the list may be written. -/
lemma regs_of_load_error (hpc : .pc ∉ list.toList) {a : BlockAddress} {rest : RegList}
    (ha : BlockAddress.ofFields rn list pre up writeback false = (a, rest))
    (h : exec ⟨cond, .loadMultiple true rest a⟩ address b = .error fault b') :
    Registers.Rewritten list.toList ((writtenBack a b.core.regs).switchMode .system)
      b'.core.regs := by
  obtain ⟨rfl, rfl⟩ := Prod.mk.inj ((ofFields_of_ne false (by simp)).symm.trans ha)
  obtain ⟨b₁, -, hregs, h⟩ := exists_of_afterFetch_error h
  have hlisted : list.contains .pc = false := by
    simpa [RegList.toList] using hpc
  have hwords := regs_of_loadMultiple_error hlisted h
  rwa [hregs] at hwords

/-- What a fault leaves of a store. -/
lemma regs_of_store_error {a : BlockAddress} {rest : RegList}
    (ha : BlockAddress.ofFields rn list pre up writeback true = (a, rest))
    (h : exec ⟨cond, .storeMultiple true rest a⟩ address b = .error fault b') :
    (BaseStoreFaults false rn pre up writeback list b ∧ b'.core.regs = b.core.regs) ∨
      ¬BaseStoreFaults false rn pre up writeback list b ∧
        b'.core.regs = (writtenBack a b.core.regs).switchMode .system := by
  obtain ⟨b₁, hbus, hregs, h⟩ := exists_of_insteadOfFetch_error h
  have hbase : BaseFaults a b₁ ↔ BaseStoreFaults false rn pre up writeback list b := by
    unfold BaseFaults BaseStoreFaults Core.reg
    rw [hbus, hregs]
    by_cases hhead : writeback = true ∧ list.toList.head? = some rn
    · obtain ⟨rfl, hhead⟩ := hhead
      obtain ⟨rfl, rfl⟩ := Prod.mk.inj ((ofFields_of_head hhead).symm.trans ha)
      have hfirst : b.core.regs.read rn + (firstOffset list.count pre up + 4) - 4 =
          firstWord (b.core.regs.read rn) list.count pre up := by
        rw [← add_firstOffset]
        grind
      simp only [hhead, hfirst, true_and]
    · obtain ⟨rfl, rfl⟩ := Prod.mk.inj
        ((ofFields_of_ne true fun h => hhead h.2).symm.trans ha)
      exact ⟨fun h => absurd h.2.1 Bool.false_ne_true, fun h => absurd ⟨h.2.1, h.2.2.1⟩ hhead⟩
  have hstore := regs_of_storeMultiple_error h
  rwa [hbase, hregs] at hstore

/-- A fault at the store of the base leaves the registers. Any other one leaves them in System mode,
with the base written back, and some registers of the list may have been loaded. -/
lemma regs_of_block_error {list : Fin 65536}
    (hpc : load = true → .pc ∉ (RegList.mk (.ofNat list)).toList)
    (h : exec (decode (encode cond (.block load true rn pre up writeback list))) address b =
      .error fault b') :
    let l : RegList := ⟨.ofNat list⟩
    (BaseStoreFaults load rn pre up writeback l b ∧ b'.core.regs = b.core.regs) ∨
      ¬BaseStoreFaults load rn pre up writeback l b ∧
        ∃ a : BlockAddress, a.rn = rn ∧ a.writeback = writeback ∧
          Registers.Rewritten (if load then l.toList else [])
            ((writtenBack a b.core.regs).switchMode .system) b'.core.regs := by
  intro l
  rw [exec_encode] at h
  cases load with
  | true =>
    exact .inr ⟨fun h => absurd h.1.symm Bool.false_ne_true, _, rfl, rfl,
      regs_of_load_error (hpc rfl) rfl h⟩
  | false =>
    rcases regs_of_store_error rfl h with ⟨hbase, hregs⟩ | ⟨hbase, hregs⟩
    · exact .inl ⟨hbase, hregs⟩
    · refine .inr ⟨hbase, (BlockAddress.ofFields rn l pre up writeback true).1, rfl, rfl, ?_⟩
      rw [hregs]
      exact .refl [] _

/-- No copy changes with a base that is written back but its own. -/
lemma content_writtenBack (a : BlockAddress) (r : Registers) {p : PhysicalReg}
    (hp : a.writeback = true → ∀ n : NamedReg, n.reg? = some a.rn → r.mode.select n ≠ p) :
    (writtenBack a r).content p = r.content p := by
  unfold writtenBack
  split
  · rename_i hback
    by_cases hrn : a.rn = .pc
    · rw [hrn, Registers.content_write_pc]
    · rw [Registers.content_write hrn,
        Function.update_of_ne (hp hback _ (NamedReg.reg?_ofReg hrn)).symm]
  · rfl

/-- After the change to System mode, registers that are written from a list without the program
counter are copies of the User bank, and no other copy changes but the one of a written-back
base. -/
lemma content_of_switched {a : BlockAddress} {r s : Registers} {list : List Reg}
    (h : Registers.Rewritten list ((writtenBack a r).switchMode .system) s) (hpc : .pc ∉ list)
    {p : PhysicalReg} (hlist : ∀ i ∈ list, Mode.user.select (.ofReg i) ≠ p)
    (hbase : a.writeback = true → ∀ n : NamedReg, n.reg? = some a.rn → r.mode.select n ≠ p) :
    s.content p = r.content p := by
  rw [h.content_eq hpc, Registers.content_switchMode, content_writtenBack a r hbase]
  intro i hi
  rw [Registers.mode_switchMode]
  exact hlist i hi

/-- In System mode, the saved status word outlasts the change to that mode. -/
lemma spsr_of_switched {a : BlockAddress} {r s : Registers} {list : List Reg}
    (h : Registers.Rewritten list ((writtenBack a r).switchMode .system) s)
    (hsystem : r.mode = .system) : s.spsr = r.spsr := by
  have hbase : ∀ n : NamedReg, n.reg? = some a.rn →
      r.mode.select n ≠ Mode.system.select .spsr := by
    intro n hn e
    rw [Mode.select_eq_select e] at hn
    exact nomatch hn
  rw [h.spsr_eq, ← Registers.content_select_spsr, Registers.mode_switchMode,
    Registers.content_switchMode, content_writtenBack a r fun _ => hbase, ← hsystem,
    Registers.content_select_spsr]

/-- What does not belong to the User bank is as it was: the mode, the saved status word that it
sees, and every copy that User mode does not select, but for the one of a base that is written
back. -/
structure BankKept (rn : Reg) (writeback : Bool) (b b' : Board) : Prop where
  mode : b'.core.regs.mode = b.core.regs.mode
  spsr : b'.core.regs.spsr = b.core.regs.spsr
  others : ∀ p, (∀ n, Mode.user.select n ≠ p) →
    (writeback = true → ∀ n : NamedReg, n.reg? = some rn → b.core.regs.mode.select n ≠ p) →
      b'.core.regs.content p = b.core.regs.content p

/-- A block transfer with the user-bank bit that stops with a fault has changed no copy but those
that User mode selects for the registers that it loads, and the one of a base that is written back.
It leaves the core in System mode if the fault does not come at the store of a dropped base. So it
keeps what does not belong to the User bank exactly if it comes there, or if the core was in System
mode before. -/
theorem bankKept_of_fault_iff (cond : Condition) (load : Bool) (rn : Reg)
    (pre up writeback : Bool) (list : Fin 65536) {b b' : Board} {address : Word} {fault : Fault}
    (hpc : load = true → .pc ∉ (RegList.mk (.ofNat list)).toList)
    (h : exec (decode (encode cond (.block load true rn pre up writeback list))) address b =
      .error fault b') :
    let l : RegList := ⟨.ofNat list⟩
    (∀ p, (load = true → ∀ i ∈ l.toList, Mode.user.select (.ofReg i) ≠ p) →
      (writeback = true → ∀ n : NamedReg, n.reg? = some rn → b.core.regs.mode.select n ≠ p) →
        b'.core.regs.content p = b.core.regs.content p) ∧
    (¬BaseStoreFaults load rn pre up writeback l b → b'.core.regs.mode = .system) ∧
    (BankKept rn writeback b b' ↔
      b.core.regs.mode = .system ∨ BaseStoreFaults load rn pre up writeback l b) := by
  intro l
  rcases regs_of_block_error hpc h with ⟨hbase, hregs⟩ | ⟨hbase, a, rfl, rfl, hregs⟩
  · -- the fault comes before the base is written back and before the change of mode
    refine ⟨fun p _ _ => by rw [hregs], fun h => absurd hbase h, fun _ => .inr hbase, fun _ => ?_⟩
    exact ⟨by rw [hregs], by rw [hregs], fun p _ _ => by rw [hregs]⟩
  · -- it comes at a word, in System mode, and nothing changes the mode back
    have hmode : b'.core.regs.mode = .system := by
      rw [hregs.mode_eq, Registers.mode_switchMode]
    have hothers : ∀ p, (load = true → ∀ i ∈ l.toList, Mode.user.select (.ofReg i) ≠ p) →
        (a.writeback = true → ∀ n : NamedReg, n.reg? = some a.rn →
          b.core.regs.mode.select n ≠ p) →
        b'.core.regs.content p = b.core.regs.content p := by
      intro p hlist hrn
      cases load with
      | true => exact content_of_switched hregs (hpc rfl) (hlist rfl) hrn
      | false => exact content_of_switched hregs List.not_mem_nil (by simp) hrn
    refine ⟨hothers, fun _ => hmode, fun hkept => .inl (hkept.mode.symm.trans hmode), ?_⟩
    rintro (hsystem | h)
    · exact ⟨hmode.trans hsystem.symm, spsr_of_switched hregs hsystem,
        fun p hp => hothers p fun _ i _ => hp _⟩
    · exact absurd h hbase

/-- A strict handheld in User mode, with a base that no region claims. -/
def astray : Board :=
  { core := { regs := (Registers.switchMode {} .user).write .r0 0x01000000 }
    bus := { Bus.handheld with strict := true } }

/-- LDMIA of r1 in User mode, which faults. -/
theorem bankKept_of_fault_iff_user :
    let x := exec (decode (encode .al (.block true true 0 false true false 2))) 0x03000000
    (true = true → .pc ∉ (RegList.mk (.ofNat (2 : Fin 65536))).toList) ∧
      ∃ b', x astray = .error (.memoryViolation 0x01000000) b' ∧
        b'.core.regs.mode = .system ∧ ¬BankKept 0 false astray b' := by
  intro x
  have hpc : true = true → .pc ∉ (RegList.mk (.ofNat (2 : Fin 65536))).toList := by decide
  have hx : x astray = .error (.memoryViolation 0x01000000) (x.after astray) :=
    error_of_stops (by decide +kernel)
  obtain ⟨-, hmode, hkept⟩ := bankKept_of_fault_iff .al true 0 false true false 2 hpc hx
  have hbase : ¬BaseStoreFaults true 0 false true false ⟨.ofNat (2 : Fin 65536)⟩ astray :=
    fun h => Bool.false_ne_true h.1.symm
  refine ⟨hpc, _, hx, hmode hbase, hkept.not.mpr (not_or.mpr ⟨?_, hbase⟩)⟩
  decide +kernel

/-- It is not true that a faulting transfer of the User bank keeps what does not belong to the
bank. -/
theorem not_forall_bankKept :
    ¬∀ (cond : Condition) (load : Bool) (rn : Reg) (pre up writeback : Bool) (list : Fin 65536)
      (b b' : Board) (address target : Word), b.bus.strict = true →
      (load = true → .pc ∉ (RegList.mk (.ofNat list)).toList) →
      exec (decode (encode cond (.block load true rn pre up writeback list))) address b =
        .error (.memoryViolation target) b' → BankKept rn writeback b b' := by
  intro hall
  have hrun : exec (decode (encode .al (.block true true 0 false true false 2))) 0x03000000 astray =
      .error (.memoryViolation 0x01000000) _ := error_of_stops (by decide +kernel)
  have hkept := hall .al true 0 false true false 2 _ _ _ _ rfl (by decide) hrun
  have hmode : ((exec (decode (encode .al (.block true true 0 false true false 2)))
      0x03000000).after astray).core.regs.mode = .system := by decide +kernel
  rw [hkept.mode] at hmode
  exact absurd hmode (by decide +kernel)

end Fields

end Arm

end Armv4T
