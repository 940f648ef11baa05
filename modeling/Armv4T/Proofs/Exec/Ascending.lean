import Mathlib
import Armv4T.Proofs.Decode.Arm
import Armv4T.Proofs.Exec.Cycles
import Armv4T.Proofs.Exec.Multiple

/-!
# ARM block transfers

Whichever way a block transfer runs from its base, the registers of its list are transferred in
ascending order to or from ascending words. The words start at `Arm.firstWord`, which the four
addressing modes count from the base in different ways, and the base is written back as
`Arm.steppedBase`. A load leaves the words in the registers (`Arm.BlockLoaded`). A store leaves the
registers in the words (`Arm.BlockStored`); one that lists its base lowest and writes it back makes
the store of the base on its own, ahead of the others, and is charged for it with them
(`Arm.exec_block`).

The cycles of an action are counted here (`Exec.Takes`) beside what it transfers. Most actions make
no charge, and so they take none.
-/

namespace Armv4T

/-! ### Counting cycles -/

namespace Exec

variable {α β : Type} {bus : Bus} {r s : Registers} {a : α} {writes : List Write} {m n : UInt64}

/-- On every board with this bus and these registers, an action adds the given cycles. -/
def Takes (x : Exec α) (bus : Bus) (r : Registers) (cycles : UInt64) : Prop :=
  ∀ b : Board, b.bus = bus → b.core.regs = r → (x.after b).core.cycles = b.core.cycles + cycles

lemma Takes.bind {x : Exec α} {k : α → Exec β} (hm : Takes x bus r m)
    (hx : Transfers x bus r a s writes) (hn : Takes (k a) (bus.storeAll writes) s n) :
    Takes (x >>= k) bus r (m + n) := by
  intro b hbus hregs
  obtain ⟨b₁, hfirst, h⟩ := hx b hbus hregs
  have hcycles := hm b hbus hregs
  rw [after_of_ok hfirst] at hcycles
  have hafter : (x >>= k).after b = (k a).after b₁ := by
    unfold after
    rw [bind_of_ok hfirst]
  rw [hafter, hn b₁ (by rw [h.bus, hbus]) h.regs, hcycles, UInt64.add_assoc]

/-- What makes no charge adds no cycles. -/
lemma Spends.takes {x : Exec α} (h : Spends 0 0 0 x) (bus : Bus) (r : Registers) :
    Takes x bus r 0 := by
  intro b _ _
  obtain ⟨cost, -, hcost, hcycles⟩ := (h b).paid_after.cost
  obtain rfl : cost = 0 := by omega
  exact hcycles

lemma takes_charge (bus : Bus) (r : Registers) (cycles : Word) :
    Takes (charge cycles) bus r cycles.toUInt64 := fun _ _ _ => rfl

lemma takes_chargeBus (bus : Bus) (r : Registers) (f : Bus → Word) :
    Takes (chargeBus f) bus r (f bus).toUInt64 := by
  rintro b rfl -
  rfl

/-- Charging an access at the program counter. -/
lemma takes_chargeAtPc (bus : Bus) (r : Registers) (f : Word → Bus → Word) :
    Takes (do let pc ← core Core.pc; chargeBus (f pc)) bus r (f (r.read .pc) bus).toUInt64 := by
  rintro b rfl rfl
  rfl

end Exec

/-! ### Aligned words -/

/-- Stores change no waiting time. -/
lemma Bus.waits_storeAll (bus : Bus) (writes : List Write) :
    (bus.storeAll writes).waits = bus.waits := by
  funext address
  rw [waits, waits, (bus.sameShape_storeAll writes).region?]

lemma Bus.waitMultiple32_storeAll (bus : Bus) (writes : List Write) :
    (bus.storeAll writes).waitMultiple32 = bus.waitMultiple32 := by
  funext address count
  rw [waitMultiple32, waitMultiple32, wait32, wait32, waitSeq32, waitSeq32, waits_storeAll]

lemma StoreWidth.align_alignDown (address : Word) :
    StoreWidth.word.align (Word.alignDown address 4) = StoreWidth.word.align address := by
  show Word.alignDown (Word.alignDown address 4) 4 = Word.alignDown address 4
  simp [Word.alignDown, UInt32.and_assoc]

/-- A store of a word is one at the address rounded down. -/
lemma Bus.store_alignDown (bus : Bus) (address value : Word) :
    bus.store .word (Word.alignDown address 4) value = bus.store .word address value := by
  unfold Bus.store
  rw [StoreWidth.align_alignDown]

/-- A burst stores the values to ascending words. -/
lemma Bus.storeAll_burst {α : Type} (bus : Bus) (address : Word) (list : List α)
    (value : α → Word) :
    bus.storeAll (burst address (list.map value)) = bus.storeAll (list.mapIdx fun k i =>
      ⟨.word, Word.alignDown (address + 4 * .ofNat k) 4, value i⟩) := by
  induction list generalizing bus address with
  | nil => rfl
  | cons i rest ih =>
    rw [List.map_cons, burst_cons, List.mapIdx_cons, Word.add_four_mul_zero]
    show (bus.store .word address (value i)).storeAll _ = (bus.store .word _ (value i)).storeAll _
    rw [Bus.store_alignDown, ih]
    simp only [Word.add_four_mul_succ]

/-- Among registers that are all different, each is loaded with its word. -/
lemma Registers.read_loaded {list : List Reg} (hnodup : list.Nodup) (r : Registers) (bus : Bus)
    (round : Word → Word) (address : Word) {k : ℕ} (hk : k < list.length) :
    (r.writeAll (loaded bus round address list)).read list[k] =
      bus.load .word (round (address + 4 * .ofNat k)) := by
  induction list generalizing r address k with
  | nil => exact absurd hk (Nat.not_lt_zero k)
  | cons i rest ih =>
    obtain ⟨hi, hrest⟩ := List.nodup_cons.mp hnodup
    rw [loaded_cons, writeAll_cons]
    cases k with
    | zero =>
      rw [List.getElem_cons_zero, read_writeAll, read_write_self, Word.add_four_mul_zero]
      exact fun p hp e => hi ((mem_loaded _).mp ⟨p, hp, e⟩)
    | succ k =>
      rw [List.getElem_cons_succ, ih hrest _ _ (Nat.lt_of_succ_lt_succ hk), Word.add_four_mul_succ]

namespace Arm

open Exec

/-! ### Addressing modes -/

/-- The address that the words of a block transfer are counted from: at the base if it runs upwards
after each transfer, a word above if it runs upwards before, and downwards so that the last word is
at the base or a word below. -/
def firstWord (base count : Word) (pre up : Bool) : Word :=
  match up, pre with
  | true, false => base
  | true, true => base + 4
  | false, false => base - 4 * count + 4
  | false, true => base - 4 * count

/-- The base that a block transfer writes back. -/
def steppedBase (base count : Word) (up : Bool) : Word :=
  if up then base + 4 * count else base - 4 * count

/-- What a block load leaves: the words in the registers of the list, the base written back unless
it is loaded, and the other registers and the memory as they were. -/
structure BlockLoaded (rn : Reg) (pre up writeback : Bool) (list : RegList) (b b' : Board) :
    Prop where
  words : ∀ k (h : k < list.toList.length), b'.core.reg list.toList[k] = b.bus.load .word
    (Word.alignDown (firstWord (b.core.reg rn) list.count pre up + 4 * .ofNat k) 4)
  base : writeback = true → rn ∉ list.toList →
    b'.core.reg rn = steppedBase (b.core.reg rn) list.count up
  others : ∀ i ∉ list.toList, (writeback = true → i ≠ rn) → b'.core.reg i = b.core.reg i
  bus : b'.bus = b.bus
  cycles : b'.core.cycles = b.core.cycles + ((b.bus.waitPrefetch .arm b.core.pc).toUInt64 +
    (b.bus.waitMultiple32 (firstWord (b.core.reg rn) list.count pre up) list.count).toUInt64 + 1)

/-- The value that a block store at an address stores for a register. -/
def blockValue (rn : Reg) (up writeback : Bool) (list : RegList) (address : Word) (c : Core)
    (i : Reg) : Word :=
  if i = .pc then address + 12
  else if i = rn ∧ writeback = true ∧ list.toList.head? ≠ some rn then
    steppedBase (c.reg rn) list.count up
  else c.reg i

/-- What a block store leaves: the registers of the list in the words, the base written back, and
the other registers as they were. -/
structure BlockStored (rn : Reg) (pre up writeback : Bool) (list : RegList) (address : Word)
    (b b' : Board) : Prop where
  words : b'.bus = b.bus.storeAll (list.toList.mapIdx fun k i =>
    ⟨.word, Word.alignDown (firstWord (b.core.reg rn) list.count pre up + 4 * .ofNat k) 4,
      blockValue rn up writeback list address b.core i⟩)
  base : b'.core.reg rn =
    if writeback then steppedBase (b.core.reg rn) list.count up else b.core.reg rn
  others : ∀ i ≠ rn, b'.core.reg i = b.core.reg i
  cycles : b'.core.cycles = b.core.cycles + ((b.bus.wait32 b.core.pc).toUInt64 +
    (b.bus.waitMultiple32 (firstWord (b.core.reg rn) list.count pre up) list.count).toUInt64)

/-! ### Registers, stores and cycles -/

section Transfers

variable {bus : Bus} {r : Registers} {act : Exec Unit} {n : UInt64} {cond : Condition}
  {rn : Reg} {pre up writeback : Bool} {list : RegList} {address : Word}

lemma takes_afterFetch (hcond : cond.passes r.flags = true) (h : Takes act bus r n) :
    Takes (afterFetch cond act) bus r ((bus.waitPrefetch .arm (r.read .pc)).toUInt64 + n) := by
  have htest := (Spends.testCondition cond).takes bus r
  have hafter := htest.bind (k := fun holds => if holds then act else pure ())
    (transfers_testCondition_of_passes bus r hcond) h
  rw [UInt64.zero_add] at hafter
  exact (takes_chargeAtPc bus r fun pc => (·.waitPrefetch .arm pc)).bind
    (transfers_prefetch bus r .arm) hafter

lemma takes_insteadOfFetch (hcond : cond.passes r.flags = true) (h : Takes act bus r n) :
    Takes (insteadOfFetch cond act) bus r n := by
  have htest := (Spends.testCondition cond).takes bus r
  have hafter := htest.bind (k := fun holds => if holds then act else prefetch .arm)
    (transfers_testCondition_of_passes bus r hcond) h
  rwa [UInt64.zero_add] at hafter

/-- A block load takes the cycles of its words and one. -/
lemma takes_loadMultiple (hstrict : bus.strict = false) (r : Registers) (a : BlockAddress)
    (list : RegList) :
    Takes (loadMultiple false list a) bus r
      ((bus.waitMultiple32 (r.read a.rn + a.start) list.count).toUInt64 + 1) := by
  have hcycles : (0 : UInt64) + (0 + ((bus.waitMultiple32 (r.read a.rn + a.start)
      list.count).toUInt64 + ((1 : Word).toUInt64 + 0))) =
      (bus.waitMultiple32 (r.read a.rn + a.start) list.count).toUInt64 + 1 := by
    simp
  rw [← hcycles]
  exact ((spends_blockAddress a false).takes bus r).bind
    (transfers_blockAddress hstrict r a false) <|
    ((spends_loadWords _ _).takes _ _).bind (transfers_loadWords hstrict _ _ list.toList) <|
      (takes_chargeBus _ _ _).bind (transfers_chargeBus _ _ _) <|
        (takes_charge _ _ 1).bind (transfers_charge _ _ 1) ((Spends.pure ()).takes _ _)

/-- The cycles of the words of a block store. The store of a base that was dropped counts among
them. -/
def storeCycles (bus : Bus) (r : Registers) (a : BlockAddress) (list : RegList) : Word :=
  if a.overlap && a.writeback then
    bus.waitMultiple32 (r.read a.rn + a.start - 4) (list.count + 1)
  else bus.waitMultiple32 (r.read a.rn + a.start) list.count

lemma takes_storeMultiple (hstrict : bus.strict = false) (r : Registers) (a : BlockAddress)
    (list : RegList) :
    Takes (storeMultiple false list a) bus r
      ((bus.wait32 (r.read .pc)).toUInt64 + (storeCycles bus r a list).toUInt64) := by
  set start := r.read a.rn + a.start
  set based := bus.storeAll (baseStore a r)
  set stored := based.storeAll (burst start (list.toList.map (writtenBack a r).storeValue))
  have hwait : stored.waitMultiple32 = bus.waitMultiple32 :=
    (based.waitMultiple32_storeAll _).trans (bus.waitMultiple32_storeAll _)
  have hcharge (s : Registers) : Takes (if a.overlap && a.writeback then
        Exec.chargeBus (·.waitMultiple32 (start - 4) (list.count + 1))
      else Exec.chargeBus (·.waitMultiple32 start list.count))
      stored s (storeCycles bus r a list).toUInt64 := by
    rw [storeCycles, ← hwait]
    split
    · exact takes_chargeBus _ _ _
    · exact takes_chargeBus _ _ _
  have hcycles : (0 : UInt64) + (0 + (storeCycles bus r a list).toUInt64) =
      (storeCycles bus r a list).toUInt64 := by
    simp
  rw [← hcycles]
  exact (takes_chargeAtPc bus r fun pc => (·.wait32 pc)).bind
    (transfers_chargeAtPc bus r fun pc => (·.wait32 pc)) <|
    ((spends_blockAddress a true).takes bus r).bind (transfers_blockAddress hstrict r a true) <|
      ((spends_storeWords _ _).takes _ _).bind
        (transfers_storeWords (bus.strict_storeAll _ ▸ hstrict) _ _ list.toList) (hcharge _)

end Transfers

/-! ### From the fields of an opcode -/

section Fields

variable {rn : Reg} {pre up writeback : Bool} {list : RegList} {cond : Condition} {b : Board}
  {address : Word}

/-- An opcode is executed as what it encodes. -/
lemma exec_encode (cond : Condition) (f : Form) :
    exec (decode (encode cond f)) = exec ⟨cond, f.op⟩ := by
  rw [decode, decode_cond_encode, decodeOp_layout f (toNat_encode cond f)]

/-- The way from the base to the first word, before a base is dropped from the list. -/
def firstOffset (count : Word) (pre up : Bool) : Word :=
  let first : Word := if up == pre then 4 else 0
  if up then first else first - 4 * count

lemma add_firstOffset (base count : Word) (pre up : Bool) :
    base + firstOffset count pre up = firstWord base count pre up := by
  cases pre <;> cases up <;> simp only [firstOffset, firstWord] <;> grind

/-- The way from the base to the one that is written back. -/
def backOffset (count : Word) (up : Bool) : Word := if up then 4 * count else 0 - 4 * count

lemma add_backOffset (base count : Word) (up : Bool) :
    base + backOffset count up = steppedBase base count up := by
  cases up <;> simp only [backOffset, steppedBase] <;> grind

/-- Neither a load nor a store of which the base is not the lowest register drops its base. -/
lemma ofFields_of_ne (store : Bool)
    (h : ¬(store = true ∧ writeback = true ∧ list.toList.head? = some rn)) :
    BlockAddress.ofFields rn list pre up writeback store =
      (⟨rn, firstOffset list.count pre up, backOffset list.count up, writeback, false⟩, list) := by
  have hoverlap : (store && writeback && list.toList.head? == some rn) = false := by
    rw [Bool.eq_false_iff]
    simpa [and_assoc] using h
  simp only [BlockAddress.ofFields, hoverlap]
  rfl

/-- A store that lists its base lowest and writes it back drops it. -/
lemma ofFields_of_head (h : list.toList.head? = some rn) :
    BlockAddress.ofFields rn list pre up true true =
      (⟨rn, firstOffset list.count pre up + 4, backOffset list.count up, true, true⟩,
        list.erase rn) := by
  have hoverlap : (true && true && list.toList.head? == some rn) = true := by
    simpa using h
  simp only [BlockAddress.ofFields, hoverlap]
  rfl

/-- A block load from the base on. -/
lemma exists_blockLoaded (hstrict : b.bus.strict = false)
    (hcond : cond.passes b.core.regs.flags = true) {a : BlockAddress} {rest : RegList}
    (ha : BlockAddress.ofFields rn list pre up writeback false = (a, rest)) :
    ∃ b', exec ⟨cond, .loadMultiple false rest a⟩ address b = .ok () b' ∧
      BlockLoaded rn pre up writeback list b b' := by
  obtain ⟨rfl, rfl⟩ := Prod.mk.inj ((ofFields_of_ne false (by simp)).symm.trans ha)
  set a : BlockAddress :=
    ⟨rn, firstOffset list.count pre up, backOffset list.count up, writeback, false⟩
  have hload := transfers_loadMultiple hstrict b.core.regs a list
  have hcycles := takes_afterFetch hcond (takes_loadMultiple hstrict b.core.regs a list) b rfl rfl
  obtain ⟨b', hrun, ht⟩ := transfers_afterFetch hcond hload b rfl rfl
  have hfirst : b.core.reg rn + a.start = firstWord (b.core.reg rn) list.count pre up :=
    add_firstOffset _ _ _ _
  have hread (i : Reg) : b'.core.reg i = Registers.read _ i := congrArg (·.read i) ht.regs
  have hkept (i : Reg) (hi : i ∉ list.toList) :
      b'.core.reg i = (writtenBack a b.core.regs).read i := by
    rw [hread, Registers.read_writeAll]
    exact fun p hp e => hi ((mem_loaded _).mp ⟨p, hp, e⟩)
  refine ⟨b', hrun, fun k hk => ?_, fun hback hi => ?_, fun i hi hother => ?_, ht.bus, ?_⟩
  · rw [hread, Registers.read_loaded list.nodup_toList, ← hfirst]
    rfl
  · rw [hkept rn hi, writtenBack, if_pos hback, ← add_backOffset]
    exact Registers.read_write_self _ rn _
  · rw [hkept i hi, writtenBack]
    split
    · exact Registers.read_write_of_ne (hother ‹_›) _ _
    · rfl
  · rw [Exec.after_of_ok hrun] at hcycles
    rw [hcycles, ← hfirst, UInt64.add_assoc]
    rfl

/-- The registers that are stored after the base has been written back, if the base is not the
lowest of them, and the rest of the registers if it is. -/
lemma storeValue_writtenBack (hrn : rn ≠ .pc) (hpc : b.core.pc = address + 8) {a : BlockAddress}
    (ha : a.rn = rn ∧ a.delta = backOffset list.count up ∧ a.writeback = writeback) {i : Reg}
    (hi : writeback = true → list.toList.head? = some rn → i ≠ rn) :
    (writtenBack a b.core.regs).storeValue i =
      blockValue rn up writeback list address b.core i := by
  obtain ⟨hrn', hdelta, hwriteback⟩ := ha
  have hkept (hne : i ≠ rn) : (writtenBack a b.core.regs).read i = b.core.reg i := by
    rw [writtenBack, hrn']
    split
    · exact Registers.read_write_of_ne hne _ _
    · rfl
  unfold Registers.storeValue blockValue
  by_cases hpci : i = .pc
  · rw [if_pos hpci, if_pos hpci, hkept (hpci.trans_ne hrn.symm), hpci]
    show b.core.pc + 4 = address + 12
    rw [hpc]
    grind
  · rw [if_neg hpci, if_neg hpci]
    split
    · rename_i hback
      obtain ⟨rfl, hback, -⟩ := hback
      rw [writtenBack, if_pos (hwriteback.trans hback), hrn', Registers.read_write_self, hdelta]
      exact add_backOffset _ _ _
    · rename_i hback
      by_cases hirn : i = rn
      · have hnot : writeback = false := by
          rw [Bool.eq_false_iff]
          exact fun hw => hback ⟨hirn, hw, fun hhead => hi hw hhead hirn⟩
        rw [writtenBack, if_neg (by simp [hwriteback, hnot])]
        rfl
      · exact hkept hirn

/-- A block store makes one burst from the first word on, and is charged for it. -/
lemma stores_eq_burst (hrn : rn ≠ .pc) (hpc : b.core.pc = address + 8) {a : BlockAddress}
    {rest : RegList} (ha : BlockAddress.ofFields rn list pre up writeback true = (a, rest)) :
    let first := firstWord (b.core.reg rn) list.count pre up
    baseStore a b.core.regs ++ burst (b.core.regs.read a.rn + a.start)
        (rest.toList.map (writtenBack a b.core.regs).storeValue) =
      burst first (list.toList.map (blockValue rn up writeback list address b.core)) ∧
    storeCycles b.bus b.core.regs a rest = b.bus.waitMultiple32 first list.count := by
  intro first
  have hfirst : b.core.regs.read rn + firstOffset list.count pre up = first :=
    add_firstOffset _ _ _ _
  by_cases hhead : writeback = true ∧ list.toList.head? = some rn
  · obtain ⟨rfl, hhead⟩ := hhead
    obtain ⟨rfl, rfl⟩ := Prod.mk.inj ((ofFields_of_head hhead).symm.trans ha)
    obtain ⟨others, hlist⟩ := List.head?_eq_some_iff.mp hhead
    have hothers : (list.erase rn).toList = others := RegList.toList_erase_of_head hlist
    have hmem : rn ∉ others := (List.nodup_cons.mp (hlist ▸ list.nodup_toList)).1
    have hcount : (list.erase rn).count + 1 = list.count := by
      rw [RegList.count, RegList.count, hothers, hlist, List.length_cons, UInt32.ofNat_add]
      rfl
    have hstart : b.core.regs.read rn + (firstOffset list.count pre up + 4) = first + 4 := by
      rw [← hfirst, UInt32.add_assoc]
    have hslot : first + 4 - 4 = first := by grind
    have hvalues : others.map (writtenBack ⟨rn, firstOffset list.count pre up + 4,
          backOffset list.count up, true, true⟩ b.core.regs).storeValue =
        others.map (blockValue rn up true list address b.core) :=
      List.map_congr_left fun i hi => storeValue_writtenBack hrn hpc ⟨rfl, rfl, rfl⟩
        fun _ _ e => hmem (e ▸ hi)
    have hbase : blockValue rn up true list address b.core rn = b.core.regs.read rn := by
      rw [blockValue, if_neg hrn, if_neg fun h => h.2.2 hhead]
      rfl
    constructor
    · rw [hothers, hvalues, hlist, List.map_cons, burst_cons, hbase, baseStore]
      dsimp only
      rw [hstart, hslot]
      rfl
    · rw [storeCycles, hcount]
      dsimp only
      rw [hstart, hslot]
      rfl
  · obtain ⟨rfl, rfl⟩ := Prod.mk.inj
      ((ofFields_of_ne true fun h => hhead h.2).symm.trans ha)
    have hvalues : list.toList.map (writtenBack ⟨rn, firstOffset list.count pre up,
          backOffset list.count up, writeback, false⟩ b.core.regs).storeValue =
        list.toList.map (blockValue rn up writeback list address b.core) :=
      List.map_congr_left fun i _ => storeValue_writtenBack hrn hpc ⟨rfl, rfl, rfl⟩
        fun hw h => absurd ⟨hw, h⟩ hhead
    constructor
    · rw [hvalues, baseStore]
      dsimp only
      rw [hfirst, Bool.and_false]
      rfl
    · rw [storeCycles]
      dsimp only
      rw [hfirst]
      rfl

/-- A block store from the base on. -/
lemma exists_blockStored (hstrict : b.bus.strict = false)
    (hcond : cond.passes b.core.regs.flags = true) (hrn : rn ≠ .pc)
    (hpc : b.core.pc = address + 8) {a : BlockAddress} {rest : RegList}
    (ha : BlockAddress.ofFields rn list pre up writeback true = (a, rest)) :
    ∃ b', exec ⟨cond, .storeMultiple false rest a⟩ address b = .ok () b' ∧
      BlockStored rn pre up writeback list address b b' := by
  obtain ⟨hburst, hwords⟩ := stores_eq_burst hrn hpc ha
  have hstore := transfers_storeMultiple hstrict b.core.regs a rest
  have hcycles := takes_insteadOfFetch hcond (takes_storeMultiple hstrict b.core.regs a rest) b
    rfl rfl
  obtain ⟨b', hrun, ht⟩ := transfers_insteadOfFetch hcond hstore b rfl rfl
  obtain ⟨hrn', hdelta, hwriteback⟩ : a.rn = rn ∧ a.delta = backOffset list.count up ∧
      a.writeback = writeback := by
    obtain ⟨rfl, -⟩ := Prod.mk.inj ha
    exact ⟨rfl, rfl, rfl⟩
  have hread (i : Reg) : b'.core.reg i = (writtenBack a b.core.regs).read i :=
    congrArg (·.read i) ht.regs
  refine ⟨b', hrun, ?_, ?_, fun i hi => ?_, ?_⟩
  · rw [ht.bus, hburst, Bus.storeAll_burst]
  · rw [hread, writtenBack, hwriteback, hrn', hdelta]
    split
    · rw [Registers.read_write_self]
      exact add_backOffset _ _ _
    · rfl
  · rw [hread, writtenBack, hrn']
    split
    · exact Registers.read_write_of_ne hi _ _
    · rfl
  · rw [Exec.after_of_ok hrun, hwords] at hcycles
    exact hcycles

/-- On a bus that is not strict, a block transfer whose condition holds and whose base is not the
program counter always finishes, for every list, base and addressing mode. A load leaves the words
from the first one on in the registers of its list, in ascending order, and a store the registers in
the words; the base is written back, and the cycles of the words are those of a burst from the first
word. -/
theorem exec_block (cond : Condition) (load : Bool) (rn : Reg) (pre up writeback : Bool)
    (list : Fin 65536) {b : Board} {address : Word} (hstrict : b.bus.strict = false)
    (hcond : cond.passes b.core.regs.flags = true) (hrn : rn ≠ .pc)
    (hpc : b.core.pc = address + 8) :
    ∃ b', exec (decode (encode cond (.block load false rn pre up writeback list))) address b =
        .ok () b' ∧
      if load then BlockLoaded rn pre up writeback ⟨.ofNat list⟩ b b'
      else BlockStored rn pre up writeback ⟨.ofNat list⟩ address b b' := by
  have hdecode (f : Form) : decode (encode cond f) = ⟨cond, f.op⟩ := by
    rw [decode, decode_cond_encode, decodeOp_layout f (toNat_encode cond f)]
  rw [hdecode]
  cases load with
  | true =>
    exact exists_blockLoaded hstrict hcond rfl
  | false =>
    exact exists_blockStored hstrict hcond hrn hpc rfl

/-- The handheld before an instruction at the start of internal memory, with the stack pointer two
bytes behind the address of a word. -/
def stacked : Board :=
  { core := { regs := (Registers.write {} .sp 0x03000102).write .pc 0x03000008 }
    bus := Bus.handheld }

/-- STMDB of the stack pointer with a writeback, which lists the base lowest and the program counter
too. -/
theorem exec_block_stmdb :
    stacked.bus.strict = false ∧ Condition.al.passes stacked.core.regs.flags = true ∧
      Reg.sp ≠ .pc ∧ stacked.core.pc = 0x03000000 + 8 ∧
      ∃ b', exec (decode (encode .al (.block false false .sp true false true 0xE000))) 0x03000000
          stacked = .ok () b' ∧
        b'.core.reg .sp = 0x030000F6 ∧ b'.bus = stacked.bus.storeAll
          [⟨.word, 0x030000F4, 0x03000102⟩, ⟨.word, 0x030000F8, 0⟩,
            ⟨.word, 0x030000FC, 0x0300000C⟩] := by
  have hstrict : stacked.bus.strict = false := rfl
  have hpc : stacked.core.pc = 0x03000000 + 8 := rfl
  obtain ⟨b', hrun, hstored⟩ :=
    exec_block .al false .sp true false true 0xE000 hstrict rfl (by decide) hpc
  exact ⟨hstrict, rfl, by decide, hpc, b', hrun, hstored.base, hstored.words⟩

end Fields

end Arm

end Armv4T
