import Mathlib
import Armv4T.Proofs.Bus.Timing
import Armv4T.Proofs.Exec.Multiple
import Armv4T.Proofs.Step.Quiet

/-!
# The cycles that instructions take

The core counts cycles and never takes any back. What an action adds is what a bill comes to: a list
of charges, each of which is a word, so a bound on the number of charges bounds the sum.
`Exec.Spends longest least most` says of an action that it adds at least `least` cycles if it
finishes, and in any case makes no more than `most` charges, among them no burst of more than
`longest` words.

An instruction is charged for fetching ahead in one of several places: before it acts, with its
access to memory, after it entered an exception, or, if its condition fails, instead of acting.
Wherever that is, an access takes at least one cycle, as long as the cycle and the waiting time of
its region sum up within a word (`Bus.WaitsFit`). So there is no instruction in either set that
finishes for free (`Exec.spends_instruction`).
-/

namespace Armv4T

/-! ### Waiting times -/

/-- The cycle of an access and each of the waiting times sum up within a word. -/
def WaitStates.Fit (w : WaitStates) : Prop :=
  ∀ wait ∈ [w.nonseq16, w.seq16, w.nonseq32, w.seq32], 1 + wait.toNat < UInt32.size

namespace Bus

variable {bus bus' : Bus}

/-- The waiting times of all regions fit. -/
def WaitsFit (bus : Bus) : Prop := ∀ r ∈ bus.regions, r.wait.Fit

lemma WaitsFit.of_regions (hfit : bus.WaitsFit) (h : bus'.regions = bus.regions) :
    bus'.WaitsFit := by
  rwa [WaitsFit, h]

/-- The waiting times of every address fit, also outside of all regions. -/
lemma WaitsFit.waits (hfit : bus.WaitsFit) (address : Word) : (bus.waits address).Fit := by
  rcases bus.waits_cases address with hnone | ⟨r, hr, hwaits⟩
  · rw [hnone]
    simp [WaitStates.Fit, UInt32.size]
  · rw [hwaits]
    exact hfit r hr

lemma regions_of_wiring (h : bus'.wiring = bus.wiring) : bus'.regions = bus.regions := by
  have hregions : bus'.wiring.regions = bus.wiring.regions := by rw [h]
  exact hregions

lemma waits_of_wiring (h : bus'.wiring = bus.wiring) : bus'.waits = bus.waits := by
  have hwiring (bus : Bus) : bus.waits = bus.wiring.waits := rfl
  rw [hwiring bus', h, ← hwiring]

lemma wiring_of_bare (h : bus'.bare = bus.bare) : bus'.wiring = bus.wiring := by
  rw [wiring, h]
  rfl

lemma wiring_store (bus : Bus) (width : StoreWidth) (address value : Word) :
    (bus.store width address value).wiring = bus.wiring := by
  unfold store
  dsimp only
  split <;> rfl

end Bus

lemma Word.one_add_pos {wait : Word} (h : 1 + wait.toNat < UInt32.size) : 0 < (1 + wait).toNat := by
  rw [UInt32.toNat_add, UInt32.toNat_one, Nat.mod_eq_of_lt h]
  omega

namespace Bus.WaitsFit

variable {bus : Bus}

/-! ### An access takes a cycle -/

lemma waitFetch_pos (h : bus.WaitsFit) (set : InstrSet) (address : Word) :
    0 < (bus.waitFetch set address).toNat := by
  cases set <;> exact Word.one_add_pos (h.waits address _ (by simp))

lemma waitPrefetch_pos (h : bus.WaitsFit) (set : InstrSet) (address : Word) :
    0 < (bus.waitPrefetch set address).toNat := by
  cases set <;> exact Word.one_add_pos (h.waits address _ (by simp))

end Bus.WaitsFit

/-! ### Bills -/

/-- What a bill comes to. -/
def Charge.sum (bus : Bus) (bill : List Charge) : ℕ := (bill.map fun c => (c.cost bus).toNat).sum

namespace Charge

variable {bus bus' : Bus}

lemma sum_append (bus : Bus) (bill bill' : List Charge) :
    sum bus (bill ++ bill') = sum bus bill + sum bus bill' := by
  rw [sum, List.map_append, List.sum_append]
  rfl

lemma sum_congr (h : bus'.waits = bus.waits) (bill : List Charge) :
    sum bus' bill = sum bus bill := by
  simp only [sum, cost_congr h]

lemma sum_le (bus : Bus) (bill : List Charge) : sum bus bill ≤ bill.length * UInt32.size := by
  induction bill with
  | nil => exact Nat.zero_le _
  | cons c bill ih =>
    have hlt := (c.cost bus).toNat_lt
    have hcons : sum bus (c :: bill) = (c.cost bus).toNat + sum bus bill := rfl
    rw [hcons, List.length_cons, Nat.succ_mul, Nat.add_comm]
    exact Nat.add_le_add ih hlt.le

end Charge

/-- From one board to another the count of cycles has moved on by a bill of at most `most` charges,
which has no burst of more than `longest` words and comes to at least `least` cycles if waiting
times fit. The regions are the same, and where they are. -/
structure Board.Paid (longest least most : ℕ) (b b' : Board) : Prop where
  bill : ∃ bill : List Charge, bill.length ≤ most ∧ (∀ c ∈ bill, c.Within longest) ∧
    (b.bus.WaitsFit → least ≤ Charge.sum b.bus bill) ∧
    b'.core.cycles = b.core.cycles + .ofNat (Charge.sum b.bus bill)
  wiring : b'.bus.wiring = b.bus.wiring

namespace Board.Paid

variable {longest least least' most most' : ℕ} {b b' b'' : Board}

lemma trans (h : b.Paid longest least most b') (h' : b'.Paid longest least' most' b'') :
    b.Paid longest (least + least') (most + most') b'' := by
  obtain ⟨bill, hmost, hwithin, hleast, hcycles⟩ := h.bill
  obtain ⟨bill', hmost', hwithin', hleast', hcycles'⟩ := h'.bill
  have hsum := Charge.sum_congr (Bus.waits_of_wiring h.wiring) bill'
  refine ⟨⟨bill ++ bill', ?_, ?_, fun hfit => ?_, ?_⟩, h'.wiring.trans h.wiring⟩
  · rw [List.length_append]
    exact Nat.add_le_add hmost hmost'
  · intro c hc
    exact (List.mem_append.mp hc).elim (hwithin c) (hwithin' c)
  · have hrest := hleast' (hfit.of_regions (Bus.regions_of_wiring h.wiring))
    rw [Charge.sum_append]
    exact Nat.add_le_add (hleast hfit) (hsum ▸ hrest)
  · rw [hcycles', hcycles, Charge.sum_append, hsum, UInt64.ofNat_add, UInt64.add_assoc]

lemma weaken (h : b.Paid longest least most b') (hleast : least' ≤ least) (hmost : most ≤ most') :
    b.Paid longest least' most' b' := by
  obtain ⟨bill, hlength, hwithin, hcost, hcycles⟩ := h.bill
  exact ⟨⟨bill, hlength.trans hmost, hwithin, fun hfit => hleast.trans (hcost hfit), hcycles⟩,
    h.wiring⟩

/-- Nothing was charged. -/
lemma free (hcycles : b'.core.cycles = b.core.cycles) (hwiring : b'.bus.wiring = b.bus.wiring) :
    b.Paid longest 0 0 b' :=
  ⟨⟨[], le_rfl, nofun, fun _ => le_rfl, hcycles.trans (UInt64.add_zero _).symm⟩, hwiring⟩

/-- What is remembered of decodings and the journal are not charged for. -/
lemma of_bare (h : b'.bare = b.bare) : b.Paid longest 0 0 b' :=
  .free (Board.core_of_bare h Core.cycles fun _ => rfl)
    (Bus.wiring_of_bare (Board.bare_eq_iff.mp h).2.1)

/-- One charge. -/
lemma charge {c : Charge} (hwithin : c.Within longest)
    (hleast : b.bus.WaitsFit → least ≤ (c.cost b.bus).toNat)
    (hcycles : b'.core.cycles = b.core.cycles + (c.cost b.bus).toUInt64)
    (hwiring : b'.bus.wiring = b.bus.wiring) : b.Paid longest least 1 b' := by
  have hsum : Charge.sum b.bus [c] = (c.cost b.bus).toNat := List.sum_singleton
  refine ⟨⟨[c], le_rfl, ?_, ?_, ?_⟩, hwiring⟩
  · intro c' hc'
    rwa [List.mem_singleton.mp hc']
  · rwa [hsum]
  · rw [hcycles, hsum, UInt64.ofNat_uInt32ToNat]

/-- A bound on the number of charges bounds what they come to. -/
lemma cost (h : b.Paid longest least most b') :
    ∃ cost, (b.bus.WaitsFit → least ≤ cost) ∧ cost ≤ most * UInt32.size ∧
      b'.core.cycles = b.core.cycles + .ofNat cost := by
  obtain ⟨bill, hlength, -, hleast, hcycles⟩ := h.bill
  exact ⟨_, hleast, (Charge.sum_le _ bill).trans (Nat.mul_le_mul_right _ hlength), hcycles⟩

end Board.Paid

namespace Exec

variable {α β : Type}

/-- From a board, an action makes at most `most` charges, with no burst of more than `longest`
words, and where it finishes and waiting times fit it adds at least `least` cycles. -/
def SpendsFrom (b : Board) (longest least most : ℕ) (x : Exec α) : Prop :=
  match x b with
  | .ok _ b' => b.Paid longest least most b'
  | .error _ b' => b.Paid longest 0 most b'

/-- An action does so from every board. -/
def Spends (longest least most : ℕ) (x : Exec α) : Prop :=
  ∀ b : Board, SpendsFrom b longest least most x

namespace SpendsFrom

variable {longest least least' most most' : ℕ} {x : Exec α} {b b' : Board}

/-- An action that finished. -/
lemma paid_of_ok (hx : SpendsFrom b longest least most x) {a : α} (hok : x b = .ok a b') :
    b.Paid longest least most b' := by
  rwa [SpendsFrom, hok] at hx

/-- An action, whether it finished or not. -/
lemma paid_after (hx : SpendsFrom b longest least most x) : b.Paid longest 0 most (x.after b) := by
  unfold SpendsFrom at hx
  rcases hxb : x b with ⟨a, b'⟩ | ⟨fault, b'⟩
  · rw [hxb] at hx
    rw [after_of_ok hxb]
    exact hx.weaken (Nat.zero_le _) le_rfl
  · rw [hxb] at hx
    rw [after_of_error hxb]
    exact hx

lemma weaken (hx : SpendsFrom b longest least most x) (hleast : least' ≤ least)
    (hmost : most ≤ most') : SpendsFrom b longest least' most' x := by
  unfold SpendsFrom at hx ⊢
  rcases hxb : x b with ⟨a, b'⟩ | ⟨fault, b'⟩
  · rw [hxb] at hx
    exact hx.weaken hleast hmost
  · rw [hxb] at hx
    exact hx.weaken le_rfl hmost

/-- Two actions in a row. The sums have what follows in front: then the charges of the first action
are taken off the number in a goal when this is applied. -/
lemma bind {f : α → Exec β} (hx : SpendsFrom b longest least most x)
    (hf : ∀ a b₁, x b = .ok a b₁ → SpendsFrom b₁ longest least' most' (f a)) :
    SpendsFrom b longest (least' + least) (most' + most) (x >>= f) := by
  unfold SpendsFrom at hx ⊢
  rcases hxb : x b with ⟨a, b₁⟩ | ⟨fault, b₁⟩
  · rw [hxb] at hx
    have hnext := hf a b₁ hxb
    unfold SpendsFrom at hnext
    rw [bind_of_ok hxb]
    rcases hfb : f a b₁ with ⟨c, b₂⟩ | ⟨fault, b₂⟩
    · rw [hfb] at hnext
      exact (hx.trans hnext).weaken (by omega) (by omega)
    · rw [hfb] at hnext
      exact (hx.trans hnext).weaken (Nat.zero_le _) (by omega)
  · rw [hxb] at hx
    rw [bind_of_error hxb]
    exact hx.weaken le_rfl (Nat.le_add_left _ _)

end SpendsFrom

namespace Spends

variable {longest least least' most most' : ℕ} {x y : Exec α}

/-! ### Primitive actions -/

/-- An action that cannot fail. -/
lemma of_apply {g : Board → α} {f : Board → Board} (hx : ∀ b, x b = .ok (g b) (f b))
    (h : ∀ b : Board, b.Paid longest least most (f b)) : Spends longest least most x := by
  intro b
  rw [SpendsFrom, hx b]
  exact h b

/-- An action that cannot fail and charges nothing. -/
lemma free_of_apply {g : Board → α} {f : Board → Board} (hx : ∀ b, x b = .ok (g b) (f b))
    (hcycles : ∀ b, (f b).core.cycles = b.core.cycles)
    (hwiring : ∀ b, (f b).bus.wiring = b.bus.wiring) : Spends longest 0 0 x :=
  of_apply hx fun b => .free (hcycles b) (hwiring b)

lemma pure (a : α) : Spends longest 0 0 (Pure.pure a : Exec α) :=
  free_of_apply (fun _ => rfl) (fun _ => rfl) fun _ => rfl

/-- An action that never finishes may promise anything of where it would. -/
lemma throw (e : Fault) : Spends longest least 0 (MonadExcept.throw e : Exec α) :=
  fun _ => .free rfl rfl

lemma core (f : Core → α) : Spends longest 0 0 (Exec.core f) :=
  free_of_apply (fun _ => rfl) (fun _ => rfl) fun _ => rfl

lemma reg (r : Reg) : Spends longest 0 0 (Exec.reg r) := core _

/-- A change of the core that leaves the count of cycles. -/
lemma onCore {f : Core → Core} (h : ∀ c, (f c).cycles = c.cycles) :
    Spends longest 0 0 (Exec.onCore f) :=
  free_of_apply (fun _ => rfl) (fun b => h b.core) fun _ => rfl

lemma setReg (r : Reg) (value : Word) : Spends longest 0 0 (Exec.setReg r value) :=
  onCore fun _ => rfl

lemma mapFlags (f : Flags → Flags) : Spends longest 0 0 (Exec.mapFlags f) := onCore fun _ => rfl

lemma setSet (set : InstrSet) : Spends longest 0 0 (Exec.onCore (·.setSet set)) :=
  onCore fun _ => rfl

lemma switchMode (mode : Mode) : Spends longest 0 0 (Exec.onCore (·.switchMode mode)) :=
  onCore fun _ => rfl

/-- Cycles of the core. -/
lemma charge {cycles : Word} (h : cycles.toNat ≤ 5) : Spends longest 0 1 (Exec.charge cycles) :=
  of_apply (fun _ => rfl) fun _ =>
    .charge (c := .internal cycles) h (fun _ => Nat.zero_le _) rfl rfl

/-- Cycles that the bus takes. -/
lemma chargeBus (c : Charge) (h : c.Within longest) :
    Spends longest 0 1 (Exec.chargeBus c.cost) :=
  of_apply (g := fun _ => ()) (f := fun b => b.mapCore (·.charge (c.cost b.bus))) (fun _ => rfl)
    fun _ => .charge h (fun _ => Nat.zero_le _) rfl rfl

lemma access (set : InstrSet) (address : Word) :
    Spends longest 0 1 (Exec.chargeBus (·.waitFetch set address)) :=
  chargeBus (.access set address) trivial

lemma accessLoad (kind : LoadKind) (address : Word) :
    Spends longest 0 1 (Exec.chargeBus (·.waitLoad kind address)) := by
  cases kind with
  | word => exact access .arm address
  | byte | signedByte | half | signedHalf => exact access .thumb address

lemma accessStore (width : StoreWidth) (address : Word) :
    Spends longest 0 1 (Exec.chargeBus (·.waitStore width address)) := by
  cases width with
  | word => exact access .arm address
  | byte | half => exact access .thumb address

lemma burst {count : Word} (h : count.toNat ≤ longest) (address : Word) :
    Spends longest 0 1 (Exec.chargeBus (·.waitMultiple32 address count)) :=
  chargeBus (.burst address count) h

/-- A charge at the program counter for what is never free. -/
lemma chargeAtPc (c : Word → Charge) (h : ∀ pc, (c pc).Within longest)
    (hpos : ∀ bus : Bus, bus.WaitsFit → ∀ pc, 0 < ((c pc).cost bus).toNat) :
    Spends longest 1 1 (do let pc ← Exec.core Core.pc; Exec.chargeBus (c pc).cost) :=
  of_apply (g := fun _ => ()) (f := fun b => b.mapCore (·.charge ((c b.core.pc).cost b.bus)))
    (fun _ => rfl) fun b => .charge (h _) (fun hfit => hpos b.bus hfit b.core.pc) rfl rfl

lemma prefetch (set : InstrSet) : Spends longest 1 1 (Exec.prefetch set) :=
  chargeAtPc (.sequential set) (fun _ => trivial) fun _ hfit pc => hfit.waitPrefetch_pos set pc

lemma testCondition (cond : Condition) : Spends longest 0 0 (Exec.testCondition cond) := by
  refine free_of_apply (testCondition_apply cond) (fun b => ?_) fun _ => rfl
  obtain ⟨passed, h⟩ := b.core.exists_testCondition_eq cond
  show (b.core.testCondition cond).2.cycles = _
  rw [h]

/-- What changes only what is remembered of decodings and the journal is free. -/
lemma quiet (hx : Quiet x) : Spends longest 0 0 x := by
  intro b
  have hbare := hx.unchanged b
  unfold SpendsFrom
  rcases hxb : x b with ⟨a, b'⟩ | ⟨fault, b'⟩
  · rw [after_of_ok hxb] at hbare
    exact .of_bare hbare
  · rw [after_of_error hxb] at hbare
    exact .of_bare hbare

lemma note (n : Notice) : Spends longest 0 0 (Exec.update (·.note n)) := quiet (.note n)

lemma load (kind : LoadKind) (address : Word) : Spends longest 0 0 (Exec.load kind address) :=
  quiet (.load kind address)

lemma store (width : StoreWidth) (address value : Word) :
    Spends longest 0 0 (Exec.store width address value) := by
  intro b
  unfold SpendsFrom Exec.store
  rcases b.bus.fault? (width.align address) with _ | fault
  · have hwiring := b.bus.wiring_store width address value
    rcases b.bus.storeNotice? (width.align address) with _ | n <;> exact .free rfl hwiring
  · exact .free rfl rfl

lemma loadStatus (status : Word) : Spends longest 0 0 (Exec.loadStatus status) := by
  intro b
  unfold SpendsFrom Exec.loadStatus
  cases b.core.regs.loadStatus status with
  | error fault => exact .free rfl rfl
  | ok regs => exact .free rfl rfl

/-! ### Putting actions together -/

lemma weaken (hx : Spends longest least most x) (hleast : least' ≤ least) (hmost : most ≤ most') :
    Spends longest least' most' x := fun b => (hx b).weaken hleast hmost

lemma bind {f : α → Exec β} (hx : Spends longest least most x)
    (hf : ∀ a, Spends longest least' most' (f a)) :
    Spends longest (least' + least) (most' + most) (x >>= f) :=
  fun b => (hx b).bind fun a b₁ _ => hf a b₁

lemma ite {p : Prop} [Decidable p] (hx : Spends longest least most x)
    (hy : Spends longest least most y) : Spends longest least most (if p then x else y) := by
  split
  · exact hx
  · exact hy

/-- Something done under a condition. -/
lemma when {p : Prop} [Decidable p] {x : Exec Unit} (hx : Spends longest 0 most x) :
    Spends longest 0 most (if p then x else Pure.pure ()) :=
  ite hx ((pure ()).weaken le_rfl (Nat.zero_le _))

/-- Something done under a condition, and something after it. -/
lemma whenThen {p : Prop} [Decidable p] {x : Exec Unit} {k : Unit → Exec β}
    (hx : Spends longest 0 most x) (hk : ∀ u, Spends longest least' most' (k u)) :
    Spends longest least' (most' + most) (if p then x >>= k else k ()) :=
  ite (bind hx hk) ((hk ()).weaken le_rfl (Nat.le_add_right _ _))

/-- One of two things done, and something after it. -/
lemma iteThen {p : Prop} [Decidable p] {k : α → Exec β} (hx : Spends longest least most x)
    (hy : Spends longest least most y) (hk : ∀ a, Spends longest least' most' (k a)) :
    Spends longest (least' + least) (most' + most) (if p then x >>= k else y >>= k) :=
  ite (bind hx hk) (bind hy hk)

end Spends

variable {longest : ℕ}

/-! ### Services -/

lemma spends_putDivision (numerator denominator : Word) :
    Spends longest 0 0 (Bios.putDivision numerator denominator) := by
  unfold Bios.putDivision
  exact .whenThen (.note _) fun _ => .bind (.setReg _ _) fun _ => .bind (.setReg _ _) fun _ =>
    .setReg _ _

lemma spends_halt : Spends longest 0 0 (update Board.halt) := by
  intro b
  show b.Paid longest 0 0 ((b.mapCore ({ · with halted := true })).note? _)
  split <;> exact .free rfl rfl

lemma spends_dispatch (comment : Word) : Spends longest 0 0 (Bios.dispatch comment) := by
  unfold Bios.dispatch
  refine .bind (.reg _) fun r0 => .bind (.reg _) fun r1 => ?_
  split
  · exact spends_halt
  · exact spends_putDivision _ _
  · exact spends_putDivision _ _
  · exact .setReg _ _
  · exact .setReg _ _
  · exact .setReg _ _
  · exact .throw _

lemma spends_raiseTrap : Spends longest 0 0 (update Board.raiseTrap) :=
  .free_of_apply (g := fun _ => ()) (f := Board.raiseTrap) (fun _ => rfl) (fun _ => rfl) fun _ =>
    rfl

/-- Neither a service nor entering an exception takes cycles. -/
lemma spends_softwareInterrupt (comment : Word) :
    Spends longest 0 0 (Bios.softwareInterrupt comment) := by
  intro b
  unfold SpendsFrom Bios.softwareInterrupt
  split_ifs
  · exact spends_raiseTrap b
  · exact Spends.note .haltIgnored b
  · exact spends_dispatch comment b

end Exec

lemma multiplyCycles_le (multiplier : Word) : (multiplyCycles multiplier).toNat ≤ 4 := by
  unfold multiplyCycles
  split_ifs <;> decide

/-! ### The bursts of instructions -/

/-- The words of a block transfer, of which a store may make one ahead of its list. -/
def Arm.Op.burst : Op → ℕ
  | .loadMultiple _ list _ => list.toList.length
  | .storeMultiple _ list a => list.toList.length + (a.overlap && a.writeback).toNat
  | _ => 0

/-- The words of a block transfer. A push may add LR to its list, and a pop PC. -/
def Thumb.Instr.burst : Instr → ℕ
  | .push list lr => list.toList.length + lr.toNat
  | .pop list pc => list.toList.length + pc.toNat
  | .storeMultiple _ list | .loadMultiple _ list => list.toList.length
  | _ => 0

/-- The longest burst of words that an instruction makes. -/
def Instruction.burst : Instruction → ℕ
  | .arm i => i.op.burst
  | .thumb i => i.burst

namespace RegList

variable (l : RegList)

lemma toNat_count_le : l.count.toNat ≤ l.toList.length := by
  rw [count, UInt32.toNat_ofNat']
  exact Nat.mod_le _ _

lemma toNat_count_add_one_le : (l.count + 1).toNat ≤ l.toList.length + 1 := by
  rw [UInt32.toNat_add, UInt32.toNat_one]
  exact (Nat.mod_le _ _).trans (Nat.add_le_add_right l.toNat_count_le 1)

end RegList

/-- No list names more than sixteen registers. -/
lemma Instruction.burst_le (i : Instruction) : i.burst ≤ 17 := by
  have hsum (l : RegList) (flag : Bool) : l.toList.length + flag.toNat ≤ 17 :=
    Nat.add_le_add l.length_toList_le flag.toNat_le
  have hlist (l : RegList) : l.toList.length ≤ 17 := l.length_toList_le.trans (by decide)
  cases i with
  | arm i =>
    obtain ⟨cond, op⟩ := i
    cases op with
    | loadMultiple userBank list a => exact hlist list
    | storeMultiple userBank list a => exact hsum list _
    | _ => exact Nat.zero_le _
  | thumb i =>
    cases i with
    | push list lr => exact hsum list lr
    | pop list pc => exact hsum list pc
    | storeMultiple rn list | loadMultiple rn list => exact hlist list
    | _ => exact Nat.zero_le _

/-! ### ARM instructions -/

namespace Arm

open Exec (Spends)

variable {longest least most : ℕ} {act : Exec Unit}

lemma spends_afterFetch (cond : Condition) (h : Spends longest 0 most act) :
    Spends longest 1 (most + 1) (afterFetch cond act) :=
  .bind (.prefetch _) fun _ => .bind (.testCondition _) fun _ => .when h

lemma spends_insteadOfFetch (cond : Condition) (h : Spends longest 1 (most + 1) act) :
    Spends longest 1 (most + 1) (insteadOfFetch cond act) :=
  .bind (.testCondition _) fun _ =>
    .ite h ((Spends.prefetch _).weaken le_rfl (Nat.le_add_left 1 most))

lemma spends_evalOperand (operand : Operand) :
    Spends longest 0 1 (Exec.onCore (·.evalOperand operand)) := by
  have hle : (Core.operandCycles operand).toNat ≤ 5 := by
    cases operand <;> simp [Core.operandCycles]
  exact .of_apply (fun _ => rfl) fun _ =>
    .charge (c := .internal (Core.operandCycles operand)) hle (fun _ => Nat.zero_le _) rfl rfl

lemma spends_dataProcessing (op : AluOp) (setFlags : Bool) (rd rn : Reg) (operand : Operand) :
    Spends longest 0 1 (dataProcessing op setFlags rd rn operand) := by
  unfold dataProcessing
  refine .bind (spends_evalOperand operand) fun _ => .bind (.core _) fun result => ?_
  have hput : Spends longest 0 0 (if !op.isTest then Exec.setReg rd result.value else pure ()) :=
    .when (.setReg _ _)
  refine .ite (.bind (.core _) fun saved => ?_) hput
  exact .iteThen (.loadStatus _) (.mapFlags _) fun _ => hput

lemma spends_readStatus (rd : Reg) (saved : Bool) : Spends longest 0 0 (readStatus rd saved) :=
  .bind (.core _) fun _ => .setReg _ _

lemma spends_writeStatus (saved : Bool) (mask : Word) (source : StatusSource) :
    Spends longest 0 0 (writeStatus saved mask source) := by
  have hput (value : Word) : Spends longest 0 0 (putCurrent mask value) := by
    intro b
    rw [Exec.SpendsFrom, putCurrent_apply]
    cases writeCurrent mask value b.core.regs with
    | error fault => exact .free rfl rfl
    | ok regs => exact .free rfl rfl
  rw [writeStatus_eq]
  exact .bind (.core _) fun value => .ite (.onCore fun _ => rfl) (hput value)

lemma spends_multiply (accumulate setFlags : Bool) (rd rn rs rm : Reg) :
    Spends longest 0 2 (multiply accumulate setFlags rd rn rs rm) := by
  unfold multiply
  have hle (multiplier : Word) : (multiplyCycles multiplier).toNat ≤ 5 :=
    (multiplyCycles_le multiplier).trans (by decide)
  refine .bind (.reg rs) fun multiplier => .bind (.charge (hle _)) fun _ => ?_
  refine .bind (.reg rm) fun value => .iteThen (.reg rn) (.pure 0) fun addend => ?_
  refine .whenThen (.charge (by decide)) fun _ => .whenThen (.mapFlags _) fun _ => ?_
  exact .setReg _ _

lemma spends_multiplyLong (signed accumulate setFlags : Bool) (rdHi rdLo rs rm : Reg) :
    Spends longest 0 2 (multiplyLong signed accumulate setFlags rdHi rdLo rs rm) := by
  unfold multiplyLong
  have hle (multiplier : Word) : (multiplyCycles multiplier + 1).toNat ≤ 5 := by
    have hcycles := multiplyCycles_le multiplier
    rw [UInt32.toNat_add, UInt32.toNat_one]
    exact (Nat.mod_le _ _).trans (Nat.add_le_add_right hcycles 1)
  refine .bind (.reg rs) fun multiplier => .bind (.charge (hle _)) fun _ => ?_
  refine .bind (.reg rm) fun value => .bind (.core _) fun addend => ?_
  refine .whenThen (.charge (by decide)) fun _ => .whenThen (.mapFlags _) fun _ => ?_
  exact .bind (.setReg _ _) fun _ => .setReg _ _

lemma spends_swap (byte : Bool) (rd rn rm : Reg) : Spends longest 0 2 (swap byte rd rn rm) := by
  unfold swap
  refine .bind (.reg rn) fun address => .bind (.reg rm) fun value => ?_
  have hput (old : Word) : Spends longest 0 1 (do Exec.setReg rd old; Exec.charge 1) :=
    .bind (.setReg _ _) fun _ => .charge (by decide)
  have htwice (set : InstrSet) (address : Word) :
      Spends longest 0 1 (Exec.chargeBus (·.waitFetch set address * 2)) :=
    .chargeBus (.exchange set address) trivial
  refine .ite ?_ ?_
  · refine .bind (htwice .thumb _) fun _ => .bind (.load _ _) fun old => ?_
    exact .bind (.store _ _ _) fun _ => .bind (.pure _) fun old => hput old
  · refine .bind (htwice .arm _) fun _ => .bind (.load _ _) fun old => ?_
    exact .bind (.store _ _ _) fun _ => .bind (.pure _) fun old => hput old

lemma spends_evalAddress (a : SingleAddress) : Spends longest 0 0 (evalAddress a) := by
  obtain ⟨rn, offset, up, indexing⟩ := a
  refine .free_of_apply (g := fun b => (b.core.evalSingle ⟨rn, offset, up, indexing⟩).1)
    (f := fun b => b.mapCore fun _ => (b.core.evalSingle ⟨rn, offset, up, indexing⟩).2)
    (fun _ => rfl) (fun b => ?_) fun _ => rfl
  show (b.core.evalSingle ⟨rn, offset, up, indexing⟩).2.cycles = b.core.cycles
  cases offset with
  | immediate | register => cases indexing <;> rfl
  | shifted =>
    -- a shifted offset is charged for as an operand, and the charge is zero
    cases indexing <;> exact UInt64.add_zero _

lemma spends_loadSingle (kind : LoadKind) (rd : Reg) (a : SingleAddress) :
    Spends longest 0 3 (loadSingle kind rd a) := by
  unfold loadSingle
  refine .bind (spends_evalAddress a) fun address => .whenThen (.accessLoad _ _) fun _ => ?_
  refine .bind (.load _ _) fun value => .whenThen (.accessLoad _ _) fun _ => ?_
  exact .bind (.charge (by decide)) fun _ => .setReg _ _

lemma spends_chargeAtPc : Spends longest 1 1 chargeAtPc :=
  .chargeAtPc (.access .arm) (fun _ => trivial) fun _ hfit pc => hfit.waitFetch_pos .arm pc

lemma spends_storeSingle (width : StoreWidth) (rd : Reg) (a : SingleAddress) :
    Spends longest 1 2 (storeSingle width rd a) :=
  .bind (.core _) fun _ => .bind (spends_evalAddress a) fun _ => .bind (.store _ _ _) fun _ =>
    .bind (.accessStore _ _) fun _ => spends_chargeAtPc

lemma spends_blockAddress (a : BlockAddress) (store : Bool) :
    Spends longest 0 0 (blockAddress a store) := by
  unfold blockAddress
  refine .bind (.reg _) fun base => ?_
  exact .ite (.whenThen (.store _ _ _) fun _ => .bind (.setReg _ _) fun _ => .pure _) (.pure _)

lemma spends_loadWords (address : Word) (list : List Reg) :
    Spends longest 0 0 (loadWords address list) := by
  induction list generalizing address with
  | nil => exact .pure ()
  | cons r rest ih => exact .bind (.load _ _) fun _ => .bind (.setReg _ _) fun _ => ih _

lemma spends_storeWords (address : Word) (list : List Reg) :
    Spends longest 0 0 (storeWords address list) := by
  induction list generalizing address with
  | nil => exact .pure ()
  | cons r rest ih => exact .bind (.core _) fun _ => .bind (.store _ _ _) fun _ => ih _

lemma spends_inBank (user : Bool) (h : Spends longest 0 0 act) :
    Spends longest 0 0 (inBank user act) := by
  unfold inBank
  refine .ite (.bind (.core _) fun mode => ?_) h
  exact .bind (.switchMode _) fun _ => .bind h fun _ => .switchMode _

lemma spends_loadMultiple (userBank : Bool) {list : RegList} (h : list.toList.length ≤ longest)
    (a : BlockAddress) : Spends longest 0 2 (loadMultiple userBank list a) := by
  unfold loadMultiple
  refine .bind (spends_blockAddress a false) fun start => ?_
  refine .bind (spends_inBank _ (spends_loadWords _ _)) fun _ => ?_
  refine .bind (.burst (list.toNat_count_le.trans h) _) fun _ => ?_
  refine .bind (.charge (by decide)) fun _ => .when ?_
  exact .bind (.core _) fun saved => .when (.loadStatus _)

lemma spends_storeMultiple (userBank : Bool) {list : RegList} {a : BlockAddress}
    (h : list.toList.length + (a.overlap && a.writeback).toNat ≤ longest) :
    Spends longest 1 2 (storeMultiple userBank list a) := by
  unfold storeMultiple
  refine .bind spends_chargeAtPc fun _ => .bind (spends_blockAddress a true) fun start => ?_
  refine .bind (spends_inBank _ (spends_storeWords _ _)) fun _ => ?_
  rcases hahead : a.overlap && a.writeback with _ | _
  · rw [hahead] at h
    exact .burst (list.toNat_count_le.trans h) _
  · rw [hahead] at h
    exact .burst (list.toNat_count_add_one_le.trans h) _

lemma spends_branch (link : Bool) (offset : Word) : Spends longest 1 1 (branch link offset) := by
  unfold branch
  refine .bind (.prefetch _) fun _ => .bind (.core _) fun pc => ?_
  exact .whenThen (.setReg _ _) fun _ => .setReg _ _

lemma spends_branchExchange (rm : Reg) : Spends longest 0 0 (branchExchange rm) :=
  .bind (.reg rm) fun _ => .bind (.setSet _) fun _ => .setReg _ _

lemma spends_softwareInterrupt (comment : Word) : Spends longest 1 1 (softwareInterrupt comment) :=
  .bind (Exec.spends_softwareInterrupt _) fun _ => .prefetch _

/-- Every ARM instruction that finishes takes cycles, in at most four charges. -/
theorem spends_exec {i : Instr} (h : i.op.burst ≤ longest) (address : Word) :
    Spends longest 1 4 (exec i address) := by
  obtain ⟨cond, op⟩ := i
  have hafter {most : ℕ} {act : Exec Unit} (h : Spends longest 0 most act) (hmost : most ≤ 3) :
      Spends longest 1 4 (afterFetch cond act) :=
    spends_afterFetch cond (h.weaken le_rfl hmost)
  have hinstead {most : ℕ} {act : Exec Unit} (h : Spends longest 1 most act) (hmost : most ≤ 4) :
      Spends longest 1 4 (insteadOfFetch cond act) :=
    spends_insteadOfFetch cond (h.weaken le_rfl hmost)
  cases op with
  | dataProcessing op setFlags rd rn operand =>
    exact hafter (spends_dataProcessing op setFlags rd rn operand) (by decide)
  | readStatus rd saved => exact hafter (spends_readStatus rd saved) (by decide)
  | writeStatus saved mask source =>
    exact hafter (spends_writeStatus saved mask source) (by decide)
  | multiply accumulate setFlags rd rn rs rm =>
    exact hafter (spends_multiply accumulate setFlags rd rn rs rm) (by decide)
  | multiplyLong signed accumulate setFlags rdHi rdLo rs rm =>
    exact hafter (spends_multiplyLong signed accumulate setFlags rdHi rdLo rs rm) (by decide)
  | swap byte rd rn rm => exact hafter (spends_swap byte rd rn rm) (by decide)
  | load kind rd a => exact hafter (spends_loadSingle kind rd a) (by decide)
  | store width rd a => exact hinstead (spends_storeSingle width rd a) (by decide)
  | loadMultiple userBank list a => exact hafter (spends_loadMultiple userBank h a) (by decide)
  | storeMultiple userBank list a => exact hinstead (spends_storeMultiple userBank h) (by decide)
  | branch link offset => exact hinstead (spends_branch link offset) (by decide)
  | branchExchange rm => exact hafter (spends_branchExchange rm) (by decide)
  | softwareInterrupt comment => exact hinstead (spends_softwareInterrupt comment) (by decide)
  | undefined opcode => exact (Spends.throw _).weaken le_rfl (Nat.zero_le 4)

end Arm

/-! ### Thumb instructions -/

namespace Thumb

open Exec (Spends)

variable {longest : ℕ}

lemma spends_putSum (rd : Reg) (s : Sum) : Spends longest 0 0 (putSum rd s) :=
  .bind (.mapFlags _) fun _ => .setReg _ _

lemma spends_putLogical (rd : Reg) (value : Word) : Spends longest 0 0 (putLogical rd value) :=
  .bind (.mapFlags _) fun _ => .setReg _ _

lemma spends_putShift (rd : Reg) (shifted : Word × Bool) :
    Spends longest 0 0 (putShift rd shifted) :=
  .bind (.mapFlags _) fun _ => .setReg _ _

lemma spends_shiftByRegister (kind : ShiftKind) (rd rs : Reg) :
    Spends longest 0 1 (shiftByRegister kind rd rs) :=
  .bind (.core _) fun _ => .bind (.charge (by decide)) fun _ => spends_putShift _ _

lemma spends_alu (op : AluOp) (rd rm : Reg) : Spends longest 0 1 (alu op rd rm) := by
  unfold alu
  refine .bind (.reg rd) fun a => .bind (.reg rm) fun b => .bind (.core _) fun _ => ?_
  have hfree {act : Exec Unit} (h : Spends longest 0 0 act) : Spends longest 0 1 act :=
    h.weaken le_rfl (Nat.zero_le 1)
  cases op with
  | and | eor | orr | bic | mvn => exact hfree (spends_putLogical _ _)
  | lsl | lsr | asr | ror => exact spends_shiftByRegister _ _ _
  | adc | sbc | neg => exact hfree (spends_putSum _ _)
  | tst | cmp | cmn => exact hfree (.mapFlags _)
  | mul =>
    have hle : (multiplyCycles b).toNat ≤ 5 := (multiplyCycles_le b).trans (by decide)
    exact .bind (.charge hle) fun _ => spends_putLogical _ _

lemma spends_immediate (op : ImmediateOp) (rd : Reg) (value : Word) :
    Spends longest 0 0 (immediate op rd value) := by
  refine .bind (.reg rd) fun a => ?_
  cases op with
  | mov => exact spends_putLogical _ _
  | cmp => exact .mapFlags _
  | add | sub => exact spends_putSum _ _

lemma spends_load (kind : LoadKind) (rd : Reg) (address : Word) :
    Spends longest 0 2 (load kind rd address) :=
  .bind (.load _ _) fun _ => .bind (.accessLoad _ _) fun _ => .bind (.charge (by decide)) fun _ =>
    .setReg _ _

lemma spends_chargeAtPc : Spends longest 1 1 chargeAtPc :=
  .chargeAtPc (.access .thumb) (fun _ => trivial) fun _ hfit pc => hfit.waitFetch_pos .thumb pc

lemma spends_store (width : StoreWidth) (rd : Reg) (address : Word) :
    Spends longest 1 2 (store width rd address) :=
  .bind (.reg rd) fun _ => .bind (.store _ _ _) fun _ => .bind spends_chargeAtPc fun _ =>
    .accessStore _ _

lemma spends_pushWords (address : Word) (list : List Reg) :
    Spends longest 0 0 (pushWords address list) := by
  induction list generalizing address with
  | nil => exact .pure _
  | cons r rest ih => exact .bind (.reg r) fun _ => .bind (.store _ _ _) fun _ => ih _

lemma spends_push {list : RegList} {lr : Bool} (h : list.toList.length + lr.toNat ≤ longest) :
    Spends longest 0 1 (push list lr) := by
  have hlength : ((if lr then [Reg.lr] else []) ++ list.toList.reverse).length =
      list.toList.length + lr.toNat := by
    rw [List.length_append, List.length_reverse, Nat.add_comm]
    cases lr <;> rfl
  unfold push
  refine .bind (.reg .sp) fun _ => .bind (spends_pushWords _ _) fun _ => ?_
  refine .bind (.burst ?_ _) fun _ => .setReg _ _
  rw [UInt32.toNat_ofNat', hlength]
  exact (Nat.mod_le _ _).trans h

/-- A pop charges every register that it loads. -/
lemma spends_popWords (address : Word) (list : List Reg) :
    Spends longest 0 list.length (popWords address list) := by
  induction list generalizing address with
  | nil => exact .pure _
  | cons r rest ih =>
    exact .bind (.chargeBus (.sequential .arm _) trivial) fun _ => .bind (.load _ _) fun _ =>
      .bind (.setReg _ _) fun _ => ih _

lemma spends_pop {list : RegList} {pc : Bool} (h : list.toList.length + pc.toNat ≤ longest) :
    Spends longest 0 18 (pop list pc) := by
  unfold pop
  have hwords (address : Word) : Spends longest 0 16 (popWords address list.toList) :=
    (spends_popWords address list.toList).weaken le_rfl list.length_toList_le
  refine .bind (.charge (by decide)) fun _ => .bind (.reg .sp) fun start => ?_
  refine .bind (hwords _) fun after => ?_
  cases pc with
  | true =>
    have hburst := list.toNat_count_add_one_le.trans h
    exact .bind (.load _ _) fun _ => .bind (.setReg _ _) fun _ => .bind (.burst hburst _) fun _ =>
      .setReg _ _
  | false => exact .bind (.burst (list.toNat_count_le.trans h) _) fun _ => .setReg _ _

lemma spends_storeWords (rn : Reg) (base address : Word) (list : List Reg) :
    Spends longest 0 0 (storeWords rn base address list) := by
  induction list generalizing address with
  | nil => exact .pure _
  | cons r rest ih => exact .bind (.reg r) fun _ => .bind (.store _ _ _) fun _ => ih _

lemma spends_storeMultiple (rn : Reg) {list : RegList} (h : list.toList.length ≤ longest) :
    Spends longest 1 2 (storeMultiple rn list) :=
  .bind spends_chargeAtPc fun _ => .bind (.reg rn) fun _ =>
    .bind (spends_storeWords _ _ _ _) fun _ =>
      .bind (.burst (list.toNat_count_le.trans h) _) fun _ => .setReg _ _

lemma spends_loadWords (address : Word) (list : List Reg) :
    Spends longest 0 0 (loadWords address list) := by
  induction list generalizing address with
  | nil => exact .pure _
  | cons r rest ih => exact .bind (.load _ _) fun _ => .bind (.setReg _ _) fun _ => ih _

lemma spends_loadMultiple (rn : Reg) {list : RegList} (h : list.toList.length ≤ longest) :
    Spends longest 0 1 (loadMultiple rn list) :=
  .bind (.reg rn) fun _ => .bind (spends_loadWords _ _) fun _ =>
    .bind (.burst (list.toNat_count_le.trans h) _) fun _ => .when (.setReg _ _)

lemma spends_branchExchange (rm : Reg) : Spends longest 0 0 (branchExchange rm) :=
  .bind (.reg rm) fun _ => .bind (.setSet _) fun _ => .setReg _ _

lemma spends_callLow (offset : Word) : Spends longest 0 0 (callLow offset) :=
  .bind (.core _) fun _ => .bind (.reg .lr) fun _ => .bind (.setReg _ _) fun _ => .setReg _ _

lemma spends_branchBy (offset : Word) : Spends longest 0 0 (branchBy offset) :=
  .bind (.core _) fun _ => .setReg _ _

/-- An instruction that is not charged for the fetch takes cycles itself. -/
lemma spends_act {i : Instr} (h : i.burst ≤ longest) (address : Word) :
    Spends longest (if defersFetch i then 1 else 0) 18 (act i address) := by
  have hact {least most : ℕ} {act : Exec Unit} (h : Spends longest least most act)
      (hmost : most ≤ 18) : Spends longest least 18 act :=
    h.weaken le_rfl hmost
  have hfree {act : Exec Unit} (h : Spends longest 0 0 act) : Spends longest 0 18 act :=
    hact h (Nat.zero_le 18)
  cases i with
  | shift kind rd rm amount => exact hfree (.bind (.core _) fun _ => spends_putShift _ _)
  | addRegister subtract rd rn rm =>
    exact hfree (.bind (.reg rn) fun _ => .bind (.reg rm) fun _ => spends_putSum _ _)
  | addSmall subtract rd rn value => exact hfree (.bind (.reg rn) fun _ => spends_putSum _ _)
  | moveLow rd rn => exact hfree (.bind (.reg rn) fun _ => spends_putSum _ _)
  | immediate op rd value => exact hfree (spends_immediate op rd value)
  | alu op rd rm => exact hact (spends_alu op rd rm) (by decide)
  | addHigh rd rm => exact hfree (.bind (.reg rd) fun _ => .bind (.reg rm) fun _ => .setReg _ _)
  | compareHigh rn rm => exact hfree (.bind (.reg rn) fun _ => .bind (.reg rm) fun _ => .mapFlags _)
  | moveHigh rd rm => exact hfree (.bind (.reg rm) fun _ => .setReg _ _)
  | branchExchange rm => exact hfree (spends_branchExchange rm)
  | load kind rd a => exact hact (.bind (.core _) fun _ => spends_load _ _ _) (by decide)
  | store width rd a => exact hact (.bind (.core _) fun _ => spends_store _ _ _) (by decide)
  | addPc rd offset => exact hfree (.bind (.core _) fun _ => .setReg _ _)
  | addSp rd offset => exact hfree (.bind (.reg .sp) fun _ => .setReg _ _)
  | adjustSp down offset => exact hfree (.bind (.reg .sp) fun _ => .setReg _ _)
  | push list lr => exact hact (spends_push h) (by decide)
  | pop list pc => exact spends_pop h
  | storeMultiple rn list => exact hact (spends_storeMultiple rn h) (by decide)
  | loadMultiple rn list => exact hact (spends_loadMultiple rn h) (by decide)
  | branchIf cond offset =>
    exact hfree (.bind (.testCondition cond) fun _ => .when (spends_branchBy offset))
  | softwareInterrupt comment =>
    exact hact (.bind (Exec.spends_softwareInterrupt comment) fun _ => .prefetch .thumb) (by decide)
  | branch offset => exact hfree (spends_branchBy offset)
  | callHigh offset => exact hfree (.bind (.core _) fun _ => .setReg _ _)
  | callLow offset => exact hfree (spends_callLow offset)
  | undefined opcode => exact hfree (.throw _)

/-- Every Thumb instruction that finishes takes cycles, in at most nineteen charges. -/
theorem spends_exec {i : Instr} (h : i.burst ≤ longest) (address : Word) :
    Spends longest 1 19 (exec i address) := by
  have hact := spends_act h address
  unfold exec
  rcases hdefers : defersFetch i with _ | _
  · rw [hdefers] at hact
    exact .bind (.prefetch _) fun _ => hact
  · rw [hdefers] at hact
    exact hact.weaken le_rfl (by decide)

end Thumb

namespace Exec

/-- Every instruction that finishes takes cycles, and none makes a burst that is longer than its
own. -/
theorem spends_instruction {longest : ℕ} {h : Handle} (hburst : h.instruction.burst ≤ longest) :
    Spends longest 1 19 (instruction h) := by
  unfold instruction
  cases hi : h.instruction with
  | arm i =>
    rw [hi] at hburst
    exact (Arm.spends_exec hburst h.address).weaken le_rfl (by decide)
  | thumb i =>
    rw [hi] at hburst
    exact Thumb.spends_exec hburst h.address

end Exec

end Armv4T
