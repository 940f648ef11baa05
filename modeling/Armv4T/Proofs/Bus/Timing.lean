import Mathlib
import Armv4T.Proofs.Bus.Configured

/-!
# Sums of waiting times

What the core is charged for at once (`Charge`) takes a number of cycles that the bus sums up of the
waiting times of an address: a cycle and one of them for an access, twice as much for an exchange,
two fetches together for a branch, and a burst of words with one access that is not sequential.
Words wrap, so a sum of large waiting times need not be the number of cycles that it stands for
(`Charge.total`). Here the same sums are made of operations that have no result if a word cannot
hold it (`Charge.checked?`), and a charge is exact if they have one (`Charge.Exact`).

The check of a memory map puts no bound on waiting times. The charges at an address are exact just
if its waiting times are bounded (`WaitStates.Bounded`), and every configured region has an address.
So the charges on the bus of a map are exact just if the map bounds the waiting times of all its
regions (`Bus.exists_allExact_iff`).
-/

namespace Armv4T

/-! ### Arithmetic that checks its results -/

namespace Word

variable {a b c : Word}

/-- A sum, if a word can hold it. -/
def checkedAdd (a b : Word) : Option Word :=
  if a.toNat + b.toNat < UInt32.size then some (a + b) else none

/-- A product, if a word can hold it. -/
def checkedMul (a b : Word) : Option Word :=
  if a.toNat * b.toNat < UInt32.size then some (a * b) else none

/-- A checked sum has the value of the sum. -/
lemma checkedAdd_eq_some_iff : checkedAdd a b = some c ↔ c.toNat = a.toNat + b.toNat := by
  unfold checkedAdd
  by_cases h : a.toNat + b.toNat < UInt32.size
  · have hsum : (a + b).toNat = a.toNat + b.toNat :=
      (UInt32.toNat_add a b).trans (Nat.mod_eq_of_lt h)
    rw [if_pos h, Option.some_inj, ← UInt32.toNat_inj, hsum, eq_comm]
  · have hlt := c.toNat_lt
    rw [if_neg h]
    exact iff_of_false nofun fun e => h (e ▸ hlt)

/-- A checked product has the value of the product. -/
lemma checkedMul_eq_some_iff : checkedMul a b = some c ↔ c.toNat = a.toNat * b.toNat := by
  unfold checkedMul
  by_cases h : a.toNat * b.toNat < UInt32.size
  · have hproduct : (a * b).toNat = a.toNat * b.toNat :=
      (UInt32.toNat_mul a b).trans (Nat.mod_eq_of_lt h)
    rw [if_pos h, Option.some_inj, ← UInt32.toNat_inj, hproduct, eq_comm]
  · have hlt := c.toNat_lt
    rw [if_neg h]
    exact iff_of_false nofun fun e => h (e ▸ hlt)

lemma checkedAdd_eq (h : a.toNat + b.toNat < UInt32.size) : checkedAdd a b = some (a + b) :=
  if_pos h

lemma checkedMul_eq (h : a.toNat * b.toNat < UInt32.size) : checkedMul a b = some (a * b) :=
  if_pos h

lemma toNat_pred (h : c ≠ 0) : (c - 1).toNat = c.toNat - 1 := by
  have hpos : c.toNat ≠ 0 := fun e => h (UInt32.toNat_inj.mp e)
  have hle : 1 ≤ c := UInt32.le_iff_toNat_le.mpr (Nat.one_le_iff_ne_zero.mpr hpos)
  exact UInt32.toNat_sub_of_le c 1 hle

end Word

/-! ### Charges -/

/-- The waiting time of an access that is as wide as the opcodes of a set. -/
def WaitStates.nonseq (w : WaitStates) : InstrSet → Word
  | .arm => w.nonseq32
  | .thumb => w.nonseq16

/-- The waiting time of such an access that follows the one before it. -/
def WaitStates.seq (w : WaitStates) : InstrSet → Word
  | .arm => w.seq32
  | .thumb => w.seq16

/-- What the core is charged for at once: cycles of its own, an access, one that follows the access
before it, an exchange, which is two accesses in one, the first two fetches at the target of a
branch, or a burst of words. Accesses are as wide as the opcodes of a set. -/
inductive Charge
  | internal (cycles : Word)
  | access (set : InstrSet) (address : Word)
  | sequential (set : InstrSet) (address : Word)
  | exchange (set : InstrSet) (address : Word)
  | refill (set : InstrSet) (target : Word)
  | burst (address count : Word)

namespace Bus.Checked

variable (bus : Bus)

/-- The cycles of an access. -/
def waitFetch (set : InstrSet) (address : Word) : Option Word :=
  Word.checkedAdd 1 ((bus.waits address).nonseq set)

/-- The cycles of an access that follows the one before it. -/
def waitPrefetch (set : InstrSet) (address : Word) : Option Word :=
  Word.checkedAdd 1 ((bus.waits address).seq set)

/-- The cycles of a burst of words. -/
def waitMultiple32 (address count : Word) : Option Word :=
  if count = 0 then some 0
  else do
    let first ← waitFetch bus .arm address
    let next ← waitPrefetch bus .arm address
    Word.checkedAdd first (← Word.checkedMul (count - 1) next)

end Bus.Checked

namespace Charge

/-- The cycles of a charge, as the bus sums them up. -/
def cost (bus : Bus) : Charge → Word
  | internal cycles => cycles
  | access set address => bus.waitFetch set address
  | sequential set address => bus.waitPrefetch set address
  | exchange set address => bus.waitFetch set address * 2
  | refill set target => bus.waitFetch set target + bus.waitPrefetch set target
  | burst address count => bus.waitMultiple32 address count

/-- The cycles of a charge, if words hold all the sums and products on the way. -/
def checked? (bus : Bus) : Charge → Option Word
  | internal cycles => some cycles
  | access set address => Bus.Checked.waitFetch bus set address
  | sequential set address => Bus.Checked.waitPrefetch bus set address
  | exchange set address => do Word.checkedMul (← Bus.Checked.waitFetch bus set address) 2
  | refill set target => do
    let first ← Bus.Checked.waitFetch bus set target
    Word.checkedAdd first (← Bus.Checked.waitPrefetch bus set target)
  | burst address count => Bus.Checked.waitMultiple32 bus address count

/-- The number of cycles that a charge stands for. -/
def total (bus : Bus) : Charge → ℕ
  | internal cycles => cycles.toNat
  | access set address => 1 + ((bus.waits address).nonseq set).toNat
  | sequential set address => 1 + ((bus.waits address).seq set).toNat
  | exchange set address => 2 * (1 + ((bus.waits address).nonseq set).toNat)
  | refill set target =>
    (1 + ((bus.waits target).nonseq set).toNat) + (1 + ((bus.waits target).seq set).toNat)
  | burst address count =>
    if count = 0 then 0
    else (1 + (bus.waits address).nonseq32.toNat) +
      (count.toNat - 1) * (1 + (bus.waits address).seq32.toNat)

/-- A charge is computed without an overflow. -/
def Exact (bus : Bus) (c : Charge) : Prop := c.checked? bus = some (c.cost bus)

/-- A charge that an instruction may make: at most five cycles of its own, or a burst of at most
`most` words. -/
def Within (most : ℕ) : Charge → Prop
  | internal cycles => cycles.toNat ≤ 5
  | burst _ count => count.toNat ≤ most
  | _ => True

variable {bus bus' : Bus}

/-- What a charge costs depends on the waiting times of the bus. -/
lemma cost_congr (h : bus'.waits = bus.waits) (c : Charge) : c.cost bus' = c.cost bus := by
  have hwait : bus'.wait = bus.wait ∧ bus'.wait32 = bus.wait32 := by
    constructor <;> (funext address; simp only [Bus.wait, Bus.wait32, h])
  have hnext : bus'.waitSeq = bus.waitSeq ∧ bus'.waitSeq32 = bus.waitSeq32 := by
    constructor <;> (funext address; simp only [Bus.waitSeq, Bus.waitSeq32, h])
  have hfetch : bus'.waitFetch = bus.waitFetch := by
    funext set address
    cases set <;> simp only [Bus.waitFetch, hwait]
  have hprefetch : bus'.waitPrefetch = bus.waitPrefetch := by
    funext set address
    cases set <;> simp only [Bus.waitPrefetch, hnext]
  cases c <;> simp only [cost, Bus.waitMultiple32, hfetch, hprefetch, hwait, hnext]

/-- A result that is checked is the number of cycles that the charge stands for. -/
lemma toNat_of_checked? {c : Charge} {v : Word} (h : c.checked? bus = some v) :
    v.toNat = c.total bus := by
  have hone {w v : Word} (h : Word.checkedAdd 1 w = some v) : v.toNat = 1 + w.toNat :=
    Word.checkedAdd_eq_some_iff.mp h
  cases c with
  | internal cycles => rw [total, Option.some.inj h]
  | access set address => exact hone h
  | sequential set address => exact hone h
  | exchange set address =>
    obtain ⟨first, hfirst, hproduct⟩ := Option.bind_eq_some_iff.mp h
    rw [total, Word.checkedMul_eq_some_iff.mp hproduct, hone hfirst, Nat.mul_comm]
    rfl
  | refill set target =>
    obtain ⟨first, hfirst, h⟩ := Option.bind_eq_some_iff.mp h
    obtain ⟨next, hnext, hsum⟩ := Option.bind_eq_some_iff.mp h
    rw [total, Word.checkedAdd_eq_some_iff.mp hsum, hone hfirst, hone hnext]
  | burst address count =>
    by_cases hcount : count = 0
    · rw [checked?, Bus.Checked.waitMultiple32, if_pos hcount] at h
      rw [total, if_pos hcount, ← Option.some.inj h]
      rfl
    · rw [checked?, Bus.Checked.waitMultiple32, if_neg hcount] at h
      obtain ⟨first, hfirst, h⟩ := Option.bind_eq_some_iff.mp h
      obtain ⟨next, hnext, h⟩ := Option.bind_eq_some_iff.mp h
      obtain ⟨rest, hrest, hsum⟩ := Option.bind_eq_some_iff.mp h
      rw [total, if_neg hcount, Word.checkedAdd_eq_some_iff.mp hsum,
        Word.checkedMul_eq_some_iff.mp hrest, hone hfirst, hone hnext, Word.toNat_pred hcount]
      rfl

lemma Exact.total_lt {c : Charge} (h : c.Exact bus) : c.total bus < UInt32.size := by
  rw [← toNat_of_checked? h]
  exact (c.cost bus).toNat_lt

end Charge

/-! ### Bounds of waiting times -/

/-- The largest sums that are made of waiting times fit a word. -/
structure WaitStates.Bounded (w : WaitStates) : Prop where
  exchange : ∀ set, 2 * (1 + (w.nonseq set).toNat) < UInt32.size
  refill : ∀ set, (1 + (w.nonseq set).toNat) + (1 + (w.seq set).toNat) < UInt32.size
  burst : (1 + w.nonseq32.toNat) + 15 * (1 + w.seq32.toNat) < UInt32.size

/-- Sixteen small waiting times sum up within a word. -/
lemma WaitStates.Bounded.of_small {w : WaitStates}
    (h : ∀ wait ∈ [w.nonseq16, w.seq16, w.nonseq32, w.seq32], 1 + wait.toNat < 2 ^ 28) :
    w.Bounded := by
  simp only [List.forall_mem_cons] at h
  obtain ⟨hnonseq16, hseq16, hnonseq32, hseq32, -⟩ := h
  have hsize : UInt32.size = 2 ^ 32 := rfl
  refine ⟨fun set => ?_, fun set => ?_, by omega⟩
  · cases set <;> (dsimp only [nonseq]; omega)
  · cases set <;> (dsimp only [nonseq, seq]; omega)

namespace Bus

variable {bus : Bus} {address : Word}

/-- All charges that instructions may make are exact. -/
def AllExact (bus : Bus) : Prop := ∀ c : Charge, c.Within 16 → c.Exact bus

section Bounded

variable (h : (bus.waits address).Bounded) (set : InstrSet)

include h

lemma checkedFetch_eq : Checked.waitFetch bus set address = some (bus.waitFetch set address) := by
  have hlt : 1 + ((bus.waits address).nonseq set).toNat < UInt32.size := by
    have hexchange := h.exchange set
    omega
  cases set <;> exact Word.checkedAdd_eq hlt

lemma checkedPrefetch_eq :
    Checked.waitPrefetch bus set address = some (bus.waitPrefetch set address) := by
  have hlt : 1 + ((bus.waits address).seq set).toNat < UInt32.size := by
    have hrefill := h.refill set
    omega
  cases set <;> exact Word.checkedAdd_eq hlt

lemma toNat_waitFetch :
    (bus.waitFetch set address).toNat = 1 + ((bus.waits address).nonseq set).toNat :=
  Word.checkedAdd_eq_some_iff.mp (checkedFetch_eq h set)

lemma toNat_waitPrefetch :
    (bus.waitPrefetch set address).toNat = 1 + ((bus.waits address).seq set).toNat :=
  Word.checkedAdd_eq_some_iff.mp (checkedPrefetch_eq h set)

end Bounded

/-- Where waiting times are bounded all charges are exact. -/
lemma allExact_of_bounded (h : ∀ address, (bus.waits address).Bounded) : bus.AllExact := by
  intro c hc
  unfold Charge.Exact
  cases c with
  | internal cycles => rfl
  | access set address => exact checkedFetch_eq (h address) set
  | sequential set address => exact checkedPrefetch_eq (h address) set
  | exchange set address =>
    have hfits : (bus.waitFetch set address).toNat * 2 < UInt32.size := by
      rw [toNat_waitFetch (h address), Nat.mul_comm]
      exact (h address).exchange set
    rw [Charge.checked?, checkedFetch_eq (h address)]
    exact Word.checkedMul_eq hfits
  | refill set target =>
    have hfits : (bus.waitFetch set target).toNat + (bus.waitPrefetch set target).toNat <
        UInt32.size := by
      rw [toNat_waitFetch (h target), toNat_waitPrefetch (h target)]
      exact (h target).refill set
    rw [Charge.checked?, checkedFetch_eq (h target), checkedPrefetch_eq (h target)]
    exact Word.checkedAdd_eq hfits
  | burst address count =>
    rw [Charge.checked?, Charge.cost, Checked.waitMultiple32, waitMultiple32]
    by_cases hcount : count = 0
    · rw [if_pos hcount, if_pos hcount]
    · have hrest : (count - 1).toNat * (bus.waitSeq32 address).toNat ≤
          15 * (1 + (bus.waits address).seq32.toNat) := by
        have hnext : (bus.waitSeq32 address).toNat = _ := toNat_waitPrefetch (h address) .arm
        have hle : count.toNat ≤ 16 := hc
        rw [hnext, Word.toNat_pred hcount]
        exact Nat.mul_le_mul_right _ (by omega)
      have hfirst : (bus.wait32 address).toNat = _ := toNat_waitFetch (h address) .arm
      have hburst := (h address).burst
      have hproduct : Word.checkedMul (count - 1) (bus.waitSeq32 address) =
          some ((count - 1) * bus.waitSeq32 address) :=
        Word.checkedMul_eq (by omega)
      have hsum : (bus.wait32 address).toNat + ((count - 1) * bus.waitSeq32 address).toNat <
          UInt32.size := by
        have hnonseq : (bus.waits address).nonseq .arm = (bus.waits address).nonseq32 := rfl
        rw [hfirst, Word.checkedMul_eq_some_iff.mp hproduct, hnonseq]
        omega
      rw [if_neg hcount, if_neg hcount, checkedFetch_eq (h address), checkedPrefetch_eq (h address)]
      show (Word.checkedMul (count - 1) (bus.waitSeq32 address)).bind _ = _
      rw [hproduct]
      exact Word.checkedAdd_eq hsum

/-- Where all charges are exact the waiting times are bounded. -/
lemma AllExact.bounded (h : bus.AllExact) (address : Word) : (bus.waits address).Bounded where
  exchange set := (h (.exchange set address) trivial).total_lt
  refill set := (h (.refill set address) trivial).total_lt
  burst := (h (.burst address 16) le_rfl).total_lt

lemma AllExact.congr {bus' : Bus} (h : bus.AllExact) (hwaits : bus'.waits = bus.waits) :
    bus'.AllExact :=
  allExact_of_bounded fun address => hwaits ▸ h.bounded address

/-! ### Configured waiting times -/

/-- An address has no waiting times or those of a region. -/
lemma waits_cases (bus : Bus) (address : Word) :
    bus.waits address = {} ∨ ∃ r ∈ bus.regions, bus.waits address = r.wait := by
  unfold waits
  rcases hregion : bus.region? address with _ | r
  · exact .inl rfl
  · refine .inr ⟨r, ?_, rfl⟩
    unfold region? at hregion
    split at hregion
    · obtain ⟨i, -, hi⟩ := Option.bind_eq_some_iff.mp hregion
      exact Array.mem_of_getElem? hi
    · cases hregion

lemma Realizes.forall_wait_iff {configs : List RegionConfig} (h : bus.Realizes configs)
    {P : WaitStates → Prop} : (∀ r ∈ bus.regions, P r.wait) ↔ ∀ c ∈ configs, P c.wait := by
  constructor
  · intro hall c hc
    obtain ⟨k, hk⟩ := List.mem_iff_getElem?.mp hc
    have hlt : k < bus.regions.size := h.size ▸ (List.getElem?_eq_some_iff.mp hk).1
    have hr : bus.regions[k]? = some bus.regions[k] := Array.getElem?_eq_getElem hlt
    rw [← (h.describes k c _ ⟨hk, hr⟩).wait]
    exact hall _ (Array.mem_of_getElem? hr)
  · intro hall r hr
    obtain ⟨k, hk⟩ := Array.mem_iff_getElem?.mp hr
    obtain ⟨c, hpair⟩ := h.exists_pairs hk
    rw [(h.describes k c r hpair).wait]
    exact hall c (List.mem_of_getElem? hpair.1)

/-- The base of a region is one of its addresses. -/
lemma Built.region?_base (h : bus.Built) {r : Region} (hr : r ∈ bus.regions) :
    bus.region? r.base = some r := by
  obtain ⟨k, hk⟩ := Array.mem_iff_getElem?.mp hr
  obtain ⟨n, hplaced⟩ := h.placed k r hk
  have hfits := hplaced.fits
  have hpos : 0 < 2 ^ (n - 24) := by positivity
  have hlt : r.base.toNat < 2 ^ 28 := by omega
  have hclaims : r.Claims r.base := by
    refine ⟨le_rfl, Nat.lt_add_of_pos_right ?_⟩
    exact lt_max_of_lt_right (by decide)
  rw [region?_eq_bind, (hplaced.regionNumber?_iff hlt).mpr hclaims]
  exact hk

/-- All charges on a bus that has been built are exact just if the waiting times of its regions are
bounded. -/
lemma Built.allExact_iff (h : bus.Built) :
    bus.AllExact ↔ ∀ r ∈ bus.regions, r.wait.Bounded := by
  constructor
  · intro hexact r hr
    have hbounded := hexact.bounded r.base
    rw [waits, h.region?_base hr] at hbounded
    exact hbounded
  · intro hall
    refine allExact_of_bounded fun address => ?_
    rcases bus.waits_cases address with hnone | ⟨r, hr, hwaits⟩
    · rw [hnone]
      exact .of_small (by simp)
    · rw [hwaits]
      exact hall r hr

/-- Every memory map that passes its check is built, and all charges on its bus are exact just if
the waiting times that it configures are bounded. -/
lemma exists_allExact_iff {map : MemoryMap} (h : map.validate = .ok ()) :
    ∃ bus, ofMap map = .ok bus ∧
      (bus.AllExact ↔ ∀ config ∈ map.regions, config.wait.Bounded) := by
  obtain ⟨bus, hbus, hbuilt, -⟩ := exists_ofMap h
  obtain ⟨bus', hbus', hconfigured⟩ := exists_configured h
  obtain rfl : bus = bus' := Except.ok.inj (hbus.symm.trans hbus')
  exact ⟨bus, hbus, hbuilt.allExact_iff.trans hconfigured.forall_wait_iff⟩

end Bus

end Armv4T
