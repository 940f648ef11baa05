import Mathlib
import Armv4T.Proofs.Decode.WellFormed
import Armv4T.Proofs.Machine.Cycles
import Armv4T.Proofs.Machine.ReadOnly

/-!
# Steps without an overflow

A step makes at most twenty charges (`Machine.paid_step`). An opcode has room for a list of sixteen
registers, so no instruction that was decoded from one makes a longer burst
(`Instruction.burst_decode_le`), and on a machine whose cache holds nothing but decodings the same
is true of every step. If the charges on the bus are exact, the count of the core moves on by the
numbers of cycles that they stand for (`Machine.StepExact`).

The regions of a bus and where they are do not change, nor do the entries of the cache become
anything but decodings. So the charges of all steps of a machine on the bus of a map are exact, and
all that could be made there, just if the map bounds the waiting times of its regions
(`Machine.charges_exact_iff`). The check of a map does not see to it
(`Machine.not_forall_allExact`).
-/

namespace Armv4T

/-! ### The bursts of decoded instructions -/

lemma Arm.Op.InRange.burst_le {w : Word} {op : Op} (h : op.InRange w) : op.burst ≤ 16 := by
  cases op with
  | loadMultiple userBank list a => exact list.length_toList_le
  | storeMultiple userBank list a =>
    have hcount : list.toList.length + (a.overlap && a.writeback).toNat = w.popcount16 := h.2
    exact hcount.trans_le w.popcount16_le
  | _ => exact Nat.zero_le 16

lemma Thumb.Instr.InRange.burst_le {w : Word} {i : Instr} (h : i.InRange w) : i.burst ≤ 16 := by
  cases i with
  | push list lr =>
    have hlow := RegList.length_toList_le_of_low h
    exact (Nat.add_le_add hlow lr.toNat_le).trans (by decide)
  | pop list pc =>
    have hlow := RegList.length_toList_le_of_low h
    exact (Nat.add_le_add hlow pc.toNat_le).trans (by decide)
  | storeMultiple rn list | loadMultiple rn list => exact list.length_toList_le
  | _ => exact Nat.zero_le 16

lemma Instruction.burst_decode_le (set : InstrSet) (w : Word) : (decode set w).burst ≤ 16 := by
  cases set with
  | arm => exact (Arm.wellFormed_decodeOp w).inRange.burst_le
  | thumb => exact (Thumb.wellFormed_decode w).inRange.burst_le

lemma Handle.Decoded.burst_le {h : Handle} (hdecoded : h.Decoded) : h.instruction.burst ≤ 16 := by
  rw [hdecoded]
  exact Instruction.burst_decode_le h.set h.opcode

/-! ### Exact charges -/

/-- A bill of exact charges comes to what they stand for. -/
lemma Charge.sum_eq_total {bus : Bus} {bill : List Charge} (h : ∀ c ∈ bill, c.Exact bus) :
    sum bus bill = (bill.map (total bus)).sum :=
  congrArg List.sum (List.map_congr_left fun c hc => toNat_of_checked? (h c hc))

/-! ### Steps -/

namespace Machine

variable {m : Machine} {bus : Bus}

/-- On a machine whose cache holds nothing but decodings, a step makes no burst of more than sixteen
words. -/
lemma paid_step (hgenuine : m.board.bus.cache.Genuine) :
    m.board.Paid 16 0 20 (m.perform .step).board := by
  have hcaches := m.caches_announce
  rcases m.announce_cases with ⟨m₁, hannounce, hbare⟩ | ⟨fault, m₁, hannounce, hbare⟩
  · rw [after, hannounce] at hcaches
    have hgenuine₁ : m₁.board.bus.cache.Genuine := hcaches.genuine hgenuine
    have hburst : ∀ h b, Exec.currentHandle m₁.board = .ok h b → h.instruction.burst ≤ 16 :=
      fun h b hcurrent => (Exec.decoded_of_currentHandle hgenuine₁ hcurrent).burst_le
    have hannounced : m.board.Paid 16 0 0 m₁.board := .of_bare hbare
    rw [perform_of_announce hannounce]
    exact hannounced.trans (Exec.spendsFrom_step hburst).paid_after
  · rw [perform_of_announce_error hannounce]
    exact (Board.Paid.of_bare hbare).weaken le_rfl (Nat.zero_le 20)

/-- The step of a machine is charged for without an overflow: the count of the core moves on by what
at most twenty charges stand for, each of which is one that instructions may make, and exact. -/
def StepExact (m : Machine) : Prop :=
  ∃ bill : List Charge, bill.length ≤ 20 ∧
    (∀ c ∈ bill, c.Within 16 ∧ c.Exact m.board.bus) ∧
    (m.perform .step).board.core.cycles =
      m.board.core.cycles + .ofNat (bill.map (Charge.total m.board.bus)).sum

lemma stepExact_of_allExact (hgenuine : m.board.bus.cache.Genuine)
    (hexact : m.board.bus.AllExact) : m.StepExact := by
  obtain ⟨bill, hlength, hwithin, -, hcycles⟩ := (paid_step hgenuine).bill
  have hall : ∀ c ∈ bill, c.Exact m.board.bus := fun c hc => hexact c (hwithin c hc)
  refine ⟨bill, hlength, fun c hc => ⟨hwithin c hc, hall c hc⟩, ?_⟩
  rw [hcycles, Charge.sum_eq_total hall]

/-! ### Runs -/

lemma genuine_actAll (h : m.board.bus.cache.Genuine) (acts : List Act) :
    (m.actAll acts).board.bus.cache.Genuine := by
  induction acts generalizing m with
  | nil => exact h
  | cons a acts ih => exact ih ((m.caches_act a).genuine h)

/-- The waiting times of a machine stay those of the bus that it was given. -/
lemma waits_actAll (hs : Bus.SameShape { bus with strict := m.board.bus.strict } m.board.bus)
    (acts : List Act) : (m.actAll acts).board.bus.waits = bus.waits := by
  have hs' := hs.trans_strict (m.sameShape_actAll acts)
  exact (Bus.waits_of_wiring hs'.wiring).trans rfl

/-- Every memory map that passes its check is built. It bounds the waiting times of all its regions
exactly if nothing that is made of them on the bus overflows: no charge at any address, of a burst
of up to sixteen words for instance, and nothing that a step of a machine on this bus is charged
for. The machine may have anything in its memory, its cache may hold any decodings, and anything may
have been executed or done to it from outside before. -/
theorem charges_exact_iff {map : MemoryMap} (h : map.validate = .ok ()) :
    ∃ bus, Bus.ofMap map = .ok bus ∧
      ((bus.AllExact ∧ ∀ m : Machine,
          Bus.SameShape { bus with strict := m.board.bus.strict } m.board.bus →
          m.board.bus.cache.Genuine → ∀ acts : List Act, (m.actAll acts).StepExact) ↔
        ∀ config ∈ map.regions, config.wait.Bounded) := by
  obtain ⟨bus, hbus, hiff⟩ := Bus.exists_allExact_iff h
  refine ⟨bus, hbus, ⟨fun hexact => hiff.mp hexact.1, fun hbounded => ?_⟩⟩
  have hexact : bus.AllExact := hiff.mpr hbounded
  refine ⟨hexact, fun m hs hgenuine acts => ?_⟩
  exact stepExact_of_allExact (genuine_actAll hgenuine acts) (hexact.congr (waits_actAll hs acts))

/-- The handheld bounds its waiting times, so a store of sixteen registers is charged for
exactly. -/
theorem charges_exact_handheld :
    let m := handheld [(0x03000000, 0xE8A0FFFF)]
    let acts : List Act := [.input (.writeRegister 15 0x03000000)]
    MemoryMap.handheld.validate = .ok () ∧ Bus.handheld.AllExact ∧ (m.actAll acts).StepExact := by
  intro m acts
  obtain ⟨bus, hbus, hiff⟩ := charges_exact_iff Bus.validate_handheld
  obtain rfl : Bus.handheld = bus := Except.ok.inj (Bus.ofMap_handheld.symm.trans hbus)
  have hsmall : ∀ config ∈ MemoryMap.handheld.regions,
      ∀ wait ∈ [config.wait.nonseq16, config.wait.seq16, config.wait.nonseq32, config.wait.seq32],
        1 + wait.toNat < 2 ^ 28 := by
    simp [MemoryMap.handheld]
  have hbounded : ∀ config ∈ MemoryMap.handheld.regions, config.wait.Bounded :=
    fun config hconfig => .of_small (hsmall config hconfig)
  obtain ⟨hexact, hsteps⟩ := hiff.mpr hbounded
  exact ⟨Bus.validate_handheld, hexact, hsteps m (sameShape_handheld _) (genuine_handheld _) acts⟩

/-- The check of a memory map puts no bound on its waiting times. -/
theorem not_forall_allExact :
    ¬∀ (map : MemoryMap) (bus : Bus), map.validate = .ok () → Bus.ofMap map = .ok bus →
      bus.AllExact := by
  intro hall
  let slow : RegionConfig :=
    { id := "a", base := 0, size := "1KiB", wait := { nonseq32 := 0xFFFFFFFF } }
  let map : MemoryMap := { name := "m", regions := [slow] }
  have hcheck : map.validate = .ok () := by decide +kernel
  obtain ⟨bus, hbus, hiff⟩ := Bus.exists_allExact_iff hcheck
  have hbounded := hiff.mp (hall map bus hcheck hbus) slow (List.mem_singleton_self slow)
  exact absurd (hbounded.exchange .arm) (by decide)

end Machine

end Armv4T
