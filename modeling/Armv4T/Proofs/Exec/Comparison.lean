import Mathlib
import Armv4T.Step
import Armv4T.Proofs.Alu.Sum
import Armv4T.Proofs.Exec.Arm
import Armv4T.Proofs.Exec.Equivalent
import Armv4T.Proofs.Exec.Multiple

/-!
# Comparisons

A comparison takes a difference and keeps only its flags. The difference is exact, so each of its
flags says something of the compared values: the zero flag that they are equal, the carry that the
first is not lower, and the sign, put right by the overflow, which of the signed numbers is less.
Every condition is a formula on these flags, and so it names a relation of the compared values
(`Condition.Relates`). The comparisons of both sets leave the flags of one difference, and nothing
else.
-/

namespace Armv4T

/-! ### Differences and relations -/

namespace Sum

variable (a b : Word)

lemma sub_subtracts : (sub a b).Subtracts a b true := by
  rw [sub_eq_sbc]
  exact sbc_subtracts a b true

lemma sub_carry_iff : (sub a b).carry = true ↔ b ≤ a := (sub_subtracts a b).carry

lemma sub_overflow_iff :
    (sub a b).overflow = true ↔ ¬Word.FitsSigned (a.signed - b.signed) := by
  simpa using (sub_subtracts a b).overflow

/-- The sign of a difference tells which number is less, unless the difference overflows, and then
it tells the contrary. -/
lemma sub_sign : (a - b).bit 31 = (decide (a.signed < b.signed) ^^ (sub a b).overflow) := by
  have hdiff := toNat_sbc a b true
  rw [← sub_eq_sbc, sub_value, Bool.not_true, Bool.toNat_false] at hdiff
  have hborrow := (!(sub a b).carry).toNat_le
  have hoverflow : (sub a b).overflow = subOverflows a b (a - b) := rfl
  rw [hoverflow, subOverflows_eq]
  rcases a.signed_cases with ⟨hsa, ha⟩ | ⟨hsa, ha⟩ <;>
    rcases b.signed_cases with ⟨hsb, hb⟩ | ⟨hsb, hb⟩ <;>
    rcases (a - b).signed_cases with ⟨hsv, hv⟩ | ⟨hsv, hv⟩ <;>
    simp [hsa, hsb, hsv] <;> omega

end Sum

namespace Condition

/-- The relation that a condition names, of two values that have been compared. -/
def Relates (a b : Word) : Condition → Prop
  | eq => a = b
  | ne => a ≠ b
  | cs => b ≤ a
  | cc => a < b
  | mi => (a - b).signed < 0
  | pl => 0 ≤ (a - b).signed
  | vs => ¬Word.FitsSigned (a.signed - b.signed)
  | vc => Word.FitsSigned (a.signed - b.signed)
  | hi => b < a
  | ls => a ≤ b
  | ge => b.signed ≤ a.signed
  | lt => a.signed < b.signed
  | gt => b.signed < a.signed
  | le => a.signed ≤ b.signed
  | al => True

/-- After a difference has set the flags, the conditions are the relations that they name. -/
lemma passes_sub_iff (a b : Word) (old : Flags) (cond : Condition) :
    cond.passes ((Sum.sub a b).flags old) = true ↔ cond.Relates a b := by
  set f := (Sum.sub a b).flags old with hf
  have hz : f.z = true ↔ a = b := beq_iff_eq.trans sub_eq_zero
  have hc : f.c = true ↔ b ≤ a := Sum.sub_carry_iff a b
  have hn : f.n = true ↔ (a - b).signed < 0 := Word.bit_31_iff (a - b)
  have hv : f.v = true ↔ ¬Word.FitsSigned (a.signed - b.signed) := Sum.sub_overflow_iff a b
  have hlt : (f.n != f.v) = true ↔ a.signed < b.signed := by
    have hsign : f.n = (decide (a.signed < b.signed) ^^ f.v) := Sum.sub_sign a b
    rw [hsign]
    cases f.v <;> simp
  have hge : (f.n == f.v) = true ↔ b.signed ≤ a.signed := by
    rw [← not_lt, ← hlt]
    simp
  have hsigned : a = b ↔ a.signed = b.signed := Word.signed_inj.symm
  have hnot (x : Bool) : (!x) = true ↔ ¬x = true := by simp
  cases cond with
  | eq => exact hz
  | ne => exact (hnot _).trans hz.not
  | cs => exact hc
  | cc => exact (hnot _).trans (hc.not.trans UInt32.not_le)
  | mi => exact hn
  | pl => exact (hnot _).trans (hn.not.trans not_lt)
  | vs => exact hv
  | vc => exact (hnot _).trans (hv.not.trans not_not)
  | hi =>
    rw [passes, Bool.and_eq_true, hc, hnot, hz, eq_comm]
    exact UInt32.lt_iff_le_and_ne.symm
  | ls =>
    rw [passes, Bool.or_eq_true, hnot, hc, hz, UInt32.not_le]
    exact UInt32.le_iff_lt_or_eq.symm
  | ge => exact hge
  | lt => exact hlt
  | gt =>
    rw [passes, Bool.and_eq_true, hnot, hz, hge, hsigned]
    exact ⟨fun h => lt_of_le_of_ne h.2 (Ne.symm h.1), fun h => ⟨h.ne', h.le⟩⟩
  | le =>
    rw [passes, Bool.or_eq_true, hz, hlt, hsigned]
    exact le_iff_eq_or_lt.symm
  | al => exact ⟨fun _ => trivial, fun _ => rfl⟩

end Condition

/-! ### Comparisons -/

/-- The tests of the ARM set are only decoded with the bit that sets the flags. -/
lemma Arm.setFlags_of_decode_test {w : Word} {op : AluOp} {setFlags : Bool} {rd rn : Reg}
    {operand : Operand} (h : (decode w).op = .dataProcessing op setFlags rd rn operand)
    (htest : op.isTest = true) : setFlags = true := by
  have hop : decodeOp w = .dataProcessing op setFlags rd rn operand := h
  have hdata : decodeOp w = decodeDataProcessing w := by
    unfold decodeOp decodeMultiply decodeHalf decodeTransfer decodeBlock at *
    grind
  rw [hdata, decodeDataProcessing] at hop
  split at hop
  · unfold decodeStatus at hop
    grind
  · cases hop
    simp_all

/-- An instruction is a comparison, which a core executes, of two values: the ARM comparison, if its
condition holds and no program counter stands in the place of its result, and those of the Thumb
set. -/
inductive Instruction.Compares (c : Core) : Instruction → Word → Word → Prop
  | arm {cond : Condition} {rd : Reg} (rn : Reg) (operand : Operand)
    (hcond : cond.passes c.regs.flags = true) (hrd : rd ≠ .pc) :
    Compares c (.arm ⟨cond, .dataProcessing .cmp true rd rn operand⟩) (c.reg rn)
      (c.operandValue operand).1
  | thumbImmediate (rn : Reg) (value : Word) :
    Compares c (.thumb (.immediate .cmp rn value)) (c.reg rn) value
  | thumbLow (rn rm : Reg) : Compares c (.thumb (.alu .cmp rn rm)) (c.reg rn) (c.reg rm)
  | thumbHigh (rn rm : Reg) : Compares c (.thumb (.compareHigh rn rm)) (c.reg rn) (c.reg rm)

namespace Registers

/-- The register file with the flags of a comparison. -/
def compared (r : Registers) (x y : Word) : Registers :=
  { r with flags := (Sum.sub x y).flags r.flags }

end Registers

open Exec (Transfers transfers_core transfers_prefetch transfers_reg)

lemma Arm.transfers_compare (bus : Bus) (c : Core) {rd : Reg} (hrd : rd ≠ .pc) (rn : Reg)
    (operand : Operand) :
    Transfers (dataProcessing .cmp true rd rn operand) bus c.regs ()
      (c.regs.compared (c.reg rn) (c.operandValue operand).1) [] := by
  rintro b rfl hregs
  have hvalue : b.core.operandValue operand = c.operandValue operand := by
    cases operand <;> simp [Core.operandValue, Core.reg, Core.regAhead, hregs]
  have hreg : b.core.reg rn = c.reg rn := congrArg (·.read rn) hregs
  rw [dataProcessing_of_ne_pc _ _ hrd, ← hvalue, ← hreg, ← hregs]
  exact ⟨_, rfl, rfl, rfl, rfl, rfl⟩

lemma Thumb.transfers_compare (bus : Bus) (r : Registers) (x y : Word) :
    Transfers (setSum (.sub x y)) bus r () (r.compared x y) [] := by
  rintro b rfl rfl
  exact ⟨_, rfl, rfl, rfl, rfl, rfl⟩

/-- A comparison leaves its flags and nothing else. -/
lemma Instruction.Compares.transfers {h : Handle} {c : Core} {x y : Word}
    (hcmp : h.instruction.Compares c x y) (bus : Bus) :
    Transfers (Exec.instruction h) bus c.regs () (c.regs.compared x y) [] := by
  rcases h with ⟨i, address, opcode, next⟩
  cases hcmp with
  | arm rn operand hcond hrd =>
    exact Arm.transfers_afterFetch hcond (Arm.transfers_compare bus c hrd rn operand)
  | thumbImmediate rn value =>
    exact (transfers_prefetch bus c.regs .thumb).before <|
      (transfers_reg bus c.regs rn).before (Thumb.transfers_compare bus c.regs _ _)
  | thumbLow rn rm =>
    exact (transfers_prefetch bus c.regs .thumb).before <|
      (transfers_reg bus c.regs rn).before <| (transfers_reg bus c.regs rm).before <|
        (transfers_core bus c.regs fun _ => rfl).before (Thumb.transfers_compare bus c.regs _ _)
  | thumbHigh rn rm =>
    exact (transfers_prefetch bus c.regs .thumb).before <|
      (transfers_reg bus c.regs rn).before <| (transfers_reg bus c.regs rm).before <|
        Thumb.transfers_compare bus c.regs _ _

/-- After a comparison, which always finishes and changes no register, each condition holds exactly
if the relation that it names holds of the compared values. -/
theorem passes_iff_relates_of_compares {h : Handle} {b : Board} {x y : Word}
    (hcmp : h.instruction.Compares b.core x y) :
    ∃ b', Exec.instruction h b = .ok () b' ∧
      b.Transferred b' { b.core.regs with flags := b'.core.regs.flags } [] ∧
      ∀ cond : Condition, cond.passes b'.core.regs.flags = true ↔ cond.Relates x y := by
  obtain ⟨b', hrun, ht⟩ := hcmp.transfers b.bus b rfl rfl
  refine ⟨b', hrun, ⟨?_, ht.halted, ht.bus, ht.irq⟩, fun cond => ?_⟩
  · rw [ht.regs]
    rfl
  · rw [ht.regs]
    exact Condition.passes_sub_iff x y _ cond

/-- Comparing zero with one, on a core that has just been cleared. -/
theorem passes_iff_relates_of_compares_one :
    (Instruction.thumb (.immediate .cmp .r0 1)).Compares ({} : Board).core 0 1 ∧
      ∃ b', Exec.instruction ⟨.thumb (.immediate .cmp .r0 1), 0, 0x2801, none⟩ {} = .ok () b' ∧
        ({} : Board).Transferred b' { flags := b'.core.regs.flags } [] ∧
        ∀ cond : Condition, cond.passes b'.core.regs.flags = true ↔ cond.Relates 0 1 := by
  have hcmp : (Instruction.thumb (.immediate .cmp .r0 1)).Compares ({} : Board).core 0 1 :=
    .thumbImmediate .r0 1
  exact ⟨hcmp, passes_iff_relates_of_compares hcmp⟩

end Armv4T
