import Mathlib
import Armv4T.Alu
import Armv4T.Proofs.Word.Bits

/-!
# Sums

What a sum keeps of the numbers it is made from: the value is the number modulo 2^32, and the carry
is what is beyond. A sum or a difference with a carry is made in two steps that may both wrap, but
no more than one of them does. The masks of the overflow compare the signs, and the signs differ as
they do exactly if the signed number has no word.
-/

namespace Armv4T

namespace Word

lemma toNat_ofBool (b : Bool) : (ofBool b).toNat = b.toNat := by
  cases b <;> rfl

/-- A sum in two parts: the word and what is carried out of it. -/
lemma toNat_overflowingAdd (a b : Word) :
    (a.overflowingAdd b).1.toNat + 2 ^ 32 * (a.overflowingAdd b).2.toNat = a.toNat + b.toNat := by
  have ha := a.toNat_lt
  have hb := b.toNat_lt
  have hvalue : (a.overflowingAdd b).1.toNat = (a.toNat + b.toNat) % 2 ^ 32 := UInt32.toNat_add a b
  have hcarry : (a.overflowingAdd b).2 = decide (2 ^ 32 ≤ a.toNat + b.toNat) := rfl
  rw [hvalue, hcarry, Bool.toNat, Bool.cond_decide]
  split <;> omega

/-- A difference in two parts: the word and what is borrowed for it. -/
lemma toNat_overflowingSub (a b : Word) :
    (a.overflowingSub b).1.toNat + b.toNat = a.toNat + 2 ^ 32 * (a.overflowingSub b).2.toNat := by
  have ha := a.toNat_lt
  have hb := b.toNat_lt
  have hvalue : (a.overflowingSub b).1.toNat = (2 ^ 32 - b.toNat + a.toNat) % 2 ^ 32 :=
    UInt32.toNat_sub a b
  have hborrow : (a.overflowingSub b).2 = decide (a.toNat < b.toNat) := rfl
  rw [hvalue, hborrow, Bool.toNat, Bool.cond_decide]
  split <;> omega

end Word

namespace Sum

section Carry

variable (a b : Word) (carry : Bool)

/-! ### Values and carries -/

/-- At most one of the two steps wraps. -/
lemma toNat_or_of_le {x y : Bool} (h : x.toNat + y.toNat ≤ 1) :
    (x || y).toNat = x.toNat + y.toNat := by
  cases x <;> cases y <;> simp at *

/-- The value and the carry of a sum make up the sum of the numbers. -/
lemma toNat_adc : (adc a b carry).value.toNat + 2 ^ 32 * (adc a b carry).carry.toNat =
    a.toNat + b.toNat + carry.toNat := by
  have ha := a.toNat_lt
  have hb := b.toNat_lt
  have hc := carry.toNat_le
  have hfirst := Word.toNat_overflowingAdd a b
  have hsecond := Word.toNat_overflowingAdd (a.overflowingAdd b).1 (.ofBool carry)
  rw [Word.toNat_ofBool] at hsecond
  have hcarry : (adc a b carry).carry.toNat = (a.overflowingAdd b).2.toNat +
      ((a.overflowingAdd b).1.overflowingAdd (.ofBool carry)).2.toNat :=
    toNat_or_of_le (by omega)
  have hvalue : (adc a b carry).value =
      ((a.overflowingAdd b).1.overflowingAdd (.ofBool carry)).1 := rfl
  rw [hcarry, hvalue]
  omega

/-- The value of a difference makes up the first number with what is taken away, and with what is
borrowed. -/
lemma toNat_sbc : (sbc a b carry).value.toNat + b.toNat + (!carry).toNat =
    a.toNat + 2 ^ 32 * (!(sbc a b carry).carry).toNat := by
  have ha := a.toNat_lt
  have hb := b.toNat_lt
  have hc := (!carry).toNat_le
  have hfirst := Word.toNat_overflowingSub a b
  have hsecond := Word.toNat_overflowingSub (a.overflowingSub b).1 (.ofBool !carry)
  have hlt := ((a.overflowingSub b).1.overflowingSub (.ofBool !carry)).1.toNat_lt
  rw [Word.toNat_ofBool] at hsecond
  have hborrow : (!(sbc a b carry).carry).toNat = (a.overflowingSub b).2.toNat +
      ((a.overflowingSub b).1.overflowingSub (.ofBool !carry)).2.toNat := by
    rw [sbc, Bool.not_not]
    exact toNat_or_of_le (by omega)
  have hvalue : (sbc a b carry).value =
      ((a.overflowingSub b).1.overflowingSub (.ofBool !carry)).1 := rfl
  rw [hborrow, hvalue]
  omega

/-- A sum without the carry flag is one with a carry flag that is clear. -/
lemma add_eq_adc : add a b = adc a b false := by
  have hnone (w : Word) : w.overflowingAdd (.ofBool false) = (w, false) := by
    refine Prod.ext (UInt32.add_zero w) ?_
    exact decide_eq_false (not_le.mpr w.toNat_lt)
  rw [adc, hnone, Bool.or_false]
  rfl

/-- A difference without the carry flag is one with a carry flag that is set. -/
lemma sub_eq_sbc : sub a b = sbc a b true := by
  have hnone (w : Word) : w.overflowingSub (.ofBool false) = (w, false) := by
    refine Prod.ext (UInt32.sub_zero w) ?_
    exact decide_eq_false (Nat.not_lt_zero w.toNat)
  rw [sbc, Bool.not_true, hnone, Bool.or_false]
  rfl

end Carry

@[simp]
lemma add_value (a b : Word) : (add a b).value = a + b := rfl

@[simp]
lemma sub_value (a b : Word) : (sub a b).value = a - b := rfl

/-- Adding zero gives no carry and no overflow. -/
lemma add_zero (a : Word) : add a 0 = logical a false false := by
  have hcarry : (add a 0).carry = false := decide_eq_false (not_le.mpr a.toNat_lt)
  have hvalue : (add a 0).value = a := UInt32.add_zero a
  have hoverflow : (add a 0).overflow = false := by
    have hsigns : (add a 0).overflow = addOverflows a 0 (add a 0).value := rfl
    rw [hsigns, hvalue, addOverflows, UInt32.xor_self, UInt32.and_zero]
    rfl
  calc add a 0 = ⟨(add a 0).value, (add a 0).carry, (add a 0).overflow⟩ := rfl
    _ = logical a false false := by rw [hvalue, hcarry, hoverflow]; rfl

/-! ### Overflows -/

lemma addOverflows_eq (a b value : Word) :
    addOverflows a b value = (a.bit 31 == b.bit 31 && a.bit 31 != value.bit 31) := by
  rw [addOverflows, Word.shiftRight_31_bne_zero, Word.bit_and _ _ (by decide),
    Word.bit_not _ (by decide), Word.bit_xor _ _ (by decide), Word.bit_xor _ _ (by decide)]
  cases a.bit 31 <;> cases b.bit 31 <;> rfl

lemma subOverflows_eq (a b value : Word) :
    subOverflows a b value = (a.bit 31 != b.bit 31 && a.bit 31 != value.bit 31) := by
  rw [subOverflows, Word.shiftRight_31_bne_zero, Word.bit_and _ _ (by decide),
    Word.bit_xor _ _ (by decide), Word.bit_xor _ _ (by decide)]

/-- A word that is a sum up to a multiple of 2^32 has the sign of its operands, if they have one
sign, unless the signed sum has no word. -/
lemma addOverflows_iff {a b value : Word} {c k : ℕ} (hc : c ≤ 1)
    (h : value.toNat + 2 ^ 32 * k = a.toNat + b.toNat + c) :
    addOverflows a b value = true ↔ ¬Word.FitsSigned (a.signed + b.signed + c) := by
  rw [addOverflows_eq, Word.FitsSigned]
  rcases a.signed_cases with ⟨hsa, ha⟩ | ⟨hsa, ha⟩ <;>
    rcases b.signed_cases with ⟨hsb, hb⟩ | ⟨hsb, hb⟩ <;>
    rcases value.signed_cases with ⟨hsv, hv⟩ | ⟨hsv, hv⟩ <;>
    simp [hsa, hsb, hsv] <;> omega

/-- A word that is a difference up to a multiple of 2^32 has the sign of its first operand, if the
operands differ in sign, unless the signed difference has no word. -/
lemma subOverflows_iff {a b value : Word} {c k : ℕ} (hc : c ≤ 1)
    (h : value.toNat + b.toNat + c = a.toNat + 2 ^ 32 * k) :
    subOverflows a b value = true ↔ ¬Word.FitsSigned (a.signed - b.signed - c) := by
  rw [subOverflows_eq, Word.FitsSigned]
  rcases a.signed_cases with ⟨hsa, ha⟩ | ⟨hsa, ha⟩ <;>
    rcases b.signed_cases with ⟨hsb, hb⟩ | ⟨hsb, hb⟩ <;>
    rcases value.signed_cases with ⟨hsv, hv⟩ | ⟨hsv, hv⟩ <;>
    simp [hsa, hsb, hsv] <;> omega

/-! ### Exactness -/

/-- What a sum says of the numbers `a` and `b` and of the carry `c` that are added. -/
structure Adds (s : Sum) (a b : Word) (c : Bool) : Prop where
  value : s.value.toNat = (a.toNat + b.toNat + c.toNat) % 2 ^ 32
  carry : s.carry = true ↔ 2 ^ 32 ≤ a.toNat + b.toNat + c.toNat
  overflow : s.overflow = true ↔ ¬Word.FitsSigned (a.signed + b.signed + c.toNat)

/-- What a difference says of the number `a`, from which `b` is taken away, and one more if the
carry `c` is clear. -/
structure Subtracts (s : Sum) (a b : Word) (c : Bool) : Prop where
  value : (s.value.toNat : ℤ) = (a.toNat - b.toNat - (!c).toNat) % 2 ^ 32
  carry : s.carry = true ↔ b.toNat + (!c).toNat ≤ a.toNat
  overflow : s.overflow = true ↔ ¬Word.FitsSigned (a.signed - b.signed - (!c).toNat)

/-- A number in two parts, of which the lower is less than `m` and the upper is a carry. -/
lemma eq_mod_and_carry_iff {m v s : ℕ} {carry : Bool} (hv : v < m)
    (h : v + m * carry.toNat = s) : v = s % m ∧ (carry = true ↔ m ≤ s) := by
  subst h
  refine ⟨by rw [Nat.add_mul_mod_self_left, Nat.mod_eq_of_lt hv], ?_⟩
  cases carry <;> simp [hv]

/-- A number from which `t` is taken away, where the carry is set unless `m` is borrowed. -/
lemma eq_emod_and_carry_iff {m v s t : ℕ} {carry : Bool} (hv : v < m)
    (h : v + t = s + m * (!carry).toNat) :
    (v : ℤ) = (s - t) % m ∧ (carry = true ↔ t ≤ s) := by
  have hdiff : (s - t : ℤ) = v + m * -((!carry).toNat : ℤ) := by
    zify at h
    linarith
  refine ⟨?_, ?_⟩
  · rw [hdiff, Int.add_mul_emod_self_left, Int.emod_eq_of_lt (Int.natCast_nonneg v)]
    exact_mod_cast hv
  · cases carry <;> simp at h ⊢ <;> omega

lemma adc_adds (a b : Word) (c : Bool) : (adc a b c).Adds a b c := by
  have hsum := toNat_adc a b c
  obtain ⟨hvalue, hcarry⟩ := eq_mod_and_carry_iff (adc a b c).value.toNat_lt hsum
  exact ⟨hvalue, hcarry, addOverflows_iff c.toNat_le hsum⟩

lemma sbc_subtracts (a b : Word) (c : Bool) : (sbc a b c).Subtracts a b c := by
  have hdiff := toNat_sbc a b c
  obtain ⟨hvalue, hcarry⟩ := eq_emod_and_carry_iff (sbc a b c).value.toNat_lt
    ((Nat.add_assoc ..).symm.trans hdiff)
  refine ⟨?_, hcarry, subOverflows_iff (!c).toNat_le hdiff⟩
  rw [hvalue, Nat.cast_add, ← sub_sub]
  rfl

end Sum

end Armv4T
