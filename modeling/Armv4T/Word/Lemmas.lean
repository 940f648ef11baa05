import Mathlib
import Armv4T.Word

/-!
# Bit fields as numbers

The fields and bits of a word in `Nat`: a field is a quotient and a remainder by powers of two, and
a bit is the parity of a quotient.
-/

namespace Armv4T.Word

theorem toNat_shiftRight_of_lt (w : Word) {n : Word} (h : n.toNat < 32) :
    (w >>> n).toNat = w.toNat / 2 ^ n.toNat := by
  rw [UInt32.toNat_shiftRight, Nat.mod_eq_of_lt h, Nat.shiftRight_eq_div_pow]

theorem toNat_one_shiftLeft {n : Word} (h : n.toNat < 32) :
    ((1 : Word) <<< n).toNat = 2 ^ n.toNat := by
  have h2 : 2 ^ n.toNat < 2 ^ 32 := Nat.pow_lt_pow_right (by omega) h
  rw [UInt32.toNat_shiftLeft, Nat.mod_eq_of_lt h, Nat.shiftLeft_eq]
  simpa using h2

theorem toNat_field (w : Word) {lo len : Word} (hlo : lo.toNat < 32) (hlen : len.toNat < 32) :
    (w.field lo len).toNat = w.toNat / 2 ^ lo.toNat % 2 ^ len.toNat := by
  have h1 : (1 : Word) ≤ 1 <<< len := by
    rw [UInt32.le_iff_toNat_le, toNat_one_shiftLeft hlen]
    exact Nat.one_le_two_pow
  rw [field, UInt32.toNat_and, toNat_shiftRight_of_lt w hlo, UInt32.toNat_sub_of_le _ _ h1,
    toNat_one_shiftLeft hlen]
  exact Nat.and_two_pow_sub_one_eq_mod _ _

theorem field_lt (w : Word) {lo len : Word} (hlo : lo.toNat < 32) (hlen : len.toNat < 32) :
    (w.field lo len).toNat < 2 ^ len.toNat := by
  rw [toNat_field w hlo hlen]
  exact Nat.mod_lt _ (Nat.two_pow_pos _)

theorem bit_eq_decide (w : Word) {n : Word} (h : n.toNat < 32) :
    w.bit n = decide (w.toNat / 2 ^ n.toNat % 2 = 1) := by
  have h1 : ((w >>> n) &&& 1).toNat = w.toNat / 2 ^ n.toNat % 2 := by
    rw [UInt32.toNat_and, toNat_shiftRight_of_lt w h]
    exact Nat.and_two_pow_sub_one_eq_mod _ 1
  have h2 : (w >>> n) &&& 1 = 0 ↔ w.toNat / 2 ^ n.toNat % 2 = 0 := by
    rw [← h1, ← UInt32.toNat_inj]
    rfl
  by_cases hc : w.toNat / 2 ^ n.toNat % 2 = 0
  · simp [bit, bne, h2.mpr hc, hc]
  · have : w.toNat / 2 ^ n.toNat % 2 = 1 := by omega
    have hne : (w >>> n) &&& 1 ≠ 0 := fun h => hc (h2.mp h)
    simp [bit, bne_iff_ne, this, hne]

end Armv4T.Word
