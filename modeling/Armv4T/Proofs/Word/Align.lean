import Mathlib
import Armv4T.Access
import Armv4T.Word.Lemmas

/-!
# Rounding and wrapping of words

Masks of powers of two as arithmetic of natural numbers: the mask of a power of two takes the
remainder, its complement rounds down, and adding a small number to a word is an addition modulo
2^32, which a remainder by a smaller power of two does not see. Rounding up to a power of two takes
the smallest one that suffices.
-/

open private Nat.nextPowerOfTwo.go from Init.Data.Nat.Power2.Basic

namespace Armv4T

/-- Rounding up to a power of two takes the smallest exponent that suffices. -/
lemma nextPowerOfTwo_eq (n : ℕ) : Nat.nextPowerOfTwo n = 2 ^ Nat.clog 2 n := by
  -- the loop doubles until it is there, so the induction is on the doublings that are left
  have hgo : ∀ d j (h : 2 ^ j > 0), Nat.clog 2 n - j = d → j ≤ Nat.clog 2 n →
      Nat.nextPowerOfTwo.go n (2 ^ j) h = 2 ^ Nat.clog 2 n := by
    intro d
    induction d with
    | zero =>
      intro j h hd hj
      obtain rfl : j = Nat.clog 2 n := by omega
      rw [Nat.nextPowerOfTwo.go, if_neg (Nat.not_lt.mpr (Nat.le_pow_clog (by decide) n))]
    | succ d ih =>
      intro j h hd hj
      have hlt : 2 ^ j < n := (Nat.lt_clog_iff_pow_lt (by decide)).mp (by omega)
      rw [Nat.nextPowerOfTwo.go, if_pos hlt]
      have hnext := ih (j + 1) (Nat.two_pow_pos _) (by omega) (by omega)
      simp only [Nat.pow_succ] at hnext
      exact hnext
  exact hgo _ 0 Nat.one_pos rfl (Nat.zero_le _)

/-- A number is not rounded down. -/
lemma le_nextPowerOfTwo (n : ℕ) : n ≤ Nat.nextPowerOfTwo n := by
  rw [nextPowerOfTwo_eq]
  exact Nat.le_pow_clog (by decide) n

/-- A power of two is rounded up to itself. -/
lemma nextPowerOfTwo_two_pow (n : ℕ) : Nat.nextPowerOfTwo (2 ^ n) = 2 ^ n := by
  rw [nextPowerOfTwo_eq, Nat.clog_pow 2 n (by decide)]

end Armv4T

namespace Armv4T.Word

variable {n : Word} {k : ℕ}

lemma lt_of_toNat_eq_two_pow (h : n.toNat = 2 ^ k) : k < 32 := by
  have hlt : 2 ^ k < 2 ^ 32 := h ▸ n.toNat_lt_size
  exact (Nat.pow_lt_pow_iff_right (by omega)).mp hlt

lemma toNat_sub_one (h : n.toNat = 2 ^ k) : (n - 1).toNat = 2 ^ k - 1 := by
  have hle : (1 : Word) ≤ n := by
    rw [UInt32.le_iff_toNat_le, h]
    exact Nat.one_le_two_pow
  rw [UInt32.toNat_sub_of_le _ _ hle, h]
  rfl

/-- The mask of a power of two takes the remainder. -/
lemma toNat_and_sub_one (h : n.toNat = 2 ^ k) (x : Word) :
    (x &&& (n - 1)).toNat = x.toNat % 2 ^ k := by
  rw [UInt32.toNat_and, toNat_sub_one h]
  exact Nat.and_two_pow_sub_one_eq_mod _ _

/-- Rounding down to a power of two takes the remainder away. -/
lemma toNat_alignDown (h : n.toNat = 2 ^ k) (x : Word) :
    (alignDown x n).toNat = x.toNat / 2 ^ k * 2 ^ k := by
  have hk : k < 32 := lt_of_toNat_eq_two_pow h
  refine Nat.eq_of_testBit_eq fun i => ?_
  rw [alignDown, UInt32.toNat_and, UInt32.toNat_not, toNat_sub_one h, Nat.testBit_and,
    Nat.testBit_mul_two_pow, Nat.testBit_div_two_pow]
  have hsize : UInt32.size - 1 - (2 ^ k - 1) = 2 ^ 32 - ((2 ^ k - 1) + 1) := by
    rw [show UInt32.size = 2 ^ 32 from rfl]
    omega
  have hlt : 2 ^ k - 1 < 2 ^ 32 := by
    have hpow : 2 ^ k < 2 ^ 32 := Nat.pow_lt_pow_right (by omega) hk
    omega
  rw [hsize, Nat.testBit_two_pow_sub_succ hlt, Nat.testBit_two_pow_sub_one]
  by_cases hik : k ≤ i
  · have hi : k + (i - k) = i := by omega
    have hnot : ¬ i < k := by omega
    rcases Nat.lt_or_ge i 32 with hi32 | hi32
    · simp [hik, hnot, hi32]
    · have hx : x.toNat.testBit i = false :=
        Nat.testBit_lt_two_pow
          (x.toNat_lt_size.trans_le (Nat.pow_le_pow_right (n := 2) (by decide) hi32))
      simp [hik, hx]
  · have hlt' : i < k := by omega
    simp [hik, hlt']

/-- A remainder by a power of two does not see whether an addition wraps. -/
lemma toNat_add_ofNat_mod (hk : k ≤ 32) (x : Word) (j : ℕ) :
    (x + UInt32.ofNat j).toNat % 2 ^ k = (x.toNat + j) % 2 ^ k := by
  have hdvd : 2 ^ k ∣ 2 ^ 32 := Nat.pow_dvd_pow 2 hk
  rw [UInt32.toNat_add, UInt32.toNat_ofNat', Nat.mod_mod_of_dvd _ hdvd, Nat.add_mod,
    Nat.mod_mod_of_dvd _ hdvd, ← Nat.add_mod]

lemma toNat_add_ofNat (x : Word) {j : ℕ} (h : x.toNat + j < 2 ^ 32) :
    (x + UInt32.ofNat j).toNat = x.toNat + j := by
  rw [UInt32.toNat_add, UInt32.toNat_ofNat', Nat.mod_eq_of_lt (by omega : j < 2 ^ 32),
    Nat.mod_eq_of_lt h]

/-- The last address of a range that is not empty and does not wrap. -/
lemma toNat_last {start len : Word} (hlen : len ≠ 0) (hfits : start.toNat + len.toNat ≤ 2 ^ 32) :
    (start + (len - 1)).toNat + 1 = start.toNat + len.toNat := by
  have hone : (1 : Word).toNat = 1 := rfl
  have hpos : 1 ≤ len.toNat := Nat.pos_of_ne_zero fun h => hlen (UInt32.toNat_inj.mp h)
  have hle : 1 ≤ len := UInt32.le_iff_toNat_le.mpr (hone ▸ hpos)
  rw [UInt32.toNat_add, UInt32.toNat_sub_of_le _ _ hle, hone, Nat.mod_eq_of_lt (by omega)]
  omega

end Armv4T.Word

namespace Armv4T.StoreWidth

/-- A width is a power of two that a word of memory is a multiple of. -/
lemma exists_bytes_eq (w : StoreWidth) : ∃ k ≤ 2, w.bytes.toNat = 2 ^ k := by
  cases w with
  | byte => exact ⟨0, by omega, rfl⟩
  | half => exact ⟨1, by omega, rfl⟩
  | word => exact ⟨2, by omega, rfl⟩

end Armv4T.StoreWidth
