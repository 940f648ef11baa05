import Mathlib
import Armv4T.Word.Lemmas

/-!
# Bits of words

A word is known by its 32 bits. Here are the bits of the logical operations and of a flag that is
shifted into place. Shifting a word by a number of places, and rotating it, is shifting and
rotating its bit vector, as long as the number is less than 32: a word takes the amount of a shift
modulo 32, while a bit vector shifts everything out. Bit 31 is the sign of the number that a word
stands for in two's complement.
-/

namespace Armv4T.Word

lemma toNat_ofNat_of_lt {n : ℕ} (h : n < 32) : (UInt32.ofNat n).toNat = n :=
  UInt32.toNat_ofNat_of_lt' (h.trans (by decide))

lemma bit_eq_testBit (w : Word) {n : Word} (h : n.toNat < 32) :
    w.bit n = w.toNat.testBit n.toNat := by
  rw [bit_eq_decide w h, Nat.testBit_eq_decide_div_mod_eq]

lemma bit_or (v w : Word) {n : Word} (h : n.toNat < 32) :
    (v ||| w).bit n = (v.bit n || w.bit n) := by
  rw [bit_eq_testBit _ h, bit_eq_testBit _ h, bit_eq_testBit _ h, UInt32.toNat_or,
    Nat.testBit_or]

lemma bit_and (v w : Word) {n : Word} (h : n.toNat < 32) :
    (v &&& w).bit n = (v.bit n && w.bit n) := by
  rw [bit_eq_testBit _ h, bit_eq_testBit _ h, bit_eq_testBit _ h, UInt32.toNat_and,
    Nat.testBit_and]

lemma bit_xor (v w : Word) {n : Word} (h : n.toNat < 32) :
    (v ^^^ w).bit n = (v.bit n ^^ w.bit n) := by
  rw [bit_eq_testBit _ h, bit_eq_testBit _ h, bit_eq_testBit _ h, UInt32.toNat_xor,
    Nat.testBit_xor]

lemma bit_not (w : Word) {n : Word} (h : n.toNat < 32) : (~~~w).bit n = !w.bit n := by
  have hw := w.toNat_lt_size
  rw [bit_eq_testBit _ h, bit_eq_testBit _ h, UInt32.toNat_not,
    show UInt32.size - 1 - w.toNat = 2 ^ 32 - (w.toNat + 1) from by
      rw [show UInt32.size = 2 ^ 32 from rfl]; omega,
    Nat.testBit_two_pow_sub_succ hw]
  simp [h]

lemma or_and_distrib (u v w : Word) : (u ||| v) &&& w = (u &&& w) ||| (v &&& w) := by
  apply UInt32.toNat_inj.mp
  rw [UInt32.toNat_and, UInt32.toNat_or, UInt32.toNat_or, UInt32.toNat_and, UInt32.toNat_and,
    Nat.and_or_distrib_right]

/-- A flag that is shifted into place is the bit at that place. -/
lemma bit_ofBool_shiftLeft (b : Bool) (k n : Fin 32) :
    (ofBool b <<< UInt32.ofNat k).bit (.ofNat n) = (b && decide (k = n)) := by
  cases b <;> decide +revert +kernel

lemma bit_eq_getLsbD (w : Word) {n : ℕ} (h : n < 32) :
    w.bit (.ofNat n) = w.toBitVec.getLsbD n := by
  have hn := toNat_ofNat_of_lt h
  rw [bit_eq_testBit w (by omega), hn]
  rfl

/-- Words with the same bits are equal. -/
lemma eq_of_bit {v w : Word} (h : ∀ n : Fin 32, v.bit (.ofNat n) = w.bit (.ofNat n)) : v = w := by
  apply UInt32.toBitVec_inj.mp
  refine BitVec.eq_of_getLsbD_eq fun i hi => ?_
  rw [← bit_eq_getLsbD v hi, ← bit_eq_getLsbD w hi]
  exact h ⟨i, hi⟩

/-! ### Shifts and rotations -/

lemma toBitVec_shiftRight_ofNat (w : Word) {n : ℕ} (h : n < 32) :
    (w >>> UInt32.ofNat n).toBitVec = w.toBitVec >>> n := by
  have hmod : (UInt32.ofNat n).toBitVec % 32 = BitVec.ofNat 32 n := by
    apply BitVec.eq_of_toNat_eq
    simp
    omega
  rw [UInt32.toBitVec_shiftRight, hmod, BitVec.ushiftRight_eq', BitVec.toNat_ofNat,
    Nat.mod_eq_of_lt (by omega)]

lemma toBitVec_shiftLeft_ofNat (w : Word) {n : ℕ} (h : n < 32) :
    (w <<< UInt32.ofNat n).toBitVec = w.toBitVec <<< n := by
  have hmod : (UInt32.ofNat n).toBitVec % 32 = BitVec.ofNat 32 n := by
    apply BitVec.eq_of_toNat_eq
    simp
    omega
  rw [UInt32.toBitVec_shiftLeft, hmod, BitVec.shiftLeft_eq', BitVec.toNat_ofNat,
    Nat.mod_eq_of_lt (by omega)]

/-- Rotating a word is rotating its bits. -/
lemma rotateRight_eq (w : Word) {n : ℕ} (h : n < 32) :
    w.rotateRight (.ofNat n) = ⟨w.toBitVec.rotateRight n⟩ := by
  apply UInt32.toBitVec_inj.mp
  rw [rotateRight, UInt32.toBitVec_or, toBitVec_shiftRight_ofNat w h, BitVec.rotateRight_def,
    Nat.mod_eq_of_lt h]
  rcases Nat.eq_zero_or_pos n with rfl | hpos
  · -- a shift by 32 places is none in a word, and shifts everything out of a bit vector
    have hall : w.toBitVec <<< 32 = 0 := BitVec.shiftLeft_eq_zero (by omega)
    have hnone : (32 : Word) - UInt32.ofNat 0 = UInt32.ofNat 32 := rfl
    simp [hall]
  · have hsub : (32 : Word) - UInt32.ofNat n = UInt32.ofNat (32 - n) := by
      rw [UInt32.ofNat_sub (by omega)]
      rfl
    rw [hsub, toBitVec_shiftLeft_ofNat w (by omega)]

lemma toBitVec_shiftRightSigned_ofNat (w : Word) {n : ℕ} (h : n < 32) :
    (w.shiftRightSigned (.ofNat n)).toBitVec = w.toBitVec.sshiftRight n := by
  have hmod : ∀ n : Fin 32, ((BitVec.ofNat 32 n).smod 32#32).toNat = n := by decide
  rw [shiftRightSigned]
  simp [hmod ⟨n, h⟩]

/-! ### Signs -/

/-- The number that a word stands for in two's complement. -/
def signed (w : Word) : ℤ := w.toInt32.toInt

/-- Whether a number has a word that stands for it in two's complement. -/
def FitsSigned (x : ℤ) : Prop := -2 ^ 31 ≤ x ∧ x < 2 ^ 31

lemma bit_31_eq_decide (w : Word) : w.bit 31 = decide (2 ^ 31 ≤ w.toNat) := by
  have hw : w.toNat < 2 ^ 32 := w.toNat_lt_size
  rw [bit_eq_decide w (by decide)]
  refine decide_eq_decide.mpr ?_
  show w.toNat / 2 ^ 31 % 2 = 1 ↔ _
  omega

lemma signed_eq (w : Word) : w.signed = w.toNat - if w.bit 31 then 2 ^ 32 else 0 := by
  have hsigned : w.signed = if w.toBitVec.msb then (w.toNat : ℤ) - (2 ^ 32 : ℕ) else w.toNat :=
    BitVec.toInt_eq_msb_cond w.toBitVec
  have hmsb : w.toBitVec.msb = w.bit 31 := by
    rw [BitVec.msb_eq_decide, bit_31_eq_decide]
    rfl
  rw [hsigned, hmsb]
  cases w.bit 31 <;> simp

/-- A word is negative if its last bit is set, and then its number wraps. -/
lemma signed_cases (w : Word) :
    w.bit 31 = true ∧ -2 ^ 31 ≤ w.signed ∧ w.signed < 0 ∧ w.toNat = w.signed + 2 ^ 32 ∨
      w.bit 31 = false ∧ 0 ≤ w.signed ∧ w.signed < 2 ^ 31 ∧ w.toNat = w.signed := by
  have hw : w.toNat < 2 ^ 32 := w.toNat_lt_size
  have hsigned := w.signed_eq
  rcases Nat.lt_or_ge w.toNat (2 ^ 31) with h | h
  · have hbit : w.bit 31 = false := by rw [bit_31_eq_decide, decide_eq_false (by omega)]
    simp only [hbit, Bool.false_eq_true, if_false] at hsigned
    exact .inr ⟨hbit, by omega⟩
  · have hbit : w.bit 31 = true := by rw [bit_31_eq_decide, decide_eq_true h]
    simp only [hbit, if_true] at hsigned
    exact .inl ⟨hbit, by omega⟩

lemma bit_31_iff (w : Word) : w.bit 31 = true ↔ w.signed < 0 := by
  rcases w.signed_cases with ⟨hbit, h⟩ | ⟨hbit, h⟩ <;> simp [hbit] <;> omega

/-- Words that stand for one number are equal. -/
lemma signed_inj {v w : Word} : v.signed = w.signed ↔ v = w :=
  BitVec.toInt_inj.trans UInt32.toBitVec_inj

lemma signed_eq_zero_iff {w : Word} : w.signed = 0 ↔ w = 0 := signed_inj (w := 0)

lemma fitsSigned_signed (w : Word) : FitsSigned w.signed := by
  rw [FitsSigned]
  rcases w.signed_cases with ⟨-, h⟩ | ⟨-, h⟩ <;> omega

lemma toBitVec_ofInt (i : ℤ) : (UInt32.ofInt i).toBitVec = BitVec.ofInt 32 i := by
  apply BitVec.eq_of_toNat_eq
  rw [BitVec.toNat_ofInt, UInt32.ofInt]
  simp
  omega

/-- A number that fits a word is the number of its word. -/
lemma signed_ofInt {x : ℤ} (h : FitsSigned x) : signed (UInt32.ofInt x) = x := by
  obtain ⟨hlow, hhigh⟩ := h
  have hword : signed (UInt32.ofInt x) = x.bmod (2 ^ 32) := by
    show (UInt32.ofInt x).toBitVec.toInt = _
    rw [toBitVec_ofInt, BitVec.toInt_ofInt]
  rw [hword]
  exact Int.bmod_eq_of_le (by omega) (by omega)

lemma ofInt_signed (w : Word) : UInt32.ofInt w.signed = w :=
  signed_inj.mp (signed_ofInt w.fitsSigned_signed)

lemma shiftLeft_eq_mul (x : Word) {n : ℕ} (h : n < 32) :
    x <<< UInt32.ofNat n = x * .ofNat (2 ^ n) := by
  apply UInt32.toNat_inj.mp
  have hpow : 2 ^ n < 2 ^ 32 := Nat.pow_lt_pow_right (by decide) h
  rw [UInt32.toNat_shiftLeft, toNat_ofNat_of_lt h, Nat.mod_eq_of_lt h, Nat.shiftLeft_eq,
    UInt32.toNat_mul, UInt32.toNat_ofNat_of_lt' hpow]

/-- A shift to the left multiplies the number, as long as the product fits a word. -/
lemma signed_shiftLeft {x : Word} {n : ℕ} (h : n < 32) (hfits : FitsSigned (x.signed * 2 ^ n)) :
    (x <<< UInt32.ofNat n).signed = x.signed * 2 ^ n := by
  have hpow : UInt32.ofNat (2 ^ n) = UInt32.ofInt (2 ^ n) := by
    apply UInt32.toBitVec_inj.mp
    rw [toBitVec_ofInt]
    exact (BitVec.ofInt_natCast 32 (2 ^ n)).symm.trans (by push_cast; rfl)
  have hshift : x <<< UInt32.ofNat n = UInt32.ofInt (x.signed * 2 ^ n) := by
    rw [shiftLeft_eq_mul x h, hpow, UInt32.ofInt_mul, ofInt_signed]
  rw [hshift, signed_ofInt hfits]

/-- What is left of a word above its last 31 bits is its sign. -/
lemma shiftRight_31_bne_zero (w : Word) : (w >>> 31 != 0) = w.bit 31 := by
  have hshift : (w >>> 31).toNat = w.toNat / 2 ^ 31 := toNat_shiftRight_of_lt w (by decide)
  have hone : (w >>> 31) &&& (1 : Word) = w >>> 31 := by
    have hw : w.toNat < 2 ^ 32 := w.toNat_lt_size
    apply UInt32.toNat_inj.mp
    rw [UInt32.toNat_and, hshift]
    exact (Nat.and_two_pow_sub_one_eq_mod _ 1).trans (Nat.mod_eq_of_lt (by omega))
  rw [bit, hone]

end Armv4T.Word
