import Mathlib
import Armv4T.Proofs.Decode.Layout
import Armv4T.Thumb.Decode

/-!
# The opcodes of a long call

A Thumb call reaches further than one opcode has bits for: its distance, a signed number of
halfwords in 22 bits, stands in the low eleven bits of two opcodes. The upper half is extended by
its sign and the lower half is not, and the two distances that they decode to make up the whole
(`Thumb.highDistance_add_lowDistance`).
-/

namespace Armv4T.Thumb

open Word (field_eq field_eq_iff ofFields shiftLeft_eq_mul toBitVec_ofInt toNat_ofFields)

/-- The opcode of the first half of a call. -/
def callHighOpcode (offset : BitVec 22) : Word :=
  ofFields [(11, 0x1E), (0, offset.toNat / 2 ^ 11)]

/-- The opcode of the second half of a call. -/
def callLowOpcode (offset : BitVec 22) : Word :=
  ofFields [(11, 0x1F), (0, offset.toNat % 2 ^ 11)]

/-- The distance that the first half goes. -/
def highDistance (offset : BitVec 22) : Word := signed11 (callHighOpcode offset) <<< 12

/-- The distance that the second half adds to it. -/
def lowDistance (offset : BitVec 22) : Word := (callLowOpcode offset).field 0 11 <<< 1

/-! ### Decoding -/

variable {w : Word}

lemma field_ne (lo len value : ℕ)
    (h : (lo < 32 ∧ len < 32 ∧ value < 2 ^ 32) ∧ w.toNat / 2 ^ lo % 2 ^ len ≠ value) :
    w.field (.ofNat lo) (.ofNat len) ≠ .ofNat value :=
  fun heq => h.2 ((field_eq_iff lo len value h.1).mp heq)

/-- No pattern but the last two has the leading bits of a long call. -/
lemma decode_of_leading (h : 0x1E ≤ w.toNat / 2 ^ 11 % 2 ^ 5) :
    decode w = if w.field 11 5 = 0x1E then .callHigh (signed11 w <<< 12)
      else if w.field 11 5 = 0x1F then .callLow (w.field 0 11 <<< 1)
      else .undefined w := by
  unfold decode
  refine (if_neg (field_ne 10 6 0x10 (by omega))).trans ?_
  refine (if_neg (field_ne 10 6 0x11 (by omega))).trans ?_
  refine (if_neg (field_ne 11 5 0x03 (by omega))).trans ?_
  refine (if_neg (field_ne 13 3 0 (by omega))).trans ?_
  refine (if_neg (field_ne 13 3 1 (by omega))).trans ?_
  refine (if_neg (field_ne 11 5 0x09 (by omega))).trans ?_
  refine (if_neg (field_ne 12 4 0x5 (by omega))).trans ?_
  refine (if_neg (field_ne 13 3 3 (by omega))).trans ?_
  refine (if_neg fun hand => field_ne 12 4 0xB (by omega) hand.1).trans ?_
  refine (if_neg (field_ne 12 4 0x8 (by omega))).trans ?_
  refine (if_neg (field_ne 12 4 0x9 (by omega))).trans ?_
  refine (if_neg (field_ne 12 4 0xA (by omega))).trans ?_
  refine (if_neg (field_ne 8 8 0xB0 (by omega))).trans ?_
  refine (if_neg (field_ne 12 4 0xC (by omega))).trans ?_
  refine (if_neg (field_ne 12 4 0xD (by omega))).trans ?_
  exact if_neg (field_ne 11 5 0x1C (by omega))

variable (offset : BitVec 22)

lemma toNat_callHighOpcode :
    (callHighOpcode offset).toNat = 0x1E * 2 ^ 11 + offset.toNat / 2 ^ 11 := by
  have hlt := offset.isLt
  have hlayout : Word.layout [(11, 0x1E), (0, offset.toNat / 2 ^ 11)] =
      0x1E * 2 ^ 11 + offset.toNat / 2 ^ 11 := by simp
  rw [callHighOpcode, toNat_ofFields (by omega), hlayout]

lemma toNat_callLowOpcode :
    (callLowOpcode offset).toNat = 0x1F * 2 ^ 11 + offset.toNat % 2 ^ 11 := by
  have hlayout : Word.layout [(11, 0x1F), (0, offset.toNat % 2 ^ 11)] =
      0x1F * 2 ^ 11 + offset.toNat % 2 ^ 11 := by simp
  rw [callLowOpcode, toNat_ofFields (by omega), hlayout]

/-! ### The distance -/

/-- The upper half of the distance, which carries its sign. -/
def upperHalf : BitVec 11 := offset.extractLsb' 11 11

lemma toNat_upperHalf : (upperHalf offset).toNat = offset.toNat / 2 ^ 11 := by
  have hlt := offset.isLt
  rw [upperHalf, BitVec.extractLsb'_toNat, Nat.shiftRight_eq_div_pow, Nat.mod_eq_of_lt (by omega)]

/-- The distance is made up of its halves. -/
lemma toInt_eq_halves :
    offset.toInt = (upperHalf offset).toInt * 2 ^ 11 + (offset.toNat % 2 ^ 11 : ℕ) := by
  have hlt := offset.isLt
  rw [BitVec.toInt_eq_toNat_cond, BitVec.toInt_eq_toNat_cond, toNat_upperHalf]
  split_ifs <;> omega

/-- The upper half as it is extended by its sign. -/
lemma signed11_callHighOpcode :
    signed11 (callHighOpcode offset) = UInt32.ofInt (upperHalf offset).toInt := by
  have hlt := offset.isLt
  have hfield : (callHighOpcode offset).field 0 11 = .ofNat (offset.toNat / 2 ^ 11) :=
    field_eq 0 11 _ (by rw [toNat_callHighOpcode]; omega)
  rw [signed11, hfield, ← toNat_upperHalf]
  exact (Word.shiftRightSigned_shiftLeft (n := 11) (m := 21) (by decide) (by decide) _).trans
    (congrArg UInt32.ofInt (one_mul _))

/-- The distances of the two halves make up the whole. -/
lemma highDistance_add_lowDistance :
    highDistance offset + lowDistance offset = UInt32.ofInt (2 * offset.toInt) := by
  have hfield : (callLowOpcode offset).field 0 11 = .ofNat (offset.toNat % 2 ^ 11) :=
    field_eq 0 11 _ (by rw [toNat_callLowOpcode]; omega)
  have hcast : UInt32.ofNat (offset.toNat % 2 ^ 11) = .ofInt (offset.toNat % 2 ^ 11 : ℕ) := by
    apply UInt32.toBitVec_inj.mp
    rw [toBitVec_ofInt, BitVec.ofInt_natCast]
    rfl
  have hhigh (x : Word) : x <<< 12 = x * .ofInt (2 ^ 12) := shiftLeft_eq_mul x (by decide : 12 < 32)
  have hlow (x : Word) : x <<< 1 = x * .ofInt 2 := shiftLeft_eq_mul x (by decide : 1 < 32)
  have hsum : 2 * offset.toInt =
      (upperHalf offset).toInt * 2 ^ 12 + (offset.toNat % 2 ^ 11 : ℕ) * 2 := by
    rw [toInt_eq_halves]
    ring
  rw [highDistance, lowDistance, signed11_callHighOpcode, hfield, hcast, hhigh, hlow, hsum,
    UInt32.ofInt_add, UInt32.ofInt_mul, UInt32.ofInt_mul]

lemma decode_callHighOpcode :
    decode (callHighOpcode offset) = .callHigh (highDistance offset) := by
  have hlt := offset.isLt
  have hnat := toNat_callHighOpcode offset
  have hleading : (callHighOpcode offset).field 11 5 = 0x1E := field_eq 11 5 0x1E (by omega)
  rw [decode_of_leading (by omega), if_pos hleading, highDistance]

lemma decode_callLowOpcode :
    decode (callLowOpcode offset) = .callLow (lowDistance offset) := by
  have hnat := toNat_callLowOpcode offset
  have hleading : (callLowOpcode offset).field 11 5 = 0x1F := field_eq 11 5 0x1F (by omega)
  have hother : ¬(callLowOpcode offset).field 11 5 = 0x1E := by
    rw [hleading]
    decide
  rw [decode_of_leading (by omega), if_neg hother, if_pos hleading, lowDistance]

end Armv4T.Thumb
