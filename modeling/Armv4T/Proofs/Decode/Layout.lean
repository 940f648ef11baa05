import Mathlib
import Armv4T.Arm.Decode
import Armv4T.Proofs.Word.Bits

/-!
# Words laid out in fields

An opcode is described by the numbers that stand at its bit positions (`Word.ofFields`). In `Nat`
the word is then a sum of multiples of powers of two, and each of its fields is a quotient and a
remainder of this sum, so that reading a field back is linear arithmetic. The extension of a sign
is not, and is compared here with a signed number.
-/

namespace Armv4T.Word

/-- The number with the given numbers at the given bit positions. -/
def layout (fields : List (ℕ × ℕ)) : ℕ := (fields.map fun f => f.2 * 2 ^ f.1).sum

/-- The word with the given numbers at the given bit positions. -/
def ofFields (fields : List (ℕ × ℕ)) : Word := UInt32.ofNat (layout fields)

@[simp] lemma layout_nil : layout [] = 0 := rfl

@[simp] lemma layout_cons (lo value : ℕ) (fields : List (ℕ × ℕ)) :
    layout ((lo, value) :: fields) = value * 2 ^ lo + layout fields := by
  rw [layout, List.map_cons, List.sum_cons, layout]

@[simp] lemma layout_append (fields fields' : List (ℕ × ℕ)) :
    layout (fields ++ fields') = layout fields + layout fields' := by
  simp [layout]

lemma toNat_ofFields {fields : List (ℕ × ℕ)} (h : layout fields < 2 ^ 32) :
    (ofFields fields).toNat = layout fields := UInt32.toNat_ofNat_of_lt' h

/-! ### Reading fields back -/

variable {w : Word}

/-- A field is a number exactly if this number stands there. -/
lemma field_eq_iff (lo len value : ℕ) (h : lo < 32 ∧ len < 32 ∧ value < 2 ^ 32) :
    w.field (.ofNat lo) (.ofNat len) = .ofNat value ↔ w.toNat / 2 ^ lo % 2 ^ len = value := by
  obtain ⟨hlo, hlen, hvalue⟩ := h
  have hlo' := toNat_ofNat_of_lt hlo
  have hlen' := toNat_ofNat_of_lt hlen
  rw [← UInt32.toNat_inj, toNat_field w (by omega) (by omega), hlo', hlen',
    UInt32.toNat_ofNat_of_lt' hvalue]

/-- The bounds stand beside the value so that linear arithmetic proves them at once. -/
lemma field_eq (lo len value : ℕ)
    (h : lo < 32 ∧ len < 32 ∧ w.toNat / 2 ^ lo % 2 ^ len = value) :
    w.field (.ofNat lo) (.ofNat len) = .ofNat value := by
  obtain ⟨hlo, hlen, hvalue⟩ := h
  have hlt : w.toNat / 2 ^ lo % 2 ^ len < 2 ^ 32 :=
    (Nat.mod_lt _ (Nat.two_pow_pos _)).trans (Nat.pow_lt_pow_right (by decide) hlen)
  exact (field_eq_iff lo len value ⟨hlo, hlen, hvalue ▸ hlt⟩).mpr hvalue

/-- A bit is set if it is the remainder. -/
lemma bit_iff (n : ℕ) (hn : n < 32) :
    w.bit (.ofNat n) = true ↔ w.toNat / 2 ^ n % 2 = 1 := by
  have hn' := toNat_ofNat_of_lt hn
  rw [bit_eq_decide w (by omega), hn', decide_eq_true_iff]

lemma bit_eq (n : ℕ) (b : Bool) (h : n < 32 ∧ w.toNat / 2 ^ n % 2 = b.toNat) :
    w.bit (.ofNat n) = b := by
  rw [Bool.eq_iff_iff, bit_iff n h.1, h.2]
  cases b <;> decide

lemma bit_true (n : ℕ) (h : n < 32 ∧ w.toNat / 2 ^ n % 2 = 1) : w.bit (.ofNat n) = true :=
  bit_eq n true h

lemma bit_false (n : ℕ) (h : n < 32 ∧ w.toNat / 2 ^ n % 2 = 0) : w.bit (.ofNat n) = false :=
  bit_eq n false h

/-! ### Signs -/

/-- A number of `n` bits that is shifted up to the sign. -/
lemma toInt_shiftLeft_setWidth {n : ℕ} (hn : n ≤ 32) (v : BitVec n) :
    ((v.setWidth 32) <<< (32 - n)).toInt = 2 ^ (32 - n) * v.toInt := by
  have hpow : 2 ^ n * 2 ^ (32 - n) = 2 ^ 32 := by rw [← pow_add, Nat.add_sub_cancel' hn]
  have hpos : 0 < 2 ^ (32 - n) := Nat.two_pow_pos _
  have hlt : v.toNat * 2 ^ (32 - n) < 2 ^ 32 := hpow ▸ Nat.mul_lt_mul_of_pos_right v.isLt hpos
  have hle : 2 ^ n ≤ 2 ^ 32 := Nat.pow_le_pow_right (by decide) hn
  have hnat : ((v.setWidth 32) <<< (32 - n)).toNat = v.toNat * 2 ^ (32 - n) := by
    rw [BitVec.toNat_shiftLeft, BitVec.toNat_setWidth, Nat.mod_eq_of_lt (v.isLt.trans_le hle),
      Nat.shiftLeft_eq, Nat.mod_eq_of_lt hlt]
  -- the number is negative exactly if it is after the shift
  have hsign : 2 * (v.toNat * 2 ^ (32 - n)) < 2 ^ 32 ↔ 2 * v.toNat < 2 ^ n := by
    rw [← mul_assoc, ← hpow]
    exact Nat.mul_lt_mul_right hpos
  rw [BitVec.toInt_eq_toNat_cond, BitVec.toInt_eq_toNat_cond, hnat]
  by_cases hneg : 2 * v.toNat < 2 ^ n
  · rw [if_pos (hsign.mpr hneg), if_pos hneg]
    push_cast
    ring
  · rw [if_neg (hsign.not.mpr hneg), if_neg hneg, ← hpow]
    push_cast
    ring

/-- A number of `n` bits, shifted up to the sign and back down by `m` places. -/
lemma shiftRightSigned_shiftLeft {n m : ℕ} (hn : 0 < n) (hm : n + m ≤ 32) (v : BitVec n) :
    Word.shiftRightSigned (UInt32.ofNat v.toNat <<< UInt32.ofNat (32 - n)) (.ofNat m) =
      UInt32.ofInt (2 ^ (32 - n - m) * v.toInt) := by
  have hwide : (UInt32.ofNat v.toNat).toBitVec = v.setWidth 32 := by
    apply BitVec.eq_of_toNat_eq
    simp
  have hdown : (2 : ℤ) ^ (32 - n) * v.toInt = 2 ^ (32 - n - m) * v.toInt * 2 ^ m := by
    rw [mul_right_comm, ← pow_add, Nat.sub_add_cancel (by omega)]
  apply UInt32.toBitVec_inj.mp
  rw [toBitVec_shiftRightSigned_ofNat _ (by omega), toBitVec_shiftLeft_ofNat _ (by omega), hwide,
    toBitVec_ofInt]
  refine BitVec.ofInt_toInt.symm.trans (congrArg (BitVec.ofInt 32) ?_)
  rw [BitVec.toInt_sshiftRight, toInt_shiftLeft_setWidth (by omega), hdown,
    Int.shiftRight_eq_div_pow]
  exact Int.mul_ediv_cancel _ (by positivity)

end Armv4T.Word
