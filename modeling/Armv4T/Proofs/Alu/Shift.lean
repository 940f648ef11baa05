import Mathlib
import Armv4T.Shift
import Armv4T.Proofs.Word.Align
import Armv4T.Proofs.Word.Bits

/-!
# Shifts place by place

Both shifters are compared with a shift by one place that is repeated. After `n + 1` shifts by one
place the bits have moved by `n + 1` places and the carry is the bit that the last of the shifts
moved out. So a value and its carry are found with the bits of the word, and each shifter has to be
right at the amounts that it treats in a way of its own: zero, which encodes another shift in an
immediate, and in a register the amounts from 32 on.
-/

namespace Armv4T.Shift

/-- A shift by one place. The carry is the bit that leaves the word. -/
def one (kind : ShiftKind) (x : Word × Bool) : Word × Bool :=
  match kind with
  | .lsl => (x.1 <<< 1, x.1.bit 31)
  | .lsr => (x.1 >>> 1, x.1.bit 0)
  | .asr => ((x.1 >>> 1) ||| (x.1 &&& 0x80000000), x.1.bit 0)
  | .ror => ((x.1 >>> 1) ||| (x.1 <<< 31), x.1.bit 0)

/-! ### Repeated shifts -/

/-- The bits of a word after a shift by a number of places. -/
def shifted (kind : ShiftKind) (v : BitVec 32) (n : ℕ) : BitVec 32 :=
  match kind with
  | .lsl => v <<< n
  | .lsr => v >>> n
  | .asr => v.sshiftRight n
  | .ror => v.rotateRight n

/-- The bit that leaves the word in a shift by one place. -/
def leaving (kind : ShiftKind) (v : BitVec 32) : Bool :=
  match kind with
  | .lsl => v.getLsbD 31
  | .lsr | .asr | .ror => v.getLsbD 0

/-- A rotation moves bit `n + i` to bit `i`, counted around the word. -/
lemma getLsbD_rotateRight (v : BitVec 32) (n : ℕ) {i : ℕ} (h : i < 32) :
    (v.rotateRight n).getLsbD i = v.getLsbD ((n + i) % 32) := by
  rw [BitVec.getLsbD_rotateRight]
  by_cases hi : i < 32 - n % 32
  · have hmod : (n + i) % 32 = n % 32 + i := by omega
    simp [hi, hmod]
  · have hmod : (n + i) % 32 = i - (32 - n % 32) := by omega
    simp [hi, h, hmod]

/-- From 31 places on an arithmetic shift leaves copies of the sign. -/
lemma getLsbD_sshiftRight_of_le (v : BitVec 32) {n i : ℕ} (hn : 31 ≤ n) (hi : i < 32) :
    (v.sshiftRight n).getLsbD i = v.getLsbD 31 := by
  rw [BitVec.getLsbD_sshiftRight, BitVec.msb_eq_getLsbD_last]
  rcases Nat.lt_or_ge (n + i) 32 with hlt | hge
  · obtain ⟨rfl, rfl⟩ : n = 31 ∧ i = 0 := by omega
    rfl
  · have hnot : ¬n + i < 32 := by omega
    simp [hnot, hi]

lemma shifted_zero (kind : ShiftKind) (v : BitVec 32) : shifted kind v 0 = v := by
  cases kind with
  | lsl | lsr | asr => simp [shifted]
  | ror =>
    refine BitVec.eq_of_getLsbD_eq fun i hi => ?_
    show (v.rotateRight 0).getLsbD i = v.getLsbD i
    rw [getLsbD_rotateRight _ _ hi, Nat.zero_add, Nat.mod_eq_of_lt hi]

lemma shifted_succ (kind : ShiftKind) (v : BitVec 32) (n : ℕ) :
    shifted kind v (n + 1) = shifted kind (shifted kind v n) 1 := by
  cases kind with
  | lsl => exact BitVec.shiftLeft_add v n 1
  | lsr => exact BitVec.shiftRight_add v n 1
  | asr => exact BitVec.sshiftRight_add
  | ror =>
    refine BitVec.eq_of_getLsbD_eq fun i hi => ?_
    show (v.rotateRight (n + 1)).getLsbD i = ((v.rotateRight n).rotateRight 1).getLsbD i
    rw [getLsbD_rotateRight _ _ hi, getLsbD_rotateRight _ _ hi,
      getLsbD_rotateRight _ _ (Nat.mod_lt _ (by decide))]
    congr 1
    omega

/-- From 32 places on a logical shift leaves nothing. -/
lemma shifted_eq_zero {kind : ShiftKind} (hkind : kind = .lsl ∨ kind = .lsr) (v : BitVec 32)
    {n : ℕ} (h : 32 ≤ n) : shifted kind v n = 0 := by
  rcases hkind with rfl | rfl
  · exact BitVec.shiftLeft_eq_zero h
  · exact BitVec.ushiftRight_eq_zero h

/-- The last bit to leave a word that is shifted by at most 32 places. -/
lemma leaving_shifted (kind : ShiftKind) (v : BitVec 32) {m : ℕ} (h : m < 32) :
    leaving kind (shifted kind v m) = v.getLsbD (if kind = .lsl then 31 - m else m) := by
  cases kind with
  | lsl =>
    have hm : ¬31 < m := by omega
    show (v <<< m).getLsbD 31 = _
    rw [BitVec.getLsbD_shiftLeft]
    simp [hm]
  | lsr =>
    show (v >>> m).getLsbD 0 = _
    rw [BitVec.getLsbD_ushiftRight]
    rfl
  | asr =>
    show (v.sshiftRight m).getLsbD 0 = _
    rw [BitVec.getLsbD_sshiftRight]
    simp [h]
  | ror =>
    show (v.rotateRight m).getLsbD 0 = _
    rw [getLsbD_rotateRight _ _ (by decide), Nat.add_zero, Nat.mod_eq_of_lt h]
    rfl

/-- A shift by one place puts a copy of the sign above an arithmetic shift. -/
lemma toBitVec_one_asr (x : Word × Bool) :
    (one .asr x).1.toBitVec = x.1.toBitVec.sshiftRight 1 := by
  have hright : (x.1 >>> 1).toBitVec = x.1.toBitVec >>> 1 :=
    Word.toBitVec_shiftRight_ofNat x.1 (n := 1) (by decide)
  have hsign : (0x80000000 : Word).toBitVec = BitVec.twoPow 32 31 := rfl
  refine BitVec.eq_of_getLsbD_eq fun i hi => ?_
  show ((x.1 >>> 1) ||| (x.1 &&& 0x80000000)).toBitVec.getLsbD i = _
  rw [UInt32.toBitVec_or, UInt32.toBitVec_and, hright, hsign, BitVec.getLsbD_or,
    BitVec.getLsbD_and, BitVec.getLsbD_ushiftRight, BitVec.getLsbD_twoPow,
    BitVec.getLsbD_sshiftRight]
  rcases Nat.lt_or_ge (1 + i) 32 with h | h
  · have hne : ¬31 = i := by omega
    simp [h, hne, hi]
  · obtain rfl : i = 31 := by omega
    simp [BitVec.msb_eq_getLsbD_last]

/-- A shift by one place moves the bits by one place and keeps the one that leaves. -/
lemma one_eq (kind : ShiftKind) (x : Word × Bool) :
    one kind x = (⟨shifted kind x.1.toBitVec 1⟩, leaving kind x.1.toBitVec) := by
  have hright : (x.1 >>> 1).toBitVec = x.1.toBitVec >>> 1 :=
    Word.toBitVec_shiftRight_ofNat x.1 (n := 1) (by decide)
  have hvalue : (one kind x).1.toBitVec = shifted kind x.1.toBitVec 1 := by
    cases kind with
    | lsl => exact Word.toBitVec_shiftLeft_ofNat x.1 (n := 1) (by decide)
    | lsr => exact hright
    | asr => exact toBitVec_one_asr x
    | ror =>
      have hleft : (x.1 <<< 31).toBitVec = x.1.toBitVec <<< 31 :=
        Word.toBitVec_shiftLeft_ofNat x.1 (n := 31) (by decide)
      show ((x.1 >>> 1) ||| (x.1 <<< 31)).toBitVec = _
      rw [UInt32.toBitVec_or, hright, hleft]
      rfl
  have hcarry : (one kind x).2 = leaving kind x.1.toBitVec := by
    cases kind with
    | lsl => exact Word.bit_eq_getLsbD x.1 (n := 31) (by decide)
    | lsr | asr | ror => exact Word.bit_eq_getLsbD x.1 (n := 0) (by decide)
  rw [← hvalue, ← hcarry]

/-- Any number of shifts by one place. -/
lemma iterate_one (kind : ShiftKind) (v : Word) (carry : Bool) (n : ℕ) :
    (one kind)^[n + 1] (v, carry) =
      (⟨shifted kind v.toBitVec (n + 1)⟩, leaving kind (shifted kind v.toBitVec n)) := by
  induction n with
  | zero =>
    rw [shifted_zero]
    exact one_eq kind (v, carry)
  | succ n ih => rw [Function.iterate_succ_apply', ih, one_eq, ← shifted_succ]

/-- By 32 places or more a logical shift leaves nothing, and its carry is the last bit only if the
shift is by 32 places. -/
lemma iterate_one_of_le {kind : ShiftKind} (hkind : kind = .lsl ∨ kind = .lsr) (v : Word)
    (carry : Bool) {m : ℕ} (h : 31 ≤ m) :
    (one kind)^[m + 1] (v, carry) =
      (0, decide (m = 31) && v.bit (if kind = .lsl then 0 else 31)) := by
  rw [iterate_one, shifted_eq_zero hkind _ (by omega)]
  rcases Nat.eq_or_lt_of_le h with rfl | hlt
  · rw [leaving_shifted _ _ (by decide)]
    rcases hkind with rfl | rfl
    · exact congrArg _ (Word.bit_eq_getLsbD v (n := 0) (by decide)).symm
    · exact congrArg _ (Word.bit_eq_getLsbD v (n := 31) (by decide)).symm
  · rw [shifted_eq_zero hkind _ hlt, decide_eq_false hlt.ne', Bool.false_and]
    rcases hkind with rfl | rfl <;> rfl

/-- By 32 places or more an arithmetic shift leaves the sign everywhere. -/
lemma iterate_one_asr_of_le (v : Word) (carry : Bool) {m : ℕ} (h : 31 ≤ m) :
    (one .asr)^[m + 1] (v, carry) = (v.shiftRightSigned 31, v.bit 31) := by
  have hall : v.shiftRightSigned 31 = ⟨v.toBitVec.sshiftRight (m + 1)⟩ := by
    apply UInt32.toBitVec_inj.mp
    refine BitVec.eq_of_getLsbD_eq fun i hi => ?_
    have h31 := Word.toBitVec_shiftRightSigned_ofNat v (n := 31) (by decide)
    calc (v.shiftRightSigned 31).toBitVec.getLsbD i
        = (v.toBitVec.sshiftRight 31).getLsbD i := congrArg (·.getLsbD i) h31
      _ = v.toBitVec.getLsbD 31 := getLsbD_sshiftRight_of_le _ le_rfl hi
      _ = (v.toBitVec.sshiftRight (m + 1)).getLsbD i :=
        (getLsbD_sshiftRight_of_le _ (by omega) hi).symm
  have hsign : v.bit 31 = v.toBitVec.getLsbD 31 := Word.bit_eq_getLsbD v (n := 31) (by decide)
  rw [iterate_one, hall, hsign]
  exact congrArg _ (getLsbD_sshiftRight_of_le _ h (by decide))

/-! ### Immediate amounts -/

lemma ofNat_succ_ne_zero {m : ℕ} (h : m < 31) : UInt32.ofNat (m + 1) ≠ 0 := by
  intro e
  have hnat := congrArg UInt32.toNat e
  rw [Word.toNat_ofNat_of_lt (by omega)] at hnat
  exact nomatch hnat

lemma ofNat_succ_sub_one (m : ℕ) : UInt32.ofNat (m + 1) - 1 = UInt32.ofNat m := by
  rw [UInt32.ofNat_add]
  exact UInt32.add_sub_cancel _ _

/-- An immediate amount other than zero is a number of shifts by one place. -/
lemma byImmediate_succ (kind : ShiftKind) (v : Word) {m : ℕ} (h : m < 31) (carry : Bool) :
    byImmediate kind v (.ofNat (m + 1)) carry = (one kind)^[m + 1] (v, carry) := by
  have hamount := ofNat_succ_ne_zero h
  have hvalue : (byImmediate kind v (.ofNat (m + 1)) carry).1.toBitVec =
      shifted kind v.toBitVec (m + 1) := by
    cases kind with
    | lsl =>
      simp only [byImmediate, if_neg hamount]
      exact Word.toBitVec_shiftLeft_ofNat v (by omega)
    | lsr =>
      simp only [byImmediate, if_neg hamount]
      exact Word.toBitVec_shiftRight_ofNat v (by omega)
    | asr =>
      simp only [byImmediate, if_neg hamount]
      exact Word.toBitVec_shiftRightSigned_ofNat v (by omega)
    | ror =>
      simp only [byImmediate, if_neg hamount]
      exact congrArg UInt32.toBitVec (Word.rotateRight_eq v (by omega))
  have hcarry : (byImmediate kind v (.ofNat (m + 1)) carry).2 =
      leaving kind (shifted kind v.toBitVec m) := by
    rw [leaving_shifted kind _ (by omega)]
    cases kind with
    | lsl =>
      have hsub : (32 : Word) - UInt32.ofNat (m + 1) = UInt32.ofNat (31 - m) := by
        rw [show 31 - m = 32 - (m + 1) by omega, UInt32.ofNat_sub (by omega)]
        rfl
      simp only [byImmediate, if_neg hamount, hsub]
      exact Word.bit_eq_getLsbD v (by omega)
    | lsr | asr | ror =>
      simp only [byImmediate, if_neg hamount, ofNat_succ_sub_one]
      exact Word.bit_eq_getLsbD v (by omega)
  rw [iterate_one, ← hvalue, ← hcarry]

/-- The 33 bits of a word and the carry above it. -/
def withCarry (x : Word × Bool) : BitVec 33 := .cons x.2 x.1.toBitVec

/-- The immediate that encodes a rotation by no places rotates the word and the carry by one. -/
lemma withCarry_byImmediate_ror (v : Word) (carry : Bool) :
    withCarry (byImmediate .ror v 0 carry) = (withCarry (v, carry)).rotateRight 1 := by
  have hout : v.bit 0 = v.toBitVec.getLsbD 0 := Word.bit_eq_getLsbD v (n := 0) (by decide)
  have hin : (Word.ofBool carry <<< 31).toBitVec = if carry then BitVec.twoPow 32 31 else 0 := by
    cases carry <;> rfl
  have hright : (v >>> 1).toBitVec = v.toBitVec >>> 1 :=
    Word.toBitVec_shiftRight_ofNat v (n := 1) (by decide)
  refine BitVec.eq_of_getLsbD_eq fun i hi => ?_
  show (BitVec.cons (v.bit 0) ((Word.ofBool carry <<< 31) ||| (v >>> 1)).toBitVec).getLsbD i =
    ((BitVec.cons carry v.toBitVec).rotateRight 1).getLsbD i
  rw [BitVec.getLsbD_rotateRight, BitVec.getLsbD_cons, UInt32.toBitVec_or, hin, hright, hout,
    BitVec.getLsbD_or, BitVec.getLsbD_ushiftRight]
  -- bit 32 takes the bit that leaves, bit 31 the carry, and each bit below takes the next one
  rcases Nat.lt_or_ge i 32 with h | h
  · simp only [Nat.one_mod, decide_eq_true h, cond_true, h.ne, if_false, BitVec.getLsbD_cons]
    rcases Nat.lt_or_ge i 31 with h' | h'
    · have hne : 1 + i ≠ 32 := by omega
      have hne' : ¬31 = i := by omega
      cases carry <;> simp [hne, hne', BitVec.getLsbD_twoPow]
    · obtain rfl : i = 31 := by omega
      cases carry <;> simp
  · obtain rfl : i = 32 := by omega
    simp [BitVec.getElem_cons]

/-! ### Amounts in a register -/

section Register

variable (v : Word) {amount : Word} {m : ℕ} (carry : Bool)

/-- Zero leaves the word and the carry. -/
lemma byRegister_of_eq_zero (kind : ShiftKind) (h : (amount &&& 0xFF).toNat = 0) :
    byRegister kind v amount carry = (v, carry) := by
  have hzero : amount &&& 0xFF = 0 := UInt32.toNat_inj.mp h
  simp only [byRegister, if_pos hzero]

lemma and_ne_zero (hm : (amount &&& 0xFF).toNat = m + 1) : amount &&& 0xFF ≠ 0 :=
  fun e => nomatch hm.symm.trans (congrArg UInt32.toNat e)

lemma and_lt_iff (hm : (amount &&& 0xFF).toNat = m + 1) : amount &&& 0xFF < 32 ↔ m < 31 := by
  rw [UInt32.lt_iff_toNat_lt, hm]
  exact Nat.succ_lt_succ_iff

lemma and_eq_iff (hm : (amount &&& 0xFF).toNat = m + 1) : amount &&& 0xFF = 32 ↔ m = 31 := by
  rw [← UInt32.toNat_inj, hm]
  exact Nat.succ_inj

/-- A rotation by any number of places is one by the remainder of the number by 32. -/
lemma byRegister_ror (hm : (amount &&& 0xFF).toNat = m + 1) :
    byRegister .ror v amount carry = (one .ror)^[m + 1] (v, carry) := by
  have hr : (amount &&& 0xFF &&& 0x1F).toNat = (m + 1) % 32 := by
    rw [← hm]
    exact Word.toNat_and_sub_one (n := 32) (k := 5) rfl _
  have hround : (⟨shifted .ror v.toBitVec (m + 1)⟩ : Word) =
      ⟨v.toBitVec.rotateRight ((m + 1) % 32)⟩ := by
    rw [BitVec.rotateRight_mod_eq_rotateRight]
    rfl
  have hout : leaving .ror (shifted .ror v.toBitVec m) = v.toBitVec.getLsbD (m % 32) :=
    getLsbD_rotateRight _ _ (by decide)
  have hzero : amount &&& 0xFF &&& 0x1F = 0 ↔ (m + 1) % 32 = 0 := by
    rw [← UInt32.toNat_inj, hr]
    rfl
  rw [iterate_one, hround, hout]
  simp only [byRegister, if_neg (and_ne_zero hm), hzero]
  rcases Nat.eq_zero_or_pos ((m + 1) % 32) with hmod | hmod
  · -- the word has gone around, and its last bit was the last to leave
    have hlast : m % 32 = 31 := by omega
    have hsign : v.bit 31 = v.toBitVec.getLsbD 31 := Word.bit_eq_getLsbD v (n := 31) (by decide)
    rw [if_pos hmod, hmod, hlast, hsign]
    exact congrArg (fun x : BitVec 32 => (UInt32.ofBitVec x, _)) (shifted_zero .ror _).symm
  · have hlast : (m + 1) % 32 = m % 32 + 1 := by omega
    have hn : amount &&& 0xFF &&& 0x1F = .ofNat (m % 32 + 1) := by
      rw [← hlast, ← hr, UInt32.ofNat_toNat]
    rw [if_neg hmod.ne', hn, ofNat_succ_sub_one, hlast, Word.rotateRight_eq v (by omega),
      Word.bit_eq_getLsbD v (by omega)]

/-- An amount in a register other than zero is a number of shifts by one place. -/
lemma byRegister_succ (kind : ShiftKind) (hm : (amount &&& 0xFF).toNat = m + 1) :
    byRegister kind v amount carry = (one kind)^[m + 1] (v, carry) := by
  have hpos := and_ne_zero hm
  rcases Nat.lt_or_ge m 31 with h | h
  · have hn : UInt32.ofNat (m + 1) = amount &&& 0xFF := by rw [← hm, UInt32.ofNat_toNat]
    have hlt := (and_lt_iff hm).mpr h
    cases kind with
    | lsl | lsr | asr =>
      rw [← byImmediate_succ _ v h, hn]
      simp only [byRegister, byImmediate, if_neg hpos, if_pos hlt]
    | ror => exact byRegister_ror v carry hm
  · have hlt : ¬amount &&& 0xFF < 32 := fun e => absurd ((and_lt_iff hm).mp e) (by omega)
    cases kind with
    | lsl | lsr =>
      rw [iterate_one_of_le (by decide) v carry h]
      simp only [byRegister, if_neg hpos, if_neg hlt, and_eq_iff hm]
      by_cases h31 : m = 31 <;> simp [h31]
    | asr =>
      rw [iterate_one_asr_of_le v carry h]
      simp only [byRegister, if_neg hpos, if_neg hlt]
    | ror => exact byRegister_ror v carry hm

end Register

/-- Both shifters shift place by place: a register by its low byte, an immediate by its amount, but
for zero, which leaves the word in a shift to the left, stands for 32 places in one to the right,
and rotates by one place through the carry. -/
theorem shifters_eq_iterate_one (kind : ShiftKind) (v amount : Word) (carry : Bool) :
    byRegister kind v amount carry = (one kind)^[amount.toNat % 256] (v, carry) ∧
      (0 < amount → amount < 32 →
        byImmediate kind v amount carry = (one kind)^[amount.toNat] (v, carry)) ∧
      byImmediate .lsl v 0 carry = (v, carry) ∧
      byImmediate .lsr v 0 carry = (one .lsr)^[32] (v, carry) ∧
      byImmediate .asr v 0 carry = (one .asr)^[32] (v, carry) ∧
      withCarry (byImmediate .ror v 0 carry) = (withCarry (v, carry)).rotateRight 1 := by
  refine ⟨?_, fun hpos hlt => ?_, rfl, ?_, ?_, withCarry_byImmediate_ror v carry⟩
  · have hbyte : (amount &&& 0xFF).toNat = amount.toNat % 256 :=
      Word.toNat_and_sub_one (n := 256) (k := 8) rfl amount
    rcases hm : (amount &&& 0xFF).toNat with _ | m
    · rw [byRegister_of_eq_zero v carry kind hm, ← hbyte, hm]
      rfl
    · rw [byRegister_succ v carry kind hm, ← hbyte, hm]
  · have hpos' : 0 < amount.toNat := UInt32.lt_iff_toNat_lt.mp hpos
    have hlt' : amount.toNat < 32 := UInt32.lt_iff_toNat_lt.mp hlt
    obtain ⟨m, hm⟩ := Nat.exists_eq_add_one.mpr hpos'
    have h := byImmediate_succ kind v (m := m) (by omega) carry
    rwa [← hm, UInt32.ofNat_toNat] at h
  · exact (iterate_one_of_le (.inr rfl) v carry (m := 31) le_rfl).symm
  · exact (iterate_one_asr_of_le v carry (m := 31) le_rfl).symm

/-- An arithmetic shift to the right by four places. -/
theorem shifters_eq_iterate_one_asr_four :
    (0 < (4 : Word) ∧ (4 : Word) < 32) ∧
      byImmediate .asr 0x80000018 4 false = (one .asr)^[4] (0x80000018, false) :=
  ⟨by decide, (shifters_eq_iterate_one .asr 0x80000018 4 false).2.1 (by decide) (by decide)⟩

/-- A rotation by 32 places leaves the word and carries its last bit out. -/
example : byRegister .ror 0x80000001 32 false = (0x80000001, true) := by decide

end Armv4T.Shift
