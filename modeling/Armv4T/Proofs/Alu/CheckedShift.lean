import Mathlib
import Armv4T.Core
import Armv4T.Proofs.Word.Bits

/-!
# Shifts that check their amounts

The shifters are made of shifts and differences of words, which take an amount of 32 or more modulo
32 and wrap below zero. Here the same shifters are made of operations without a result there
(`Shift.Checked`). They turn out to have results, and the same ones: a shift by an immediate for
every amount below 32, and a shift by a register for every amount at all, since the cases that it
distinguishes keep the amounts from 32 on away from the operations.
-/

namespace Armv4T

namespace Shift.Checked

/-! ### Operations that check their amounts -/

/-- A shift to the left by less than 32 places. -/
def left (v n : Word) : Option Word := if n < 32 then some (v <<< n) else none

/-- A shift to the right by less than 32 places. -/
def right (v n : Word) : Option Word := if n < 32 then some (v >>> n) else none

/-- An arithmetic shift to the right by less than 32 places. -/
def rightSigned (v n : Word) : Option Word := if n < 32 then some (v.shiftRightSigned n) else none

/-- A difference that is not negative. -/
def difference (a b : Word) : Option Word := if b ≤ a then some (a - b) else none

/-- One of the bits of a word. -/
def bit (v n : Word) : Option Bool := do return ((← right v n) &&& 1) != 0

section Operations

variable {v n : Word}

lemma left_eq (h : n < 32) : left v n = some (v <<< n) := if_pos h

lemma right_eq (h : n < 32) : right v n = some (v >>> n) := if_pos h

lemma rightSigned_eq (h : n < 32) : rightSigned v n = some (v.shiftRightSigned n) := if_pos h

lemma bit_eq (h : n < 32) : bit v n = some (v.bit n) := by
  rw [bit, right_eq h]
  rfl

/-- The bit that a shift to the left by some places moves out last. -/
lemma bit_difference_left (hn : n ≠ 0) (h : n < 32) :
    (do bit v (← difference 32 n)) = some (v.bit (32 - n)) := by
  have hn' : n.toNat ≠ 0 := fun e => hn (UInt32.toNat_inj.mp e)
  have h' : n.toNat < 32 := UInt32.lt_iff_toNat_lt.mp h
  have hle : n ≤ 32 := UInt32.le_iff_toNat_le.mpr h'.le
  have hlt : 32 - n < 32 := by
    rw [UInt32.lt_iff_toNat_lt, UInt32.toNat_sub_of_le _ _ hle]
    exact Nat.sub_lt (by decide) (Nat.pos_of_ne_zero hn')
  rw [difference, if_pos hle]
  exact bit_eq hlt

/-- The bit that a shift to the right by some places moves out last. -/
lemma bit_difference_right (hn : n ≠ 0) (h : n < 32) :
    (do bit v (← difference n 1)) = some (v.bit (n - 1)) := by
  have hn' : n.toNat ≠ 0 := fun e => hn (UInt32.toNat_inj.mp e)
  have h' : n.toNat < 32 := UInt32.lt_iff_toNat_lt.mp h
  have hle : 1 ≤ n := UInt32.le_iff_toNat_le.mpr (Nat.one_le_iff_ne_zero.mpr hn')
  have hlt : n - 1 < 32 := by
    rw [UInt32.lt_iff_toNat_lt, UInt32.toNat_sub_of_le _ _ hle]
    exact (Nat.sub_le _ _).trans_lt h'
  rw [difference, if_pos hle]
  exact bit_eq hlt

end Operations

/-! ### The shifters -/

/-- A shift by an immediate amount. -/
def byImmediate (kind : ShiftKind) (value amount : Word) (carry : Bool) : Option (Word × Bool) :=
  match kind with
  | .lsl =>
    if amount = 0 then some (value, carry)
    else do return (← left value amount, ← (do bit value (← difference 32 amount)))
  | .lsr =>
    if amount = 0 then do return (0, ← bit value 31)
    else do return (← right value amount, ← (do bit value (← difference amount 1)))
  | .asr =>
    if amount = 0 then do return (← rightSigned value 31, ← bit value 31)
    else do return (← rightSigned value amount, ← (do bit value (← difference amount 1)))
  | .ror =>
    if amount = 0 then do return ((← left (.ofBool carry) 31) ||| (← right value 1), ← bit value 0)
    else do return (value.rotateRight amount, ← (do bit value (← difference amount 1)))

/-- A shift by the low byte of a register. -/
def byRegister (kind : ShiftKind) (value amount : Word) (carry : Bool) : Option (Word × Bool) :=
  let n := amount &&& 0xFF
  if n = 0 then some (value, carry)
  else
    match kind with
    | .lsl =>
      if n < 32 then do return (← left value n, ← (do bit value (← difference 32 n)))
      else if n = 32 then do return (0, ← bit value 0)
      else some (0, false)
    | .lsr =>
      if n < 32 then do return (← right value n, ← (do bit value (← difference n 1)))
      else if n = 32 then do return (0, ← bit value 31)
      else some (0, false)
    | .asr =>
      if n < 32 then do return (← rightSigned value n, ← (do bit value (← difference n 1)))
      else do return (← rightSigned value 31, ← bit value 31)
    | .ror =>
      let r := n &&& 0x1F
      if r = 0 then do return (value, ← bit value 31)
      else do return (value.rotateRight r, ← (do bit value (← difference r 1)))

/-- A shift by an immediate that five bits can write uses no amount out of range. -/
theorem byImmediate_eq (kind : ShiftKind) (value : Word) {amount : Word} (h : amount < 32)
    (carry : Bool) :
    byImmediate kind value amount carry = some (Shift.byImmediate kind value amount carry) := by
  by_cases hzero : amount = 0
  · subst hzero
    cases kind <;> rfl
  · have hleft := bit_difference_left (v := value) hzero h
    have hright := bit_difference_right (v := value) hzero h
    cases kind with
    | lsl => simp [byImmediate, Shift.byImmediate, hzero, left_eq h, hleft]
    | lsr => simp [byImmediate, Shift.byImmediate, hzero, right_eq h, hright]
    | asr => simp [byImmediate, Shift.byImmediate, hzero, rightSigned_eq h, hright]
    | ror => simp [byImmediate, Shift.byImmediate, hzero, hright]

lemma and_0x1F_lt (n : Word) : n &&& 0x1F < 32 := by
  rw [UInt32.lt_iff_toNat_lt, UInt32.toNat_and]
  exact Nat.and_lt_two_pow (n := 5) _ (by decide)

/-- A shift by a register uses no amount out of range. -/
theorem byRegister_eq (kind : ShiftKind) (value amount : Word) (carry : Bool) :
    byRegister kind value amount carry = some (Shift.byRegister kind value amount carry) := by
  unfold byRegister Shift.byRegister
  generalize amount &&& 0xFF = n
  by_cases hzero : n = 0
  · simp [hzero]
  · cases kind with
    | lsl =>
      by_cases h : n < 32
      · simp [hzero, h, left_eq h, bit_difference_left hzero h]
      · by_cases hall : n = 32 <;> simp [hzero, h, hall, bit_eq (show (0 : Word) < 32 by decide)]
    | lsr =>
      by_cases h : n < 32
      · simp [hzero, h, right_eq h, bit_difference_right hzero h]
      · by_cases hall : n = 32 <;> simp [hzero, h, hall, bit_eq (show (31 : Word) < 32 by decide)]
    | asr =>
      by_cases h : n < 32
      · simp [hzero, h, rightSigned_eq h, bit_difference_right hzero h]
      · simp [hzero, h, rightSigned_eq (show (31 : Word) < 32 by decide),
          bit_eq (show (31 : Word) < 32 by decide)]
    | ror =>
      by_cases hround : n &&& 0x1F = 0
      · simp [hzero, hround, bit_eq (show (31 : Word) < 32 by decide)]
      · simp [hzero, hround, bit_difference_right hround (and_0x1F_lt n)]

end Shift.Checked

end Armv4T
