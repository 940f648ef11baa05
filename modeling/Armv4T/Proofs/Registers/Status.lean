import Mathlib
import Armv4T.Registers
import Armv4T.Proofs.Word.Bits

/-!
# The status word

The status word is put together from the flags, the instruction set and the mode, and taken apart
again when it is loaded. Each part stands at bits of its own, so that loading the status word of a
register file gives back the flags, the set and the mode that were packed
(`Registers.loadStatus_packStatus`). Any other word is loaded if its mode field names a mode, and
then it is packed again without the bits that stand for nothing (`Registers.packStatus_eq_and`).
-/

namespace Armv4T

namespace Mode

/-- The mode is the one that the low five bits name. -/
lemma ofBits_eq_ok_iff {w : Word} {m : Mode} : ofBits w = .ok m ↔ m.bits = w &&& 0x1F := by
  constructor
  · intro h
    unfold ofBits at h
    split at h <;> cases h <;> exact (UInt32.toNat_inj.mp ‹_›).symm
  · intro h
    unfold ofBits
    rw [← h]
    cases m <;> rfl

lemma ofBits_of_unnamed {w : Word} (h : ∀ m : Mode, m.bits ≠ w &&& 0x1F) :
    ofBits w = .error (.invalidMode (w &&& 0x1F)) := by
  have hok (m : Mode) : ofBits w ≠ .ok m := fun e => h m (ofBits_eq_ok_iff.mp e)
  unfold ofBits at hok ⊢
  split at hok <;> first | exact absurd rfl (hok _) | rfl

end Mode

namespace Registers

variable (r : Registers)

/-- Above the mode field, a bit of the status word is the flag that is shifted there. -/
lemma bit_packStatus (n : Fin 32) (h : 5 ≤ n.val) :
    r.packStatus.bit (.ofNat n) =
      (r.flags.n && decide (31 = n) || r.flags.z && decide (30 = n) ||
        r.flags.c && decide (29 = n) || r.flags.v && decide (28 = n) ||
        r.flags.i && decide (7 = n) || r.flags.f && decide (6 = n) ||
        (r.set == .thumb) && decide (5 = n)) := by
  have hn : (UInt32.ofNat n).toNat < 32 := (Word.toNat_ofNat_of_lt n.isLt).trans_lt n.isLt
  have hmode : r.mode.bits.bit (.ofNat n) = false := by
    cases r.mode <;> decide +revert
  have h31 : (Word.ofBool r.flags.n <<< 31).bit (.ofNat n) = _ := Word.bit_ofBool_shiftLeft _ 31 n
  have h30 : (Word.ofBool r.flags.z <<< 30).bit (.ofNat n) = _ := Word.bit_ofBool_shiftLeft _ 30 n
  have h29 : (Word.ofBool r.flags.c <<< 29).bit (.ofNat n) = _ := Word.bit_ofBool_shiftLeft _ 29 n
  have h28 : (Word.ofBool r.flags.v <<< 28).bit (.ofNat n) = _ := Word.bit_ofBool_shiftLeft _ 28 n
  have h7 : (Word.ofBool r.flags.i <<< 7).bit (.ofNat n) = _ := Word.bit_ofBool_shiftLeft _ 7 n
  have h6 : (Word.ofBool r.flags.f <<< 6).bit (.ofNat n) = _ := Word.bit_ofBool_shiftLeft _ 6 n
  have h5 : (Word.ofBool (r.set == .thumb) <<< 5).bit (.ofNat n) = _ :=
    Word.bit_ofBool_shiftLeft _ 5 n
  rw [packStatus]
  simp only [Word.bit_or _ _ hn, hmode, h31, h30, h29, h28, h7, h6, h5, Bool.or_false]

/-- The flags are read from where they were packed. -/
lemma flagsOfStatus_packStatus : flagsOfStatus r.packStatus = r.flags := by
  have h31 : r.packStatus.bit 31 = _ := r.bit_packStatus 31 (by decide)
  have h30 : r.packStatus.bit 30 = _ := r.bit_packStatus 30 (by decide)
  have h29 : r.packStatus.bit 29 = _ := r.bit_packStatus 29 (by decide)
  have h28 : r.packStatus.bit 28 = _ := r.bit_packStatus 28 (by decide)
  have h7 : r.packStatus.bit 7 = _ := r.bit_packStatus 7 (by decide)
  have h6 : r.packStatus.bit 6 = _ := r.bit_packStatus 6 (by decide)
  rw [flagsOfStatus, h31, h30, h29, h28, h7, h6]
  simp

/-- The instruction set is read from where it was packed. -/
lemma ofBit_packStatus : InstrSet.ofBit (r.packStatus.bit 5) = r.set := by
  have h5 : r.packStatus.bit 5 = _ := r.bit_packStatus 5 (by decide)
  rw [h5]
  cases r.set <;> simp [InstrSet.ofBit]

/-- The mode field of the status word is the code of the mode. -/
lemma packStatus_and : r.packStatus &&& 0x1F = r.mode.bits := by
  have hflag (b : Bool) (k : Fin 32) (hk : 5 ≤ k.val) :
      (Word.ofBool b <<< UInt32.ofNat k) &&& 0x1F = 0 := by
    cases b <;> revert hk <;> decide +revert +kernel
  have h31 : (Word.ofBool r.flags.n <<< 31) &&& 0x1F = 0 := hflag _ 31 (by decide)
  have h30 : (Word.ofBool r.flags.z <<< 30) &&& 0x1F = 0 := hflag _ 30 (by decide)
  have h29 : (Word.ofBool r.flags.c <<< 29) &&& 0x1F = 0 := hflag _ 29 (by decide)
  have h28 : (Word.ofBool r.flags.v <<< 28) &&& 0x1F = 0 := hflag _ 28 (by decide)
  have h7 : (Word.ofBool r.flags.i <<< 7) &&& 0x1F = 0 := hflag _ 7 (by decide)
  have h6 : (Word.ofBool r.flags.f <<< 6) &&& 0x1F = 0 := hflag _ 6 (by decide)
  have h5 : (Word.ofBool (r.set == .thumb) <<< 5) &&& 0x1F = 0 := hflag _ 5 (by decide)
  have hmode : r.mode.bits &&& 0x1F = r.mode.bits := by cases r.mode <;> rfl
  rw [packStatus]
  simp only [Word.or_and_distrib, h31, h30, h29, h28, h7, h6, h5, hmode, UInt32.zero_or]

/-- The mode is read from where it was packed. -/
lemma ofBits_packStatus : Mode.ofBits r.packStatus = .ok r.mode :=
  Mode.ofBits_eq_ok_iff.mpr r.packStatus_and.symm

/-- The status word of a register file that has the flags, the set and the mode of a word is this
word, without the bits that stand for nothing. -/
lemma packStatus_eq_and {s : Registers} {v : Word} (hmode : s.mode.bits = v &&& 0x1F)
    (hset : s.set = .ofBit (v.bit 5)) (hflags : s.flags = flagsOfStatus v) :
    s.packStatus = v &&& 0xF00000FF := by
  have hlow (n : Fin 32) (h : n.val < 5) :
      (0x1F : Word).bit (.ofNat n) = true ∧ (0xF00000FF : Word).bit (.ofNat n) = true := by
    decide +revert
  refine Word.eq_of_bit fun n => ?_
  have hn : (UInt32.ofNat n).toNat < 32 := (Word.toNat_ofNat_of_lt n.isLt).trans_lt n.isLt
  rw [Word.bit_and _ _ hn]
  rcases Nat.lt_or_ge n.val 5 with h | h
  · -- a bit of the mode field
    have hfield : (s.packStatus &&& 0x1F).bit (.ofNat n) = (v &&& 0x1F).bit (.ofNat n) := by
      rw [s.packStatus_and, hmode]
    rw [Word.bit_and _ _ hn, Word.bit_and _ _ hn, (hlow n h).1, Bool.and_true] at hfield
    rw [(hlow n h).2, hfield]
  · -- each flag is one bit, and the mask has the bits of the flags
    have hthumb : (s.set == .thumb) = v.bit 5 := by rw [hset]; cases v.bit 5 <;> rfl
    have hmask : (0xF00000FF : Word).bit (.ofNat n) =
        (decide (31 = n) || decide (30 = n) || decide (29 = n) || decide (28 = n) ||
          decide (7 = n) || decide (6 = n) || decide (5 = n)) := by
      revert h; decide +revert
    have hbit (k : Fin 32) :
        (v.bit (.ofNat k) && decide (k = n)) = (v.bit (.ofNat n) && decide (k = n)) := by
      by_cases hk : k = n <;> simp [hk]
    rw [bit_packStatus s n h, hflags, hthumb, hmask]
    simp only [Bool.and_or_distrib_left]
    rw [← hbit 31, ← hbit 30, ← hbit 29, ← hbit 28, ← hbit 7, ← hbit 6, ← hbit 5]
    rfl

/-- Loading the status word of a register file restores its mode, its set and its flags. -/
lemma loadStatus_packStatus (s : Registers) :
    s.loadStatus r.packStatus =
      .ok { s.switchMode r.mode with set := r.set, flags := r.flags } := by
  rw [loadStatus, ofBits_packStatus, ofBit_packStatus, flagsOfStatus_packStatus]
  rfl

/-- A register file is in its own mode. -/
lemma switchMode_mode : r.switchMode r.mode = r := by
  rw [switchMode, if_pos rfl]

/-- Loading its own status word leaves a register file as it is. -/
lemma loadStatus_packStatus_self : r.loadStatus r.packStatus = .ok r := by
  rw [loadStatus_packStatus, switchMode_mode]

/-! ### Loading any word -/

/-- What loading a word makes of a register file in a given mode. -/
def withStatus (m : Mode) (v : Word) : Registers :=
  { r.switchMode m with set := .ofBit (v.bit 5), flags := flagsOfStatus v }

lemma loadStatus_of_mode {m : Mode} {v : Word} (h : m.bits = v &&& 0x1F) :
    r.loadStatus v = .ok (r.withStatus m v) := by
  rw [loadStatus, Mode.ofBits_eq_ok_iff.mpr h]
  rfl

lemma loadStatus_of_unnamed {v : Word} (h : ∀ m : Mode, m.bits ≠ v &&& 0x1F) :
    r.loadStatus v = .error (.invalidMode (v &&& 0x1F)) := by
  rw [loadStatus, Mode.ofBits_of_unnamed h]
  rfl

/-- If a word is loaded then its mode field names a mode. -/
lemma exists_of_loadStatus_ok {r s : Registers} {v : Word} (h : r.loadStatus v = .ok s) :
    ∃ m : Mode, m.bits = v &&& 0x1F ∧ s = r.withStatus m v := by
  rcases em (∃ m : Mode, m.bits = v &&& 0x1F) with ⟨m, hm⟩ | hnone
  · rw [r.loadStatus_of_mode hm] at h
    exact ⟨m, hm, (Except.ok.inj h).symm⟩
  · rw [r.loadStatus_of_unnamed (not_exists.mp hnone)] at h
    exact nomatch h

/-- Loading a word fails exactly if its low five bits name no mode. -/
lemma loadStatus_eq_error_iff {v : Word} {fault : Fault} :
    r.loadStatus v = .error fault ↔
      fault = .invalidMode (v &&& 0x1F) ∧ ∀ m : Mode, m.bits ≠ v &&& 0x1F := by
  constructor
  · intro h
    have hnone (m : Mode) : m.bits ≠ v &&& 0x1F := fun hm => by
      rw [r.loadStatus_of_mode hm] at h
      cases h
    rw [r.loadStatus_of_unnamed hnone] at h
    cases h
    exact ⟨rfl, hnone⟩
  · rintro ⟨rfl, hnone⟩
    exact r.loadStatus_of_unnamed hnone

end Registers

end Armv4T
