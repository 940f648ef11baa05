import Mathlib
import Armv4T.Instruction
import Armv4T.Proofs.Alu.CheckedShift
import Armv4T.Proofs.Decode.Layout
import Armv4T.Proofs.Registers.Lists

/-!
# What a decoded instruction holds

Whatever the opcode, the numbers in a decoded instruction fit what they are used for. A register is
numbered by four bits of the opcode, or by three where only a low register can be meant. A shift by
an immediate is by less than 32 places, a rotated immediate is eight bits in a row around the word,
and a branch goes a signed number of instruction widths that its field can write
(`Word.IsDistance`). A block transfer moves its base by the number of registers that the opcode
lists and transfers as many, whether or not the base is dropped from the list.

The bounds are found with the fields that the numbers come from, and the classes of instructions are
followed in the order in which the decoder tells them apart. What the bounds are good for is the
shifter: in every state of the core, evaluating what was decoded uses no amount out of range
(`decode_wellFormed`).
-/

namespace Armv4T

/-! ### Numbers from fields -/

namespace Word

/-- A register is numbered by some `bits` bits of a word in a row. -/
def Numbers (w : Word) (bits : ℕ) (r : Reg) : Prop := ∃ lo, r.val = w.toNat / 2 ^ lo % 2 ^ bits

/-- A word is eight bits, rotated. -/
def IsRotatedByte (v : Word) : Prop :=
  ∃ byte n, byte < 2 ^ 8 ∧ n < 32 ∧ v.toBitVec = (BitVec.ofNat 32 byte).rotateRight n

/-- A word is a distance of so many steps forward or back that a signed number of `bits` bits can
count them. -/
def IsDistance (step : ℤ) (bits : ℕ) (v : Word) : Prop :=
  ∃ k : ℤ, -2 ^ (bits - 1) ≤ k ∧ k < 2 ^ (bits - 1) ∧ v.signed = k * step

/-- The number of ones in the low halfword. -/
def popcount16 (w : Word) : ℕ := (List.finRange 16).countP fun i : Fin 16 => w.toNat.testBit i.val

variable (w : Word)

lemma popcount16_le : w.popcount16 ≤ 16 := List.countP_le_length.trans_eq List.length_finRange

/-- The low bits of a word as a bit vector. -/
lemma field_zero_eq {n : ℕ} (hn : n < 32) :
    w.field 0 (.ofNat n) = .ofNat (BitVec.ofNat n w.toNat).toNat := by
  refine field_eq 0 n _ ⟨by decide, hn, ?_⟩
  rw [BitVec.toNat_ofNat, pow_zero, Nat.div_one]

lemma field_lt_32 (lo : ℕ) (hlo : lo < 32) : w.field (.ofNat lo) 5 < 32 := by
  refine UInt32.lt_iff_toNat_lt.mpr (field_lt w ?_ (by decide))
  rwa [toNat_ofNat_of_lt hlo]

/-- A register that a field of at most four bits gives is numbered by its bits. -/
lemma numbers_ofWord_field (len : Word) {lo : ℕ} (hlo : lo < 32) (hlen : len.toNat ≤ 4) :
    w.Numbers len.toNat (Reg.ofWord (w.field (.ofNat lo) len)) := by
  have hlo' : (UInt32.ofNat lo).toNat = lo := toNat_ofNat_of_lt hlo
  have hfield : (w.field (.ofNat lo) len).toNat = w.toNat / 2 ^ lo % 2 ^ len.toNat := by
    rw [toNat_field w (hlo'.trans_lt hlo) (by omega), hlo']
  have hlt : w.toNat / 2 ^ lo % 2 ^ len.toNat < 16 :=
    (Nat.mod_lt _ (by positivity)).trans_le (Nat.pow_le_pow_right (by decide) hlen)
  refine ⟨lo, ?_⟩
  show (w.field (.ofNat lo) len).toNat % 16 = _
  rw [hfield]
  exact Nat.mod_eq_of_lt hlt

/-- A signed number of at least one bit counts steps of a distance, if the distance fits a word. -/
lemma isDistance_of_signed {n : ℕ} (hn : 0 < n) {step : ℤ} {v : Word} (x : BitVec n)
    (h : v.signed = x.toInt * step) : v.IsDistance step n := by
  have hlow := BitVec.le_two_mul_toInt (x := x)
  have hhigh := BitVec.two_mul_toInt_lt (x := x)
  have hpow : (2 : ℤ) ^ n = 2 * 2 ^ (n - 1) := by
    rw [← pow_succ', Nat.sub_add_cancel hn]
  exact ⟨x.toInt, by omega, by omega, h⟩

end Word

/-! ### Operands and addresses -/

/-- The registers of an operand. -/
def Operand.registers : Operand → List Reg
  | .immediate _ | .rotated _ => []
  | .shifted _ rm _ => [rm]
  | .shiftedBy _ rm rs => [rm, rs]

/-- An immediate has eight bits, rotated or not, and an immediate amount five. -/
def Operand.InRange : Operand → Prop
  | .immediate value => value.toNat < 2 ^ 8
  | .rotated value => value.IsRotatedByte
  | .shifted _ _ amount => amount < 32
  | .shiftedBy .. => True

/-- The registers of an offset. -/
def Offset.registers : Offset → List Reg
  | .immediate _ => []
  | .register rm | .shifted _ rm _ => [rm]

/-- An immediate has twelve bits, and an immediate amount five. -/
def Offset.InRange : Offset → Prop
  | .immediate value => value.toNat < 2 ^ 12
  | .register _ => True
  | .shifted _ _ amount => amount < 32

namespace Arm

/-- An immediate status word is eight bits, rotated. -/
def StatusSource.InRange : StatusSource → Prop
  | .register _ => True
  | .immediate value => value.IsRotatedByte

/-- The registers that an operation names, but for those in the list of a block transfer. -/
def Op.registers : Op → List Reg
  | .dataProcessing _ _ rd rn operand => rd :: rn :: operand.registers
  | .readStatus rd _ => [rd]
  | .writeStatus _ _ (.register rm) => [rm]
  | .writeStatus _ _ (.immediate _) => []
  | .multiply _ _ rd rn rs rm => [rd, rn, rs, rm]
  | .multiplyLong _ _ _ rdHi rdLo rs rm => [rdHi, rdLo, rs, rm]
  | .swap _ rd rn rm => [rd, rn, rm]
  | .load _ rd a | .store _ rd a => rd :: a.rn :: a.offset.registers
  | .loadMultiple _ _ a | .storeMultiple _ _ a => [a.rn]
  | .branchExchange rm => [rm]
  | .branch .. | .softwareInterrupt _ | .undefined _ => []

/-- The numbers of an operation that has been decoded from an opcode. -/
def Op.InRange (w : Word) : Op → Prop
  | .dataProcessing _ _ _ _ operand => operand.InRange
  | .writeStatus _ _ source => source.InRange
  | .load _ _ a | .store _ _ a => a.offset.InRange
  | .loadMultiple _ list a | .storeMultiple _ list a =>
    |a.delta.signed| = 4 * w.popcount16 ∧
      list.toList.length + (a.overlap && a.writeback).toNat = w.popcount16
  | .branch _ offset => offset.IsDistance 4 24
  | _ => True

/-- An operation is well formed for an opcode if the opcode numbers its registers, and its other
numbers are in range. -/
structure Op.WellFormed (w : Word) (op : Op) : Prop where
  registers : ∀ r ∈ op.registers, w.Numbers 4 r
  inRange : op.InRange w

variable (w : Word)

lemma numbers_regAt (lo : ℕ) (hlo : lo < 32) : w.Numbers 4 (regAt w (.ofNat lo)) :=
  w.numbers_ofWord_field 4 hlo (by decide)

lemma isRotatedByte_rotatedImmediate : (rotatedImmediate w).IsRotatedByte := by
  have hbyte : (w.field 0 8).toNat < 2 ^ 8 := w.field_lt (by decide) (by decide)
  have hfield : (w.field 8 4).toNat < 2 ^ 4 := w.field_lt (by decide) (by decide)
  have hplaces : 2 * w.field 8 4 = .ofNat (2 * (w.field 8 4).toNat) := by
    apply UInt32.toNat_inj.mp
    rw [UInt32.toNat_mul, UInt32.toNat_ofNat']
    rfl
  have hlt : 2 * (w.field 8 4).toNat < 32 := by omega
  have hbits : (w.field 0 8).toBitVec = BitVec.ofNat 32 (w.field 0 8).toNat := by
    apply BitVec.eq_of_toNat_eq
    rw [BitVec.toNat_ofNat, Nat.mod_eq_of_lt (w.field 0 8).toNat_lt]
    rfl
  refine ⟨(w.field 0 8).toNat, 2 * (w.field 8 4).toNat, hbyte, hlt, ?_⟩
  rw [rotatedImmediate, hplaces, Word.rotateRight_eq _ hlt, ← hbits]

lemma isDistance_branchOffset : (branchOffset w).IsDistance 4 24 := by
  have hoffset : branchOffset w = .ofInt (4 * (BitVec.ofNat 24 w.toNat).toInt) := by
    rw [branchOffset, show w.field 0 24 = _ from w.field_zero_eq (by decide : 24 < 32)]
    exact Word.shiftRightSigned_shiftLeft (by decide) (by decide) _
  have hlow := BitVec.le_two_mul_toInt (x := BitVec.ofNat 24 w.toNat)
  have hhigh := BitVec.two_mul_toInt_lt (x := BitVec.ofNat 24 w.toNat)
  refine Word.isDistance_of_signed (by decide) (BitVec.ofNat 24 w.toNat) ?_
  rw [hoffset, Word.signed_ofInt (by constructor <;> omega), mul_comm]

/-- The list of an opcode has as many registers as its low halfword has ones. -/
lemma length_toList_field : (RegList.mk (w.field 0 16)).toList.length = w.popcount16 := by
  have hcontains (i : Reg) : (RegList.mk (w.field 0 16)).contains i = w.toNat.testBit i := by
    have hfield : (w.field 0 16).toNat = w.toNat % 2 ^ 16 :=
      (Word.toNat_field w (by decide) (by decide)).trans (by simp)
    rw [RegList.contains_eq_testBit, hfield, Nat.testBit_mod_two_pow]
    simp
  rw [RegList.toList, ← List.countP_eq_length_filter, Word.popcount16]
  exact congrArg (List.countP · _) (funext hcontains)

/-- A block transfer moves its base by a word for every register of the list, dropped or not. -/
lemma abs_delta_ofFields (rn : Reg) (pre up writeback store : Bool) :
    |(BlockAddress.ofFields rn ⟨w.field 0 16⟩ pre up writeback store).1.delta.signed| =
      4 * w.popcount16 := by
  have hle := w.popcount16_le
  have hsize : (4 * (RegList.mk (w.field 0 16)).count).toNat = 4 * w.popcount16 := by
    have hfour : (4 : Word).toNat = 4 := rfl
    rw [UInt32.toNat_mul, RegList.count, length_toList_field, UInt32.toNat_ofNat', hfour]
    omega
  have hdelta : (BlockAddress.ofFields rn ⟨w.field 0 16⟩ pre up writeback store).1.delta =
      if up then 4 * (RegList.mk (w.field 0 16)).count
      else 0 - 4 * (RegList.mk (w.field 0 16)).count := rfl
  rw [hdelta]
  generalize 4 * (RegList.mk (w.field 0 16)).count = size at hsize
  cases up with
  | true =>
    have hsigned : size.signed = 4 * w.popcount16 := by
      rcases size.signed_cases with ⟨-, h⟩ | ⟨-, h⟩ <;> omega
    rw [if_pos rfl, hsigned, abs_of_nonneg (by positivity)]
  | false =>
    have hnat : (0 - size).toNat = (2 ^ 32 - 4 * w.popcount16) % 2 ^ 32 := by
      rw [UInt32.toNat_sub, hsize]
      rfl
    have hsigned : (0 - size).signed = -(4 * w.popcount16) := by
      rcases (0 - size).signed_cases with ⟨-, h⟩ | ⟨-, h⟩ <;> omega
    rw [if_neg Bool.false_ne_true, hsigned, abs_neg, abs_of_nonneg (by positivity)]

/-! ### ARM opcodes -/

lemma inRange_decodeOperand : (decodeOperand w).InRange := by
  unfold decodeOperand
  split
  · split
    · exact Word.field_lt w (by decide) (by decide)
    · exact isRotatedByte_rotatedImmediate w
  · split
    · trivial
    · exact w.field_lt_32 7 (by decide)

lemma registers_decodeOperand : ∀ r ∈ (decodeOperand w).registers, w.Numbers 4 r := by
  have h0 := numbers_regAt w 0 (by decide)
  have h8 := numbers_regAt w 8 (by decide)
  unfold decodeOperand
  split
  · split <;> simp [Operand.registers]
  · split
    · simpa [Operand.registers] using ⟨h0, h8⟩
    · simpa [Operand.registers] using h0

lemma wellFormed_undefined : (Op.undefined w).WellFormed w := ⟨by simp [Op.registers], trivial⟩

lemma wellFormed_decodeStatus : (decodeStatus w).WellFormed w := by
  have h0 := numbers_regAt w 0 (by decide)
  have h12 := numbers_regAt w 12 (by decide)
  unfold decodeStatus
  dsimp only
  split
  · split
    · exact ⟨by simp [Op.registers], isRotatedByte_rotatedImmediate w⟩
    · exact ⟨by simpa [Op.registers] using h0, trivial⟩
  · split
    · exact ⟨by simpa [Op.registers] using h12, trivial⟩
    · exact wellFormed_undefined w

lemma wellFormed_decodeDataProcessing : (decodeDataProcessing w).WellFormed w := by
  have h12 := numbers_regAt w 12 (by decide)
  have h16 := numbers_regAt w 16 (by decide)
  unfold decodeDataProcessing
  dsimp only
  split
  · exact wellFormed_decodeStatus w
  · refine ⟨?_, inRange_decodeOperand w⟩
    exact List.forall_mem_cons.mpr ⟨h12, List.forall_mem_cons.mpr
      ⟨h16, registers_decodeOperand w⟩⟩

lemma wellFormed_decodeMultiply : (decodeMultiply w).WellFormed w := by
  have h0 := numbers_regAt w 0 (by decide)
  have h8 := numbers_regAt w 8 (by decide)
  have h12 := numbers_regAt w 12 (by decide)
  have h16 := numbers_regAt w 16 (by decide)
  unfold decodeMultiply
  split
  · exact ⟨by simpa [Op.registers] using ⟨h16, h12, h8, h0⟩, trivial⟩
  · split
    · exact ⟨by simpa [Op.registers] using ⟨h16, h12, h8, h0⟩, trivial⟩
    · exact wellFormed_undefined w

section Transfers

variable {w} {offset : Offset}

lemma wellFormed_load (h : ∀ r ∈ offset.registers, w.Numbers 4 r) (hrange : offset.InRange)
    (kind : LoadKind) : (Op.load kind (regAt w 12) (singleAddress w offset)).WellFormed w := by
  have h12 := numbers_regAt w 12 (by decide)
  have h16 := numbers_regAt w 16 (by decide)
  exact ⟨List.forall_mem_cons.mpr ⟨h12, List.forall_mem_cons.mpr ⟨h16, h⟩⟩, hrange⟩

lemma wellFormed_store (h : ∀ r ∈ offset.registers, w.Numbers 4 r) (hrange : offset.InRange)
    (width : StoreWidth) :
    (Op.store width (regAt w 12) (singleAddress w offset)).WellFormed w := by
  have h12 := numbers_regAt w 12 (by decide)
  have h16 := numbers_regAt w 16 (by decide)
  exact ⟨List.forall_mem_cons.mpr ⟨h12, List.forall_mem_cons.mpr ⟨h16, h⟩⟩, hrange⟩

end Transfers

lemma decodeHalfOffset_inRange : (decodeHalfOffset w).InRange := by
  unfold decodeHalfOffset
  split
  · have hhigh : (w.field 8 4).toNat < 2 ^ 4 := w.field_lt (by decide) (by decide)
    have hlow : (w.field 0 4).toNat < 2 ^ 4 := w.field_lt (by decide) (by decide)
    show (((w.field 8 4) <<< 4) ||| w.field 0 4).toNat < 2 ^ 12
    rw [UInt32.toNat_or]
    refine Nat.or_lt_two_pow ?_ (hlow.trans (by decide))
    rw [UInt32.toNat_shiftLeft, Nat.shiftLeft_eq]
    refine (Nat.mod_le _ _).trans_lt ?_
    have hplaces : (2 : ℕ) ^ ((4 : Word).toNat % 32) = 16 := rfl
    rw [hplaces]
    omega
  · trivial

lemma registers_decodeHalfOffset : ∀ r ∈ (decodeHalfOffset w).registers, w.Numbers 4 r := by
  have h0 := numbers_regAt w 0 (by decide)
  unfold decodeHalfOffset
  split
  · simp [Offset.registers]
  · simpa [Offset.registers] using h0

lemma wellFormed_decodeHalf : (decodeHalf w).WellFormed w := by
  have hregisters := registers_decodeHalfOffset w
  have hrange := decodeHalfOffset_inRange w
  unfold decodeHalf
  dsimp only
  split
  · exact wellFormed_undefined w
  · split
    · exact wellFormed_store hregisters hrange _
    · exact wellFormed_load hregisters hrange _
    · exact wellFormed_load hregisters hrange _
    · exact wellFormed_load hregisters hrange _
    · exact wellFormed_undefined w

lemma decodeOffset_inRange : (decodeOffset w).InRange := by
  unfold decodeOffset
  dsimp only
  split
  · split
    · trivial
    · exact w.field_lt_32 7 (by decide)
  · exact Word.field_lt w (by decide) (by decide)

lemma registers_decodeOffset : ∀ r ∈ (decodeOffset w).registers, w.Numbers 4 r := by
  have h0 := numbers_regAt w 0 (by decide)
  unfold decodeOffset
  dsimp only
  split
  · split <;> simpa [Offset.registers] using h0
  · simp [Offset.registers]

lemma wellFormed_decodeTransfer : (decodeTransfer w).WellFormed w := by
  have hregisters := registers_decodeOffset w
  have hrange := decodeOffset_inRange w
  unfold decodeTransfer
  dsimp only
  split
  · exact wellFormed_undefined w
  · split
    · exact wellFormed_load hregisters hrange _
    · exact wellFormed_store hregisters hrange _

lemma wellFormed_decodeBlock : (decodeBlock w).WellFormed w := by
  have h16 := numbers_regAt w 16 (by decide)
  have hdelta := abs_delta_ofFields w (regAt w 16) (w.bit 24) (w.bit 23) (w.bit 21)
  have hlength (store : Bool) := BlockAddress.length_ofFields (regAt w 16) ⟨w.field 0 16⟩ (w.bit 24)
    (w.bit 23) (w.bit 21) store
  rw [length_toList_field] at hlength
  have hrn (store : Bool) : (BlockAddress.ofFields (regAt w 16) ⟨w.field 0 16⟩ (w.bit 24) (w.bit 23)
      (w.bit 21) store).1.rn = regAt w 16 := rfl
  unfold decodeBlock
  dsimp only
  split
  · exact ⟨by simpa [Op.registers, hrn] using h16, hdelta _, hlength _⟩
  · exact ⟨by simpa [Op.registers, hrn] using h16, hdelta _, hlength _⟩

lemma wellFormed_decodeOp : (decodeOp w).WellFormed w := by
  have h0 := numbers_regAt w 0 (by decide)
  have h12 := numbers_regAt w 12 (by decide)
  have h16 := numbers_regAt w 16 (by decide)
  unfold decodeOp
  split
  · exact ⟨by simpa [Op.registers] using h0, trivial⟩
  split
  · exact wellFormed_decodeDataProcessing w
  split
  · exact ⟨by simpa [Op.registers] using ⟨h12, h16, h0⟩, trivial⟩
  split
  · split
    · exact wellFormed_decodeMultiply w
    · exact wellFormed_decodeHalf w
  · exact wellFormed_decodeTransfer w
  · exact wellFormed_decodeTransfer w
  · exact wellFormed_decodeBlock w
  · exact ⟨by simp [Op.registers], isDistance_branchOffset w⟩
  · split
    · exact ⟨by simp [Op.registers], trivial⟩
    · exact wellFormed_undefined w
  · exact wellFormed_undefined w

end Arm

/-! ### Thumb opcodes -/

namespace Thumb

/-- The registers of an address. -/
def Address.registers : Address → List Reg
  | .register rn rm => [rn, rm]
  | .immediate rn _ => [rn]
  | .stack _ | .literal _ => []

/-- The low registers that an instruction names, but for those in the list of a block transfer. -/
def Instr.lowRegisters : Instr → List Reg
  | .shift _ rd rm _ => [rd, rm]
  | .addRegister _ rd rn rm => [rd, rn, rm]
  | .addSmall _ rd rn _ | .moveLow rd rn => [rd, rn]
  | .immediate _ rd _ => [rd]
  | .alu _ rd rm => [rd, rm]
  | .load _ rd a | .store _ rd a => rd :: a.registers
  | .addPc rd _ | .addSp rd _ => [rd]
  | .storeMultiple rn _ | .loadMultiple rn _ => [rn]
  | _ => []

/-- A high register in the first place is numbered by three bits and a fourth one apart. -/
def IsHigh (w : Word) (r : Reg) : Prop := r.val = w.toNat % 2 ^ 3 + 2 ^ 3 * (w.toNat / 2 ^ 7 % 2)

/-- The high registers and the numbers of an instruction that has been decoded from an opcode. -/
def Instr.InRange (w : Word) : Instr → Prop
  | .shift _ _ _ amount => amount < 32
  | .addHigh rd rm | .compareHigh rd rm | .moveHigh rd rm => IsHigh w rd ∧ w.Numbers 4 rm
  | .branchExchange rm => w.Numbers 4 rm
  | .branchIf _ offset => offset.IsDistance 2 8
  | .branch offset => offset.IsDistance 2 11
  | .callHigh offset => offset.IsDistance (2 ^ 12) 11
  | .callLow offset => ∃ k < 2 ^ 11, offset.toNat = 2 * k
  | .push list _ | .pop list _ | .storeMultiple _ list | .loadMultiple _ list =>
    list.mask.toNat < 2 ^ 8
  | _ => True

/-- An instruction is well formed for an opcode if the opcode numbers its registers, and its other
numbers are in range. -/
structure Instr.WellFormed (w : Word) (i : Instr) : Prop where
  lowRegisters : ∀ r ∈ i.lowRegisters, w.Numbers 3 r
  inRange : i.InRange w

variable (w : Word)

lemma numbers_lowAt (lo : ℕ) (hlo : lo < 32) : w.Numbers 3 (lowAt w (.ofNat lo)) :=
  w.numbers_ofWord_field 3 hlo (by decide)

/-! ### Distances -/

lemma signed_signed11 : (signed11 w).signed = (BitVec.ofNat 11 w.toNat).toInt := by
  have hlow := BitVec.le_two_mul_toInt (x := BitVec.ofNat 11 w.toNat)
  have hhigh := BitVec.two_mul_toInt_lt (x := BitVec.ofNat 11 w.toNat)
  have hextended : signed11 w = .ofInt (BitVec.ofNat 11 w.toNat).toInt := by
    rw [signed11, show w.field 0 11 = _ from w.field_zero_eq (by decide : 11 < 32)]
    exact (Word.shiftRightSigned_shiftLeft (n := 11) (m := 21) (by decide) (by decide) _).trans
      (congrArg UInt32.ofInt (one_mul _))
  rw [hextended, Word.signed_ofInt (by constructor <;> omega)]

/-- A number of eleven bits that is shifted to the left. -/
lemma isDistance_signed11 {n : ℕ} (h : n ≤ 20) :
    (signed11 w <<< UInt32.ofNat n).IsDistance (2 ^ n) 11 := by
  have hlow := BitVec.le_two_mul_toInt (x := BitVec.ofNat 11 w.toNat)
  have hhigh := BitVec.two_mul_toInt_lt (x := BitVec.ofNat 11 w.toNat)
  have hpow : (2 : ℤ) ^ n ≤ 2 ^ 20 := pow_le_pow_right₀ (by decide) h
  have hpos : (0 : ℤ) < 2 ^ n := by positivity
  refine Word.isDistance_of_signed (by decide) (BitVec.ofNat 11 w.toNat) ?_
  rw [← signed_signed11]
  refine Word.signed_shiftLeft (by omega) ?_
  rw [signed_signed11]
  constructor <;> nlinarith

lemma isDistance_signExtend8 (x : Word) : (x.signExtend8 <<< 1).IsDistance 2 8 := by
  have hsigned : x.signExtend8.signed = x.toUInt8.toInt8.toInt := Int8.toInt_toInt32 _
  have hlow := BitVec.le_two_mul_toInt (x := x.toUInt8.toBitVec)
  have hhigh := BitVec.two_mul_toInt_lt (x := x.toUInt8.toBitVec)
  have hnumber : x.toUInt8.toInt8.toInt = x.toUInt8.toBitVec.toInt := rfl
  refine Word.isDistance_of_signed (by decide) x.toUInt8.toBitVec ?_
  rw [← hnumber, ← hsigned]
  refine Word.signed_shiftLeft (n := 1) (by decide) ?_
  rw [hsigned, hnumber]
  constructor <;> omega

lemma callLow_inRange : ∃ k < 2 ^ 11, (w.field 0 11 <<< 1).toNat = 2 * k := by
  have hlt : (w.field 0 11).toNat < 2 ^ 11 := w.field_lt (by decide) (by decide)
  have hplaces : (2 : ℕ) ^ ((1 : Word).toNat % 32) = 2 := rfl
  refine ⟨(w.field 0 11).toNat, hlt, ?_⟩
  rw [UInt32.toNat_shiftLeft, Nat.shiftLeft_eq, hplaces]
  omega

/-! ### Formats -/

lemma isHigh_field : IsHigh w (Reg.ofWord (w.field 0 3 ||| (w.field 7 1 <<< 3))) := by
  have hlow : (w.field 0 3).toNat = w.toNat % 2 ^ 3 :=
    (Word.toNat_field w (by decide) (by decide)).trans (by simp)
  have hhigh : (w.field 7 1).toNat = w.toNat / 2 ^ 7 % 2 :=
    Word.toNat_field w (by decide) (by decide)
  have hshift : (w.field 7 1 <<< 3).toNat = 2 ^ 3 * (w.toNat / 2 ^ 7 % 2) := by
    have hplaces : (2 : ℕ) ^ ((3 : Word).toNat % 32) = 8 := rfl
    rw [UInt32.toNat_shiftLeft, Nat.shiftLeft_eq, hplaces, hhigh]
    omega
  have hor : (w.field 0 3 ||| (w.field 7 1 <<< 3)).toNat =
      2 ^ 3 * (w.toNat / 2 ^ 7 % 2) + w.toNat % 2 ^ 3 := by
    rw [UInt32.toNat_or, hlow, hshift, Nat.or_comm]
    exact (Nat.two_pow_add_eq_or_of_lt (Nat.mod_lt _ (by decide)) _).symm
  show (w.field 0 3 ||| (w.field 7 1 <<< 3)).toNat % 16 = _
  rw [hor]
  omega

lemma wellFormed_undefined (opcode : Word) : (Instr.undefined opcode).WellFormed w :=
  ⟨by simp [Instr.lowRegisters], trivial⟩

lemma wellFormed_decodeHigh : (decodeHigh w).WellFormed w := by
  have hrd := isHigh_field w
  have hrm : w.Numbers 4 (Reg.ofWord (w.field 3 4)) := Arm.numbers_regAt w 3 (by decide)
  unfold decodeHigh
  dsimp only
  split
  · exact ⟨by simp [Instr.lowRegisters], hrd, hrm⟩
  · exact ⟨by simp [Instr.lowRegisters], hrd, hrm⟩
  · exact ⟨by simp [Instr.lowRegisters], hrd, hrm⟩
  · exact ⟨by simp [Instr.lowRegisters], hrm⟩

lemma wellFormed_decodeAddSub : (decodeAddSub w).WellFormed w := by
  have h0 := numbers_lowAt w 0 (by decide)
  have h3 := numbers_lowAt w 3 (by decide)
  have h6 := numbers_lowAt w 6 (by decide)
  unfold decodeAddSub
  split
  · split
    · exact ⟨by simpa [Instr.lowRegisters] using ⟨h0, h3⟩, trivial⟩
    · exact ⟨by simpa [Instr.lowRegisters] using ⟨h0, h3⟩, trivial⟩
  · exact ⟨by simpa [Instr.lowRegisters] using ⟨h0, h3, h6⟩, trivial⟩

lemma wellFormed_decodeShift : (decodeShift w).WellFormed w := by
  have h0 := numbers_lowAt w 0 (by decide)
  have h3 := numbers_lowAt w 3 (by decide)
  exact ⟨by simpa [decodeShift, Instr.lowRegisters] using ⟨h0, h3⟩, w.field_lt_32 6 (by decide)⟩

/-! ### Transfers -/

section Transfers

variable {w} {rd : Reg} {a : Address} (hrd : w.Numbers 3 rd)
  (h : ∀ r ∈ a.registers, w.Numbers 3 r)
include hrd h

lemma wellFormed_load (kind : LoadKind) : (Instr.load kind rd a).WellFormed w :=
  ⟨List.forall_mem_cons.mpr ⟨hrd, h⟩, trivial⟩

lemma wellFormed_store (width : StoreWidth) : (Instr.store width rd a).WellFormed w :=
  ⟨List.forall_mem_cons.mpr ⟨hrd, h⟩, trivial⟩

end Transfers

lemma wellFormed_decodeRegisterTransfer : (decodeRegisterTransfer w).WellFormed w := by
  have h0 := numbers_lowAt w 0 (by decide)
  have h3 := numbers_lowAt w 3 (by decide)
  have h6 := numbers_lowAt w 6 (by decide)
  have haddress : ∀ r ∈ (Address.register (lowAt w 3) (lowAt w 6)).registers, w.Numbers 3 r := by
    simpa [Address.registers] using ⟨h3, h6⟩
  unfold decodeRegisterTransfer
  dsimp only
  split
  · exact wellFormed_store h0 haddress _
  · exact wellFormed_store h0 haddress _
  · exact wellFormed_store h0 haddress _
  · exact wellFormed_load h0 haddress _
  · exact wellFormed_load h0 haddress _
  · exact wellFormed_load h0 haddress _
  · exact wellFormed_load h0 haddress _
  · exact wellFormed_load h0 haddress _

lemma numbers_immediate (offset : Word) :
    ∀ r ∈ (Address.immediate (lowAt w 3) offset).registers, w.Numbers 3 r := by
  have h3 := numbers_lowAt w 3 (by decide)
  simpa [Address.registers] using h3

lemma wellFormed_decodeOffsetTransfer : (decodeOffsetTransfer w).WellFormed w := by
  have h0 := numbers_lowAt w 0 (by decide)
  have haddress := numbers_immediate w
  unfold decodeOffsetTransfer
  dsimp only
  split
  · split
    · exact wellFormed_load h0 (haddress _) _
    · exact wellFormed_store h0 (haddress _) _
  · split
    · exact wellFormed_load h0 (haddress _) _
    · exact wellFormed_store h0 (haddress _) _

lemma wellFormed_decodeHalfTransfer : (decodeHalfTransfer w).WellFormed w := by
  have h0 := numbers_lowAt w 0 (by decide)
  have haddress := numbers_immediate w
  unfold decodeHalfTransfer
  dsimp only
  split
  · exact wellFormed_load h0 (haddress _) _
  · exact wellFormed_store h0 (haddress _) _

lemma wellFormed_decodeStackTransfer : (decodeStackTransfer w).WellFormed w := by
  have h8 := numbers_lowAt w 8 (by decide)
  unfold decodeStackTransfer
  dsimp only
  split
  · exact wellFormed_load h8 (by simp [Address.registers]) _
  · exact wellFormed_store h8 (by simp [Address.registers]) _

lemma wellFormed_decodeAddress : (decodeAddress w).WellFormed w := by
  have h8 := numbers_lowAt w 8 (by decide)
  unfold decodeAddress
  split <;> exact ⟨by simpa [Instr.lowRegisters] using h8, trivial⟩

/-- A list has eight bits. -/
lemma mask_lowList : (lowList w).mask.toNat < 2 ^ 8 := Word.field_lt w (by decide) (by decide)

lemma wellFormed_decodeStack : (decodeStack w).WellFormed w := by
  have hlist := mask_lowList w
  unfold decodeStack
  split <;> exact ⟨by simp [Instr.lowRegisters], hlist⟩

lemma wellFormed_decodeMultiple : (decodeMultiple w).WellFormed w := by
  have h8 := numbers_lowAt w 8 (by decide)
  have hlist := mask_lowList w
  unfold decodeMultiple
  split <;> exact ⟨by simpa [Instr.lowRegisters] using h8, hlist⟩

lemma wellFormed_decodeConditional : (decodeConditional w).WellFormed w := by
  unfold decodeConditional
  split
  · exact ⟨by simp [Instr.lowRegisters], trivial⟩
  · exact wellFormed_undefined w w
  · exact ⟨by simp [Instr.lowRegisters], isDistance_signExtend8 _⟩

variable {w} in
/-- Whichever format is tried first, the others are left. -/
lemma wellFormed_ite {p : Prop} [Decidable p] {i j : Instr} (hi : i.WellFormed w)
    (hj : j.WellFormed w) : (if p then i else j).WellFormed w := by
  split
  · exact hi
  · exact hj

lemma wellFormed_decode : (decode w).WellFormed w := by
  have h0 := numbers_lowAt w 0 (by decide)
  have h3 := numbers_lowAt w 3 (by decide)
  have h8 := numbers_lowAt w 8 (by decide)
  have hdistance {n : ℕ} (h : n ≤ 20) := isDistance_signed11 w h
  unfold decode
  refine wellFormed_ite ⟨by simpa [Instr.lowRegisters] using ⟨h0, h3⟩, trivial⟩ ?_
  refine wellFormed_ite (wellFormed_decodeHigh w) ?_
  refine wellFormed_ite (wellFormed_decodeAddSub w) ?_
  refine wellFormed_ite (wellFormed_decodeShift w) ?_
  refine wellFormed_ite ⟨by simpa [Instr.lowRegisters] using h8, trivial⟩ ?_
  refine wellFormed_ite (wellFormed_load h8 (by simp [Address.registers]) _) ?_
  refine wellFormed_ite (wellFormed_decodeRegisterTransfer w) ?_
  refine wellFormed_ite (wellFormed_decodeOffsetTransfer w) ?_
  refine wellFormed_ite (wellFormed_decodeStack w) ?_
  refine wellFormed_ite (wellFormed_decodeHalfTransfer w) ?_
  refine wellFormed_ite (wellFormed_decodeStackTransfer w) ?_
  refine wellFormed_ite (wellFormed_decodeAddress w) ?_
  refine wellFormed_ite ⟨by simp [Instr.lowRegisters], trivial⟩ ?_
  refine wellFormed_ite (wellFormed_decodeMultiple w) ?_
  refine wellFormed_ite (wellFormed_decodeConditional w) ?_
  refine wellFormed_ite ⟨by simp [Instr.lowRegisters], hdistance (by decide : 1 ≤ 20)⟩ ?_
  refine wellFormed_ite ⟨by simp [Instr.lowRegisters], hdistance (by decide : 12 ≤ 20)⟩ ?_
  refine wellFormed_ite ⟨by simp [Instr.lowRegisters], callLow_inRange w⟩ ?_
  exact wellFormed_undefined w w

end Thumb

/-! ### Evaluating what was decoded -/

namespace Core.Checked

/-- The value and the carry of an operand, from the shifters that check their amounts. -/
def operandValue (c : Core) : Operand → Option (Word × Bool)
  | .immediate value => some (value, c.regs.flags.c)
  | .rotated value => do return (value, ← Shift.Checked.bit value 31)
  | .shifted kind rm amount => Shift.Checked.byImmediate kind (c.reg rm) amount c.regs.flags.c
  | .shiftedBy kind rm rs =>
    Shift.Checked.byRegister kind (c.regAhead rm) (c.regAhead rs) c.regs.flags.c

/-- Evaluates an operand into the output of the shifter. -/
def evalOperand (c : Core) (operand : Operand) : Option Core := do
  let (value, carry) ← operandValue c operand
  return { c.charge (operandCycles operand) with shifterOperand := value, shifterCarry := carry }

/-- Evaluates the offset of a single transfer. -/
def evalOffset (c : Core) : Offset → Option (Word × Core)
  | .immediate value => some (value, c)
  | .register rm => some (c.reg rm, c)
  | .shifted kind rm amount => do
    let c ← evalOperand c (.shifted kind rm amount)
    return (c.shifterOperand, c)

lemma operandValue_eq (c : Core) {operand : Operand} (h : operand.InRange) :
    operandValue c operand = some (c.operandValue operand) := by
  cases operand with
  | immediate value => rfl
  | rotated value =>
    rw [operandValue, Shift.Checked.bit_eq (by decide)]
    rfl
  | shifted kind rm amount => exact Shift.Checked.byImmediate_eq kind _ h _
  | shiftedBy kind rm rs => exact Shift.Checked.byRegister_eq kind _ _ _

lemma evalOperand_eq (c : Core) {operand : Operand} (h : operand.InRange) :
    evalOperand c operand = some (c.evalOperand operand) := by
  rw [evalOperand, operandValue_eq c h]
  rfl

lemma evalOffset_eq (c : Core) {offset : Offset} (h : offset.InRange) :
    evalOffset c offset = some (c.evalOffset offset) := by
  cases offset with
  | immediate value => rfl
  | register rm => rfl
  | shifted kind rm amount =>
    have hoperand : (Operand.shifted kind rm amount).InRange := h
    rw [evalOffset, evalOperand_eq c hoperand]
    rfl

end Core.Checked

/-- Evaluating the operand or the offset of an operation uses no amount out of range, and an offset
takes none of the cycles that a shift by a register takes. -/
def Arm.Op.ShiftsInRange (c : Core) : Op → Prop
  | .dataProcessing _ _ _ _ operand =>
    Core.Checked.evalOperand c operand = some (c.evalOperand operand)
  | .load _ _ a | .store _ _ a =>
    Core.Checked.evalOffset c a.offset = some (c.evalOffset a.offset) ∧
      (c.evalOffset a.offset).2.cycles = c.cycles
  | _ => True

/-- The shift that an instruction makes uses no amount out of range. -/
def Thumb.Instr.ShiftsInRange (c : Core) : Instr → Prop
  | .shift kind _ rm amount =>
    Shift.Checked.byImmediate kind (c.reg rm) amount c.regs.flags.c =
      some (Shift.byImmediate kind (c.reg rm) amount c.regs.flags.c)
  | .alu _ rd rs => ∀ kind, Shift.Checked.byRegister kind (c.reg rd) (c.reg rs) c.regs.flags.c =
      some (Shift.byRegister kind (c.reg rd) (c.reg rs) c.regs.flags.c)
  | _ => True

lemma Core.cycles_evalOffset (c : Core) (offset : Offset) :
    (c.evalOffset offset).2.cycles = c.cycles := by
  cases offset with
  | immediate value => rfl
  | register rm => rfl
  | shifted kind rm amount => exact UInt64.add_zero c.cycles

lemma Arm.Op.WellFormed.shiftsInRange {w : Word} {op : Op} (h : op.WellFormed w) (c : Core) :
    op.ShiftsInRange c := by
  cases op with
  | dataProcessing op setFlags rd rn operand => exact Core.Checked.evalOperand_eq c h.inRange
  | load kind rd a => exact ⟨Core.Checked.evalOffset_eq c h.inRange, c.cycles_evalOffset a.offset⟩
  | store width rd a => exact ⟨Core.Checked.evalOffset_eq c h.inRange, c.cycles_evalOffset a.offset⟩
  | _ => trivial

lemma Thumb.Instr.WellFormed.shiftsInRange {w : Word} {i : Instr} (h : i.WellFormed w) (c : Core) :
    i.ShiftsInRange c := by
  cases i with
  | shift kind rd rm amount => exact Shift.Checked.byImmediate_eq kind _ h.inRange _
  | alu op rd rs =>
    intro kind
    exact Shift.Checked.byRegister_eq kind _ _ _
  | _ => trivial

/-- Whatever the opcode, in either set the decoded instruction is well formed, and in every state of
the core its shifts use amounts in range only. -/
theorem decode_wellFormed (w : Word) :
    (Arm.decode w).op.WellFormed w ∧ (Thumb.decode w).WellFormed w ∧
      ∀ c : Core, (Arm.decode w).op.ShiftsInRange c ∧ (Thumb.decode w).ShiftsInRange c := by
  have harm : (Arm.decode w).op.WellFormed w := Arm.wellFormed_decodeOp w
  have hthumb := Thumb.wellFormed_decode w
  refine ⟨harm, hthumb, ?_⟩
  intro c
  exact ⟨harm.shiftsInRange c, hthumb.shiftsInRange c⟩

end Armv4T
