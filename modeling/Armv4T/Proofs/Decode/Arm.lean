import Mathlib
import Armv4T.Proofs.Decode.Form

/-!
# Decoding inverts encoding

The layouts of different classes of ARM instructions overlap in their fixed bits: the branch with
exchange lies among the tests, the status transfers are the tests without their S bit, and the
multiplies, swaps and halfword transfers share what the shifted operands leave free. Yet the order
in which the decoder tells the classes apart gives every word to the class it was encoded in
(`decodeOp_layout`), with every field as it was.
-/

namespace Armv4T.Arm

/-! ### Reading an opcode back -/

open Word (field_eq field_eq_iff bit_iff bit_eq bit_true bit_false)

variable {w : Word}

/-- A register is the number that stands at its bits. -/
lemma regAt_eq (lo : ℕ) (r : Reg) (h : lo < 32 ∧ w.toNat / 2 ^ lo % 2 ^ 4 = r) :
    regAt w (.ofNat lo) = r := by
  have hr : r.val < 16 := r.isLt
  have hfield : w.field (.ofNat lo) 4 = .ofNat r := field_eq lo 4 r (by omega)
  rw [regAt, hfield, Reg.ofWord, Word.toNat_ofNat_of_lt (by omega)]
  exact Fin.ofNat_val_eq_self r

lemma rotatedImmediate_eq {rotation : Fin 16} {value : Fin 256}
    (hrotation : w.toNat / 2 ^ 8 % 2 ^ 4 = rotation) (hvalue : w.toNat / 2 ^ 0 % 2 ^ 8 = value) :
    rotatedImmediate w = rotatedValue rotation value := by
  have hdouble : (2 : Word) * .ofNat rotation = .ofNat (2 * rotation) := by
    rw [UInt32.ofNat_mul]
    rfl
  have hr : w.field 8 4 = .ofNat rotation := field_eq 8 4 rotation (by omega)
  have hv : w.field 0 8 = .ofNat value := field_eq 0 8 value (by omega)
  rw [rotatedImmediate, hr, hv, hdouble, Word.rotateRight_eq _ (by omega)]
  rfl

lemma kind_eq {kind : ShiftKind} (h : w.toNat / 2 ^ 5 % 2 ^ 2 = kind.code) :
    ShiftKind.ofBits (w.field 5 2) = kind := by
  have hfield : w.field 5 2 = .ofNat kind.code := field_eq 5 2 _ (by omega)
  rw [hfield, kind.ofBits_code]

lemma ofNat_eq_zero_iff {n : ℕ} (h : n < 2 ^ 32) : UInt32.ofNat n = 0 ↔ n = 0 := by
  rw [← UInt32.toNat_inj, UInt32.toNat_ofNat_of_lt' h]
  rfl

/-- The operand stands in the bits below 12, with the bit that says whether it is immediate. -/
lemma decodeOperand_eq (f : OperandForm) {high middle : ℕ} (hmiddle : middle < 2 ^ 13)
    (hw : w.toNat = high * 2 ^ 26 + middle * 2 ^ 12 + Word.layout f.fields) :
    decodeOperand w = f.operand := by
  cases f with
  | immediate rotation value =>
    simp only [OperandForm.fields, Word.layout_cons, Word.layout_nil] at hw
    have h25 : w.bit 25 = true := bit_true 25 (by omega)
    have h8 : w.field 8 4 = .ofNat rotation := field_eq 8 4 rotation (by omega)
    have h0 : w.field 0 8 = .ofNat value := field_eq 0 8 value (by omega)
    have hrotated : rotatedImmediate w = rotatedValue rotation value :=
      rotatedImmediate_eq (by omega) (by omega)
    have hzero : UInt32.ofNat rotation.val = 0 ↔ rotation.val = 0 := ofNat_eq_zero_iff (by omega)
    rw [decodeOperand, if_pos h25, h8, h0, hrotated]
    simp only [hzero, OperandForm.operand]
  | shifted kind rm amount =>
    simp only [OperandForm.fields, Word.layout_cons, Word.layout_nil] at hw
    have h25 : w.bit 25 = false := bit_false 25 (by omega)
    have h4 : w.bit 4 = false := bit_false 4 (by omega)
    have h5 : ShiftKind.ofBits (w.field 5 2) = kind := kind_eq (by omega)
    have h7 : w.field 7 5 = .ofNat amount := field_eq 7 5 amount (by omega)
    have h0 : regAt w 0 = rm := regAt_eq 0 rm (by omega)
    simp [decodeOperand, h25, h4, h5, h0, h7, OperandForm.operand]
  | shiftedBy kind rm rs =>
    simp only [OperandForm.fields, Word.layout_cons, Word.layout_nil] at hw
    have h25 : w.bit 25 = false := bit_false 25 (by omega)
    have h4 : w.bit 4 = true := bit_true 4 (by omega)
    have h5 : ShiftKind.ofBits (w.field 5 2) = kind := kind_eq (by omega)
    have h0 : regAt w 0 = rm := regAt_eq 0 rm (by omega)
    have h8 : regAt w 8 = rs := regAt_eq 8 rs (by omega)
    simp [decodeOperand, h25, h4, h5, h0, h8, OperandForm.operand]

/-! ### Telling the classes apart -/

/-- Everything that is not the branch with exchange, with the bits of the data-processing space. -/
lemma decodeOp_of_dataProcessing (h26 : w.toNat / 2 ^ 26 % 2 ^ 2 = 0)
    (hspace : w.toNat / 2 ^ 25 % 2 = 1 ∨ w.toNat / 2 ^ 7 % 2 = 0 ∨ w.toNat / 2 ^ 4 % 2 = 0)
    (hexchange : w.toNat / 2 ^ 4 % 2 ^ 24 ≠ 0x12FFF1) : decodeOp w = decodeDataProcessing w := by
  have hbx : w.field 4 24 = 0x12FFF1 ↔ _ := field_eq_iff 4 24 0x12FFF1 (by decide)
  have h25 : w.bit 25 = true ↔ _ := bit_iff 25 (by decide)
  have h7 : w.bit 7 = true ↔ _ := bit_iff 7 (by decide)
  have h4 : w.bit 4 = true ↔ _ := bit_iff 4 (by decide)
  have hdata : w.bit 25 ∨ ¬(w.bit 7 ∧ w.bit 4) := by
    rw [h25, h7, h4]
    omega
  rw [decodeOp, if_neg (by rwa [hbx]), if_pos ⟨field_eq 26 2 0 (by omega), hdata⟩]

/-- Outside of the data-processing space and of the swaps, three bits decide about the class. -/
lemma decodeOp_of_class (hspace : w.toNat / 2 ^ 26 % 2 ^ 2 ≠ 0 ∨
      w.toNat / 2 ^ 25 % 2 = 0 ∧ w.toNat / 2 ^ 7 % 2 = 1 ∧ w.toNat / 2 ^ 4 % 2 = 1 ∧
        (w.toNat / 2 ^ 24 % 2 = 0 ∨ w.toNat / 2 ^ 5 % 2 ^ 2 ≠ 0)) :
    decodeOp w = match (w.field 25 3).toNat with
      | 0 => if !w.bit 24 && w.field 4 4 == 9 then decodeMultiply w else decodeHalf w
      | 2 | 3 => decodeTransfer w
      | 4 => decodeBlock w
      | 5 => .branch (w.bit 24) (branchOffset w)
      | 7 => if w.bit 24 then .softwareInterrupt (w.field 0 24) else .undefined w
      | _ => .undefined w := by
  have hexchange : ¬w.field 4 24 = 0x12FFF1 := by
    have hbx : w.field 4 24 = 0x12FFF1 ↔ _ := field_eq_iff 4 24 0x12FFF1 (by decide)
    rw [hbx]
    omega
  have hdata : ¬(w.field 26 2 = 0 ∧ (w.bit 25 ∨ ¬(w.bit 7 ∧ w.bit 4))) := by
    have h26 : w.field 26 2 = 0 ↔ _ := field_eq_iff 26 2 0 (by decide)
    have h25 : w.bit 25 = true ↔ _ := bit_iff 25 (by decide)
    have h7 : w.bit 7 = true ↔ _ := bit_iff 7 (by decide)
    have h4 : w.bit 4 = true ↔ _ := bit_iff 4 (by decide)
    rw [h26, h25, h7, h4]
    omega
  have hswap : ¬(w.field 23 5 = 2 ∧ w.field 20 2 = 0 ∧ w.field 4 8 = 9) := by
    have h23 : w.field 23 5 = 2 ↔ _ := field_eq_iff 23 5 2 (by decide)
    have h4 : w.field 4 8 = 9 ↔ _ := field_eq_iff 4 8 9 (by decide)
    rw [h23, h4]
    omega
  calc decodeOp w = _ := if_neg hexchange
    _ = _ := if_neg hdata
    _ = _ := if_neg hswap

/-! ### The data-processing space -/

variable {high : ℕ}

/-- Where the bits of an operand stand. One that is not immediate has bit 4 or bit 7 clear, and
leaves the multiplies and the halfword transfers alone. -/
lemma OperandForm.layout_fields (f : OperandForm) :
    ∃ immediate low, Word.layout f.fields = immediate * 2 ^ 25 + low ∧ immediate < 2 ∧
      low < 2 ^ 12 ∧ (immediate = 1 ∨ low / 2 ^ 7 % 2 = 0 ∨ low / 2 ^ 4 % 2 = 0) := by
  cases f with
  | immediate rotation value =>
    refine ⟨1, rotation * 2 ^ 8 + value, ?_, by omega, by omega, Or.inl rfl⟩
    simp [fields]
  | shifted kind rm amount =>
    refine ⟨0, amount * 2 ^ 7 + kind.code * 2 ^ 5 + rm, ?_, by omega, by omega, by omega⟩
    simp [fields]
    omega
  | shiftedBy kind rm rs =>
    refine ⟨0, rs * 2 ^ 8 + kind.code * 2 ^ 5 + 2 ^ 4 + rm, ?_, by omega, by omega, by omega⟩
    simp [fields]
    omega

lemma AluOp.isTest_of_code {op : AluOp} (h : 8 ≤ op.code.val ∧ op.code.val < 12) :
    op.isTest = true := by
  cases op <;> simp_all [isTest, code]

lemma AluOp.code_ofBits (n : Fin (2 ^ 4)) : (ofBits (.ofNat n)).code = n := by
  decide +revert

lemma decodeOp_dataProcessing {op : AluOp} {setFlags : Bool} {rd rn : Reg}
    {operand : OperandForm} {sets : op.isTest = true → setFlags = true}
    (hw : w.toNat = high * 2 ^ 28 +
      Word.layout (Form.dataProcessing op setFlags rd rn operand sets).fields) :
    decodeOp w = .dataProcessing op setFlags rd rn operand.operand := by
  simp only [Form.fields, Word.layout_cons, Word.layout_nil, Word.layout_append] at hw
  have hflag := setFlags.toNat_lt
  have hr : rd.val < 16 ∧ rn.val < 16 := ⟨rd.isLt, rn.isLt⟩
  obtain ⟨middle, hmiddle⟩ :
      ∃ m, m = op.code.val * 2 ^ 9 + setFlags.toNat * 2 ^ 8 + rn.val * 2 ^ 4 + rd.val := ⟨_, rfl⟩
  have hsplit : w.toNat =
      4 * high * 2 ^ 26 + middle * 2 ^ 12 + Word.layout operand.fields := hw.trans (by omega)
  have hoperand : decodeOperand w = operand.operand :=
    decodeOperand_eq operand (by omega) hsplit
  obtain ⟨immediate, low, hlayout, himmediate, hlow, hspace⟩ := operand.layout_fields
  rw [hlayout] at hw
  have hsets : op.code.val = 9 → setFlags.toNat = 1 := by
    intro hcode
    rw [sets (AluOp.isTest_of_code (by omega))]
    rfl
  have hop : AluOp.ofBits (w.field 21 4) = op := by
    have hfield : w.field 21 4 = .ofNat op.code := field_eq 21 4 op.code (by omega)
    rw [hfield, op.ofBits_code]
  have h20 : w.bit 20 = setFlags := bit_eq 20 setFlags (by omega)
  have h12 : regAt w 12 = rd := regAt_eq 12 rd (by omega)
  have h16 : regAt w 16 = rn := regAt_eq 16 rn (by omega)
  have htest : (op.isTest && !setFlags) = false := by
    cases h : op.isTest with
    | false => rfl
    | true => rw [sets h]; rfl
  rw [decodeOp_of_dataProcessing (by omega) (by omega) (by omega), decodeDataProcessing, hop, h20,
    h12, h16, hoperand]
  simp only [htest, Bool.false_eq_true, if_false]

/-- The tests without the S bit are the status transfers. -/
lemma decodeDataProcessing_of_status (h23 : w.toNat / 2 ^ 23 % 2 ^ 2 = 2)
    (h20 : w.toNat / 2 ^ 20 % 2 = 0) : decodeDataProcessing w = decodeStatus w := by
  obtain ⟨code, hcode⟩ : ∃ code : Fin (2 ^ 4), code.val = w.toNat / 2 ^ 21 % 2 ^ 4 :=
    ⟨⟨_, Nat.mod_lt _ (by decide)⟩, rfl⟩
  have h21 : w.field 21 4 = .ofNat code := field_eq 21 4 code (by omega)
  have htest : (AluOp.ofBits (.ofNat code)).isTest = true := by
    apply AluOp.isTest_of_code
    rw [AluOp.code_ofBits]
    omega
  have hflag : w.bit 20 = false := bit_false 20 (by omega)
  simp [decodeDataProcessing, h21, htest, hflag]

lemma decodeOp_readStatus {saved : Bool} {rd : Reg}
    (hw : w.toNat = high * 2 ^ 28 + Word.layout (Form.readStatus saved rd).fields) :
    decodeOp w = .readStatus rd saved := by
  simp only [Form.fields, Word.layout_cons, Word.layout_nil] at hw
  have hsaved := saved.toNat_lt
  have h23 : w.field 23 1 = 0 := field_eq 23 1 0 (by omega)
  have h20 : w.field 20 2 = 0 := field_eq 20 2 0 (by omega)
  have h16 : w.field 16 6 = 0xF := field_eq 16 6 0xF (by omega)
  have h22 : w.bit 22 = saved := bit_eq 22 saved (by omega)
  have h12 : regAt w 12 = rd := regAt_eq 12 rd (by omega)
  rw [decodeOp_of_dataProcessing (by omega) (by omega) (by omega),
    decodeDataProcessing_of_status (by omega) (by omega)]
  simp [decodeStatus, h23, h20, h16, h22, h12]

/-- Where the bits of a source stand. -/
lemma StatusForm.layout_fields (f : StatusForm) :
    ∃ immediate low, Word.layout f.fields = immediate * 2 ^ 25 + low ∧ immediate < 2 ∧
      low < 2 ^ 12 ∧ (immediate = 1 ∨ low < 2 ^ 4) := by
  cases f with
  | register rm =>
    refine ⟨0, rm, ?_, by omega, by omega, Or.inr rm.isLt⟩
    simp [fields]
  | immediate rotation value =>
    refine ⟨1, rotation * 2 ^ 8 + value, ?_, by omega, by omega, Or.inl rfl⟩
    simp [fields]

lemma source_eq (f : StatusForm) {high middle : ℕ} (hmiddle : middle < 2 ^ 13)
    (hw : w.toNat = high * 2 ^ 26 + middle * 2 ^ 12 + Word.layout f.fields) :
    (if w.bit 25 then StatusSource.immediate (rotatedImmediate w) else .register (regAt w 0)) =
      f.source := by
  cases f with
  | register rm =>
    simp only [StatusForm.fields, Word.layout_cons, Word.layout_nil] at hw
    have h25 : w.bit 25 = false := bit_false 25 (by omega)
    have h0 : regAt w 0 = rm := regAt_eq 0 rm (by omega)
    simp [h25, h0, StatusForm.source]
  | immediate rotation value =>
    simp only [StatusForm.fields, Word.layout_cons, Word.layout_nil] at hw
    have h25 : w.bit 25 = true := bit_true 25 (by omega)
    have hrotated : rotatedImmediate w = rotatedValue rotation value :=
      rotatedImmediate_eq (by omega) (by omega)
    simp [h25, hrotated, StatusForm.source]

lemma decodeOp_writeStatus {saved control extension status flags : Bool} {source : StatusForm}
    (hw : w.toNat = high * 2 ^ 28 +
      Word.layout (Form.writeStatus saved control extension status flags source).fields) :
    decodeOp w = .writeStatus saved (statusMask control flags) source.source := by
  simp only [Form.fields, Word.layout_cons, Word.layout_nil, Word.layout_append] at hw
  have hsaved := saved.toNat_lt
  have hcontrol := control.toNat_lt
  have hextension := extension.toNat_lt
  have hstatus := status.toNat_lt
  have hflags := flags.toNat_lt
  obtain ⟨middle, hmiddle⟩ : ∃ m, m = 0b00010 * 2 ^ 11 + saved.toNat * 2 ^ 10 + 0b10 * 2 ^ 8 +
    flags.toNat * 2 ^ 7 + status.toNat * 2 ^ 6 + extension.toNat * 2 ^ 5 + control.toNat * 2 ^ 4 +
    0b1111 := ⟨_, rfl⟩
  have hsplit : w.toNat =
      4 * high * 2 ^ 26 + middle * 2 ^ 12 + Word.layout source.fields := hw.trans (by omega)
  have hsource := source_eq source (by omega) hsplit
  obtain ⟨immediate, low, hlayout, himmediate, hlow, hspace⟩ := source.layout_fields
  rw [hlayout] at hw
  have h23 : w.field 23 1 = 0 := field_eq 23 1 0 (by omega)
  have h20 : w.field 20 2 = 2 := field_eq 20 2 2 (by omega)
  have h12 : w.field 12 4 = 0xF := field_eq 12 4 0xF (by omega)
  have h22 : w.bit 22 = saved := bit_eq 22 saved (by omega)
  have h16 : w.bit 16 = control := bit_eq 16 control (by omega)
  have h19 : w.bit 19 = flags := bit_eq 19 flags (by omega)
  rw [decodeOp_of_dataProcessing (by omega) (by omega) (by omega),
    decodeDataProcessing_of_status (by omega) (by omega)]
  simp only [decodeStatus]
  rw [if_pos ⟨h23, h20, h12⟩, h22, h16, h19, hsource]

/-! ### Multiplies and swaps -/

/-- The multiplies are those of the `1001` space with bit 24 clear. -/
lemma decodeOp_of_multiply (h24 : w.toNat / 2 ^ 24 % 2 ^ 4 = 0)
    (h4 : w.toNat / 2 ^ 4 % 2 ^ 4 = 0b1001) : decodeOp w = decodeMultiply w := by
  have h25 : w.field 25 3 = 0 := field_eq 25 3 0 (by omega)
  have h24' : w.bit 24 = false := bit_false 24 (by omega)
  have h4' : w.field 4 4 = 9 := field_eq 4 4 9 (by omega)
  rw [decodeOp_of_class (by omega), h25, h24', h4']
  rfl

lemma decodeOp_multiply {setFlags : Bool} {rd rs rm : Reg}
    (hw : w.toNat = high * 2 ^ 28 + Word.layout (Form.multiply setFlags rd rs rm).fields) :
    decodeOp w = .multiply false setFlags rd .r0 rs rm := by
  simp only [Form.fields, Word.layout_cons, Word.layout_nil] at hw
  have hflag := setFlags.toNat_lt
  have h22 : w.field 22 2 = 0 := field_eq 22 2 0 (by omega)
  have h21 : w.bit 21 = false := bit_false 21 (by omega)
  have h20 : w.bit 20 = setFlags := bit_eq 20 setFlags (by omega)
  have h16 : regAt w 16 = rd := regAt_eq 16 rd (by omega)
  have h12 : regAt w 12 = .r0 := regAt_eq 12 .r0 (by simp [Reg.r0]; omega)
  have h8 : regAt w 8 = rs := regAt_eq 8 rs (by omega)
  have h0 : regAt w 0 = rm := regAt_eq 0 rm (by omega)
  rw [decodeOp_of_multiply (by omega) (by omega), decodeMultiply, if_pos h22, h21, h20, h16, h12,
    h8, h0]

lemma decodeOp_multiplyAdd {setFlags : Bool} {rd rn rs rm : Reg}
    (hw : w.toNat = high * 2 ^ 28 + Word.layout (Form.multiplyAdd setFlags rd rn rs rm).fields) :
    decodeOp w = .multiply true setFlags rd rn rs rm := by
  simp only [Form.fields, Word.layout_cons, Word.layout_nil] at hw
  have hflag := setFlags.toNat_lt
  have h22 : w.field 22 2 = 0 := field_eq 22 2 0 (by omega)
  have h21 : w.bit 21 = true := bit_true 21 (by omega)
  have h20 : w.bit 20 = setFlags := bit_eq 20 setFlags (by omega)
  have h16 : regAt w 16 = rd := regAt_eq 16 rd (by omega)
  have h12 : regAt w 12 = rn := regAt_eq 12 rn (by omega)
  have h8 : regAt w 8 = rs := regAt_eq 8 rs (by omega)
  have h0 : regAt w 0 = rm := regAt_eq 0 rm (by omega)
  rw [decodeOp_of_multiply (by omega) (by omega), decodeMultiply, if_pos h22, h21, h20, h16, h12,
    h8, h0]

lemma decodeOp_multiplyLong {signed accumulate setFlags : Bool} {rdHi rdLo rs rm : Reg}
    (hw : w.toNat = high * 2 ^ 28 +
      Word.layout (Form.multiplyLong signed accumulate setFlags rdHi rdLo rs rm).fields) :
    decodeOp w = .multiplyLong signed accumulate setFlags rdHi rdLo rs rm := by
  simp only [Form.fields, Word.layout_cons, Word.layout_nil] at hw
  have hsigned := signed.toNat_lt
  have haccumulate := accumulate.toNat_lt
  have hflag := setFlags.toNat_lt
  have hshort : ¬w.field 22 2 = 0 := by
    have h22 : w.field 22 2 = 0 ↔ _ := field_eq_iff 22 2 0 (by decide)
    rw [h22]
    omega
  have h23 : w.bit 23 = true := bit_true 23 (by omega)
  have h22 : w.bit 22 = signed := bit_eq 22 signed (by omega)
  have h21 : w.bit 21 = accumulate := bit_eq 21 accumulate (by omega)
  have h20 : w.bit 20 = setFlags := bit_eq 20 setFlags (by omega)
  have h16 : regAt w 16 = rdHi := regAt_eq 16 rdHi (by omega)
  have h12 : regAt w 12 = rdLo := regAt_eq 12 rdLo (by omega)
  have h8 : regAt w 8 = rs := regAt_eq 8 rs (by omega)
  have h0 : regAt w 0 = rm := regAt_eq 0 rm (by omega)
  rw [decodeOp_of_multiply (by omega) (by omega), decodeMultiply, if_neg hshort, if_pos h23, h22,
    h21, h20, h16, h12, h8, h0]

lemma decodeOp_swap {byte : Bool} {rd rn rm : Reg}
    (hw : w.toNat = high * 2 ^ 28 + Word.layout (Form.swap byte rd rn rm).fields) :
    decodeOp w = .swap byte rd rn rm := by
  simp only [Form.fields, Word.layout_cons, Word.layout_nil] at hw
  have hbyte := byte.toNat_lt
  have hexchange : ¬w.field 4 24 = 0x12FFF1 := by
    have h4 : w.field 4 24 = 0x12FFF1 ↔ _ := field_eq_iff 4 24 0x12FFF1 (by decide)
    rw [h4]
    omega
  have hdata : ¬(w.field 26 2 = 0 ∧ (w.bit 25 ∨ ¬(w.bit 7 ∧ w.bit 4))) := by
    have h25 : w.bit 25 = false := bit_false 25 (by omega)
    have h7 : w.bit 7 = true := bit_true 7 (by omega)
    have h4 : w.bit 4 = true := bit_true 4 (by omega)
    simp [h25, h7, h4]
  have h23 : w.field 23 5 = 2 := field_eq 23 5 2 (by omega)
  have h20 : w.field 20 2 = 0 := field_eq 20 2 0 (by omega)
  have h4 : w.field 4 8 = 9 := field_eq 4 8 9 (by omega)
  have h22 : w.bit 22 = byte := bit_eq 22 byte (by omega)
  have h12 : regAt w 12 = rd := regAt_eq 12 rd (by omega)
  have h16 : regAt w 16 = rn := regAt_eq 16 rn (by omega)
  have h0 : regAt w 0 = rm := regAt_eq 0 rm (by omega)
  rw [decodeOp, if_neg hexchange, if_neg hdata, if_pos ⟨h23, h20, h4⟩, h22, h12, h16, h0]

/-! ### Transfers -/

lemma HalfKind.signed_or_half (kind : HalfKind) : 0 < kind.signed.toNat + kind.half.toNat := by
  cases kind <;> decide

/-- The two halves of the offset of a halfword transfer make one number. -/
lemma nibbles_eq (high low : Fin 16) :
    (UInt32.ofNat high <<< 4) ||| UInt32.ofNat low = UInt32.ofNat (16 * high + low) := by
  decide +revert

lemma decodeHalfOffset_eq (f : HalfOffsetForm) {high middle below : ℕ} (hmiddle : middle < 2 ^ 10)
    (hbelow : below < 2 ^ 4)
    (hw : w.toNat = high * 2 ^ 23 + middle * 2 ^ 12 + below * 2 ^ 4 + Word.layout f.fields) :
    decodeHalfOffset w = f.offset := by
  cases f with
  | immediate h l =>
    simp only [HalfOffsetForm.fields, Word.layout_cons, Word.layout_nil] at hw
    have h22 : w.bit 22 = true := bit_true 22 (by omega)
    have h8 : w.field 8 4 = .ofNat h := field_eq 8 4 h (by omega)
    have h0 : w.field 0 4 = .ofNat l := field_eq 0 4 l (by omega)
    rw [decodeHalfOffset, if_pos h22, h8, h0, nibbles_eq]
    rfl
  | register rm =>
    simp only [HalfOffsetForm.fields, Word.layout_cons, Word.layout_nil] at hw
    have h22 : w.bit 22 = false := bit_false 22 (by omega)
    have h0 : regAt w 0 = rm := regAt_eq 0 rm (by omega)
    simp [decodeHalfOffset, h22, h0, HalfOffsetForm.offset]

/-- Where the bits of an offset stand. -/
lemma HalfOffsetForm.layout_fields (f : HalfOffsetForm) :
    ∃ immediate h l, Word.layout f.fields = immediate * 2 ^ 22 + h * 2 ^ 8 + l ∧ immediate < 2 ∧
      h < 2 ^ 4 ∧ l < 2 ^ 4 := by
  cases f with
  | immediate h l =>
    refine ⟨1, h, l, ?_, by omega, by omega, by omega⟩
    simp [fields]
    omega
  | register rm =>
    refine ⟨0, 0, rm, ?_, by omega, by omega, rm.isLt⟩
    simp [fields]

lemma decodeOp_half {kind : HalfKind} {rd rn : Reg} {up : Bool} {indexing : Indexing}
    {offset : HalfOffsetForm}
    (hw : w.toNat =
      high * 2 ^ 28 + Word.layout (Form.half kind rd rn up indexing offset).fields) :
    decodeOp w = kind.op rd ⟨rn, offset.offset, up, indexing⟩ := by
  simp only [Form.fields, Word.layout_cons, Word.layout_nil, Word.layout_append] at hw
  have hup := up.toNat_lt
  have hpre := (preBit indexing).toNat_lt
  have hwriteback := (writebackBit indexing).toNat_lt
  have hloads := kind.loads.toNat_lt
  have hsigned := kind.signed.toNat_lt
  have hhalf := kind.half.toNat_lt
  have hkind := kind.signed_or_half
  obtain ⟨middle, hmiddle⟩ : ∃ m, m = (writebackBit indexing).toNat * 2 ^ 9 +
    kind.loads.toNat * 2 ^ 8 + rn.val * 2 ^ 4 + rd.val := ⟨_, rfl⟩
  obtain ⟨below, hbelow⟩ : ∃ m, m = 2 ^ 3 + kind.signed.toNat * 2 ^ 2 + kind.half.toNat * 2 + 1 :=
    ⟨_, rfl⟩
  have hsplit : w.toNat = (32 * high + 2 * (preBit indexing).toNat + up.toNat) * 2 ^ 23 +
      middle * 2 ^ 12 + below * 2 ^ 4 + Word.layout offset.fields := hw.trans (by omega)
  have hoffset : decodeHalfOffset w = offset.offset :=
    decodeHalfOffset_eq offset (by omega) (by omega) hsplit
  obtain ⟨immediate, h, l, hlayout, himmediate, hh, hl⟩ := offset.layout_fields
  rw [hlayout] at hw
  have h25 : w.field 25 3 = 0 := field_eq 25 3 0 (by omega)
  have h4 : ¬w.field 4 4 = 9 := by
    have h4 : w.field 4 4 = 9 ↔ _ := field_eq_iff 4 4 9 (by decide)
    rw [h4]
    omega
  have h24 : w.bit 24 = preBit indexing := bit_eq 24 _ (by omega)
  have h23 : w.bit 23 = up := bit_eq 23 up (by omega)
  have h21 : w.bit 21 = writebackBit indexing := bit_eq 21 _ (by omega)
  have h20 : w.bit 20 = kind.loads := bit_eq 20 _ (by omega)
  have h16 : regAt w 16 = rn := regAt_eq 16 rn (by omega)
  have h12 : regAt w 12 = rd := regAt_eq 12 rd (by omega)
  have h6 : w.bit 6 = kind.signed := bit_eq 6 _ (by omega)
  have h5 : w.bit 5 = kind.half := bit_eq 5 _ (by omega)
  have hclass : decodeOp w = decodeHalf w := by
    rw [decodeOp_of_class (by omega), h25]
    simp [h4]
  have haddress : singleAddress w offset.offset = ⟨rn, offset.offset, up, indexing⟩ := by
    rw [singleAddress, decodeIndexing, h16, h23, h24, h21]
    cases indexing <;> rfl
  have hdefined : (!preBit indexing && writebackBit indexing) = false := by
    cases indexing <;> rfl
  rw [hclass, decodeHalf, hoffset, haddress, h24, h21, h20, h6, h5, h12]
  cases kind <;> simp only [hdefined] <;> rfl

lemma decodeOffset_eq (f : OffsetForm) {high middle : ℕ} (hmiddle : middle < 2 ^ 13)
    (hw : w.toNat = high * 2 ^ 26 + middle * 2 ^ 12 + Word.layout f.fields) :
    decodeOffset w = f.offset := by
  cases f with
  | immediate value =>
    simp only [OffsetForm.fields, Word.layout_cons, Word.layout_nil] at hw
    have h25 : w.bit 25 = false := bit_false 25 (by omega)
    have h0 : w.field 0 12 = .ofNat value := field_eq 0 12 value (by omega)
    simp [decodeOffset, h25, h0, OffsetForm.offset]
  | shifted kind rm amount =>
    simp only [OffsetForm.fields, Word.layout_cons, Word.layout_nil] at hw
    have h25 : w.bit 25 = true := bit_true 25 (by omega)
    have h5 : ShiftKind.ofBits (w.field 5 2) = kind := kind_eq (by omega)
    have h7 : w.field 7 5 = .ofNat amount := field_eq 7 5 amount (by omega)
    have h0 : regAt w 0 = rm := regAt_eq 0 rm (by omega)
    have hzero : UInt32.ofNat amount.val = 0 ↔ amount = 0 := by
      rw [ofNat_eq_zero_iff (by omega), Fin.ext_iff]
      rfl
    rw [decodeOffset, if_pos h25, h5, h7, h0]
    simp only [hzero, OffsetForm.offset]

/-- Where the bits of an offset stand. Bit 4 is clear in one that is shifted. -/
lemma OffsetForm.layout_fields (f : OffsetForm) :
    ∃ shifted low, Word.layout f.fields = shifted * 2 ^ 25 + low ∧ shifted < 2 ∧
      low < 2 ^ 12 ∧ (shifted = 0 ∨ low / 2 ^ 4 % 2 = 0) := by
  cases f with
  | immediate value =>
    refine ⟨0, value, ?_, by omega, by omega, Or.inl rfl⟩
    simp [fields]
  | shifted kind rm amount =>
    refine ⟨1, amount * 2 ^ 7 + kind.code * 2 ^ 5 + rm, ?_, by omega, by omega, by omega⟩
    simp [fields]
    omega

lemma decodeOp_transfer {load byte : Bool} {rd rn : Reg} {pre up writeback : Bool}
    {offset : OffsetForm}
    (hw : w.toNat = high * 2 ^ 28 +
      Word.layout (Form.transfer load byte rd rn pre up writeback offset).fields) :
    decodeOp w = (Form.transfer load byte rd rn pre up writeback offset).op := by
  simp only [Form.fields, Word.layout_cons, Word.layout_nil, Word.layout_append] at hw
  have hload := load.toNat_lt
  have hbyte := byte.toNat_lt
  have hpre := pre.toNat_lt
  have hup := up.toNat_lt
  have hwriteback := writeback.toNat_lt
  obtain ⟨middle, hmiddle⟩ : ∃ m, m = pre.toNat * 2 ^ 12 + up.toNat * 2 ^ 11 +
    byte.toNat * 2 ^ 10 + writeback.toNat * 2 ^ 9 + load.toNat * 2 ^ 8 + rn.val * 2 ^ 4 + rd.val :=
    ⟨_, rfl⟩
  have hsplit : w.toNat = (4 * high + 1) * 2 ^ 26 + middle * 2 ^ 12 +
      Word.layout offset.fields := hw.trans (by omega)
  have hoffset : decodeOffset w = offset.offset := decodeOffset_eq offset (by omega) hsplit
  obtain ⟨shifted, low, hlayout, hshifted, hlow, hspace⟩ := offset.layout_fields
  rw [hlayout] at hw
  have h25 : w.field 25 3 = .ofNat (2 + shifted) := field_eq 25 3 _ (by omega)
  have hdefined : ¬(w.bit 25 && w.bit 4) = true := by
    have h25 : w.bit 25 = true ↔ _ := bit_iff 25 (by decide)
    have h4 : w.bit 4 = true ↔ _ := bit_iff 4 (by decide)
    rw [Bool.and_eq_true, h25, h4]
    omega
  have h24 : w.bit 24 = pre := bit_eq 24 pre (by omega)
  have h23 : w.bit 23 = up := bit_eq 23 up (by omega)
  have h22 : w.bit 22 = byte := bit_eq 22 byte (by omega)
  have h21 : w.bit 21 = writeback := bit_eq 21 writeback (by omega)
  have h20 : w.bit 20 = load := bit_eq 20 load (by omega)
  have h16 : regAt w 16 = rn := regAt_eq 16 rn (by omega)
  have h12 : regAt w 12 = rd := regAt_eq 12 rd (by omega)
  have hclass : decodeOp w = decodeTransfer w := by
    rw [decodeOp_of_class (by omega), h25]
    interval_cases shifted <;> rfl
  rw [hclass, decodeTransfer, if_neg hdefined, hoffset, h20, h22, h12, singleAddress,
    decodeIndexing, h16, h23, h24, h21]
  rfl

lemma decodeOp_block {load userBank : Bool} {rn : Reg} {pre up writeback : Bool} {list : Fin 65536}
    (hw : w.toNat = high * 2 ^ 28 +
      Word.layout (Form.block load userBank rn pre up writeback list).fields) :
    decodeOp w = (Form.block load userBank rn pre up writeback list).op := by
  simp only [Form.fields, Word.layout_cons, Word.layout_nil] at hw
  have hload := load.toNat_lt
  have huser := userBank.toNat_lt
  have hpre := pre.toNat_lt
  have hup := up.toNat_lt
  have hwriteback := writeback.toNat_lt
  have h25 : w.field 25 3 = 4 := field_eq 25 3 4 (by omega)
  have h24 : w.bit 24 = pre := bit_eq 24 pre (by omega)
  have h23 : w.bit 23 = up := bit_eq 23 up (by omega)
  have h22 : w.bit 22 = userBank := bit_eq 22 userBank (by omega)
  have h21 : w.bit 21 = writeback := bit_eq 21 writeback (by omega)
  have h20 : w.bit 20 = load := bit_eq 20 load (by omega)
  have h16 : regAt w 16 = rn := regAt_eq 16 rn (by omega)
  have h0 : w.field 0 16 = .ofNat list := field_eq 0 16 list (by omega)
  have hclass : decodeOp w = decodeBlock w := by
    rw [decodeOp_of_class (by omega), h25]
    rfl
  rw [hclass, decodeBlock, h16, h0, h24, h23, h21, h22, h20]
  rfl

/-! ### Branches and software interrupts -/

lemma decodeOp_branch {link : Bool} {distance : BitVec 24}
    (hw : w.toNat = high * 2 ^ 28 + Word.layout (Form.branch link distance).fields) :
    decodeOp w = .branch link (.ofInt (4 * distance.toInt)) := by
  simp only [Form.fields, Word.layout_cons, Word.layout_nil] at hw
  have hlink := link.toNat_lt
  have hdistance := distance.isLt
  have h25 : w.field 25 3 = 5 := field_eq 25 3 5 (by omega)
  have h24 : w.bit 24 = link := bit_eq 24 link (by omega)
  have h0 : w.field 0 24 = .ofNat distance.toNat := field_eq 0 24 _ (by omega)
  have hoffset : branchOffset w = .ofInt (4 * distance.toInt) := by
    rw [branchOffset, h0]
    exact Word.shiftRightSigned_shiftLeft (by decide) (by decide) distance
  rw [decodeOp_of_class (by omega), h25, h24, hoffset]
  rfl

lemma decodeOp_branchExchange {rm : Reg}
    (hw : w.toNat = high * 2 ^ 28 + Word.layout (Form.branchExchange rm).fields) :
    decodeOp w = .branchExchange rm := by
  simp only [Form.fields, Word.layout_cons, Word.layout_nil] at hw
  have h4 : w.field 4 24 = 0x12FFF1 := field_eq 4 24 0x12FFF1 (by omega)
  have h0 : regAt w 0 = rm := regAt_eq 0 rm (by omega)
  rw [decodeOp, if_pos h4, h0]

lemma decodeOp_softwareInterrupt {comment : Fin 16777216}
    (hw : w.toNat = high * 2 ^ 28 + Word.layout (Form.softwareInterrupt comment).fields) :
    decodeOp w = .softwareInterrupt (.ofNat comment) := by
  simp only [Form.fields, Word.layout_cons, Word.layout_nil] at hw
  have h25 : w.field 25 3 = 7 := field_eq 25 3 7 (by omega)
  have h24 : w.bit 24 = true := bit_true 24 (by omega)
  have h0 : w.field 0 24 = .ofNat comment := field_eq 0 24 comment (by omega)
  rw [decodeOp_of_class (by omega), h25, h24, h0]
  rfl

/-! ### Decoding an encoded instruction -/

/-- Whatever stands in the top four bits, the layout of an instruction is decoded to its
operation. -/
lemma decodeOp_layout (f : Form) (hw : w.toNat = high * 2 ^ 28 + Word.layout f.fields) :
    decodeOp w = f.op := by
  cases f with
  | dataProcessing => exact decodeOp_dataProcessing hw
  | readStatus => exact decodeOp_readStatus hw
  | writeStatus => exact decodeOp_writeStatus hw
  | multiply => exact decodeOp_multiply hw
  | multiplyAdd => exact decodeOp_multiplyAdd hw
  | multiplyLong => exact decodeOp_multiplyLong hw
  | swap => exact decodeOp_swap hw
  | half => exact decodeOp_half hw
  | transfer => exact decodeOp_transfer hw
  | block => exact decodeOp_block hw
  | branch => exact decodeOp_branch hw
  | branchExchange => exact decodeOp_branchExchange hw
  | softwareInterrupt => exact decodeOp_softwareInterrupt hw

/-- The layout of an instruction leaves the four bits of the condition free. -/
lemma Form.layout_fields_lt (f : Form) : Word.layout f.fields < 2 ^ 28 := by
  cases f with
  | dataProcessing op setFlags rd rn operand sets =>
    obtain ⟨immediate, low, hlayout, himmediate, hlow, -⟩ := operand.layout_fields
    have hflag := setFlags.toNat_lt
    simp only [fields, Word.layout_cons, Word.layout_nil, Word.layout_append, hlayout]
    omega
  | readStatus saved rd =>
    have hsaved := saved.toNat_lt
    simp only [fields, Word.layout_cons, Word.layout_nil]
    omega
  | writeStatus saved control extension status flags source =>
    obtain ⟨immediate, low, hlayout, himmediate, hlow, -⟩ := source.layout_fields
    have hsaved := saved.toNat_lt
    have hcontrol := control.toNat_lt
    have hextension := extension.toNat_lt
    have hstatus := status.toNat_lt
    have hflags := flags.toNat_lt
    simp only [fields, Word.layout_cons, Word.layout_nil, Word.layout_append, hlayout]
    omega
  | multiply setFlags rd rs rm =>
    have hflag := setFlags.toNat_lt
    simp only [fields, Word.layout_cons, Word.layout_nil]
    omega
  | multiplyAdd setFlags rd rn rs rm =>
    have hflag := setFlags.toNat_lt
    simp only [fields, Word.layout_cons, Word.layout_nil]
    omega
  | multiplyLong signed accumulate setFlags rdHi rdLo rs rm =>
    have hsigned := signed.toNat_lt
    have haccumulate := accumulate.toNat_lt
    have hflag := setFlags.toNat_lt
    simp only [fields, Word.layout_cons, Word.layout_nil]
    omega
  | swap byte rd rn rm =>
    have hbyte := byte.toNat_lt
    simp only [fields, Word.layout_cons, Word.layout_nil]
    omega
  | half kind rd rn up indexing offset =>
    obtain ⟨immediate, h, l, hlayout, himmediate, hh, hl⟩ := offset.layout_fields
    have hup := up.toNat_lt
    have hpre := (preBit indexing).toNat_lt
    have hwriteback := (writebackBit indexing).toNat_lt
    have hloads := kind.loads.toNat_lt
    have hsigned := kind.signed.toNat_lt
    have hhalf := kind.half.toNat_lt
    simp only [fields, Word.layout_cons, Word.layout_nil, Word.layout_append, hlayout]
    omega
  | transfer load byte rd rn pre up writeback offset =>
    obtain ⟨shifted, low, hlayout, hshifted, hlow, -⟩ := offset.layout_fields
    have hload := load.toNat_lt
    have hbyte := byte.toNat_lt
    have hpre := pre.toNat_lt
    have hup := up.toNat_lt
    have hwriteback := writeback.toNat_lt
    simp only [fields, Word.layout_cons, Word.layout_nil, Word.layout_append, hlayout]
    omega
  | block load userBank rn pre up writeback list =>
    have hload := load.toNat_lt
    have huser := userBank.toNat_lt
    have hpre := pre.toNat_lt
    have hup := up.toNat_lt
    have hwriteback := writeback.toNat_lt
    simp only [fields, Word.layout_cons, Word.layout_nil]
    omega
  | branch link distance =>
    have hlink := link.toNat_lt
    have hdistance := distance.isLt
    simp only [fields, Word.layout_cons, Word.layout_nil]
    omega
  | branchExchange rm =>
    simp only [fields, Word.layout_cons, Word.layout_nil]
    omega
  | softwareInterrupt comment =>
    simp only [fields, Word.layout_cons, Word.layout_nil]
    omega

/-- An opcode in `Nat`: the condition above the layout of the instruction. -/
lemma toNat_encode (cond : Condition) (f : Form) :
    (encode cond f).toNat = cond.code * 2 ^ 28 + Word.layout f.fields := by
  have hlt := f.layout_fields_lt
  rw [encode, Word.toNat_ofFields, Word.layout_cons]
  rw [Word.layout_cons]
  omega

lemma decode_cond_encode (cond : Condition) (f : Form) :
    Condition.ofBits ((encode cond f).field 28 4) = cond := by
  have hlt := f.layout_fields_lt
  have hw := toNat_encode cond f
  have h28 : (encode cond f).field 28 4 = .ofNat cond.code := field_eq 28 4 _ (by omega)
  rw [h28, cond.ofBits_code]

/-- Decoding the opcode of an instruction gives its condition and the operation that is meant. -/
theorem decode_encode (cond : Condition) (f : Form) : decode (encode cond f) = ⟨cond, f.op⟩ := by
  rw [decode, decode_cond_encode, decodeOp_layout f (toNat_encode cond f)]

end Armv4T.Arm
