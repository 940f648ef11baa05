import Mathlib
import Armv4T.Thumb.Decode
import Armv4T.Proofs.Decode.Arm
import Armv4T.Proofs.Exec.Equivalent

/-!
# The ARM opcodes of Thumb instructions

The ARM equivalent of a Thumb instruction is an instruction that the ARM set can encode: the
immediates of Thumb opcodes are short enough to stand in an ARM opcode, and the offsets from the
stack pointer, which count words, are bytes rotated by thirty places. So the equivalent of a decoded
Thumb instruction is decoded from some ARM opcode, whose condition is "always".
-/

namespace Armv4T.Thumb

open Arm (Form OperandForm OffsetForm HalfOffsetForm HalfKind)

/-- An instruction whose ARM equivalent can be encoded. -/
def Instr.Encodable (i : Instr) : Prop := ∀ op, i.armOp? = some op → ∃ f : Form, f.op = op

lemma encodable_ite {p : Prop} [Decidable p] {i j : Instr} (hi : i.Encodable) (hj : j.Encodable) :
    (if p then i else j).Encodable := by
  split
  · exact hi
  · exact hj

/-- An instruction without an equivalent. -/
lemma encodable_of_none {i : Instr} (h : i.armOp? = none) : i.Encodable := by
  intro op hop
  rw [h] at hop
  exact nomatch hop

/-- An instruction is encodable if its equivalent is encoded by some form. -/
lemma encodable_of_form {i : Instr} (f : Form) (h : i.armOp? = some f.op) : i.Encodable := by
  intro op hop
  rw [h] at hop
  exact ⟨f, Option.some.inj hop⟩

/-! ### Fields -/

variable {w : Word}

/-- A field of an opcode as a bounded number. -/
lemma exists_field (lo len : ℕ) (h : lo < 32 ∧ len < 32) :
    ∃ n : Fin (2 ^ len), w.field (.ofNat lo) (.ofNat len) = .ofNat n :=
  ⟨⟨_, Nat.mod_lt _ (Nat.two_pow_pos _)⟩, Word.field_eq lo len _ ⟨h.1, h.2, rfl⟩⟩

/-- A number shifted to the left. -/
lemma ofNat_shiftLeft (n k : ℕ) (hk : k < 32) :
    UInt32.ofNat n <<< UInt32.ofNat k = UInt32.ofNat (n * 2 ^ k) := by
  apply UInt32.toNat_inj.mp
  rw [UInt32.toNat_shiftLeft, Word.toNat_ofNat_of_lt hk, Nat.mod_eq_of_lt hk, Nat.shiftLeft_eq,
    UInt32.toNat_ofNat', UInt32.toNat_ofNat', Nat.mod_mul_mod]

/-- A byte that counts words is the byte rotated by thirty places. -/
lemma rotatedValue_fifteen (value : Fin 256) :
    Arm.rotatedValue 15 value = UInt32.ofNat value <<< 2 := by
  decide +revert +kernel

/-! ### Operations on registers -/

/-- The encoding of an operation that is not a test, or of a test that sets the flags. -/
lemma encodable_dataProcessing {i : Instr} (op : Arm.AluOp) (setFlags : Bool) (rd rn : Reg)
    (operand : OperandForm) (sets : op.isTest = true → setFlags = true)
    (h : i.armOp? = some (.dataProcessing op setFlags rd rn operand.operand)) : i.Encodable :=
  encodable_of_form (.dataProcessing op setFlags rd rn operand sets) h

lemma encodable_shift (kind : ShiftKind) (rd rm : Reg) (amount : Fin 32) :
    (Instr.shift kind rd rm (.ofNat amount)).Encodable :=
  encodable_dataProcessing .mov true rd 0 (.shifted kind rm amount) nofun rfl

lemma encodable_addRegister (subtract : Bool) (rd rn rm : Reg) :
    (Instr.addRegister subtract rd rn rm).Encodable := by
  cases subtract with
  | false => exact encodable_dataProcessing .add true rd rn (.shifted .lsl rm 0) nofun rfl
  | true => exact encodable_dataProcessing .sub true rd rn (.shifted .lsl rm 0) nofun rfl

lemma encodable_addSmall (subtract : Bool) (rd rn : Reg) (value : Fin 256) :
    (Instr.addSmall subtract rd rn (.ofNat value)).Encodable := by
  cases subtract with
  | false => exact encodable_dataProcessing .add true rd rn (.immediate 0 value) nofun rfl
  | true => exact encodable_dataProcessing .sub true rd rn (.immediate 0 value) nofun rfl

lemma encodable_moveLow (rd rn : Reg) : (Instr.moveLow rd rn).Encodable :=
  encodable_dataProcessing .add true rd rn (.immediate 0 0) nofun rfl

lemma encodable_immediate (op : ImmediateOp) (rd : Reg) (value : Fin 256) :
    (Instr.immediate op rd (.ofNat value)).Encodable := by
  cases op with
  | mov => exact encodable_dataProcessing .mov true rd 0 (.immediate 0 value) nofun rfl
  | cmp => exact encodable_dataProcessing .cmp true 0 rd (.immediate 0 value) (fun _ => rfl) rfl
  | add => exact encodable_dataProcessing .add true rd rd (.immediate 0 value) nofun rfl
  | sub => exact encodable_dataProcessing .sub true rd rd (.immediate 0 value) nofun rfl

lemma encodable_alu (op : AluOp) (rd rm : Reg) : (Instr.alu op rd rm).Encodable := by
  let plain : OperandForm := .shifted .lsl rm 0
  cases op with
  | and => exact encodable_dataProcessing .and true rd rd plain nofun rfl
  | eor => exact encodable_dataProcessing .eor true rd rd plain nofun rfl
  | lsl => exact encodable_dataProcessing .mov true rd 0 (.shiftedBy .lsl rd rm) nofun rfl
  | lsr => exact encodable_dataProcessing .mov true rd 0 (.shiftedBy .lsr rd rm) nofun rfl
  | asr => exact encodable_dataProcessing .mov true rd 0 (.shiftedBy .asr rd rm) nofun rfl
  | adc => exact encodable_dataProcessing .adc true rd rd plain nofun rfl
  | sbc => exact encodable_dataProcessing .sbc true rd rd plain nofun rfl
  | ror => exact encodable_dataProcessing .mov true rd 0 (.shiftedBy .ror rd rm) nofun rfl
  | tst => exact encodable_dataProcessing .tst true 0 rd plain (fun _ => rfl) rfl
  | neg => exact encodable_dataProcessing .rsb true rd rm (.immediate 0 0) nofun rfl
  | cmp => exact encodable_dataProcessing .cmp true 0 rd plain (fun _ => rfl) rfl
  | cmn => exact encodable_dataProcessing .cmn true 0 rd plain (fun _ => rfl) rfl
  | orr => exact encodable_dataProcessing .orr true rd rd plain nofun rfl
  | mul => exact encodable_of_form (.multiply true rd rd rm) rfl
  | bic => exact encodable_dataProcessing .bic true rd rd plain nofun rfl
  | mvn => exact encodable_dataProcessing .mvn true rd 0 plain nofun rfl

lemma encodable_addSp (rd : Reg) (value : Fin 256) :
    (Instr.addSp rd (UInt32.ofNat value <<< 2)).Encodable := by
  rw [← rotatedValue_fifteen]
  exact encodable_dataProcessing .add false rd .sp (.immediate 15 value) nofun rfl

lemma encodable_adjustSp (down : Bool) (value : Fin 256) :
    (Instr.adjustSp down (UInt32.ofNat value <<< 2)).Encodable := by
  rw [← rotatedValue_fifteen]
  cases down with
  | false => exact encodable_dataProcessing .add false .sp .sp (.immediate 15 value) nofun rfl
  | true => exact encodable_dataProcessing .sub false .sp .sp (.immediate 15 value) nofun rfl

/-! ### Single transfers -/

lemma encodable_load_register (kind : LoadKind) (rd rn rm : Reg) :
    (Instr.load kind rd (.register rn rm)).Encodable := by
  let shifted : OffsetForm := .shifted .lsl rm 0
  cases kind with
  | byte => exact encodable_of_form (.transfer true true rd rn true true false shifted) rfl
  | word => exact encodable_of_form (.transfer true false rd rn true true false shifted) rfl
  | half => exact encodable_of_form (.half .load rd rn true .pre (.register rm)) rfl
  | signedByte =>
    exact encodable_of_form (.half .loadSignedByte rd rn true .pre (.register rm)) rfl
  | signedHalf =>
    exact encodable_of_form (.half .loadSignedHalf rd rn true .pre (.register rm)) rfl

lemma encodable_store_register (width : StoreWidth) (rd rn rm : Reg) :
    (Instr.store width rd (.register rn rm)).Encodable := by
  let shifted : OffsetForm := .shifted .lsl rm 0
  cases width with
  | byte => exact encodable_of_form (.transfer false true rd rn true true false shifted) rfl
  | word => exact encodable_of_form (.transfer false false rd rn true true false shifted) rfl
  | half => exact encodable_of_form (.half .store rd rn true .pre (.register rm)) rfl

/-- An address with an offset, from a register or the stack pointer. -/
lemma encodable_transfer {i : Instr} (load byte : Bool) (rd rn : Reg) (offset : Fin 4096)
    (h : i.armOp? = some
      (Form.transfer load byte rd rn true true false (.immediate offset)).op) : i.Encodable :=
  encodable_of_form _ h

/-- A halfword transfer with an offset of eight bits. -/
lemma encodable_half {i : Instr} (kind : HalfKind) (rd rn : Reg) (offset : Fin 256)
    (h : i.armOp? = some (kind.op rd ⟨rn, .immediate (.ofNat offset), true, .pre⟩)) :
    i.Encodable := by
  let high : Fin 16 := ⟨offset / 16, by omega⟩
  let low : Fin 16 := ⟨offset % 16, by omega⟩
  have hoffset : (HalfOffsetForm.immediate high low).offset = .immediate (.ofNat offset) := by
    rw [HalfOffsetForm.offset, show 16 * high.val + low.val = offset from Nat.div_add_mod _ _]
  refine encodable_of_form (.half kind rd rn true .pre (.immediate high low)) ?_
  rw [h, Form.op, hoffset]

/-! ### Decoded instructions -/

lemma encodable_decodeHigh (w : Word) : (decodeHigh w).Encodable := by
  unfold decodeHigh
  dsimp only
  split
  · exact encodable_dataProcessing .add false _ _ (.shifted .lsl _ 0) nofun rfl
  · exact encodable_dataProcessing .cmp true 0 _ (.shifted .lsl _ 0) (fun _ => rfl) rfl
  · exact encodable_dataProcessing .mov false _ 0 (.shifted .lsl _ 0) nofun rfl
  · exact encodable_of_none rfl

lemma encodable_decodeAddSub (w : Word) : (decodeAddSub w).Encodable := by
  obtain ⟨value, hvalue⟩ : ∃ n : Fin 8, w.field 6 3 = .ofNat n := exists_field 6 3 (by decide)
  unfold decodeAddSub
  rw [hvalue]
  refine encodable_ite (encodable_ite (encodable_moveLow _ _) ?_) (encodable_addRegister _ _ _ _)
  exact encodable_addSmall _ _ _ (value.castLE (by decide))

lemma encodable_decodeShift (w : Word) : (decodeShift w).Encodable := by
  obtain ⟨amount, hamount⟩ : ∃ n : Fin 32, w.field 6 5 = .ofNat n := exists_field 6 5 (by decide)
  unfold decodeShift
  rw [hamount]
  exact encodable_shift _ _ _ amount

lemma encodable_decodeRegisterTransfer (w : Word) : (decodeRegisterTransfer w).Encodable := by
  unfold decodeRegisterTransfer
  dsimp only
  split
  all_goals first
    | exact encodable_load_register _ _ _ _
    | exact encodable_store_register _ _ _ _

lemma encodable_decodeOffsetTransfer (w : Word) : (decodeOffsetTransfer w).Encodable := by
  obtain ⟨n, hn⟩ : ∃ n : Fin 32, w.field 6 5 = .ofNat n := exists_field 6 5 (by decide)
  have hwords : UInt32.ofNat n <<< 2 = UInt32.ofNat (n * 4) := ofNat_shiftLeft n 2 (by decide)
  let bytes : Fin 4096 := n.castLE (by decide)
  let words : Fin 4096 := ⟨n * 4, by omega⟩
  unfold decodeOffsetTransfer
  dsimp only
  rw [hn, hwords]
  refine encodable_ite (encodable_ite ?_ ?_) (encodable_ite ?_ ?_)
  · exact encodable_transfer true true _ _ bytes rfl
  · exact encodable_transfer false true _ _ bytes rfl
  · exact encodable_transfer true false _ _ words rfl
  · exact encodable_transfer false false _ _ words rfl

lemma encodable_decodeHalfTransfer (w : Word) : (decodeHalfTransfer w).Encodable := by
  obtain ⟨n, hn⟩ : ∃ n : Fin 32, w.field 6 5 = .ofNat n := exists_field 6 5 (by decide)
  have hhalves : UInt32.ofNat n <<< 1 = UInt32.ofNat (n * 2) := ofNat_shiftLeft n 1 (by decide)
  let offset : Fin 256 := ⟨n * 2, by omega⟩
  unfold decodeHalfTransfer
  dsimp only
  rw [hn, hhalves]
  exact encodable_ite (encodable_half .load _ _ offset rfl) (encodable_half .store _ _ offset rfl)

lemma encodable_decodeStackTransfer (w : Word) : (decodeStackTransfer w).Encodable := by
  obtain ⟨n, hn⟩ : ∃ n : Fin 256, w.field 0 8 = .ofNat n := exists_field 0 8 (by decide)
  have hwords : UInt32.ofNat n <<< 2 = UInt32.ofNat (n * 4) := ofNat_shiftLeft n 2 (by decide)
  let offset : Fin 4096 := ⟨n * 4, by omega⟩
  unfold decodeStackTransfer
  dsimp only
  rw [hn, hwords]
  exact encodable_ite (encodable_transfer true false _ _ offset rfl)
    (encodable_transfer false false _ _ offset rfl)

lemma encodable_decodeAddress (w : Word) : (decodeAddress w).Encodable := by
  obtain ⟨n, hn⟩ : ∃ n : Fin 256, w.field 0 8 = .ofNat n := exists_field 0 8 (by decide)
  unfold decodeAddress
  rw [hn]
  exact encodable_ite (encodable_addSp _ n) (encodable_of_none rfl)

lemma encodable_decodeConditional (w : Word) : (decodeConditional w).Encodable := by
  unfold decodeConditional
  split <;> exact encodable_of_none rfl

/-- Whatever a Thumb opcode decodes to, its ARM equivalent can be encoded. -/
lemma encodable_decode (w : Word) : (decode w).Encodable := by
  obtain ⟨value, hvalue⟩ : ∃ n : Fin 256, w.field 0 8 = .ofNat n := exists_field 0 8 (by decide)
  obtain ⟨offset, hoffset⟩ : ∃ n : Fin 128, w.field 0 7 = .ofNat n := exists_field 0 7 (by decide)
  unfold decode
  refine encodable_ite (encodable_alu _ _ _) ?_
  refine encodable_ite (encodable_decodeHigh w) ?_
  refine encodable_ite (encodable_decodeAddSub w) ?_
  refine encodable_ite (encodable_decodeShift w) ?_
  refine encodable_ite (hvalue ▸ encodable_immediate _ _ value) ?_
  refine encodable_ite (encodable_of_none rfl) ?_
  refine encodable_ite (encodable_decodeRegisterTransfer w) ?_
  refine encodable_ite (encodable_decodeOffsetTransfer w) ?_
  refine encodable_ite (encodable_ite (encodable_of_none rfl) (encodable_of_none rfl)) ?_
  refine encodable_ite (encodable_decodeHalfTransfer w) ?_
  refine encodable_ite (encodable_decodeStackTransfer w) ?_
  refine encodable_ite (encodable_decodeAddress w) ?_
  refine encodable_ite (hoffset ▸ encodable_adjustSp _ (offset.castLE (by decide))) ?_
  refine encodable_ite (encodable_ite (encodable_of_none rfl) (encodable_of_none rfl)) ?_
  refine encodable_ite (encodable_decodeConditional w) ?_
  refine encodable_ite (encodable_of_none rfl) ?_
  refine encodable_ite (encodable_of_none rfl) ?_
  exact encodable_ite (encodable_of_none rfl) (encodable_of_none rfl)

/-! ### Equivalence -/

/-- Let an operation on registers or a single transfer of the Thumb set name no program counter.
It does what its ARM equivalent does: on boards that are alike, both finish and leave boards that
are alike, or both stop with the same fault. And if an opcode decodes to it, then some ARM opcode
decodes to its equivalent. -/
theorem exec_matches_arm {i : Instr} {op : Arm.Op} (hop : i.armOp? = some op)
    (hpc : .pc ∉ i.names) :
    (∀ address address', Exec.Matches Board.Alike (exec i address)
      (Arm.exec ⟨.al, op⟩ address')) ∧
    ∀ w, decode w = i → ∃ v, Arm.decode v = ⟨.al, op⟩ := by
  refine ⟨fun address address' => i.matches_armOp address hop hpc address', ?_⟩
  rintro w rfl
  obtain ⟨f, rfl⟩ := encodable_decode w op hop
  refine ⟨Arm.encode .al f, ?_⟩
  rw [Arm.decode, Arm.decode_cond_encode, Arm.decodeOp_layout f (Arm.toNat_encode .al f)]

/-- Negating r2 into r1 is `RSBS r1, r2, #0`, and some ARM opcode says so. -/
theorem exec_matches_arm_neg :
    (Instr.alu .neg 1 2).armOp? = some (.dataProcessing .rsb true 1 2 (.immediate 0)) ∧
      Reg.pc ∉ (Instr.alu .neg 1 2).names ∧
      (∀ address address', Exec.Matches Board.Alike (exec (.alu .neg 1 2) address)
        (Arm.exec ⟨.al, .dataProcessing .rsb true 1 2 (.immediate 0)⟩ address')) ∧
      ∃ v, Arm.decode v = ⟨.al, .dataProcessing .rsb true 1 2 (.immediate 0)⟩ := by
  have h := exec_matches_arm (i := .alu .neg 1 2) rfl (by decide)
  exact ⟨rfl, by decide, h.1, h.2 0x4251 (by decide)⟩

end Armv4T.Thumb
