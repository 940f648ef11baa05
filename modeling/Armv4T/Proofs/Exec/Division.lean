import Mathlib
import Armv4T.Bios
import Armv4T.Proofs.Exec.Alike
import Armv4T.Proofs.Word.Bits

/-!
# Division

Two services divide signed words, and differ only in which of the two argument registers holds the
denominator. The quotient is rounded toward zero, so that the remainder has the sign of the
numerator, and these two conditions leave one quotient and one remainder. Both fit a word, with one
exception: the least number divided by minus one, whose quotient wraps to the least number itself.
The absolute value of a quotient always fits, since it is written as an unsigned word.

A division by zero never reaches the arithmetic. To say so, division is also written with the
machine's operations, of which those that a zero denominator stops have no result there.
-/

namespace Armv4T

namespace Bios

/-! ### Rounding toward zero -/

/-- That `q` and `r` are a quotient and a remainder of `n` by `d` which together make up `n`, with a
remainder that is less than the denominator and has the sign of the numerator. -/
structure Truncates (n d q r : ℤ) : Prop where
  sum : n = q * d + r
  small : |r| < |d|
  sign : r = 0 ∨ r.sign = n.sign

/-- A remainder with the sign of the numerator is one that is not beyond zero. -/
lemma sign_eq_iff {n r : ℤ} :
    (r = 0 ∨ r.sign = n.sign) ↔ r = 0 ∨ 0 < r ∧ 0 < n ∨ r < 0 ∧ n < 0 := by
  rcases lt_trichotomy r 0 with hr | rfl | hr
  · rw [Int.sign_eq_neg_one_of_neg hr, @eq_comm _ (-1), Int.sign_eq_neg_one_iff_neg]
    omega
  · simp
  · rw [Int.sign_eq_one_of_pos hr, @eq_comm _ 1, Int.sign_eq_one_iff_pos]
    omega

/-- There is one quotient and one remainder. -/
lemma truncates_iff {n d q r : ℤ} (hd : d ≠ 0) :
    Truncates n d q r ↔ n.tdiv d = q ∧ n.tmod d = r := by
  have hsum : n = q * d + r ↔ r + d * q = n := by rw [eq_comm, mul_comm, add_comm]
  have hiff : Truncates n d q r ↔
      r + d * q = n ∧ |r| < |d| ∧ (r = 0 ∨ 0 < r ∧ 0 < n ∨ r < 0 ∧ n < 0) := by
    rw [← hsum, ← sign_eq_iff]
    exact ⟨fun h => ⟨h.sum, h.small, h.sign⟩, fun ⟨h, h', h''⟩ => ⟨h, h', h''⟩⟩
  rw [hiff, Int.abs_eq_natAbs, Int.abs_eq_natAbs]
  rcases le_total 0 n with hn | hn
  · rw [Int.tdiv_tmod_unique hn hd]
    refine and_congr_right fun h => ?_
    constructor
    · intro ⟨hsmall, hsign⟩
      omega
    · intro ⟨hnonneg, hsmall⟩
      refine ⟨by omega, ?_⟩
      rcases hn.eq_or_lt with rfl | hpos
      · -- a remainder of zero is a multiple of the denominator that is less than it
        have hdvd : d ∣ r := ⟨-q, by linarith⟩
        exact .inl (Int.eq_zero_of_dvd_of_natAbs_lt_natAbs hdvd (by omega))
      · omega
  · rw [Int.tdiv_tmod_unique' hn hd]
    refine and_congr_right fun h => ?_
    constructor
    · intro ⟨hsmall, hsign⟩
      omega
    · intro ⟨hsmall, hnonpos⟩
      refine ⟨by omega, ?_⟩
      rcases hn.eq_or_lt with rfl | hneg
      · have hdvd : d ∣ r := ⟨-q, by linarith⟩
        exact .inl (Int.eq_zero_of_dvd_of_natAbs_lt_natAbs hdvd (by omega))
      · omega

/-- A quotient of words fits a word, but for one pair. -/
lemma fitsSigned_tdiv {x y : ℤ} (hx : Word.FitsSigned x) (hy : y ≠ 0)
    (h : ¬(x = -2 ^ 31 ∧ y = -1)) : Word.FitsSigned (x.tdiv y) := by
  obtain ⟨hlow, hhigh⟩ := hx
  have habs : (x.tdiv y).natAbs = x.natAbs / y.natAbs := Int.natAbs_tdiv x y
  rcases eq_or_ne y.natAbs 1 with hone | hone
  · rcases Int.natAbs_eq y with hpos | hneg
    · rw [hpos, hone, Nat.cast_one, Int.tdiv_one]
      exact ⟨hlow, hhigh⟩
    · rw [hone, Nat.cast_one] at hneg
      rw [hneg, Int.tdiv_neg, Int.tdiv_one]
      constructor <;> omega
  · have hhalf : x.natAbs / y.natAbs ≤ x.natAbs / 2 := Nat.div_le_div_left (by omega) (by decide)
    constructor <;> omega

/-- A remainder of words fits a word. -/
lemma fitsSigned_tmod {x y : ℤ} (hy : Word.FitsSigned y) (hzero : y ≠ 0) :
    Word.FitsSigned (x.tmod y) := by
  obtain ⟨hlow, hhigh⟩ := hy
  have habs : (x.tmod y).natAbs = x.natAbs % y.natAbs := Int.natAbs_tmod x y
  have hlt : x.natAbs % y.natAbs < y.natAbs := Nat.mod_lt _ (by omega)
  constructor <;> omega

/-! ### What a division gives -/

/-- What the three results of a division are. -/
structure Division.Solves (v : Division) (n d : Word) : Prop where
  /-- The quotient and the remainder are the only ones there are. -/
  truncates : d ≠ 0 → ¬(n = 0x80000000 ∧ d = 0xFFFFFFFF) → ∀ q r : ℤ,
    Truncates n.signed d.signed q r ↔ q = v.quotient.signed ∧ r = v.remainder.signed
  magnitude : d ≠ 0 → (v.magnitude.toNat : ℤ) = |v.quotient.signed|
  wraps : n = 0x80000000 → d = 0xFFFFFFFF → v = ⟨0x80000000, 0, 0x80000000⟩
  zero : d = 0 → v = ⟨0, 0, 0⟩

section Divide

variable {n d : Word}

lemma divide_of_ne (h : d ≠ 0) : divide n d =
    ⟨UInt32.ofInt (n.signed.tdiv d.signed), UInt32.ofInt (n.signed.tmod d.signed),
      UInt32.ofNat (n.signed.tdiv d.signed).natAbs⟩ :=
  if_neg h

/-- The pair whose quotient wraps. -/
lemma divide_least : divide 0x80000000 0xFFFFFFFF = ⟨0x80000000, 0, 0x80000000⟩ := by
  decide

lemma fitsSigned_quotient (hd : d ≠ 0) (h : ¬(n = 0x80000000 ∧ d = 0xFFFFFFFF)) :
    Word.FitsSigned (n.signed.tdiv d.signed) := by
  have hleast : n.signed = -2 ^ 31 → n = 0x80000000 := (Word.signed_inj (w := 0x80000000)).mp
  have hminus : d.signed = -1 → d = 0xFFFFFFFF := (Word.signed_inj (w := 0xFFFFFFFF)).mp
  exact fitsSigned_tdiv n.fitsSigned_signed (Word.signed_eq_zero_iff.not.mpr hd)
    fun ⟨hn, hd⟩ => h ⟨hleast hn, hminus hd⟩

lemma signed_quotient (hd : d ≠ 0) (h : ¬(n = 0x80000000 ∧ d = 0xFFFFFFFF)) :
    (divide n d).quotient.signed = n.signed.tdiv d.signed := by
  rw [divide_of_ne hd]
  exact Word.signed_ofInt (fitsSigned_quotient hd h)

lemma signed_remainder (hd : d ≠ 0) : (divide n d).remainder.signed = n.signed.tmod d.signed := by
  rw [divide_of_ne hd]
  exact Word.signed_ofInt
    (fitsSigned_tmod d.fitsSigned_signed (Word.signed_eq_zero_iff.not.mpr hd))

/-- The absolute value of a quotient is at most 2^31 and fits an unsigned word. -/
lemma toNat_magnitude (hd : d ≠ 0) :
    ((divide n d).magnitude.toNat : ℤ) = |(divide n d).quotient.signed| := by
  by_cases h : n = 0x80000000 ∧ d = 0xFFFFFFFF
  · obtain ⟨rfl, rfl⟩ := h
    rw [divide_least]
    decide
  · obtain ⟨hlow, hhigh⟩ := fitsSigned_quotient hd h
    rw [signed_quotient hd h, Int.abs_eq_natAbs, divide_of_ne hd,
      UInt32.toNat_ofNat_of_lt' (by rw [UInt32.size]; omega)]

lemma divide_solves (n d : Word) : (divide n d).Solves n d where
  truncates hd h q r := by
    rw [truncates_iff (Word.signed_eq_zero_iff.not.mpr hd), signed_quotient hd h,
      signed_remainder hd, eq_comm, @eq_comm _ (n.signed.tmod d.signed)]
  magnitude hd := toNat_magnitude hd
  wraps hn hd := by rw [hn, hd, divide_least]
  zero hd := if_pos hd

end Divide

/-! ### Division by the machine's operations -/

/-- The quotient of signed words, rounded toward zero and wrapped; none by zero. -/
def quotient? (n d : Int32) : Option Int32 := if d = 0 then none else some (n / d)

/-- The remainder of signed words; none by zero. -/
def remainder? (n d : Int32) : Option Int32 := if d = 0 then none else some (n % d)

/-- Division, with no result where an operation has none. -/
def divide? (numerator denominator : Word) : Option Division :=
  let n := numerator.toInt32
  let d := denominator.toInt32
  if d = 0 then some ⟨0, 0, 0⟩
  else do
    let quotient ← quotient? n d
    let remainder ← remainder? n d
    return ⟨quotient.toUInt32, remainder.toUInt32, quotient.abs.toUInt32⟩

lemma toUInt32_div (n d : Word) :
    (n.toInt32 / d.toInt32).toUInt32 = UInt32.ofInt (n.signed.tdiv d.signed) := by
  apply UInt32.toBitVec_inj.mp
  apply BitVec.eq_of_toInt_eq
  rw [Word.toBitVec_ofInt, BitVec.toInt_ofInt]
  exact Int32.toInt_div _ _

lemma toUInt32_mod (n d : Word) (hd : d ≠ 0) :
    (n.toInt32 % d.toInt32).toUInt32 = UInt32.ofInt (n.signed.tmod d.signed) := by
  have hfits := fitsSigned_tmod (x := n.signed) d.fitsSigned_signed
    (Word.signed_eq_zero_iff.not.mpr hd)
  apply Word.signed_inj.mp
  rw [Word.signed_ofInt hfits]
  exact Int32.toInt_mod _ _

/-- The absolute value of a signed word, as an unsigned one. -/
lemma toNat_abs (w : Word) : (w.toInt32.abs.toUInt32.toNat : ℤ) = |w.signed| := by
  have hmsb : w.toBitVec.msb = w.bit 31 := by
    rw [BitVec.msb_eq_decide, Word.bit_31_eq_decide]
    rfl
  have habs : w.toInt32.abs.toUInt32.toNat = if w.bit 31 then 2 ^ 32 - w.toNat else w.toNat := by
    rw [← hmsb]
    exact BitVec.toNat_abs
  rw [habs]
  rcases w.signed_cases with ⟨hbit, h⟩ | ⟨hbit, h⟩
  · rw [hbit, if_pos rfl, abs_of_neg h.2.1]
    omega
  · rw [hbit, if_neg Bool.false_ne_true, abs_of_nonneg h.1]
    omega

/-- Every operation that a division reaches has a result. -/
lemma divide?_eq (n d : Word) : divide? n d = some (divide n d) := by
  have hzero : d.toInt32 = 0 ↔ d = 0 := by
    rw [← Word.signed_eq_zero_iff]
    exact Int32.toInt_inj.symm
  by_cases hd : d = 0
  · rw [divide?, divide, if_pos (hzero.mpr hd), if_pos hd]
  · have hd' := hzero.not.mpr hd
    have hquotient : (n.toInt32 / d.toInt32).toUInt32 = (divide n d).quotient := by
      rw [toUInt32_div, divide_of_ne hd]
    have hremainder : (n.toInt32 % d.toInt32).toUInt32 = (divide n d).remainder := by
      rw [toUInt32_mod n d hd, divide_of_ne hd]
    have hmagnitude : (n.toInt32 / d.toInt32).abs.toUInt32 = (divide n d).magnitude := by
      apply UInt32.toNat_inj.mp
      apply Nat.cast_injective (R := ℤ)
      rw [toNat_magnitude hd, ← hquotient]
      exact toNat_abs (n.toInt32 / d.toInt32).toUInt32
    rw [divide?, if_neg hd', quotient?, if_neg hd', remainder?, if_neg hd']
    simp only [Option.bind_eq_bind, Option.bind_some, Option.pure_def, hquotient, hremainder,
      hmagnitude]

/-! ### The services -/

/-- That a board differs from another only by the results of dividing `n` by `d`, and by a warning
if there is no quotient. -/
structure Receives (n d : Word) (v : Division) (b b' : Board) : Prop where
  quotient : b'.core.reg .r0 = v.quotient
  remainder : b'.core.reg .r1 = v.remainder
  magnitude : b'.core.reg .r3 = v.magnitude
  visible : ∀ i : Reg, i ≠ .r0 → i ≠ .r1 → i ≠ .r3 → b'.core.reg i = b.core.reg i
  /-- The rest of the register file: mode, instruction set, flags and banks. -/
  regs : { b'.core.regs with visible := b.core.regs.visible } = b.core.regs
  core : { b'.core with regs := b.core.regs } = b.core
  bus : b'.bus = b.bus
  irq : b'.irq = b.irq
  journal : b'.journal = if d = 0 then b.journal.push (.divisionByZero n) else b.journal

/-- Puts the results into their registers. -/
def putResults (v : Division) (c : Core) : Core :=
  ((c.setReg .r0 v.quotient).setReg .r1 v.remainder).setReg .r3 v.magnitude

lemma reg_setReg_self (c : Core) (i : Reg) (value : Word) : (c.setReg i value).reg i = value :=
  Registers.read_write_self c.regs i value

lemma reg_setReg_of_ne {i j : Reg} (h : j ≠ i) (c : Core) (value : Word) :
    (c.setReg i value).reg j = c.reg j :=
  Registers.read_write_of_ne h c.regs value

section PutResults

variable (v : Division) (c : Core)

lemma reg_r0_putResults : (putResults v c).reg .r0 = v.quotient := by
  rw [putResults, reg_setReg_of_ne (by decide), reg_setReg_of_ne (by decide), reg_setReg_self]

lemma reg_r1_putResults : (putResults v c).reg .r1 = v.remainder := by
  rw [putResults, reg_setReg_of_ne (by decide), reg_setReg_self]

lemma reg_r3_putResults : (putResults v c).reg .r3 = v.magnitude := by
  rw [putResults, reg_setReg_self]

lemma reg_putResults {i : Reg} (h₀ : i ≠ .r0) (h₁ : i ≠ .r1) (h₃ : i ≠ .r3) :
    (putResults v c).reg i = c.reg i := by
  rw [putResults, reg_setReg_of_ne h₃, reg_setReg_of_ne h₁, reg_setReg_of_ne h₀]

end PutResults

/-- Warns of a denominator that is zero. -/
def warnZero (n d : Word) (b : Board) : Board :=
  if d = 0 then b.note (.divisionByZero n) else b

/-- A warning goes to the journal and nowhere else. -/
lemma warnZero_eq (n d : Word) (b : Board) : warnZero n d b =
    { b with journal := if d = 0 then b.journal.push (.divisionByZero n) else b.journal } := by
  by_cases hd : d = 0
  · rw [warnZero, if_pos hd, if_pos hd]
    rfl
  · rw [warnZero, if_neg hd, if_neg hd]

lemma putDivision_eq (n d : Word) (b : Board) :
    putDivision n d b = .ok () ((warnZero n d b).mapCore (putResults (divide n d))) := by
  by_cases hd : d = 0
  · rw [putDivision, if_pos hd, warnZero, if_pos hd]
    rfl
  · rw [putDivision, if_neg hd, warnZero, if_neg hd]
    rfl

/-- A service that divides finishes with the results. -/
lemma putDivision_receives (n d : Word) (b : Board) :
    ∃ b', putDivision n d b = .ok () b' ∧ Receives n d (divide n d) b b' := by
  refine ⟨_, putDivision_eq n d b, ?_⟩
  rw [warnZero_eq]
  constructor
  case quotient => exact reg_r0_putResults _ b.core
  case remainder => exact reg_r1_putResults _ b.core
  case magnitude => exact reg_r3_putResults _ b.core
  case visible =>
    intro i h₀ h₁ h₃
    exact reg_putResults _ b.core h₀ h₁ h₃
  all_goals rfl

/-- Two services divide signed words, with the numerator in one argument register and the
denominator in the other. To the same numerator and denominator they give the same results, which
are the ones a division has, and no operation on the way fails. The rest of the core, the memory and
the interrupt lines stay as they are. -/
theorem division_services (n d : Word) :
    ∃ v : Division, v.Solves n d ∧ divide? n d = some v ∧
      (∀ b : Board, b.irq.services = true → b.core.reg .r0 = n → b.core.reg .r1 = d →
        ∃ b', softwareInterrupt 0x06 b = .ok () b' ∧ Receives n d v b b') ∧
      ∀ b : Board, b.irq.services = true → b.core.reg .r0 = d → b.core.reg .r1 = n →
        ∃ b', softwareInterrupt 0x07 b = .ok () b' ∧ Receives n d v b b' := by
  refine ⟨divide n d, divide_solves n d, divide?_eq n d, ?_, ?_⟩
  · intro b hservices h₀ h₁
    have hserved : softwareInterrupt 0x06 b =
        putDivision (b.core.reg .r0) (b.core.reg .r1) b := by
      rw [softwareInterrupt, hservices]
      rfl
    rw [hserved, h₀, h₁]
    exact putDivision_receives n d b
  · intro b hservices h₀ h₁
    have hserved : softwareInterrupt 0x07 b =
        putDivision (b.core.reg .r1) (b.core.reg .r0) b := by
      rw [softwareInterrupt, hservices]
      rfl
    rw [hserved, h₀, h₁]
    exact putDivision_receives n d b

/-- A board with the services and with two arguments. -/
def withArguments (first second : Word) : Board :=
  { core := (({} : Core).setReg .r0 first).setReg .r1 second, irq := { services := true } }

/-- Minus seven by two, through the service that takes the denominator first. -/
theorem division_services_negative :
    ∃ b', softwareInterrupt 0x07 (withArguments 2 (UInt32.ofInt (-7))) = .ok () b' ∧
      (b'.core.reg .r0).signed = -3 ∧ (b'.core.reg .r1).signed = -1 ∧ b'.core.reg .r3 = 3 := by
  obtain ⟨v, -, hchecked, -, hserves⟩ := division_services (UInt32.ofInt (-7)) 2
  obtain ⟨b', hrun, hreceives⟩ := hserves (withArguments 2 (UInt32.ofInt (-7))) rfl rfl rfl
  have hv : v = ⟨UInt32.ofInt (-3), UInt32.ofInt (-1), 3⟩ := by
    apply Option.some_injective
    rw [← hchecked]
    decide
  refine ⟨b', hrun, ?_⟩
  rw [hreceives.quotient, hreceives.remainder, hreceives.magnitude, hv]
  decide

end Bios

end Armv4T
