import Mathlib
import Armv4T.Proofs.Alu.Sum

/-!
# Numbers of several words

A long number is a list of limbs, the least significant limb first. It is added to another limb by
limb: the lowest limbs without a carry, and each pair above with the carry of the pair below. The
limbs that come out and the carry after the last of them make up the sum of the numbers, by
induction on the limbs. A difference is taken in the same way, where the carry is clear if
something is borrowed.
-/

namespace Armv4T.Limbs

/-! ### Numbers -/

/-- The number of a list of limbs, the least significant limb first. -/
def number (limbs : List Word) : ℕ := Nat.ofDigits (2 ^ 32) (limbs.map UInt32.toNat)

@[simp]
lemma number_nil : number [] = 0 := rfl

@[simp]
lemma number_cons (limb : Word) (limbs : List Word) :
    number (limb :: limbs) = limb.toNat + 2 ^ 32 * number limbs :=
  Nat.ofDigits_cons

lemma number_lt (limbs : List Word) : number limbs < 2 ^ (32 * limbs.length) := by
  have hlt := Nat.ofDigits_lt_base_pow_length (b := 2 ^ 32) (by decide)
    (l := limbs.map UInt32.toNat) fun d hd => by
      obtain ⟨limb, -, rfl⟩ := List.mem_map.mp hd
      exact limb.toNat_lt
  rwa [List.length_map, ← pow_mul] at hlt

lemma weight_succ (n : ℕ) : 2 ^ (32 * (n + 1)) = 2 ^ 32 * 2 ^ (32 * n) := by
  rw [Nat.mul_succ, Nat.add_comm, pow_add]

/-! ### Chains of carries -/

/-- An operation on each pair of limbs, with the carry of the pair below. -/
def chain (op : Word → Word → Bool → Sum) (carry : Bool) :
    List Word → List Word → List Word × Bool
  | a :: as, b :: bs =>
    let s := op a b carry
    let rest := chain op s.carry as bs
    (s.value :: rest.1, rest.2)
  | _, _ => ([], carry)

/-- The sum of two long numbers. -/
def add : List Word → List Word → List Word × Bool
  | a :: as, b :: bs =>
    let s := Sum.add a b
    let rest := chain .adc s.carry as bs
    (s.value :: rest.1, rest.2)
  | _, _ => ([], false)

/-- The difference of two long numbers. The carry is set if nothing is borrowed. -/
def sub : List Word → List Word → List Word × Bool
  | a :: as, b :: bs =>
    let s := Sum.sub a b
    let rest := chain .sbc s.carry as bs
    (s.value :: rest.1, rest.2)
  | _, _ => ([], true)

lemma add_eq_chain (as bs : List Word) : add as bs = chain .adc false as bs := by
  cases as with
  | nil => rfl
  | cons a as =>
    cases bs with
    | nil => rfl
    | cons b bs => rw [add, chain, Sum.add_eq_adc]

lemma sub_eq_chain (as bs : List Word) : sub as bs = chain .sbc true as bs := by
  cases as with
  | nil => rfl
  | cons a as =>
    cases bs with
    | nil => rfl
    | cons b bs => rw [sub, chain, Sum.sub_eq_sbc]

lemma length_chain (op : Word → Word → Bool → Sum) (carry : Bool) {as bs : List Word}
    (h : as.length = bs.length) : (chain op carry as bs).1.length = as.length := by
  induction as generalizing bs carry with
  | nil => rfl
  | cons a as ih =>
    obtain ⟨b, bs, rfl⟩ := List.exists_cons_of_length_eq_add_one h.symm
    exact congrArg (· + 1) (ih _ (Nat.succ_inj.mp h))

/-- The limbs of a chain of sums and the last carry make up the sum. -/
lemma number_chain_adc (carry : Bool) {as bs : List Word} (h : as.length = bs.length) :
    number (chain .adc carry as bs).1 +
        2 ^ (32 * as.length) * (chain .adc carry as bs).2.toNat =
      number as + number bs + carry.toNat := by
  induction as generalizing bs carry with
  | nil =>
    obtain rfl := List.eq_nil_of_length_eq_zero h.symm
    simp [chain]
  | cons a as ih =>
    obtain ⟨b, bs, rfl⟩ := List.exists_cons_of_length_eq_add_one h.symm
    have hlimb := Sum.toNat_adc a b carry
    have hrest := ih (Sum.adc a b carry).carry (Nat.succ_inj.mp h)
    rw [List.length_cons, weight_succ, Nat.mul_assoc]
    simp only [chain, number_cons]
    omega

/-- The limbs of a chain of differences make up the first number with what is taken away, and with
what is borrowed at last. -/
lemma number_chain_sbc (carry : Bool) {as bs : List Word} (h : as.length = bs.length) :
    number (chain .sbc carry as bs).1 + number bs + (!carry).toNat =
      number as + 2 ^ (32 * as.length) * (!(chain .sbc carry as bs).2).toNat := by
  induction as generalizing bs carry with
  | nil =>
    obtain rfl := List.eq_nil_of_length_eq_zero h.symm
    simp [chain]
  | cons a as ih =>
    obtain ⟨b, bs, rfl⟩ := List.exists_cons_of_length_eq_add_one h.symm
    have hlimb := Sum.toNat_sbc a b carry
    have hrest := ih (Sum.sbc a b carry).carry (Nat.succ_inj.mp h)
    rw [List.length_cons, weight_succ, Nat.mul_assoc]
    simp only [chain, number_cons]
    omega

/-! ### Exactness -/

/-- A list of limbs and a carry that make up the sum of two long numbers. -/
structure Adds (r : List Word × Bool) (as bs : List Word) : Prop where
  length : r.1.length = as.length
  value : number r.1 = (number as + number bs) % 2 ^ (32 * as.length)
  carry : r.2 = true ↔ 2 ^ (32 * as.length) ≤ number as + number bs

/-- A list of limbs and a carry that make up the difference of two long numbers. -/
structure Subtracts (r : List Word × Bool) (as bs : List Word) : Prop where
  length : r.1.length = as.length
  value : (number r.1 : ℤ) = (number as - number bs) % 2 ^ (32 * as.length)
  carry : r.2 = true ↔ number bs ≤ number as

lemma add_adds {as bs : List Word} (h : as.length = bs.length) : Adds (add as bs) as bs := by
  have hsum := number_chain_adc false h
  have hlength := length_chain .adc false h
  have hlt := number_lt (chain .adc false as bs).1
  rw [hlength] at hlt
  obtain ⟨hvalue, hcarry⟩ := Sum.eq_mod_and_carry_iff hlt hsum
  rw [add_eq_chain]
  exact ⟨hlength, hvalue, hcarry⟩

lemma sub_subtracts {as bs : List Word} (h : as.length = bs.length) :
    Subtracts (sub as bs) as bs := by
  have hdiff := number_chain_sbc true h
  have hlength := length_chain .sbc true h
  have hlt := number_lt (chain .sbc true as bs).1
  rw [hlength] at hlt
  obtain ⟨hvalue, hcarry⟩ := Sum.eq_emod_and_carry_iff hlt hdiff
  rw [sub_eq_chain]
  exact ⟨hlength, by exact_mod_cast hvalue, hcarry⟩

/-- The sums and differences of words are exact, and so are the chains of them on numbers of
several words. -/
theorem sums_and_chains_exact {as bs : List Word} (h : as.length = bs.length) :
    (∀ a b c, (Sum.adc a b c).Adds a b c ∧ (Sum.sbc a b c).Subtracts a b c) ∧
      (∀ a b, (Sum.add a b).Adds a b false ∧ (Sum.sub a b).Subtracts a b true) ∧
      (∀ a b, Sum.add a b = Sum.adc a b false ∧ Sum.sub a b = Sum.sbc a b true) ∧
      Adds (add as bs) as bs ∧ Subtracts (sub as bs) as bs := by
  refine ⟨fun a b c => ⟨Sum.adc_adds a b c, Sum.sbc_subtracts a b c⟩, fun a b => ?_,
    fun a b => ⟨Sum.add_eq_adc a b, Sum.sub_eq_sbc a b⟩, add_adds h, sub_subtracts h⟩
  rw [Sum.add_eq_adc, Sum.sub_eq_sbc]
  exact ⟨Sum.adc_adds a b false, Sum.sbc_subtracts a b true⟩

/-- The carry of the lower limb runs into the upper one. -/
theorem sums_and_chains_exact_two_limbs :
    ([0xFFFFFFFF, 7] : List Word).length = ([1, 3] : List Word).length ∧
      Adds (add [0xFFFFFFFF, 7] [1, 3]) [0xFFFFFFFF, 7] [1, 3] ∧
      add [0xFFFFFFFF, 7] [1, 3] = ([0, 11], false) := by
  have h : ([0xFFFFFFFF, 7] : List Word).length = ([1, 3] : List Word).length := rfl
  exact ⟨h, (sums_and_chains_exact h).2.2.2.1, by decide⟩

/-- What the lower limb borrows is taken from the upper one. -/
example : sub [0, 7] [1, 3] = ([0xFFFFFFFF, 3], true) := by decide

end Armv4T.Limbs
