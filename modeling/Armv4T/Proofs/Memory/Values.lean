import Mathlib
import Armv4T.Proofs.Memory.Bytes

/-!
# Words as bytes

A storage reads and writes numbers to the base of 256. A read gives the number whose digits are the
bytes from the rounded offset on, the lowest one first (`LinearMemory.read_eq`), and a write puts
the digits of its value there, one after the other (`LinearMemory.byte_write`).
-/

namespace Armv4T

/-! ### Numbers to the base of 256 -/

/-- The number whose digits are the given bytes, the lowest one first. -/
def littleEndian (bytes : List UInt8) : ℕ := Nat.ofDigits 256 (bytes.map UInt8.toNat)

lemma littleEndian_singleton (byte : UInt8) : littleEndian [byte] = byte.toNat :=
  Nat.ofDigits_singleton

lemma littleEndian_append (bytes : List UInt8) (byte : UInt8) :
    littleEndian (bytes ++ [byte]) = littleEndian bytes + 256 ^ bytes.length * byte.toNat := by
  rw [littleEndian, List.map_append, Nat.ofDigits_append, List.length_map, List.map_singleton,
    Nat.ofDigits_singleton]
  rfl

lemma littleEndian_lt (bytes : List UInt8) : littleEndian bytes < 256 ^ bytes.length := by
  have hdigit : ∀ d ∈ bytes.map UInt8.toNat, d < 256 := by
    intro d hd
    obtain ⟨byte, -, rfl⟩ := List.mem_map.mp hd
    exact byte.toNat_lt
  have hlt := Nat.ofDigits_lt_base_pow_length (by decide) hdigit
  rwa [List.length_map] at hlt

namespace Word

/-- A digit of a word. -/
def digit (w : Word) (i : ℕ) : UInt8 := .ofNat (w.toNat / 256 ^ i)

lemma toNat_ofNat_eight_mul {i : ℕ} (h : i < 4) : (UInt32.ofNat (8 * i)).toNat = 8 * i := by
  rw [UInt32.toNat_ofNat']
  exact Nat.mod_eq_of_lt (by omega)

lemma toUInt8_eq_digit (w : Word) : w.toUInt8 = w.digit 0 := by
  apply UInt8.toNat_inj.mp
  rw [UInt32.toNat_toUInt8, digit, UInt8.toNat_ofNat', Nat.pow_zero, Nat.div_one]

/-- A shift by whole bytes takes the lower digits away. -/
lemma toUInt8_shiftRight (w : Word) {i : ℕ} (h : i < 4) :
    (w >>> UInt32.ofNat (8 * i)).toUInt8 = w.digit i := by
  have hshift := toNat_ofNat_eight_mul h
  apply UInt8.toNat_inj.mp
  rw [UInt32.toNat_toUInt8, toNat_shiftRight_of_lt _ (by omega), hshift, digit,
    UInt8.toNat_ofNat', Nat.pow_mul]

/-- A word is the number that its digits write. -/
lemma littleEndian_digits (w : Word) : littleEndian ((List.range 4).map w.digit) = w.toNat := by
  have hlt := w.toNat_lt
  have hrange : List.range 4 = [0, 1, 2, 3] := rfl
  simp only [hrange, littleEndian, List.map_cons, List.map_nil, digit, UInt8.toNat_ofNat',
    Nat.ofDigits_cons, Nat.ofDigits_nil]
  omega

/-- A shift by whole bytes puts a digit above the others. -/
lemma or_shiftLeft {bytes : List UInt8} (h : bytes.length < 4) (byte : UInt8) :
    UInt32.ofNat (littleEndian bytes) ||| byte.toUInt32 <<< UInt32.ofNat (8 * bytes.length) =
      .ofNat (littleEndian (bytes ++ [byte])) := by
  have hpow : 256 ^ bytes.length = 2 ^ (8 * bytes.length) := (Nat.pow_mul 2 8 _).symm
  have hlow : littleEndian bytes < 2 ^ (8 * bytes.length) := hpow ▸ littleEndian_lt bytes
  have hunit : 2 ^ (8 * bytes.length) ≤ 2 ^ 24 := Nat.pow_le_pow_right (by decide) (by omega)
  have hhigh : 2 ^ (8 * bytes.length) * byte.toNat ≤ 2 ^ 24 * 255 :=
    Nat.mul_le_mul hunit (Nat.le_of_lt_succ byte.toNat_lt)
  apply UInt32.toNat_inj.mp
  rw [littleEndian_append, hpow, UInt32.toNat_or, UInt32.toNat_shiftLeft, toNat_ofNat_eight_mul h,
    Nat.mod_eq_of_lt (by omega : 8 * bytes.length < 32), Nat.shiftLeft_eq, UInt8.toNat_toUInt32,
    UInt32.toNat_ofNat', UInt32.toNat_ofNat', Nat.mul_comm byte.toNat, Nat.mod_eq_of_lt (by omega),
    Nat.mod_eq_of_lt (by omega), Nat.mod_eq_of_lt (by omega), Nat.or_comm, Nat.add_comm]
  exact (Nat.two_pow_add_eq_or_of_lt hlow _).symm

lemma signExtend8_ofNat (x : ℕ) :
    signExtend8 (.ofNat x) = ⟨(BitVec.ofNat 8 x).signExtend 32⟩ := by
  have hlow : (UInt32.ofNat x).toUInt8 = .ofNat x := by
    apply UInt8.toNat_inj.mp
    rw [UInt32.toNat_toUInt8, UInt32.toNat_ofNat', UInt8.toNat_ofNat']
    omega
  rw [signExtend8, hlow]
  rfl

lemma signExtend16_ofNat (x : ℕ) :
    signExtend16 (.ofNat x) = ⟨(BitVec.ofNat 16 x).signExtend 32⟩ := by
  have hlow : (UInt32.ofNat x).toUInt16 = .ofNat x := by
    apply UInt16.toNat_inj.mp
    rw [UInt32.toNat_toUInt16, UInt32.toNat_ofNat', UInt16.toNat_ofNat']
    omega
  rw [signExtend16, hlow]
  rfl

end Word

/-! ### Changing some bytes -/

section Overwrite

variable {α : Type} [DecidableEq α]

/-- Changes the bytes at the given places one after the other. -/
def overwrite (f : α → UInt8) (bytes : List (α × UInt8)) : α → UInt8 :=
  bytes.foldl (fun f p => Function.update f p.1 p.2) f

lemma overwrite_cons (f : α → UInt8) (p : α × UInt8) (bytes : List (α × UInt8)) :
    overwrite f (p :: bytes) = overwrite (Function.update f p.1 p.2) bytes := rfl

lemma overwrite_append (f : α → UInt8) (bytes bytes' : List (α × UInt8)) :
    overwrite f (bytes ++ bytes') = overwrite (overwrite f bytes) bytes' :=
  List.foldl_append

/-- A byte that is changed first may as well be changed last, if no other change is at its place. -/
lemma overwrite_update {bytes : List (α × UInt8)} {a : α} (h : ∀ p ∈ bytes, p.1 ≠ a)
    (f : α → UInt8) (byte : UInt8) :
    overwrite (Function.update f a byte) bytes = Function.update (overwrite f bytes) a byte := by
  induction bytes generalizing f with
  | nil => rfl
  | cons p bytes ih =>
    obtain ⟨hp, hrest⟩ := List.forall_mem_cons.mp h
    rw [overwrite_cons, overwrite_cons, Function.update_comm hp.symm, ih hrest]

/-- Only the given places change. -/
lemma overwrite_of_ne {bytes : List (α × UInt8)} {a : α} (h : ∀ p ∈ bytes, p.1 ≠ a)
    (f : α → UInt8) : overwrite f bytes a = f a := by
  have hupdate := congrFun (overwrite_update h f (f a)) a
  rwa [Function.update_eq_self, Function.update_self] at hupdate

/-- Where all changes at a place put the same byte, and there is one, the place holds that byte. -/
lemma overwrite_eq {bytes : List (α × UInt8)} {a : α} {byte : UInt8}
    (h : ∀ p ∈ bytes, p.1 = a → p.2 = byte) (hmem : ∃ p ∈ bytes, p.1 = a) (f : α → UInt8) :
    overwrite f bytes a = byte := by
  induction bytes generalizing f with
  | nil => exact nomatch hmem
  | cons p bytes ih =>
    obtain ⟨hp, hrest⟩ := List.forall_mem_cons.mp h
    rw [overwrite_cons]
    by_cases hlater : ∃ q ∈ bytes, q.1 = a
    · exact ih hrest hlater _
    · have hpa : p.1 = a := by
        obtain ⟨q, hq, hqa⟩ := hmem
        rcases List.mem_cons.mp hq with rfl | hq
        · exact hqa
        · exact absurd ⟨q, hq, hqa⟩ hlater
      rw [overwrite_of_ne fun q hq hqa => hlater ⟨q, hq, hqa⟩, hpa, Function.update_self, hp hpa]

/-- Changes at different places commute. -/
lemma overwrite_comm {bytes bytes' : List (α × UInt8)} (h : ∀ p ∈ bytes, ∀ q ∈ bytes', p.1 ≠ q.1)
    (f : α → UInt8) :
    overwrite (overwrite f bytes) bytes' = overwrite (overwrite f bytes') bytes := by
  induction bytes' generalizing f with
  | nil => rfl
  | cons q bytes' ih =>
    have hq : ∀ p ∈ bytes, p.1 ≠ q.1 := fun p hp => h p hp q List.mem_cons_self
    have hrest : ∀ p ∈ bytes, ∀ q ∈ bytes', p.1 ≠ q.1 :=
      fun p hp q' hq' => h p hp q' (List.mem_cons_of_mem _ hq')
    rw [overwrite_cons, overwrite_cons, ← overwrite_update hq, ih hrest]

/-- What a place holds after changes depends on the changes at it. -/
lemma overwrite_map_congr {ι : Type} {l : List ι} {place : ι → α} {u v : ι → UInt8} {a : α}
    (h : ∀ i ∈ l, place i = a → u i = v i) {f g : α → UInt8} (hfg : f a = g a) :
    overwrite f (l.map fun i => (place i, u i)) a =
      overwrite g (l.map fun i => (place i, v i)) a := by
  induction l generalizing f g with
  | nil => exact hfg
  | cons i l ih =>
    obtain ⟨hi, hrest⟩ := List.forall_mem_cons.mp h
    refine ih hrest ?_
    show Function.update f (place i) (u i) a = Function.update g (place i) (v i) a
    by_cases hplace : place i = a
    · rw [hplace, Function.update_self, Function.update_self, hi hplace]
    · rw [Function.update_of_ne (Ne.symm hplace), Function.update_of_ne (Ne.symm hplace), hfg]

/-- Changes at places that all have one first part. -/
lemma overwrite_map_mk {β : Type} [DecidableEq β] (f : β × α → UInt8) (b : β)
    (bytes : List (α × UInt8)) (c : β × α) :
    overwrite f (bytes.map fun p => ((b, p.1), p.2)) c =
      if c.1 = b then overwrite (fun a => f (b, a)) bytes c.2 else f c := by
  induction bytes generalizing f with
  | nil =>
    split
    · rename_i h
      exact h ▸ rfl
    · rfl
  | cons p bytes ih =>
    have hupdate : (fun a => Function.update f (b, p.1) p.2 (b, a)) =
        Function.update (fun a => f (b, a)) p.1 p.2 := by
      funext a
      simp only [Function.update_apply, Prod.mk.injEq, true_and]
    rw [List.map_cons, overwrite_cons, overwrite_cons, ih, hupdate]
    split
    · rfl
    · rename_i h
      exact Function.update_of_ne (fun heq => h (congrArg Prod.fst heq)) _ _

end Overwrite

/-! ### Storage -/

namespace LinearMemory

/-- A read gives the number that the bytes from the rounded offset on write. -/
lemma read_eq (m : LinearMemory) (width : StoreWidth) (offset : Word) :
    m.read width offset = .ofNat (littleEndian ((List.range width.bytes.toNat).map fun j =>
      m.byte (m.index (width.align offset + UInt32.ofNat j)))) := by
  have hfirst : m.index (width.align offset + UInt32.ofNat 0) = m.index (width.align offset) :=
    congrArg m.index (UInt32.add_zero _)
  have hone (o : Word) : m.read8 o = .ofNat (littleEndian [m.byte (m.index o)]) := by
    rw [littleEndian_singleton]
    exact UInt32.toNat_inj.mp (by simp [read8])
  have hnext {bytes : List UInt8} (h : bytes.length < 4) (o : Word) :
      .ofNat (littleEndian bytes) ||| m.read8 o <<< UInt32.ofNat (8 * bytes.length) =
        UInt32.ofNat (littleEndian (bytes ++ [m.byte (m.index o)])) :=
    Word.or_shiftLeft h _
  cases width with
  | byte =>
    have hrange : List.range StoreWidth.byte.bytes.toNat = [0] := rfl
    rw [hrange, List.map_singleton, hfirst, align_byte]
    exact hone offset
  | half =>
    have hrange : List.range StoreWidth.half.bytes.toNat = [0, 1] := rfl
    rw [hrange, List.map_cons, hfirst]
    show m.read8 (Word.alignDown offset 2) ||| m.read8 (Word.alignDown offset 2 + 1) <<< 8 = _
    rw [hone]
    exact hnext (by simp) _
  | word =>
    have hrange : List.range StoreWidth.word.bytes.toNat = [0, 1, 2, 3] := rfl
    rw [hrange, List.map_cons, hfirst]
    set o := StoreWidth.word.align offset with ho
    have h1 : .ofNat (littleEndian [m.byte (m.index o)]) ||| m.read8 (o + 1) <<< 8 =
        .ofNat (littleEndian [m.byte (m.index o), m.byte (m.index (o + 1))]) :=
      hnext (by simp) (o + 1)
    have h2 : .ofNat (littleEndian [m.byte (m.index o), m.byte (m.index (o + 1))]) |||
        m.read8 (o + 2) <<< 16 = .ofNat (littleEndian [m.byte (m.index o), m.byte (m.index (o + 1)),
          m.byte (m.index (o + 2))]) :=
      hnext (by simp) (o + 2)
    show m.read8 o ||| m.read8 (o + 1) <<< 8 ||| m.read8 (o + 2) <<< 16 |||
      m.read8 (o + 3) <<< 24 = _
    rw [hone, h1, h2]
    exact hnext (by simp) (o + 3)

lemma byte_write8_eq_overwrite (m : LinearMemory) (offset value : Word) :
    (m.write8 offset value).byte = overwrite m.byte [(m.index offset, value.toUInt8)] := by
  funext i
  rw [byte_write8]
  exact (Function.update_apply m.byte (m.index offset) value.toUInt8 i).symm

/-- A write puts the digits of the value from the rounded offset on. -/
lemma byte_write (m : LinearMemory) (width : StoreWidth) (offset value : Word) :
    (m.write width offset value).byte =
      overwrite m.byte ((List.range width.bytes.toNat).map fun j =>
        (m.index (width.align offset + UInt32.ofNat j), value.digit j)) := by
  have hfirst : m.index (width.align offset + UInt32.ofNat 0) = m.index (width.align offset) :=
    congrArg m.index (UInt32.add_zero _)
  have hnext {m' : LinearMemory} (hm : m'.index = m.index) (o : Word) {j : ℕ} (hj : j < 4) :
      (m'.write8 o (value >>> UInt32.ofNat (8 * j))).byte =
        overwrite m'.byte [(m.index o, value.digit j)] := by
    rw [byte_write8_eq_overwrite, hm, Word.toUInt8_shiftRight value hj]
  cases width with
  | byte =>
    have hrange : List.range StoreWidth.byte.bytes.toNat = [0] := rfl
    rw [hrange, List.map_singleton, hfirst, align_byte, ← Word.toUInt8_eq_digit]
    exact byte_write8_eq_overwrite m offset value
  | half =>
    have hrange : List.range StoreWidth.half.bytes.toNat = [0, 1] := rfl
    rw [hrange, List.map_cons, hfirst]
    set o := StoreWidth.half.align offset with ho
    have h0 := byte_write8_eq_overwrite m o value
    rw [Word.toUInt8_eq_digit] at h0
    show ((m.write8 o value).write8 (o + 1) (value >>> 8)).byte = _
    refine (hnext (j := 1) (index_write8 _ _ _) (o + 1) (by decide)).trans ?_
    rw [h0, ← overwrite_append]
    rfl
  | word =>
    have hrange : List.range StoreWidth.word.bytes.toNat = [0, 1, 2, 3] := rfl
    rw [hrange, List.map_cons, hfirst]
    set o := StoreWidth.word.align offset with ho
    have h0 := byte_write8_eq_overwrite m o value
    rw [Word.toUInt8_eq_digit] at h0
    set m₁ := m.write8 o value with hm₁
    have hi₁ : m₁.index = m.index := index_write8 _ _ _
    set m₂ := m₁.write8 (o + 1) (value >>> 8) with hm₂
    have hi₂ : m₂.index = m.index := (index_write8 _ _ _).trans hi₁
    set m₃ := m₂.write8 (o + 2) (value >>> 16) with hm₃
    have hi₃ : m₃.index = m.index := (index_write8 _ _ _).trans hi₂
    have h1 : m₂.byte = overwrite m₁.byte [(m.index (o + 1), value.digit 1)] :=
      hnext (j := 1) hi₁ (o + 1) (by decide)
    have h2 : m₃.byte = overwrite m₂.byte [(m.index (o + 2), value.digit 2)] :=
      hnext (j := 2) hi₂ (o + 2) (by decide)
    have h3 : (m₃.write8 (o + 3) (value >>> 24)).byte =
        overwrite m₃.byte [(m.index (o + 3), value.digit 3)] :=
      hnext (j := 3) hi₃ (o + 3) (by decide)
    show (m₃.write8 (o + 3) (value >>> 24)).byte = _
    rw [h3, h2, h1, h0, ← overwrite_append, ← overwrite_append, ← overwrite_append]
    rfl

/-! ### Images -/

/-- Bytes written one after the other wrap at the end of the storage. -/
lemma byte_writeBytes (m : LinearMemory) (offset : Word) (bytes : List UInt8) :
    (m.writeBytes offset bytes).byte = overwrite m.byte ((List.range bytes.length).map fun j =>
      (m.index (offset + .ofNat j), bytes[j]?.getD 0)) := by
  induction bytes generalizing m offset with
  | nil => rfl
  | cons byte bytes ih =>
    have hfirst : m.index (offset + .ofNat 0) = m.index offset :=
      congrArg m.index (UInt32.add_zero _)
    have hnext (j : ℕ) : offset + 1 + .ofNat j = offset + UInt32.ofNat (j + 1) := by
      have hone : UInt32.ofNat 1 = 1 := rfl
      rw [UInt32.ofNat_add]
      grind
    rw [writeBytes, ih, index_write8, byte_write8_eq_overwrite, ← overwrite_append,
      List.length_cons, List.range_succ_eq_map, List.map_cons, hfirst, List.map_map]
    simp only [hnext, UInt8.toUInt8_toUInt32]
    rfl

/-- The place of a byte before the end of the storage. -/
lemma index_add {k : ℕ} {m : LinearMemory} (hk : m.size.toNat = 2 ^ k) {offset : Word} {j : ℕ}
    (h : m.index offset + j < m.size.toNat) :
    m.index (offset + .ofNat j) = m.index offset + j := by
  have hk32 : k ≤ 32 := (Word.lt_of_toNat_eq_two_pow hk).le
  rw [index_eq_mod hk, hk] at h
  rw [index_eq_mod hk, index_eq_mod hk, Word.toNat_add_ofNat_mod hk32, Nat.add_mod,
    Nat.mod_eq_of_lt (by omega : j < 2 ^ k), Nat.mod_eq_of_lt h]

/-- An image is written byte by byte, whether it wraps or not. -/
lemma byte_loadBytes_eq_overwrite {k : ℕ} {m : LinearMemory} (hk : m.size.toNat = 2 ^ k)
    (offset : Word) (bytes : ByteArray) :
    (m.loadBytes offset bytes).byte = overwrite m.byte ((List.range bytes.size).map fun j =>
      (m.index (offset + .ofNat j), byteAt bytes j)) := by
  by_cases hfits : m.index offset + bytes.size ≤ m.size.toNat
  · have hplace : ∀ j ∈ List.range bytes.size,
        (m.index (offset + .ofNat j), byteAt bytes j) = (m.index offset + j, byteAt bytes j) := by
      intro j hj
      have hj := List.mem_range.mp hj
      rw [index_add hk (by omega)]
    funext i
    rw [List.map_congr_left hplace, byte_loadBytes hfits]
    split
    · rename_i hi
      refine (overwrite_eq (fun p hp hpi => ?_) ⟨(i, byteAt bytes (i - m.index offset)), ?_, rfl⟩
        m.byte).symm
      · obtain ⟨j, -, rfl⟩ := List.mem_map.mp hp
        obtain rfl : m.index offset + j = i := hpi
        rw [Nat.add_sub_cancel_left]
      · refine List.mem_map.mpr ⟨i - m.index offset, List.mem_range.mpr (by omega), ?_⟩
        rw [Nat.add_sub_cancel' hi.1]
    · rename_i hi
      refine (overwrite_of_ne (fun p hp hpi => hi ?_) m.byte).symm
      obtain ⟨j, hj, rfl⟩ := List.mem_map.mp hp
      have hj := List.mem_range.mp hj
      obtain rfl : m.index offset + j = i := hpi
      omega
  · have hwrap : m.loadBytes offset bytes = m.writeBytes offset bytes.toList := by
      unfold loadBytes
      dsimp only
      rw [if_neg hfits]
    rw [hwrap, byte_writeBytes, length_toList, toList_eq_toList_data]
    simp only [Array.getElem?_toList]
    rfl

end LinearMemory

end Armv4T
