import Mathlib
import Armv4T.Memory.Linear
import Armv4T.Proofs.Word.Align

/-!
# Storage as an array of bytes

What the buffer of a storage does is invisible: a write changes the bytes that it writes and no
others (`LinearMemory.byte_write8`, `LinearMemory.byte_loadBytes`), growing the buffer changes none.
A read depends on the bytes of its width alone (`LinearMemory.read_congr`), a write changes at most
those (`LinearMemory.byte_write_of_ne`), and an image changes at most as many bytes as it has,
whether it wraps at the end of the storage or not (`LinearMemory.byte_loadBytes_of_ne`).
-/

namespace Armv4T

lemma size_zeroBytes (n : ℕ) : (zeroBytes n).size = n := by
  fun_induction zeroBytes n with
  | case1 => rfl
  | case2 n hn half heven ih =>
    rw [ByteArray.size_append, ih]
    omega
  | case3 n hn half hodd ih =>
    rw [ByteArray.size_push, ByteArray.size_append, ih]
    omega

/-- The bytes of a buffer, which reads as zero behind its end. -/
def byteAt (data : ByteArray) (i : ℕ) : UInt8 := data.data[i]?.getD 0

lemma byteAt_append (a b : ByteArray) (i : ℕ) :
    byteAt (a ++ b) i = if i < a.size then byteAt a i else byteAt b (i - a.size) := by
  rw [byteAt, ByteArray.data_append, Array.getElem?_append]
  have hsize : a.data.size = a.size := rfl
  rw [hsize]
  split <;> rfl

lemma byteAt_of_size_le {a : ByteArray} {i : ℕ} (h : a.size ≤ i) : byteAt a i = 0 := by
  rw [byteAt, Array.getElem?_eq_none h]
  rfl

lemma byteAt_extract (a : ByteArray) (start stop i : ℕ) :
    byteAt (a.extract start stop) i =
      if i < min stop a.size - start then byteAt a (start + i) else 0 := by
  rw [byteAt, ByteArray.data_extract, Array.getElem?_extract]
  have hsize : a.data.size = a.size := rfl
  rw [hsize]
  split <;> rfl

lemma byteAt_zeroBytes (n i : ℕ) : byteAt (zeroBytes n) i = 0 := by
  fun_induction zeroBytes n generalizing i with
  | case1 => rfl
  | case2 n hn half heven ih =>
    rw [byteAt_append, ih, ih, ite_self]
  | case3 n hn half hodd ih =>
    have hpush : byteAt ((half ++ half).push 0) i = byteAt (half ++ half) i := by
      rw [byteAt, ByteArray.data_push, Array.getElem?_push]
      split
      · rename_i hi
        rw [byteAt_of_size_le (Nat.le_of_eq hi.symm)]
        rfl
      · rfl
    rw [hpush, byteAt_append, ih, ih, ite_self]

namespace LinearMemory

variable {m m' : LinearMemory} {k : ℕ}

lemma byte_eq_byteAt (m : LinearMemory) (i : ℕ) : m.byte i = byteAt m.data i := by
  unfold byte byteAt
  split
  · rename_i h
    rw [Array.getElem?_eq_getElem (by exact h)]
    rfl
  · rename_i h
    rw [Array.getElem?_eq_none (by exact Nat.le_of_not_lt h)]
    rfl

/-! ### The buffer -/

lemma byteAt_grow (data : ByteArray) (n i : ℕ) : byteAt (grow data n) i = byteAt data i := by
  unfold grow
  split
  · rw [byteAt_append, byteAt_zeroBytes]
    split
    · rfl
    · exact (byteAt_of_size_le (by omega)).symm
  · rfl

lemma le_size_grow (data : ByteArray) (n : ℕ) : n ≤ (grow data n).size := by
  unfold grow
  split
  · rw [ByteArray.size_append, size_zeroBytes]
    omega
  · omega

lemma byteAt_put {data : ByteArray} {i : ℕ} (hi : i < data.size) (value : UInt8) (j : ℕ) :
    byteAt (put data i value) j = if j = i then value else byteAt data j := by
  have hsize : i < data.data.size := hi
  rw [put, dif_pos hi, byteAt, ByteArray.data_set, Array.getElem?_set]
  by_cases hij : i = j
  · rw [if_pos hij, if_pos hij.symm]
    rfl
  · rw [if_neg hij, if_neg (Ne.symm hij)]
    rfl

/-! ### Writes -/

lemma byte_write8 (m : LinearMemory) (offset value : Word) (i : ℕ) :
    (m.write8 offset value).byte i =
      if i = m.index offset then value.toUInt8 else m.byte i := by
  have hi : m.index offset < (grow m.data (m.index offset + 1)).size := le_size_grow _ _
  rw [byte_eq_byteAt, byte_eq_byteAt]
  show byteAt (put (grow m.data (m.index offset + 1)) (m.index offset) value.toUInt8) i = _
  rw [byteAt_put hi, byteAt_grow]

@[simp] lemma size_write8 (m : LinearMemory) (offset value : Word) :
    (m.write8 offset value).size = m.size := rfl

lemma index_congr (h : m'.size = m.size) (offset : Word) : m'.index offset = m.index offset := by
  rw [index, index, h]

lemma index_eq_mod (h : m.size.toNat = 2 ^ k) (offset : Word) :
    m.index offset = offset.toNat % 2 ^ k :=
  Word.toNat_and_sub_one h offset

@[simp] lemma index_write8 (m : LinearMemory) (offset value : Word) :
    (m.write8 offset value).index = m.index :=
  funext fun _ => index_congr (size_write8 m offset value) _

/-- A write changes the byte at its offset. -/
lemma byte_write8_of_ne {offset : Word} (value : Word) {i : ℕ} (h : i ≠ m.index offset) :
    (m.write8 offset value).byte i = m.byte i := by
  rw [byte_write8, if_neg h]

lemma size_write (m : LinearMemory) (width : StoreWidth) (offset value : Word) :
    (m.write width offset value).size = m.size := by
  cases width with
  | byte => exact size_write8 _ _ _
  | half => exact (size_write8 _ _ _).trans (size_write8 _ _ _)
  | word =>
    show ((((m.write8 _ _).write8 _ _).write8 _ _).write8 _ _).size = _
    rw [size_write8, size_write8, size_write8, size_write8]

lemma align_byte (offset : Word) : StoreWidth.byte.align offset = offset := by
  show offset &&& ~~~(1 - 1 : Word) = offset
  simp

/-- A write changes at most the bytes of its width. -/
lemma byte_write_of_ne {width : StoreWidth} {offset : Word} (value : Word) {i : ℕ}
    (h : ∀ j < width.bytes.toNat, i ≠ m.index (width.align offset + UInt32.ofNat j)) :
    (m.write width offset value).byte i = m.byte i := by
  have hfirst : i ≠ m.index (width.align offset) := by
    have h0 : 0 < width.bytes.toNat := by cases width <;> decide
    have hzero : width.align offset + UInt32.ofNat 0 = width.align offset := UInt32.add_zero _
    exact hzero ▸ h 0 h0
  cases width with
  | byte =>
    rw [align_byte] at hfirst
    exact byte_write8_of_ne _ hfirst
  | half =>
    have h1 : i ≠ m.index (Word.alignDown offset 2 + 1) := h 1 (by decide)
    show ((m.write8 _ _).write8 _ _).byte i = _
    rw [byte_write8_of_ne _ (by rwa [index_write8])]
    exact byte_write8_of_ne _ hfirst
  | word =>
    have h1 : i ≠ m.index (Word.alignDown offset 4 + 1) := h 1 (by decide)
    have h2 : i ≠ m.index (Word.alignDown offset 4 + 2) := h 2 (by decide)
    have h3 : i ≠ m.index (Word.alignDown offset 4 + 3) := h 3 (by decide)
    show ((((m.write8 _ _).write8 _ _).write8 _ _).write8 _ _).byte i = _
    rw [byte_write8_of_ne _ (by rwa [index_write8, index_write8, index_write8]),
      byte_write8_of_ne _ (by rwa [index_write8, index_write8]),
      byte_write8_of_ne _ (by rwa [index_write8])]
    exact byte_write8_of_ne _ hfirst

/-! ### Reads -/

/-- A read depends on the bytes of its width. -/
lemma read_congr {width : StoreWidth} {offset : Word} (hsize : m'.size = m.size)
    (h : ∀ j < width.bytes.toNat,
      m'.byte (m.index (width.align offset + UInt32.ofNat j)) =
        m.byte (m.index (width.align offset + UInt32.ofNat j))) :
    m'.read width offset = m.read width offset := by
  have hread : ∀ j < width.bytes.toNat,
      m'.read8 (width.align offset + UInt32.ofNat j) =
        m.read8 (width.align offset + UInt32.ofNat j) := by
    intro j hj
    rw [read8, read8, index_congr hsize, h j hj]
  have hfirst : m'.read8 (width.align offset) = m.read8 (width.align offset) := by
    have h0 : 0 < width.bytes.toNat := by cases width <;> decide
    have hzero : width.align offset + UInt32.ofNat 0 = width.align offset := UInt32.add_zero _
    exact hzero ▸ hread 0 h0
  cases width with
  | byte =>
    rw [align_byte] at hfirst
    exact hfirst
  | half =>
    have h1 : m'.read8 (Word.alignDown offset 2 + 1) = m.read8 (Word.alignDown offset 2 + 1) :=
      hread 1 (by decide)
    show m'.read16 offset = m.read16 offset
    replace hfirst : m'.read8 (Word.alignDown offset 2) = m.read8 (Word.alignDown offset 2) :=
      hfirst
    simp only [read16, hfirst, h1]
  | word =>
    have h1 : m'.read8 (Word.alignDown offset 4 + 1) = m.read8 (Word.alignDown offset 4 + 1) :=
      hread 1 (by decide)
    have h2 : m'.read8 (Word.alignDown offset 4 + 2) = m.read8 (Word.alignDown offset 4 + 2) :=
      hread 2 (by decide)
    have h3 : m'.read8 (Word.alignDown offset 4 + 3) = m.read8 (Word.alignDown offset 4 + 3) :=
      hread 3 (by decide)
    replace hfirst : m'.read8 (Word.alignDown offset 4) = m.read8 (Word.alignDown offset 4) :=
      hfirst
    show m'.read32 offset = m.read32 offset
    simp only [read32, hfirst, h1, h2, h3]

/-! ### Images -/

lemma toList_eq_toList_data (bytes : ByteArray) : bytes.toList = bytes.data.toList := by
  have hloop : ∀ n i r, bytes.size - i = n →
      ByteArray.toList.loop bytes i r = r.reverse ++ bytes.data.toList.drop i := by
    intro n
    induction n with
    | zero =>
      intro i r hn
      have hi : ¬ i < bytes.size := by omega
      have hdrop : bytes.data.toList.drop i = [] := List.drop_eq_nil_of_le (Nat.le_of_not_lt hi)
      rw [ByteArray.toList.loop, if_neg hi, hdrop, List.append_nil]
    | succ n ih =>
      intro i r hn
      have hi : i < bytes.size := by omega
      have hlength : i < bytes.data.toList.length := hi
      have hget : bytes.get! i = bytes.data.toList[i] := getElem!_pos bytes.data i hi
      rw [ByteArray.toList.loop, if_pos hi, ih _ _ (by omega), List.drop_eq_getElem_cons hlength,
        hget, List.reverse_cons, List.append_assoc]
      rfl
  rw [ByteArray.toList, hloop _ 0 [] rfl]
  rfl

lemma length_toList (bytes : ByteArray) : bytes.toList.length = bytes.size := by
  rw [toList_eq_toList_data]
  rfl

/-- The bytes of an image in a row. -/
lemma toList_eq_map_byteAt (bytes : ByteArray) :
    bytes.toList = (List.range bytes.size).map (byteAt bytes) := by
  have hlength := length_toList bytes
  refine List.ext_getElem (by simp [hlength]) fun i hi _ => ?_
  have hdata : i < bytes.data.size := hi.trans_eq hlength
  simp only [List.getElem_map, List.getElem_range, byteAt, Array.getElem?_eq_getElem hdata,
    toList_eq_toList_data, Array.getElem_toList, Option.getD_some]

lemma size_writeBytes (m : LinearMemory) (offset : Word) (bytes : List UInt8) :
    (m.writeBytes offset bytes).size = m.size := by
  induction bytes generalizing m offset with
  | nil => rfl
  | cons b bytes ih => rw [writeBytes, ih, size_write8]

/-- Bytes written one after the other change at most as many bytes. -/
lemma byte_writeBytes_of_ne {offset : Word} {bytes : List UInt8} {i : ℕ}
    (h : ∀ j < bytes.length, i ≠ m.index (offset + UInt32.ofNat j)) :
    (m.writeBytes offset bytes).byte i = m.byte i := by
  induction bytes generalizing m offset with
  | nil => rfl
  | cons b bytes ih =>
    have hfirst : i ≠ m.index offset := by
      have hzero : offset + UInt32.ofNat 0 = offset := UInt32.add_zero offset
      exact hzero ▸ h 0 (Nat.succ_pos _)
    have hrest : ∀ j < bytes.length,
        i ≠ (m.write8 offset b.toUInt32).index (offset + 1 + UInt32.ofNat j) := by
      intro j hj
      have hnext : offset + 1 + UInt32.ofNat j = offset + UInt32.ofNat (j + 1) := by
        rw [UInt32.add_assoc, Nat.add_comm j 1, UInt32.ofNat_add]
        rfl
      rw [index_write8, hnext]
      exact h (j + 1) (Nat.succ_lt_succ hj)
    rw [writeBytes, ih hrest, byte_write8_of_ne _ hfirst]

/-- An image that fits before the end of the storage is copied. -/
lemma byte_loadBytes {offset : Word} {bytes : ByteArray}
    (hfits : m.index offset + bytes.size ≤ m.size.toNat) (i : ℕ) :
    (m.loadBytes offset bytes).byte i =
      if m.index offset ≤ i ∧ i < m.index offset + bytes.size then byteAt bytes (i - m.index offset)
      else m.byte i := by
  rw [byte_eq_byteAt, byte_eq_byteAt]
  obtain ⟨data, size⟩ := m
  set start := index ⟨data, size⟩ offset with hstart
  have hdata : (loadBytes ⟨data, size⟩ offset bytes).data =
      bytes.copySlice 0 (grow data (start + bytes.size)) start bytes.size := by
    simp only [loadBytes]
    rw [if_pos hfits]
  have hgrow : start + bytes.size ≤ (grow data (start + bytes.size)).size := le_size_grow _ _
  rw [hdata, ByteArray.copySlice_eq_append, ← byteAt_grow data (start + bytes.size) i]
  generalize grow data (start + bytes.size) = grown at hgrow
  have hsize : grown.data.size = grown.size := rfl
  have hbytes : bytes.data.size = bytes.size := rfl
  simp only [byteAt_append, byteAt_extract, ByteArray.size_append, ByteArray.size_extract, hsize,
    hbytes]
  by_cases hbefore : i < start
  · rw [if_pos (by omega), if_pos (by omega), if_pos (by omega), if_neg (by omega), Nat.zero_add]
  · by_cases hin : i < start + bytes.size
    · rw [if_pos (by omega), if_neg (by omega), if_pos (by omega), if_pos ⟨by omega, hin⟩]
      congr 1
      omega
    · rw [if_neg (by omega), if_neg (c := start ≤ i ∧ i < start + bytes.size) (by omega)]
      split
      · congr 1
        omega
      · exact (byteAt_of_size_le (by omega)).symm

lemma size_loadBytes (m : LinearMemory) (offset : Word) (bytes : ByteArray) :
    (m.loadBytes offset bytes).size = m.size := by
  unfold loadBytes
  dsimp only
  split
  · rfl
  · exact size_writeBytes _ _ _

/-- An image changes at most as many bytes as it has. -/
lemma byte_loadBytes_of_ne (hk : m.size.toNat = 2 ^ k) {offset : Word} {bytes : ByteArray} {i : ℕ}
    (h : ∀ j < bytes.size, i ≠ m.index (offset + UInt32.ofNat j)) :
    (m.loadBytes offset bytes).byte i = m.byte i := by
  by_cases hfits : m.index offset + bytes.size ≤ m.size.toNat
  · rw [byte_loadBytes hfits, if_neg]
    rintro ⟨hge, hlt⟩
    refine h (i - m.index offset) (by omega) ?_
    have hk32 : k ≤ 32 := (Word.lt_of_toNat_eq_two_pow hk).le
    rw [index_eq_mod hk] at hge hlt hfits ⊢
    rw [index_eq_mod hk, Word.toNat_add_ofNat_mod hk32, Nat.add_mod]
    have hsmall : i - offset.toNat % 2 ^ k < 2 ^ k := by omega
    rw [Nat.mod_eq_of_lt hsmall, Nat.mod_eq_of_lt (by omega)]
    omega
  · have hwrap : m.loadBytes offset bytes = m.writeBytes offset bytes.toList := by
      unfold loadBytes
      dsimp only
      rw [if_neg hfits]
    rw [hwrap]
    refine byte_writeBytes_of_ne fun j hj => h j ?_
    rwa [length_toList] at hj

end LinearMemory

end Armv4T
