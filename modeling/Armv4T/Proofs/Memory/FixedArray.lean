import Mathlib
import Armv4T.Proofs.Memory.Values

/-!
# Storage as an array of a fixed size

A storage keeps a buffer that grows on demand. What can be seen of it is an array of bytes that has
its full size from the start and is zero at first: positions are taken modulo the size, halfwords
and words are rounded down, and numbers are written with the lowest digit first. The array
(`ByteRing`) is defined here on its own, and the two are run side by side.

Every write is a row of bytes written one after the other (`LinearMemory.write_eq_writeBytes`), and
so is an image as far as can be read (`LinearMemory.byte_loadBytes_eq_writeBytes`), so that one
lemma for a byte carries all accesses. The buffer never outgrows the array.
-/

namespace Armv4T

/-! ### Arrays of a fixed size -/

/-- The number of bytes of a storage that is asked for: at least one, rounded up to a power of two,
and no more than 2^31. -/
def capacity (size : ℕ) : ℕ := min (2 ^ Nat.clog 2 (max size 1)) (2 ^ 31)

lemma exists_capacity_eq (size : ℕ) : ∃ k ≤ 31, capacity size = 2 ^ k := by
  refine ⟨min (Nat.clog 2 (max size 1)) 31, min_le_right _ _, ?_⟩
  exact ((pow_right_mono₀ one_le_two).map_min).symm

instance (size : ℕ) : NeZero (capacity size) := by
  obtain ⟨k, -, hk⟩ := exists_capacity_eq size
  exact ⟨hk ▸ (Nat.two_pow_pos k).ne'⟩

/-- An array of `n` bytes, whose positions are taken modulo its size. -/
abbrev ByteRing (n : ℕ) := Fin n → UInt8

/-- An access to a storage. -/
inductive MemoryAccess
  | read (width : StoreWidth) (offset : Word)
  | write (width : StoreWidth) (offset value : Word)
  | image (offset : Word) (bytes : ByteArray)

/-- The offset of an access of a width, rounded down. -/
def StoreWidth.floor (width : StoreWidth) (offset : Word) : ℕ :=
  offset.toNat / width.bytes.toNat * width.bytes.toNat

namespace ByteRing

variable {n : ℕ} [NeZero n]

/-- The array as it is at first. -/
def zero : ByteRing n := fun _ => 0

/-- Changes the bytes from a position on, one after the other. -/
def put (a : ByteRing n) (i : ℕ) : List UInt8 → ByteRing n
  | [] => a
  | byte :: bytes => put (Function.update a (.ofNat n i) byte) (i + 1) bytes

/-- The number that stands at an offset. -/
def read (a : ByteRing n) (width : StoreWidth) (offset : Word) : ℕ :=
  littleEndian ((List.range width.bytes.toNat).map fun j =>
    a (.ofNat n (width.floor offset + j)))

/-- Puts the digits of a value at an offset. -/
def write (a : ByteRing n) (width : StoreWidth) (offset value : Word) : ByteRing n :=
  a.put (width.floor offset) ((List.range width.bytes.toNat).map value.digit)

/-- What the reads among some accesses give. -/
def answers (a : ByteRing n) : List MemoryAccess → List ℕ
  | [] => []
  | .read width offset :: rest => a.read width offset :: a.answers rest
  | .write width offset value :: rest => (a.write width offset value).answers rest
  | .image offset bytes :: rest => (a.put offset.toNat bytes.toList).answers rest

/-- Only the remainder of a position matters. -/
lemma put_congr (a : ByteRing n) {i j : ℕ} (h : i % n = j % n) (bytes : List UInt8) :
    a.put i bytes = a.put j bytes := by
  induction bytes generalizing a i j with
  | nil => rfl
  | cons byte bytes ih =>
    have hplace : Fin.ofNat n i = Fin.ofNat n j := Fin.ext h
    have hnext : (i + 1) % n = (j + 1) % n := Nat.ModEq.add_right 1 h
    rw [put, put, hplace, ih _ hnext]

end ByteRing

/-! ### Storages -/

namespace LinearMemory

/-- What the reads among some accesses give. -/
def answers (m : LinearMemory) : List MemoryAccess → List Word
  | [] => []
  | .read width offset :: rest => m.read width offset :: m.answers rest
  | .write width offset value :: rest => (m.write width offset value).answers rest
  | .image offset bytes :: rest => (m.loadBytes offset bytes).answers rest

/-- What an access makes of a storage. -/
def access (m : LinearMemory) : MemoryAccess → LinearMemory
  | .read _ _ => m
  | .write width offset value => m.write width offset value
  | .image offset bytes => m.loadBytes offset bytes

/-- The storage stands for the array: the buffer holds the first of its bytes, and all others are
zero. -/
structure StandsFor {n : ℕ} (m : LinearMemory) (a : ByteRing n) : Prop where
  size : m.size.toNat = n
  byte : ∀ i : Fin n, m.byte i = a i
  bounded : m.data.size ≤ n

lemma toNat_size_ofSize (size : Word) : (ofSize size).size.toNat = capacity size.toNat := by
  obtain ⟨k, hk, hcapacity⟩ := exists_capacity_eq size.toNat
  have hclog : Nat.clog 2 (max size.toNat 1) = Nat.clog 2 size.toNat := by
    rcases Nat.eq_zero_or_pos size.toNat with h | h
    · rw [h]
      rfl
    · rw [max_eq_left h]
  have hround : min (Nat.nextPowerOfTwo size.toNat) (2 ^ 31) = capacity size.toNat := by
    rw [nextPowerOfTwo_eq, capacity, hclog]
  have hlt : 2 ^ k < 2 ^ 32 := Nat.pow_lt_pow_right (by decide) (by omega)
  show (UInt32.ofNat (min (Nat.nextPowerOfTwo size.toNat) (2 ^ 31))).toNat = _
  rw [hround, UInt32.toNat_ofNat', hcapacity, Nat.mod_eq_of_lt hlt]

/-- A storage stands for the zero array at first. -/
lemma standsFor_ofSize (size : Word) : (ofSize size).StandsFor (n := capacity size.toNat) .zero :=
  ⟨toNat_size_ofSize size, fun _ => rfl, Nat.zero_le _⟩

/-! ### The buffer -/

lemma size_grow (data : ByteArray) (n : ℕ) : (grow data n).size = max data.size n := by
  unfold grow
  split
  · rw [ByteArray.size_append, size_zeroBytes]
    omega
  · omega

lemma size_put (data : ByteArray) (i : ℕ) (value : UInt8) :
    (put data i value).size = data.size := by
  unfold put
  split
  · rename_i hi
    exact ByteArray.size_set data ⟨i, hi⟩ value
  · rfl

lemma size_data_write8 (m : LinearMemory) (offset value : Word) :
    (m.write8 offset value).data.size = max m.data.size (m.index offset + 1) := by
  show (put (grow m.data (m.index offset + 1)) (m.index offset) value.toUInt8).size = _
  rw [size_put, size_grow]

/-- Copying an image that fits makes the buffer reach as far as the image. -/
lemma size_data_loadBytes {m : LinearMemory} {offset : Word} {bytes : ByteArray}
    (hfits : m.index offset + bytes.size ≤ m.size.toNat) :
    (m.loadBytes offset bytes).data.size = max m.data.size (m.index offset + bytes.size) := by
  obtain ⟨data, size⟩ := m
  set start := index ⟨data, size⟩ offset with hstart
  have hdata : (loadBytes ⟨data, size⟩ offset bytes).data =
      bytes.copySlice 0 (grow data (start + bytes.size)) start bytes.size := by
    simp only [loadBytes]
    rw [if_pos hfits]
  have hgrow := size_grow data (start + bytes.size)
  rw [hdata, ByteArray.copySlice_eq_append]
  generalize grow data (start + bytes.size) = grown at hgrow
  have hsize : grown.data.size = grown.size := rfl
  have hbytes : bytes.data.size = bytes.size := rfl
  simp only [ByteArray.size_append, ByteArray.size_extract, hsize, hbytes]
  omega

/-! ### Writes byte by byte -/

/-- Only the low byte of a value is written. -/
lemma write8_congr {value value' : Word} (h : value.toUInt8 = value'.toUInt8) (m : LinearMemory)
    (offset : Word) : m.write8 offset value = m.write8 offset value' := by
  rw [write8, write8, h]

/-- A write is a row of digits written one after the other. -/
lemma write_eq_writeBytes (m : LinearMemory) (width : StoreWidth) (offset value : Word) :
    m.write width offset value = m.writeBytes (width.align offset)
      ((List.range width.bytes.toNat).map value.digit) := by
  have hfirst (m : LinearMemory) (o : Word) :
      m.write8 o value = m.write8 o (value.digit 0).toUInt32 :=
    write8_congr (by rw [Word.toUInt8_eq_digit, UInt8.toUInt8_toUInt32]) m o
  have hnext (m : LinearMemory) (o : Word) {j : ℕ} (hj : j < 4) :
      m.write8 o (value >>> UInt32.ofNat (8 * j)) = m.write8 o (value.digit j).toUInt32 :=
    write8_congr (by rw [Word.toUInt8_shiftRight value hj, UInt8.toUInt8_toUInt32]) m o
  cases width with
  | byte =>
    show m.write8 offset value = m.write8 (StoreWidth.byte.align offset) _
    rw [align_byte]
    exact hfirst m offset
  | half =>
    set o := StoreWidth.half.align offset with ho
    show (m.write8 o value).write8 (o + 1) (value >>> 8) = (m.write8 o _).write8 (o + 1) _
    rw [hfirst]
    exact hnext _ (o + 1) (j := 1) (by decide)
  | word =>
    set o := StoreWidth.word.align offset with ho
    have htwo : o + 1 + 1 = o + 2 := UInt32.add_assoc o 1 1
    have hthree : o + 2 + 1 = o + 3 := UInt32.add_assoc o 2 1
    have h1 (m : LinearMemory) : m.write8 (o + 1) (value >>> 8) =
        m.write8 (o + 1) (value.digit 1).toUInt32 := hnext m _ (j := 1) (by decide)
    have h2 (m : LinearMemory) : m.write8 (o + 2) (value >>> 16) =
        m.write8 (o + 2) (value.digit 2).toUInt32 := hnext m _ (j := 2) (by decide)
    have h3 (m : LinearMemory) : m.write8 (o + 3) (value >>> 24) =
        m.write8 (o + 3) (value.digit 3).toUInt32 := hnext m _ (j := 3) (by decide)
    show (((m.write8 o value).write8 (o + 1) (value >>> 8)).write8 (o + 2) (value >>> 16)).write8
        (o + 3) (value >>> 24) =
      (((m.write8 o _).write8 (o + 1) _).write8 (o + 1 + 1) _).write8 (o + 1 + 1 + 1) _
    rw [htwo, hthree, hfirst, h1, h2, h3]

/-- An image that is copied at once reads as one that is written byte by byte. -/
lemma byte_loadBytes_eq_writeBytes {k : ℕ} {m : LinearMemory} (hk : m.size.toNat = 2 ^ k)
    (offset : Word) (bytes : ByteArray) :
    (m.loadBytes offset bytes).byte = (m.writeBytes offset bytes.toList).byte := by
  rw [byte_loadBytes_eq_overwrite hk, byte_writeBytes, length_toList, toList_eq_toList_data]
  simp only [Array.getElem?_toList]
  rfl

/-! ### Accesses, one at a time -/

namespace StandsFor

variable {n k : ℕ} [NeZero n] {m : LinearMemory} {a : ByteRing n}

omit [NeZero n] in
lemma index_eq (h : m.StandsFor a) (hn : n = 2 ^ k) (offset : Word) :
    m.index offset = offset.toNat % n := by
  rw [hn, index_eq_mod (h.size.trans hn)]

/-- A byte is changed in the storage as in the array. -/
lemma write8 (h : m.StandsFor a) (hn : n = 2 ^ k) (offset value : Word) :
    (m.write8 offset value).StandsFor
      (Function.update a (.ofNat n offset.toNat) value.toUInt8) := by
  have hindex : m.index offset = (Fin.ofNat n offset.toNat).val := h.index_eq hn offset
  refine ⟨h.size, fun i => ?_, ?_⟩
  · rw [byte_write8, hindex, Function.update_apply, h.byte]
    simp only [Fin.val_inj]
  · rw [size_data_write8, hindex]
    exact max_le h.bounded (Fin.ofNat n offset.toNat).isLt

/-- Bytes are written one after the other in the storage as in the array. -/
lemma writeBytes (h : m.StandsFor a) (hn : n = 2 ^ k) (hk : k ≤ 32) (offset : Word)
    (bytes : List UInt8) : (m.writeBytes offset bytes).StandsFor (a.put offset.toNat bytes) := by
  induction bytes generalizing m a offset with
  | nil => exact h
  | cons byte bytes ih =>
    have hwrite := h.write8 hn offset byte.toUInt32
    rw [UInt8.toUInt8_toUInt32] at hwrite
    have hnext : (offset + 1).toNat % n = (offset.toNat + 1) % n := by
      rw [hn]
      exact Word.toNat_add_ofNat_mod hk offset 1
    rw [LinearMemory.writeBytes, ByteRing.put, ← ByteRing.put_congr _ hnext]
    exact ih hwrite (offset + 1)

lemma toNat_align (width : StoreWidth) (offset : Word) :
    (width.align offset).toNat = width.floor offset := by
  obtain ⟨e, -, he⟩ := width.exists_bytes_eq
  rw [StoreWidth.floor, he]
  exact Word.toNat_alignDown he offset

lemma write (h : m.StandsFor a) (hn : n = 2 ^ k) (hk : k ≤ 32) (width : StoreWidth)
    (offset value : Word) :
    (m.write width offset value).StandsFor (a.write width offset value) := by
  rw [write_eq_writeBytes, ByteRing.write, ← toNat_align]
  exact h.writeBytes hn hk _ _

lemma loadBytes (h : m.StandsFor a) (hn : n = 2 ^ k) (hk : k ≤ 32) (offset : Word)
    (bytes : ByteArray) :
    (m.loadBytes offset bytes).StandsFor (a.put offset.toNat bytes.toList) := by
  have hwritten := h.writeBytes hn hk offset bytes.toList
  refine ⟨(congrArg UInt32.toNat (size_loadBytes m offset bytes)).trans h.size, fun i => ?_, ?_⟩
  · rw [byte_loadBytes_eq_writeBytes (h.size.trans hn)]
    exact hwritten.byte i
  · by_cases hfits : m.index offset + bytes.size ≤ m.size.toNat
    · rw [size_data_loadBytes hfits]
      exact max_le h.bounded (hfits.trans_eq h.size)
    · have hwrap : m.loadBytes offset bytes = m.writeBytes offset bytes.toList := by
        unfold LinearMemory.loadBytes
        dsimp only
        rw [if_neg hfits]
      rw [hwrap]
      exact hwritten.bounded

lemma read (h : m.StandsFor a) (hn : n = 2 ^ k) (hk : k ≤ 32) (width : StoreWidth)
    (offset : Word) : (m.read width offset).toNat = a.read width offset := by
  have hbyte (j : ℕ) : m.byte (m.index (width.align offset + UInt32.ofNat j)) =
      a (.ofNat n (width.floor offset + j)) := by
    have hindex : m.index (width.align offset + UInt32.ofNat j) =
        (Fin.ofNat n (width.floor offset + j)).val := by
      rw [h.index_eq hn, Fin.val_ofNat, ← toNat_align, hn, Word.toNat_add_ofNat_mod hk]
    rw [hindex, h.byte]
  have hlt := littleEndian_lt ((List.range width.bytes.toNat).map fun j =>
    a (.ofNat n (width.floor offset + j)))
  have hsmall : 256 ^ ((List.range width.bytes.toNat).map fun j =>
      a (.ofNat n (width.floor offset + j))).length ≤ 2 ^ 32 := by
    rw [List.length_map, List.length_range]
    cases width <;> decide
  rw [read_eq, ByteRing.read]
  simp only [hbyte]
  rw [UInt32.toNat_ofNat', Nat.mod_eq_of_lt (hlt.trans_le hsmall)]

/-! ### Sequences of accesses -/

/-- A storage that stands for an array answers as the array does. -/
lemma answers (h : m.StandsFor a) (hn : n = 2 ^ k) (hk : k ≤ 32) (accesses : List MemoryAccess) :
    (m.answers accesses).map UInt32.toNat = a.answers accesses := by
  induction accesses generalizing m a with
  | nil => rfl
  | cons access rest ih =>
    cases access with
    | read width offset =>
      rw [LinearMemory.answers, ByteRing.answers, List.map_cons, h.read hn hk, ih h]
    | write width offset value => exact ih (h.write hn hk width offset value)
    | image offset bytes => exact ih (h.loadBytes hn hk offset bytes)

/-- After any accesses, a storage still stands for an array. -/
lemma exists_foldl (h : m.StandsFor a) (hn : n = 2 ^ k) (hk : k ≤ 32)
    (accesses : List MemoryAccess) : ∃ a' : ByteRing n, (accesses.foldl access m).StandsFor a' := by
  induction accesses generalizing m a with
  | nil => exact ⟨a, h⟩
  | cons access rest ih =>
    cases access with
    | read width offset => exact ih h
    | write width offset value => exact ih (h.write hn hk width offset value)
    | image offset bytes => exact ih (h.loadBytes hn hk offset bytes)

end StandsFor

/-- A storage is an array of bytes of a fixed size, zero at first. Whatever size is asked for and
whatever is read, written and copied, the reads give what they give of the array, the buffer never
outgrows it, and copying an image at once cannot be told from writing it byte by byte. -/
theorem answers_ofSize (size : Word) (accesses : List MemoryAccess) :
    let m := accesses.foldl access (ofSize size)
    (ofSize size).size.toNat = capacity size.toNat ∧
    ((ofSize size).answers accesses).map UInt32.toNat =
      (ByteRing.zero : ByteRing (capacity size.toNat)).answers accesses ∧
    m.data.size ≤ capacity size.toNat ∧
    ∀ (offset : Word) (bytes : ByteArray) (later : List MemoryAccess),
      (m.loadBytes offset bytes).answers later =
        (m.writeBytes offset bytes.toList).answers later := by
  intro m
  obtain ⟨k, hk, hn⟩ := exists_capacity_eq size.toNat
  replace hk : k ≤ 32 := by omega
  have hzero := standsFor_ofSize size
  obtain ⟨a, ha⟩ := hzero.exists_foldl hn hk accesses
  refine ⟨hzero.size, hzero.answers hn hk accesses, ha.bounded, fun offset bytes later => ?_⟩
  have hcopied := (ha.loadBytes hn hk offset bytes).answers hn hk later
  have hwritten := (ha.writeBytes hn hk offset bytes.toList).answers hn hk later
  exact List.map_injective_iff.mpr (fun _ _ => UInt32.toNat_inj.mp) (hcopied.trans hwritten.symm)

end LinearMemory

end Armv4T
