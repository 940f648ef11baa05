import Mathlib
import Armv4T.Proofs.Bus.Cells

/-!
# Bursts of words

A block transfer accesses words at consecutive addresses. Regions start at multiples of 16 MiB and
repeat after a power of two, so if none of them repeats within 64 bytes then the place of a byte
within 64 bytes is the same in its cell as in its address (`Bus.Mapped.cell?_mod`). Sixteen words in
a row are then in different cells. So they are read back after they have been stored
(`Bus.Mapped.load_storeAll_burst`), and it does not matter in which order they are stored
(`Bus.Mapped.storeAll_reverse_burst`), even where a burst runs out of one region into another.
-/

namespace Armv4T

namespace Word

/-- The addresses of words from an address on. -/
def wordsFrom (address : Word) (count : ℕ) : List Word :=
  (List.range count).map fun i => address + 4 * .ofNat i

@[simp] lemma length_wordsFrom (address : Word) (count : ℕ) :
    (wordsFrom address count).length = count := by
  simp [wordsFrom]

lemma add_four_mul_zero (address : Word) : address + 4 * .ofNat 0 = address :=
  UInt32.add_zero address

lemma add_four_mul_succ (address : Word) (i : ℕ) :
    address + 4 * .ofNat (i + 1) = address + 4 + 4 * UInt32.ofNat i := by
  rw [UInt32.ofNat_add]
  have hone : UInt32.ofNat 1 = 1 := rfl
  grind

lemma wordsFrom_succ (address : Word) (count : ℕ) :
    wordsFrom address (count + 1) = address :: wordsFrom (address + 4) count := by
  rw [wordsFrom, List.range_succ_eq_map, List.map_cons, add_four_mul_zero, List.map_map]
  exact congrArg _ (List.map_congr_left fun i _ => add_four_mul_succ address i)

/-- Whole words lie between the addresses of a run of words. -/
lemma toNat_add_four_mul_div (address : Word) {i : ℕ} (h : i < 16) :
    (address + 4 * .ofNat i).toNat / 4 % 16 = (address.toNat / 4 + i) % 16 := by
  simp only [UInt32.toNat_add, UInt32.toNat_mul, UInt32.toNat_ofNat, UInt32.toNat_ofNat']
  omega

end Word

/-- Stores of words at consecutive addresses. -/
def burst (address : Word) (values : List Word) : List Write :=
  List.zipWith (.mk .word) (Word.wordsFrom address values.length) values

lemma burst_cons (address value : Word) (values : List Word) :
    burst address (value :: values) = ⟨.word, address, value⟩ :: burst (address + 4) values := by
  rw [burst, List.length_cons, Word.wordsFrom_succ]
  rfl

lemma burst_concat (address value : Word) (values : List Word) :
    burst address (values ++ [value]) =
      burst address values ++ [⟨.word, address + 4 * .ofNat values.length, value⟩] := by
  induction values generalizing address with
  | nil =>
    rw [List.nil_append, burst_cons, List.length_nil, Word.add_four_mul_zero]
    rfl
  | cons v values ih =>
    rw [List.cons_append, burst_cons, burst_cons, ih, List.length_cons, Word.add_four_mul_succ]
    rfl

/-- A store of a burst is one of a word, at a place of its own. -/
lemma getElem_burst (address : Word) (values : List Word) {i : ℕ}
    (h : i < (burst address values).length) :
    (burst address values)[i].width = .word ∧
      (burst address values)[i].address = address + 4 * .ofNat i := by
  simp [burst, Word.wordsFrom]

@[simp] lemma length_burst (address : Word) (values : List Word) :
    (burst address values).length = values.length := by
  simp [burst]

/-! ### Different cells -/

lemma StoreWidth.toNat_byteAddress_word (address : Word) {i : ℕ} (hi : i < 4) :
    (StoreWidth.word.byteAddress address i).toNat = address.toNat / 4 * 4 + i := by
  have hbyte : i < StoreWidth.word.bytes.toNat := hi
  rw [(StoreWidth.toNat_byteAddress hbyte).1, StoreWidth.toNat_align]
  rfl

namespace Bus

variable {bus : Bus} {address a b : Word} {c : Cell}

/-- No storage repeats within sixteen words. -/
def Roomy (bus : Bus) : Prop :=
  ∀ (i : ℕ) m, bus.storages[i]? = some m → 2 ^ 6 ≤ m.size.toNat

lemma Roomy.sameShape {bus' : Bus} (h : bus.Roomy) (hs : SameShape bus bus') : bus'.Roomy := by
  intro i m hm
  have hsize := hs.sizes i
  rw [hm] at hsize
  obtain ⟨m₀, hm₀, heq⟩ := Option.map_eq_some_iff.mp hsize.symm
  exact heq ▸ h i m₀ hm₀

lemma roomy_handheld : handheld.Roomy := by
  have hsizes : ∀ i : Fin handheld.storages.size, 2 ^ 6 ≤ handheld.storages[i].size.toNat := by
    decide +kernel
  intro i m hm
  obtain ⟨hi, rfl⟩ := Array.getElem?_eq_some_iff.mp hm
  exact hsizes ⟨i, hi⟩

/-- The place of a byte within 64 bytes is that of its cell. -/
lemma Mapped.cell?_mod (h : bus.Mapped) (hroomy : bus.Roomy) (hc : bus.cell? address = some c) :
    c.2 % 2 ^ 6 = address.toNat % 2 ^ 6 := by
  obtain ⟨r, hr, hcell⟩ := Option.bind_eq_some_iff.mp hc
  obtain ⟨m, hm, rfl⟩ := Option.map_eq_some_iff.mp hcell
  obtain ⟨k, hk, hr'⟩ := Option.bind_eq_some_iff.mp (bus.region?_eq_bind address ▸ hr)
  obtain ⟨n, hp⟩ := h.placed k r hr'
  obtain ⟨m', e, hm', -, hsize⟩ := h.storage k r hr'
  obtain rfl : m = m' := Option.some.inj (hm.symm.trans hm')
  obtain ⟨hoffset, hle⟩ := hp.toNat_sub_base hk
  obtain ⟨x, hx⟩ := hp.base
  have he : 6 ≤ e := (Nat.pow_le_pow_iff_right (by decide)).mp (hsize ▸ hroomy _ m hm)
  show (address - r.base).toNat % m.size.toNat % 2 ^ 6 = _
  rw [hsize, Nat.mod_mod_of_dvd _ (Nat.pow_dvd_pow 2 he), hoffset]
  omega

/-- The bytes of two words at different places within 64 bytes are in different cells. -/
lemma Mapped.cell?_ne (h : bus.Mapped) (hroomy : bus.Roomy)
    (hne : a.toNat / 4 % 16 ≠ b.toNat / 4 % 16) {i j : ℕ} (hi : i < 4) (hj : j < 4)
    (hc : bus.cell? (StoreWidth.word.byteAddress a i) = some c) :
    bus.cell? (StoreWidth.word.byteAddress b j) ≠ some c := by
  intro hc'
  have ha := h.cell?_mod hroomy hc
  have hb := h.cell?_mod hroomy hc'
  rw [StoreWidth.toNat_byteAddress_word a hi] at ha
  rw [StoreWidth.toNat_byteAddress_word b hj] at hb
  omega

/-- Stores of words at different places within 64 bytes commute. -/
lemma Mapped.store_comm (h : bus.Mapped) (hroomy : bus.Roomy)
    (hne : a.toNat / 4 % 16 ≠ b.toNat / 4 % 16) (mem : Contents) (v w : Word) :
    (mem.store bus .word a v).store bus .word b w =
      (mem.store bus .word b w).store bus .word a v := by
  have hcells : ∀ p ∈ Contents.written bus .word a v, ∀ q ∈ Contents.written bus .word b w,
      p.1 ≠ q.1 := by
    intro p hp q hq hpq
    obtain ⟨i, hi, hcell⟩ := List.mem_filterMap.mp hp
    obtain ⟨j, hj, hcell'⟩ := List.mem_filterMap.mp hq
    obtain ⟨c, hc, rfl⟩ := Option.map_eq_some_iff.mp hcell
    obtain ⟨c', hc', rfl⟩ := Option.map_eq_some_iff.mp hcell'
    obtain rfl : c = c' := hpq
    exact h.cell?_ne hroomy hne (List.mem_range.mp hi) (List.mem_range.mp hj) hc hc'
  unfold Contents.store
  by_cases ha : bus.Writable (StoreWidth.word.byteAddress a 0)
  · by_cases hb : bus.Writable (StoreWidth.word.byteAddress b 0)
    · simp only [if_pos ha, if_pos hb, overwrite_comm hcells]
    · simp only [if_neg hb]
  · simp only [if_neg ha]

/-! ### Reading back -/

/-- The bytes of a word are in different cells. -/
lemma Mapped.cell?_inj (h : bus.Mapped) (hroomy : bus.Roomy) {i j : ℕ} (hi : i < 4) (hj : j < 4)
    (hc : bus.cell? (StoreWidth.word.byteAddress a i) = some c)
    (hc' : bus.cell? (StoreWidth.word.byteAddress a j) = some c) : i = j := by
  have hbyte := (h.cell?_mod hroomy hc).symm.trans (h.cell?_mod hroomy hc')
  rw [StoreWidth.toNat_byteAddress_word a hi, StoreWidth.toNat_byteAddress_word a hj] at hbyte
  omega

/-- A word that is stored is read back. -/
lemma Mapped.number_store_self (h : bus.Mapped) (hroomy : bus.Roomy) (hw : bus.Writable a)
    (mem : Contents) (value : Word) :
    (mem.store bus .word a value).number bus .word a = value.toNat := by
  obtain ⟨r, hr, hreadOnly⟩ := hw
  obtain ⟨m, e, -, -, -, hcell⟩ := h.resolve hr
  have hfirst : bus.Writable (StoreWidth.word.byteAddress a 0) :=
    ⟨r, (bus.region?_byteAddress (by decide)).trans hr, hreadOnly⟩
  have hbyte : ∀ j ∈ List.range 4, (mem.store bus .word a value).byteAt bus
      (StoreWidth.word.byteAddress a j) = value.digit j := by
    intro j hj
    have hj := List.mem_range.mp hj
    have hc := hcell .word j hj
    rw [Contents.byteAt, hc, Contents.store, if_pos hfirst]
    refine overwrite_eq (fun p hp hpc => ?_) ⟨(_, value.digit j), ?_, rfl⟩ mem
    · obtain ⟨i, hi, hp⟩ := List.mem_filterMap.mp hp
      obtain ⟨c, hc', rfl⟩ := Option.map_eq_some_iff.mp hp
      obtain rfl : c = _ := hpc
      exact congrArg value.digit (h.cell?_inj hroomy (List.mem_range.mp hi) hj hc' hc)
    · exact List.mem_filterMap.mpr ⟨j, List.mem_range.mpr hj, by rw [hc]; rfl⟩
  rw [← Word.littleEndian_digits, Contents.number]
  exact congrArg littleEndian (List.map_congr_left hbyte)

/-- A word keeps its number when another one within 64 bytes is stored. -/
lemma Mapped.number_store_of_ne (h : bus.Mapped) (hroomy : bus.Roomy)
    (hne : a.toNat / 4 % 16 ≠ b.toNat / 4 % 16) (mem : Contents) (value : Word) :
    (mem.store bus .word b value).number bus .word a = mem.number bus .word a := by
  have hbyte : ∀ i ∈ List.range 4, (mem.store bus .word b value).byteAt bus
      (StoreWidth.word.byteAddress a i) = mem.byteAt bus (StoreWidth.word.byteAddress a i) := by
    intro i hi
    unfold Contents.byteAt
    rcases hc : bus.cell? (StoreWidth.word.byteAddress a i) with _ | c
    · rfl
    · show Contents.store mem bus .word b value c = mem c
      unfold Contents.store
      split
      · refine overwrite_of_ne (fun p hp hpc => ?_) mem
        obtain ⟨j, hj, hp⟩ := List.mem_filterMap.mp hp
        obtain ⟨c', hc', rfl⟩ := Option.map_eq_some_iff.mp hp
        obtain rfl : c' = c := hpc
        exact h.cell?_ne hroomy hne (List.mem_range.mp hi) (List.mem_range.mp hj) hc hc'
      · rfl
  exact congrArg littleEndian (List.map_congr_left hbyte)

/-- A word keeps its number in a burst to other places within 64 bytes. -/
lemma Mapped.number_storeAll_of_ne (h : bus.Mapped) (hroomy : bus.Roomy) {values : List Word}
    (hne : ∀ i < values.length, a.toNat / 4 % 16 ≠ (address + 4 * .ofNat i).toNat / 4 % 16)
    (mem : Contents) :
    (mem.storeAll bus (burst address values)).number bus .word a = mem.number bus .word a := by
  induction values generalizing address mem with
  | nil => rfl
  | cons value values ih =>
    have hfirst := hne 0 (Nat.succ_pos _)
    rw [Word.add_four_mul_zero] at hfirst
    have hrest : ∀ i < values.length,
        a.toNat / 4 % 16 ≠ (address + 4 + 4 * .ofNat i).toNat / 4 % 16 := by
      intro i hi
      rw [← Word.add_four_mul_succ]
      exact hne (i + 1) (Nat.succ_lt_succ hi)
    rw [burst_cons]
    exact (ih hrest _).trans (h.number_store_of_ne hroomy hfirst mem value)

/-- At most sixteen words in a row are read back. -/
lemma Mapped.number_storeAll_burst (h : bus.Mapped) (hroomy : bus.Roomy) {values : List Word}
    (hlength : values.length ≤ 16)
    (hw : ∀ i < values.length, bus.Writable (address + 4 * .ofNat i)) (mem : Contents) {k : ℕ}
    (hk : k < values.length) :
    (mem.storeAll bus (burst address values)).number bus .word (address + 4 * .ofNat k) =
      values[k].toNat := by
  induction values generalizing address mem k with
  | nil => exact absurd hk (Nat.not_lt_zero k)
  | cons value values ih =>
    have hlength' : values.length < 16 := hlength
    rw [burst_cons]
    cases k with
    | zero =>
      have hwritable := hw 0 (Nat.succ_pos _)
      rw [Word.add_four_mul_zero] at hwritable ⊢
      have hothers : ∀ i < values.length,
          address.toNat / 4 % 16 ≠ (address + 4 + 4 * .ofNat i).toNat / 4 % 16 := by
        intro i hi
        rw [← Word.add_four_mul_succ, Word.toNat_add_four_mul_div address (by omega)]
        omega
      exact (h.number_storeAll_of_ne hroomy hothers _).trans
        (h.number_store_self hroomy hwritable mem value)
    | succ k =>
      rw [Word.add_four_mul_succ, List.getElem_cons_succ]
      refine ih hlength'.le (fun i hi => ?_) _ (Nat.lt_of_succ_lt_succ hk)
      rw [← Word.add_four_mul_succ]
      exact hw (i + 1) (Nat.succ_lt_succ hi)

/-- A load of a word at an address that has been rounded down is not rotated. -/
lemma load_word_alignDown (mem : Contents) (address : Word) :
    mem.load bus .word (Word.alignDown address 4) = .ofNat (mem.number bus .word address) := by
  have hmod : (Word.alignDown address 4).toNat % 4 = 0 := by
    have halign : (Word.alignDown address 4).toNat = address.toNat / 4 * 4 :=
      StoreWidth.word.toNat_align address
    rw [halign, Nat.mul_mod_left]
  have hbyte : StoreWidth.word.byteAddress (Word.alignDown address 4) =
      StoreWidth.word.byteAddress address := by
    funext j
    rw [StoreWidth.byteAddress_eq, StoreWidth.byteAddress_eq]
    exact congrArg (· + UInt32.ofNat j) (StoreWidth.word.align_align address)
  have hnumber :
      mem.number bus .word (Word.alignDown address 4) = mem.number bus .word address := by
    rw [Contents.number, Contents.number, hbyte]
  have hrotate (x : BitVec 32) : x.rotateRight 0 = x := by simp [BitVec.rotateRight_def]
  rw [Contents.load, hmod, hnumber, Nat.mul_zero, hrotate]
  rfl

/-- The words of a burst are loaded again. -/
lemma Mapped.load_storeAll_burst (h : bus.Mapped) (hroomy : bus.Roomy) {values : List Word}
    (hlength : values.length ≤ 16)
    (hw : ∀ i < values.length, bus.Writable (address + 4 * .ofNat i)) {k : ℕ}
    (hk : k < values.length) :
    (bus.storeAll (burst address values)).load .word
      (Word.alignDown (address + 4 * .ofNat k) 4) = values[k] := by
  have hs := bus.sameShape_storeAll (burst address values)
  rw [(h.sameShape hs).load_eq, Contents.load_congr hs.cell?, h.contents_storeAll (.refl bus),
    load_word_alignDown, h.number_storeAll_burst hroomy hlength hw _ hk, UInt32.ofNat_toNat]

/-- At most sixteen words in a row may be stored in either direction. -/
lemma Mapped.storeAll_reverse_burst (h : bus.Mapped) (hroomy : bus.Roomy) (mem : Contents)
    (address : Word) {values : List Word} (hlength : values.length ≤ 16) :
    mem.storeAll bus (burst address values).reverse = mem.storeAll bus (burst address values) := by
  refine (List.reverse_perm _).foldl_eq' (fun x hx y hy mem => ?_) mem
  rw [List.mem_reverse] at hx hy
  obtain ⟨i, hi, rfl⟩ := List.getElem_of_mem hx
  obtain ⟨j, hj, rfl⟩ := List.getElem_of_mem hy
  obtain ⟨hwidth, haddress⟩ := getElem_burst address values hi
  obtain ⟨hwidth', haddress'⟩ := getElem_burst address values hj
  rw [length_burst] at hi hj
  rcases eq_or_ne i j with rfl | hij
  · rfl
  · rw [hwidth, haddress, hwidth', haddress']
    refine h.store_comm hroomy ?_ mem _ _
    rw [Word.toNat_add_four_mul_div address (by omega),
      Word.toNat_add_four_mul_div address (by omega)]
    omega

end Bus

end Armv4T
