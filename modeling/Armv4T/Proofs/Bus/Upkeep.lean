import Mathlib
import Armv4T.Proofs.Bus.Shape
import Armv4T.Proofs.MemoryMap.Checked
import Armv4T.Proofs.Step.Execute

/-!
# Writes keep the cache coherent

A write changes bytes of one storage and invalidates pages of the cache. If the region that it goes
through does not share its storage then the entries whose opcode changes are in these pages, and the
cache stays coherent (`Bus.Coherent.modifyStorage`). So stores and images keep an orderly bus
coherent where the storage of the written region is its own: `Bus.upkeep` says so of stores, and
`Bus.Coherent.loadImage` of images that do not leave the region in which they start.
-/

namespace Armv4T.Bus

variable {bus : Bus} {k n : ℕ} {r : Region}

/-- An opcode is read from the bytes at the address rounded down to the width of an instruction. -/
lemma opcodeAt_eq_of_peek {bus' : Bus} {set : InstrSet} {address : Word}
    (h : ∀ width, bus'.peek width address = bus.peek width address) :
    bus'.opcodeAt set address = bus.opcodeAt set address := by
  cases set with
  | arm => exact congrArg (fun w : Word => w.rotateRight ((address &&& 3) * 8)) (h .word)
  | thumb =>
    exact congrArg (fun w : Word => w.rotateRight ((address &&& 1) * 8) &&& 0xFFFF) (h .half)

/-- A byte of an aligned access is on the page of the address. -/
lemma div_pageSize_eq {p e : ℕ} (he : e ≤ p) (hp : p ≤ n) (u : ℕ) {j : ℕ} (hj : j < 2 ^ e) :
    (u / 2 ^ e * 2 ^ e + j) % 2 ^ n / 2 ^ p = u % 2 ^ n / 2 ^ p := by
  have hsplit (x : ℕ) : x % 2 ^ n / 2 ^ p = x / 2 ^ p % 2 ^ (n - p) := by
    have hpow : 2 ^ n = 2 ^ p * 2 ^ (n - p) := by
      rw [← Nat.pow_add, Nat.add_sub_cancel' hp]
    rw [hpow, Nat.mod_mul_right_div_self]
  have hpow : 2 ^ p = 2 ^ e * 2 ^ (p - e) := by
    rw [← Nat.pow_add, Nat.add_sub_cancel' he]
  have hdiv : (u / 2 ^ e * 2 ^ e + j) / 2 ^ e = u / 2 ^ e := by
    rw [Nat.mul_comm, Nat.mul_add_div (Nat.two_pow_pos e), Nat.div_eq_of_lt hj, Nat.add_zero]
  rw [hsplit, hsplit, hpow, ← Nat.div_div_eq_div_mul, ← Nat.div_div_eq_div_mul, hdiv]

/-- The pages of a region are not larger than the region. -/
lemma Placed.pageBits_le (h : bus.Placed k r n) (hc : bus.cache.Regular) {address : Word}
    (ha : bus.regionNumber? address = some k) :
    (bus.cache.layout address).pageBits.toNat ≤ n := by
  obtain ⟨n', hle, -, hsize⟩ := (hc address).size
  have hn : n' = min n 24 := Nat.pow_right_injective le_rfl (hsize.symm.trans (h.layout address ha))
  omega

/-- A storage after a write to another one, or to itself. -/
lemma getElem?_modifyStorage (bus : Bus) (storage : ℕ) (f : LinearMemory → LinearMemory)
    (address len : Word) (i : ℕ) :
    (bus.modifyStorage storage f address len).storages[i]? =
      if storage = i then bus.storages[i]?.map f else bus.storages[i]? :=
  Array.getElem?_modify

/-- The bytes of an access that shares none with a write are as before. -/
lemma peek_modifyStorage (hr : bus.regions[k]? = some r) (hu : bus.Unshared k r)
    {f : LinearMemory → LinearMemory} (hsize : ∀ m, (f m).size = m.size) {address len : Word}
    (hf : ∀ m i, m.size = r.size →
      (∀ j < len.toNat, i ≠ m.index (address - r.base + UInt32.ofNat j)) →
      (f m).byte i = m.byte i)
    {x : Word} {width : StoreWidth}
    (hx : bus.regionNumber? x = some k → ∀ m : LinearMemory, m.size = r.size →
      ∀ i < width.bytes.toNat, ∀ j < len.toNat,
        m.index (width.align (x - r.base) + UInt32.ofNat i) ≠
          m.index (address - r.base + UInt32.ofNat j)) :
    (bus.modifyStorage r.storage f address len).peek width x = bus.peek width x := by
  have hregion : (bus.modifyStorage r.storage f address len).region? x = bus.region? x := rfl
  unfold peek
  rw [hregion]
  rcases hnumber : bus.regionNumber? x with _ | k'
  · rw [region?_eq_bind, hnumber]
    rfl
  rcases hr' : bus.regions[k']? with _ | r'
  · rw [region?_eq_bind, hnumber, Option.bind_some, hr']
  rw [region?_eq_bind, hnumber, Option.bind_some, hr']
  dsimp only
  rw [getElem?_modifyStorage]
  by_cases hstorage : r.storage = r'.storage
  · obtain rfl : k' = k := hu.only k' r' hr' hstorage.symm
    obtain rfl : r' = r := Option.some.inj (hr'.symm.trans hr)
    rw [if_pos rfl]
    rcases hm : bus.storages[r'.storage]? with _ | m
    · rfl
    · have hm' := hu.size m hm
      exact LinearMemory.read_congr (hsize m) fun i hi =>
        hf m _ hm' fun j hj => hx hnumber m hm' i hi j hj
  · rw [if_neg hstorage]

/-- A write through a region with storage of its own keeps the cache coherent, if it changes at most
the bytes from its address on, and none of them is outside of the region. -/
theorem Coherent.modifyStorage (hc : bus.Coherent) (ho : bus.Orderly)
    (hplace : ∀ id h, bus.cache.get? id = some h → id.place = bus.cache.place h.point)
    (hr : bus.regions[k]? = some r) (hu : bus.Unshared k r)
    {f : LinearMemory → LinearMemory} (hsize : ∀ m, (f m).size = m.size) {address len : Word}
    (hf : ∀ m i, m.size = r.size →
      (∀ j < len.toNat, i ≠ m.index (address - r.base + UInt32.ofNat j)) →
      (f m).byte i = m.byte i)
    (hspan : ∀ j < len.toNat, address.toNat + j < 2 ^ 28 ∧
      bus.slots[(address.toNat + j) / 2 ^ 24]?.join = some k) :
    (bus.modifyStorage r.storage f address len).Coherent := by
  intro id h hget
  have hget : (bus.cache.invalidate address len).get? id = some h := hget
  have hold := (InstructionCache.marked_invalidate bus.cache address len).get? hget
  obtain ⟨n, hp⟩ := ho.placed k r hr
  have hpage : bus.cache.InPage id h.address := by
    have hid := hplace id h hold
    exact ⟨congrArg HandleId.region hid, congrArg HandleId.page hid⟩
  rw [hc id h hold]
  refine (opcodeAt_eq_of_peek fun width => peek_modifyStorage hr hu hsize hf ?_).symm
  intro hx m hm i hi j hj heq
  have hsizen : m.size.toNat = 2 ^ n := by rw [hm, hp.size]
  have hn : n < 32 := Word.lt_of_toNat_eq_two_pow hsizen
  -- the byte of the write, which has the position of a byte of the opcode
  set y := address + UInt32.ofNat j with hy
  obtain ⟨hlt, hslot⟩ := hspan j hj
  have hy' : y.toNat = address.toNat + j := Word.toNat_add_ofNat address (by omega)
  have hnumber : bus.regionNumber? y = some k := by
    rw [regionNumber?_eq_some_iff, hy']
    exact ⟨hlt, hslot⟩
  have hy_sub : address - r.base + UInt32.ofNat j = y - r.base := by
    rw [hy, add_sub_right_comm]
  obtain ⟨e, he, hwidth⟩ := width.exists_bytes_eq
  rw [hy_sub, LinearMemory.index_eq_mod hsizen, LinearMemory.index_eq_mod hsizen,
    Word.toNat_add_ofNat_mod hn.le, StoreWidth.align, Word.toNat_alignDown hwidth] at heq
  -- so its page is that of the entry, which is not live
  have hpage' : bus.cache.InPage id y := by
    refine hp.inPage_congr ho.regular hx hnumber hpage ?_
    have htwo := (ho.regular y).two_le
    rw [← heq, div_pageSize_eq (by omega) (hp.pageBits_le ho.regular hnumber) _ (hwidth ▸ hi)]
  have hlast := hspan (len.toNat - 1) (by omega)
  have hfits : address.toNat + len.toNat ≤ 2 ^ 32 := by omega
  have hge : address.toNat ≤ y.toNat := by omega
  have hdead := InstructionCache.get?_invalidate_of_mem ho.regular hfits hge (by omega) hpage'
  exact nomatch hdead.symm.trans hget

/-! ### Stores and images -/

/-- The bytes of an aligned access are in the slot of its address. -/
lemma regionNumber?_of_aligned {width : StoreWidth} {address : Word}
    (ha : bus.regionNumber? (width.align address) = some k) :
    ∀ j < width.bytes.toNat, (width.align address).toNat + j < 2 ^ 28 ∧
      bus.slots[((width.align address).toNat + j) / 2 ^ 24]?.join = some k := by
  intro j hj
  obtain ⟨e, he, hwidth⟩ := width.exists_bytes_eq
  obtain ⟨hlt, hslot⟩ := (bus.regionNumber?_eq_some_iff _ k).mp ha
  have halign : (width.align address).toNat = address.toNat / 2 ^ e * 2 ^ e :=
    Word.toNat_alignDown hwidth address
  rw [hwidth] at hj
  have hsame : ((width.align address).toNat + j) / 2 ^ 24 = (width.align address).toNat / 2 ^ 24 ∧
      (width.align address).toNat + j < 2 ^ 28 := by
    obtain rfl | rfl | rfl : e = 0 ∨ e = 1 ∨ e = 2 := by omega
    all_goals omega
  rw [hsame.1]
  exact ⟨hsame.2, hslot⟩

/-- An aligned address has an aligned offset. -/
lemma Placed.align_sub_base (h : bus.Placed k r n) {width : StoreWidth} {address : Word}
    (ha : bus.regionNumber? (width.align address) = some k) :
    width.align (width.align address - r.base) = width.align address - r.base := by
  obtain ⟨e, he, hwidth⟩ := width.exists_bytes_eq
  obtain ⟨hsub, hle⟩ := h.toNat_sub_base ha
  obtain ⟨x, hx⟩ := h.base
  have halign : (width.align address).toNat = address.toNat / 2 ^ e * 2 ^ e :=
    Word.toNat_alignDown hwidth address
  rw [← UInt32.toNat_inj]
  show (Word.alignDown _ _).toNat = _
  rw [Word.toNat_alignDown hwidth, hsub]
  obtain rfl | rfl | rfl : e = 0 ∨ e = 1 ∨ e = 2 := by omega
  all_goals omega

/-- A bus is orderly, and the regions with a property do not share their storage. -/
structure Owned (P : Region → Prop) (bus : Bus) : Prop where
  orderly : bus.Orderly
  unshared : ∀ k r, bus.regions[k]? = some r → P r → bus.Unshared k r

lemma Owned.sameShape {P : Region → Prop} {bus' : Bus} (h : bus.Owned P)
    (hs : SameShape bus bus') : bus'.Owned P := by
  refine ⟨h.orderly.sameShape hs, fun k r hr hP => ?_⟩
  rw [hs.regions] at hr
  exact (h.unshared k r hr hP).sameShape hs

variable {P : Region → Prop}

/-- A store keeps the cache coherent if the regions that can be written do not share their storage.
-/
lemma Coherent.store (hc : bus.Coherent) (ho : bus.Owned P) (hP : ∀ r, r.readOnly = false → P r)
    (hplace : ∀ id h, bus.cache.get? id = some h → id.place = bus.cache.place h.point)
    (width : StoreWidth) (address value : Word) : (bus.store width address value).Coherent := by
  unfold Bus.store writable?
  dsimp only
  rcases hnumber : bus.regionNumber? (width.align address) with _ | k
  · rw [region?_eq_bind, hnumber]
    exact hc
  rcases hr : bus.regions[k]? with _ | r
  · rw [region?_eq_bind, hnumber, Option.bind_some, hr]
    exact hc
  rw [region?_eq_bind, hnumber, Option.bind_some, hr]
  dsimp only
  split
  · rename_i storage offset hwritable
    obtain ⟨hwrite, hpair⟩ := Option.ite_none_left_eq_some.mp hwritable
    obtain ⟨rfl, rfl⟩ := Prod.mk.inj (Option.some.inj hpair)
    have hu := ho.unshared k r hr (hP r (Bool.eq_false_iff.mpr hwrite))
    obtain ⟨n, hp⟩ := ho.orderly.placed k r hr
    refine hc.modifyStorage ho.orderly hplace hr hu (fun m => m.size_write width _ value) ?_
      (regionNumber?_of_aligned hnumber)
    intro m i hm hi
    refine LinearMemory.byte_write_of_ne value fun j hj => ?_
    rw [hp.align_sub_base hnumber]
    exact hi j hj
  · exact hc

/-- Stores keep a coherent cache coherent if the regions that can be written do not share their
storage. -/
theorem upkeep {F : Set Point} (hP : ∀ r, r.readOnly = false → P r) : Upkeep F (Owned P) where
  store width address value ht ho hc :=
    ⟨ho.sameShape (sameShape_store _ width address value),
      hc.store ho hP ht.place width address value⟩
  congr hbare hlayout ho := ho.sameShape (.of_bare hbare hlayout)

/-- An image stays within the slots of the region in which it starts. -/
def Contains (bus : Bus) (address : Word) (bytes : ByteArray) : Prop :=
  ∀ r, bus.region? address = some r →
    address.toNat + bytes.size ≤ r.base.toNat + max r.size.toNat MemoryMap.slotSize

/-- An image keeps the cache coherent if it stays within a region that does not share its storage.
-/
theorem Coherent.loadImage (hc : bus.Coherent) (ho : bus.Owned P) (hP : ∀ r, P r)
    (hplace : ∀ id h, bus.cache.get? id = some h → id.place = bus.cache.place h.point)
    {address : Word} {bytes : ByteArray} (hin : bus.Contains address bytes) :
    (bus.loadImage address bytes).Coherent := by
  unfold Bus.loadImage
  rcases hnumber : bus.regionNumber? address with _ | k
  · rw [region?_eq_bind, hnumber]
    exact hc
  rcases hr : bus.regions[k]? with _ | r
  · rw [region?_eq_bind, hnumber, Option.bind_some, hr]
    exact hc
  have hregion : bus.region? address = some r := by
    rw [region?_eq_bind, hnumber, Option.bind_some, hr]
  rw [hregion]
  have hu := ho.unshared k r hr (hP r)
  obtain ⟨n, hp⟩ := ho.orderly.placed k r hr
  obtain ⟨hlt, hslot⟩ := (bus.regionNumber?_eq_some_iff address k).mp hnumber
  obtain ⟨x, hx⟩ := hp.base
  have hspan : max r.size.toNat MemoryMap.slotSize = 2 ^ 24 * 2 ^ (n - 24) := by
    rw [hp.size, MemoryMap.max_slotSize]
  have hfits := hp.fits
  have hfirst := ((hp.slots _).mp hslot).1
  have hend := hin r hregion
  rw [hspan] at hend
  have hlen : (UInt32.ofNat bytes.size).toNat = bytes.size := by
    rw [UInt32.toNat_ofNat']
    generalize 2 ^ (n - 24) = span at hend hfits
    exact Nat.mod_eq_of_lt (by omega)
  refine hc.modifyStorage ho.orderly hplace hr hu (fun m => m.size_loadBytes _ bytes) ?_ ?_
  · intro m i hm hi
    rw [hlen] at hi
    exact LinearMemory.byte_loadBytes_of_ne (hm ▸ hp.size) hi
  · intro j hj
    rw [hlen] at hj
    rw [hp.slots]
    generalize 2 ^ (n - 24) = span at hend hfits ⊢
    omega

end Armv4T.Bus
