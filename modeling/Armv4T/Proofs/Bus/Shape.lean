import Mathlib
import Armv4T.Proofs.Cache.Invalidate
import Armv4T.Proofs.Memory.Bytes
import Armv4T.Proofs.Step.Fetch

/-!
# The shape of a bus

What is fixed when a bus is built: the regions and their slots, the sizes of their storage, and the
layout of the cache. Nothing that is done to a bus later changes it (`Bus.SameShape`).

On an orderly bus (`Bus.Orderly`) the layout of the cache over the slots of a region repeats when
the region does, so that the position of a byte in its storage determines the page of the cache
(`Bus.Placed.inPage_congr`). Where a region shares its storage with no other one (`Bus.Unshared`),
this page is the only one that depends on the byte.
-/

namespace Armv4T.Bus

/-! ### Regions by number -/

/-- The number of the region of an address. -/
def regionNumber? (bus : Bus) (address : Word) : Option ℕ :=
  if address.field 28 4 = 0 then bus.slots[(address.field 24 4).toNat]?.join else none

variable {bus bus' : Bus} {k n : ℕ} {r : Region}

lemma region?_eq_bind (bus : Bus) (address : Word) :
    bus.region? address = (bus.regionNumber? address).bind (bus.regions[·]?) := by
  unfold region? regionNumber?
  split <;> rfl

lemma regionNumber?_eq_some_iff (bus : Bus) (address : Word) (k : ℕ) :
    bus.regionNumber? address = some k ↔
      address.toNat < 2 ^ 28 ∧ bus.slots[address.toNat / 2 ^ 24]?.join = some k := by
  have hlow : (address.field 24 4).toNat = address.toNat / 2 ^ 24 % 16 :=
    Word.toNat_field address (by decide) (by decide)
  have hhigh : (address.field 28 4).toNat = address.toNat / 2 ^ 28 % 16 :=
    Word.toNat_field address (by decide) (by decide)
  have hlt := address.toNat_lt
  have hzero : address.field 28 4 = 0 ↔ address.toNat < 2 ^ 28 := by
    rw [← UInt32.toNat_inj, hhigh, show (0 : Word).toNat = 0 from rfl]
    omega
  unfold regionNumber?
  split
  · rename_i h
    have hmod : address.toNat / 2 ^ 24 % 16 = address.toNat / 2 ^ 24 := by
      have := hzero.mp h
      omega
    rw [hlow, hmod, and_iff_right (hzero.mp h)]
  · rename_i h
    exact iff_of_false (by simp) fun hmapped => h (hzero.mpr hmapped.1)

/-! ### What does not change -/

/-- Two buses are equal up to the bytes in memory and the entries of the cache. -/
structure SameShape (bus bus' : Bus) : Prop where
  regions : bus'.regions = bus.regions
  slots : bus'.slots = bus.slots
  strict : bus'.strict = bus.strict
  sizes : ∀ i : ℕ, bus'.storages[i]?.map LinearMemory.size = bus.storages[i]?.map LinearMemory.size
  layout : bus'.cache.layout = bus.cache.layout

namespace SameShape

variable {bus'' : Bus}

lemma refl (bus : Bus) : SameShape bus bus := ⟨rfl, rfl, rfl, fun _ => rfl, rfl⟩

lemma symm (h : SameShape bus bus') : SameShape bus' bus :=
  ⟨h.regions.symm, h.slots.symm, h.strict.symm, fun i => (h.sizes i).symm, h.layout.symm⟩

lemma trans (h : SameShape bus bus') (h' : SameShape bus' bus'') : SameShape bus bus'' where
  regions := h'.regions.trans h.regions
  slots := h'.slots.trans h.slots
  strict := h'.strict.trans h.strict
  sizes i := (h'.sizes i).trans (h.sizes i)
  layout := h'.layout.trans h.layout

/-- The shape of a bus that is strict or not as the given one is. -/
lemma trans_strict (h : SameShape { bus with strict := bus'.strict } bus')
    (h' : SameShape bus' bus'') : SameShape { bus with strict := bus''.strict } bus'' := by
  rw [h'.strict]
  exact h.trans h'

lemma of_bare (hbare : bus'.bare = bus.bare) (hlayout : bus'.cache.layout = bus.cache.layout) :
    SameShape bus bus' := by
  obtain ⟨regions, storages, slots, cache, strict⟩ := bus
  obtain ⟨regions', storages', slots', cache', strict'⟩ := bus'
  simp only [bare, mk.injEq, true_and] at hbare
  obtain ⟨rfl, rfl, rfl, rfl⟩ := hbare
  exact ⟨rfl, rfl, rfl, fun _ => rfl, hlayout⟩

lemma regionNumber? (h : SameShape bus bus') : bus'.regionNumber? = bus.regionNumber? := by
  funext address
  rw [Bus.regionNumber?, h.slots]
  rfl

lemma region? (h : SameShape bus bus') : bus'.region? = bus.region? := by
  funext address
  rw [region?_eq_bind, region?_eq_bind, h.regionNumber?, h.regions]

end SameShape

/-- What is done to the bytes of a storage does not change the shape. -/
lemma sameShape_modifyStorage (bus : Bus) (storage : ℕ) {f : LinearMemory → LinearMemory}
    (hf : ∀ m, (f m).size = m.size) (address len : Word) :
    SameShape bus (bus.modifyStorage storage f address len) where
  regions := rfl
  slots := rfl
  strict := rfl
  sizes i := by
    show (bus.storages.modify storage f)[i]?.map LinearMemory.size = _
    rw [Array.getElem?_modify]
    split
    · rcases bus.storages[i]? with _ | m
      · rfl
      · exact congrArg some (hf m)
    · rfl
  layout := (InstructionCache.marked_invalidate bus.cache address len).layout

lemma sameShape_store (bus : Bus) (width : StoreWidth) (address value : Word) :
    SameShape bus (bus.store width address value) := by
  simp only [store]
  rcases bus.writable? (width.align address) with _ | ⟨storage, offset⟩
  · exact .refl bus
  · exact bus.sameShape_modifyStorage storage (fun m => m.size_write width offset value) _ _

lemma sameShape_loadImage (bus : Bus) (address : Word) (bytes : ByteArray) :
    SameShape bus (bus.loadImage address bytes) := by
  unfold loadImage
  rcases bus.region? address with _ | r
  · exact .refl bus
  · exact bus.sameShape_modifyStorage r.storage (fun m => m.size_loadBytes _ bytes) _ _

lemma marked_loadImage (bus : Bus) (address : Word) (bytes : ByteArray) :
    InstructionCache.Marked bus.cache (bus.loadImage address bytes).cache := by
  unfold loadImage
  rcases bus.region? address with _ | r
  · exact .refl _
  · exact InstructionCache.marked_invalidate _ _ _

/-! ### Regions and the cache -/

/-- A region of `2 ^ n` bytes has the slots that it spans and no others, and over each of them the
cache repeats when the region does. -/
structure Placed (bus : Bus) (k : ℕ) (r : Region) (n : ℕ) : Prop where
  base : 2 ^ 24 ∣ r.base.toNat
  size : r.size.toNat = 2 ^ n
  fits : r.base.toNat / 2 ^ 24 + 2 ^ (n - 24) ≤ 16
  slots : ∀ s : ℕ, bus.slots[s]?.join = some k ↔
    r.base.toNat / 2 ^ 24 ≤ s ∧ s < r.base.toNat / 2 ^ 24 + 2 ^ (n - 24)
  layout : ∀ address, bus.regionNumber? address = some k →
    (bus.cache.layout address).size.toNat = 2 ^ min n 24

/-- Every region is placed like this, and every layout of the cache is regular. -/
structure Orderly (bus : Bus) : Prop where
  regular : bus.cache.Regular
  placed : ∀ k r, bus.regions[k]? = some r → ∃ n, bus.Placed k r n

/-- A region has storage of its own size, which it shares with no other region. -/
structure Unshared (bus : Bus) (k : ℕ) (r : Region) : Prop where
  size : ∀ m, bus.storages[r.storage]? = some m → m.size = r.size
  only : ∀ k' r', bus.regions[k']? = some r' → r'.storage = r.storage → k' = k

lemma Placed.sameShape (h : bus.Placed k r n) (hs : SameShape bus bus') : bus'.Placed k r n where
  base := h.base
  size := h.size
  fits := h.fits
  slots := by rw [hs.slots]; exact h.slots
  layout := by rw [hs.regionNumber?, hs.layout]; exact h.layout

lemma Orderly.sameShape (h : bus.Orderly) (hs : SameShape bus bus') : bus'.Orderly where
  regular := h.regular.congr hs.layout
  placed k r hr := by
    rw [hs.regions] at hr
    obtain ⟨n, hn⟩ := h.placed k r hr
    exact ⟨n, hn.sameShape hs⟩

lemma Unshared.sameShape (h : bus.Unshared k r) (hs : SameShape bus bus') : bus'.Unshared k r where
  size m hm := by
    have hsize := hs.sizes r.storage
    rw [hm] at hsize
    obtain ⟨m₀, hm₀, heq⟩ := Option.map_eq_some_iff.mp hsize.symm
    rw [← heq]
    exact h.size m₀ hm₀
  only := by rw [hs.regions]; exact h.only

/-! ### Positions and pages -/

namespace Placed

variable {address a b : Word}

/-- The offset of an address in its region. -/
lemma toNat_sub_base (h : bus.Placed k r n) (ha : bus.regionNumber? address = some k) :
    (address - r.base).toNat = address.toNat - r.base.toNat ∧
      r.base.toNat ≤ address.toNat := by
  obtain ⟨-, hslot⟩ := (bus.regionNumber?_eq_some_iff address k).mp ha
  have hle : r.base.toNat ≤ address.toNat := by
    have hdiv := ((h.slots _).mp hslot).1
    obtain ⟨x, hx⟩ := h.base
    omega
  exact ⟨UInt32.toNat_sub_of_le _ _ (UInt32.le_iff_toNat_le.mpr hle), hle⟩

/-- The remainder by the size of a region is that of the offset. -/
lemma toNat_mod (h : bus.Placed k r n) (hn : n ≤ 24) (ha : bus.regionNumber? address = some k) :
    address.toNat % 2 ^ n = (address - r.base).toNat % 2 ^ n := by
  obtain ⟨hoffset, hle⟩ := h.toNat_sub_base ha
  obtain ⟨x, hx⟩ := (Nat.pow_dvd_pow 2 hn).trans h.base
  have hsum : address.toNat = 2 ^ n * x + (address - r.base).toNat := by
    rw [hoffset, ← hx]
    omega
  rw [hsum, Nat.mul_add_mod]

/-- A region larger than a slot does not repeat. -/
lemma offset_lt (h : bus.Placed k r n) (hn : 24 ≤ n) (ha : bus.regionNumber? address = some k) :
    (address - r.base).toNat < 2 ^ n := by
  obtain ⟨-, hslot⟩ := (bus.regionNumber?_eq_some_iff address k).mp ha
  obtain ⟨hoffset, hle⟩ := h.toNat_sub_base ha
  obtain ⟨x, hx⟩ := h.base
  have hlt := ((h.slots _).mp hslot).2
  have hpow : 2 ^ n = 2 ^ 24 * 2 ^ (n - 24) := by
    rw [← Nat.pow_add, Nat.add_sub_cancel' hn]
  have hbase : r.base.toNat / 2 ^ 24 = x := by
    rw [hx]
    exact Nat.mul_div_cancel_left x (Nat.two_pow_pos 24)
  rw [hoffset, hpow]
  rw [hbase] at hlt
  generalize 2 ^ (n - 24) = span at hlt ⊢
  omega

/-- The position of an address in the storage of its region determines its page. -/
lemma inPage_congr (h : bus.Placed k r n) (hc : bus.cache.Regular)
    (ha : bus.regionNumber? a = some k) (hb : bus.regionNumber? b = some k) {id : HandleId}
    (hid : bus.cache.InPage id a)
    (hab : (a - r.base).toNat % 2 ^ n / 2 ^ (bus.cache.layout b).pageBits.toNat =
      (b - r.base).toNat % 2 ^ n / 2 ^ (bus.cache.layout b).pageBits.toNat) :
    bus.cache.InPage id b := by
  rcases Nat.le_total n 24 with hn | hn
  · have hslot : ∀ {x : Word}, bus.regionNumber? x = some k →
        x.toNat / 2 ^ 24 = r.base.toNat / 2 ^ 24 := by
      intro x hx
      have hs := (h.slots _).mp ((bus.regionNumber?_eq_some_iff x k).mp hx).2
      rw [Nat.sub_eq_zero_of_le hn] at hs
      omega
    have hregion : Cache.regionIndex a = Cache.regionIndex b := by
      rw [Cache.regionIndex_eq, Cache.regionIndex_eq, hslot ha, hslot hb]
    have hlayout := bus.cache.layout_congr hregion
    have hsize : (bus.cache.layout b).size.toNat = 2 ^ n := by
      rw [h.layout b hb, min_eq_left hn]
    refine ⟨hid.region.trans hregion, ?_⟩
    rw [hid.page, hlayout, (hc b).pageIndex_eq hsize, (hc b).pageIndex_eq hsize, h.toNat_mod hn ha,
      h.toNat_mod hn hb, hab]
  · have hoffset : ∀ {x : Word}, bus.regionNumber? x = some k →
        x.toNat / 2 ^ (bus.cache.layout b).pageBits.toNat =
          r.base.toNat / 2 ^ (bus.cache.layout b).pageBits.toNat +
            (x - r.base).toNat % 2 ^ n / 2 ^ (bus.cache.layout b).pageBits.toNat := by
      intro x hx
      have hdvd := (Nat.pow_dvd_pow 2 (hc b).pageBits_le).trans h.base
      obtain ⟨hsub, hle⟩ := h.toNat_sub_base hx
      rw [Nat.mod_eq_of_lt (h.offset_lt hn hx), ← Nat.add_div_of_dvd_right hdvd, hsub,
        Nat.add_sub_cancel' hle]
    refine hid.congr hc ?_
    rw [hoffset ha, hoffset hb, hab]

end Placed

end Armv4T.Bus
