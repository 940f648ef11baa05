import Mathlib
import Armv4T.Proofs.Bus.Upkeep

/-!
# The bus of a memory map

A memory map that passes its check has a bus (`Bus.exists_ofMap`). While the regions are added one
by one, the bus is what is needed of one on which nothing has happened yet (`Bus.Built`): every
region is placed, memory is zero, and the cache is empty. Its regions share storage exactly if one
of them is configured as a mirror.
-/

namespace Armv4T

/-- The addresses that a region claims. -/
def Region.span (r : Region) : MemoryMap.Span :=
  ⟨r.name, r.base.toNat, r.base.toNat + max r.size.toNat MemoryMap.slotSize⟩

lemma RegionConfig.Sound.le {config : RegionConfig} {n p : ℕ} (h : config.Sound n p) : n ≤ 28 := by
  have hfits := h.fits
  by_contra hn
  have hpow : 2 ^ 5 ≤ 2 ^ (n - 24) := Nat.pow_le_pow_right (by decide) (by omega)
  omega

/-- Storage of a size that is a power of two has this size. -/
lemma LinearMemory.size_ofSize {size : Word} {n : ℕ} (h : size.toNat = 2 ^ n) :
    (ofSize size).size = size := by
  have hn : n < 32 := Word.lt_of_toNat_eq_two_pow h
  have hle : 2 ^ n ≤ 2 ^ 31 := Nat.pow_le_pow_right (by decide) (by omega)
  rw [← UInt32.toNat_inj]
  show (UInt32.ofNat (min (Nat.nextPowerOfTwo size.toNat) (2 ^ 31))).toNat = _
  rw [h, nextPowerOfTwo_two_pow, min_eq_left hle, UInt32.toNat_ofNat']
  exact Nat.mod_eq_of_lt (by omega)

/-- Laying out one region of the cache afresh leaves the others. -/
lemma InstructionCache.getElem?_configure {c : InstructionCache} (hsize : c.regions.size = 16)
    {region : ℕ} (hregion : region < 16) (layout : Cache.Layout) (i : ℕ) :
    (c.configure region layout).regions[i]? =
      if region = i then some (.ofLayout layout) else c.regions[i]? := by
  show (c.regions.modify (region % 16) _)[i]? = _
  rw [Nat.mod_eq_of_lt hregion, Array.getElem?_modify]
  split
  · rename_i hi
    rw [Array.getElem?_eq_getElem (hsize.symm ▸ hi ▸ hregion)]
    rfl
  · rfl

namespace Bus

/-- A bus as it is built: zero memory, an empty cache, and regions where their bases and sizes say.
-/
structure Built (bus : Bus) : Prop where
  slots : bus.slots.size = 16
  cache : bus.cache.regions.size = 16
  empty : ∀ i < 16, ∃ l : Cache.Layout, l.Regular ∧ bus.cache.regions[i]? = some (.ofLayout l)
  zero : ∀ (i : ℕ) m, bus.storages[i]? = some m →
    m.data = .empty ∧ ∃ n, 2 ≤ n ∧ m.size.toNat = 2 ^ n
  placed : ∀ k r, bus.regions[k]? = some r → ∃ n, bus.Placed k r n
  storage : ∀ (k : ℕ) r, bus.regions[k]? = some r → r.storage < bus.storages.size
  number : ∀ s k : ℕ, bus.slots[s]?.join = some k → k < bus.regions.size

variable {bus : Bus} {k n p : ℕ} {r : Region}

/-! ### Claiming slots -/

/-- Claiming slots changes these slots and the cache over them. -/
lemma claimSlots_spec (bus : Bus) (region : ℕ) (layout : Cache.Layout) (first count : ℕ)
    (hfits : first + count ≤ 16) (hslots : bus.slots.size = 16)
    (hcache : bus.cache.regions.size = 16) :
    let bus' := bus.claimSlots region layout first count
    bus'.regions = bus.regions ∧ bus'.storages = bus.storages ∧ bus'.strict = bus.strict ∧
      bus'.slots.size = 16 ∧ bus'.cache.regions.size = 16 ∧
      ∀ i : ℕ,
        bus'.slots[i]? = (if first ≤ i ∧ i < first + count then some (some region)
          else bus.slots[i]?) ∧
        bus'.cache.regions[i]? = (if first ≤ i ∧ i < first + count then some (.ofLayout layout)
          else bus.cache.regions[i]?) := by
  induction count generalizing bus first with
  | zero =>
    refine ⟨rfl, rfl, rfl, hslots, hcache, fun i => ?_⟩
    rw [if_neg (by omega), if_neg (by omega)]
    exact ⟨rfl, rfl⟩
  | succ count ih =>
    obtain ⟨regions, storages, slots, cache, strict⟩ := bus
    have hstep : claimSlots ⟨regions, storages, slots, cache, strict⟩ region layout first
        (count + 1) = claimSlots ⟨regions, storages, slots.setIfInBounds first (some region),
          cache.configure first layout, strict⟩ region layout (first + 1) count := by
      rw [claimSlots, if_pos (by omega)]
    have hclaim (i : ℕ) : (slots.setIfInBounds first (some region))[i]? =
        if first = i then some (some region) else slots[i]? := by
      have hlt : first < slots.size := hslots.symm ▸ (by omega)
      rw [Array.getElem?_setIfInBounds, if_pos hlt]
    obtain ⟨hregions, hstorages, hstrict, hslots', hcache', hclaimed⟩ :=
      ih ⟨regions, storages, slots.setIfInBounds first (some region),
        cache.configure first layout, strict⟩ (first + 1) (by omega)
        (by rw [Array.size_setIfInBounds]; exact hslots)
        (Array.size_modify.trans hcache)
    rw [hstep]
    refine ⟨hregions, hstorages, hstrict, hslots', hcache', fun i => ?_⟩
    obtain ⟨hs, hc⟩ := hclaimed i
    rw [hs, hc, hclaim, InstructionCache.getElem?_configure hcache (by omega)]
    by_cases hi : first = i
    · rw [if_neg (by omega), if_pos hi, if_pos (by omega), if_neg (by omega), if_pos hi,
        if_pos (by omega)]
      exact ⟨rfl, rfl⟩
    · rw [if_neg hi, if_neg hi]
      have hiff : (first + 1 ≤ i ∧ i < first + 1 + count) ↔
          (first ≤ i ∧ i < first + (count + 1)) := by omega
      simp only [hiff, and_self]

/-! ### Adding a region -/

/-- The layout of the cache is that of the slot. -/
lemma layout_eq (bus : Bus) {address : Word} (h : address.toNat < 2 ^ 28) :
    bus.cache.layout address =
      (bus.cache.regions[address.toNat / 2 ^ 24]?.map CacheRegion.layout).getD .default := by
  have hindex : Cache.regionIndex address = address.toNat / 2 ^ 24 := by
    rw [Cache.regionIndex_eq]
    omega
  rw [InstructionCache.layout, hindex]

/-- Regions that share no address share no slot. -/
lemma slots_disjoint {r' : Region} {n' : ℕ} (hbase : 2 ^ 24 ∣ r.base.toNat)
    (hsize : r.size.toNat = 2 ^ n) (hbase' : 2 ^ 24 ∣ r'.base.toNat)
    (hsize' : r'.size.toNat = 2 ^ n') (h : r.span.overlaps r'.span = false) {s : ℕ}
    (hs : r.base.toNat / 2 ^ 24 ≤ s ∧ s < r.base.toNat / 2 ^ 24 + 2 ^ (n - 24)) :
    ¬(r'.base.toNat / 2 ^ 24 ≤ s ∧ s < r'.base.toNat / 2 ^ 24 + 2 ^ (n' - 24)) := by
  simp only [MemoryMap.Span.overlaps, Region.span, hsize, hsize', MemoryMap.max_slotSize,
    Bool.and_eq_false_iff, decide_eq_false_iff_not, Nat.not_lt] at h
  obtain ⟨x, hx⟩ := hbase
  obtain ⟨x', hx'⟩ := hbase'
  generalize 2 ^ (n - 24) = y at *
  generalize 2 ^ (n' - 24) = y' at *
  omega

/-- The number of slots that a region spans. -/
lemma span_eq (n : ℕ) : max 1 (2 ^ n / MemoryMap.slotSize) = 2 ^ (n - 24) := by
  rw [show MemoryMap.slotSize = 2 ^ 24 from rfl]
  rcases Nat.le_total n 24 with h | h
  · have hle : 2 ^ n / 2 ^ 24 ≤ 1 := by
      have hpow : 2 ^ n ≤ 2 ^ 24 := Nat.pow_le_pow_right (by decide) h
      omega
    rw [max_eq_left hle, Nat.sub_eq_zero_of_le h, Nat.pow_zero]
  · rw [Nat.pow_div h (by decide)]
    exact max_eq_right Nat.one_le_two_pow

/-- What adding a region of `2 ^ n` bytes leaves: the slots that it spans are claimed, and over them
the cache has its pages. -/
structure Enlarged (bus : Bus) (r : Region) (n : ℕ) (pageBits : Word) (bus' : Bus) : Prop where
  regions : bus'.regions = bus.regions.push r
  storages : bus'.storages = bus.storages
  slotsSize : bus'.slots.size = 16
  cacheSize : bus'.cache.regions.size = 16
  slot : ∀ s : ℕ, bus'.slots[s]? =
    if r.base.toNat / 2 ^ 24 ≤ s ∧ s < r.base.toNat / 2 ^ 24 + 2 ^ (n - 24) then
      some (some bus.regions.size)
    else bus.slots[s]?
  cached : ∀ s : ℕ, bus'.cache.regions[s]? =
    if r.base.toNat / 2 ^ 24 ≤ s ∧ s < r.base.toNat / 2 ^ 24 + 2 ^ (n - 24) then
      some (.ofLayout (.ofSize r.size pageBits))
    else bus.cache.regions[s]?

/-- A region is added by claiming the slots that it spans. -/
lemma enlarged_mapRegion (hslots : bus.slots.size = 16) (hcache : bus.cache.regions.size = 16)
    (hsize : r.size.toNat = 2 ^ n) (hfits : r.base.toNat / 2 ^ 24 + 2 ^ (n - 24) ≤ 16)
    (pageBits : Word) : bus.Enlarged r n pageBits (bus.mapRegion r pageBits) := by
  obtain ⟨hregions, hstorages, -, hslots', hcache', hclaimed⟩ :=
    bus.claimSlots_spec bus.regions.size (.ofSize r.size pageBits) (r.base.toNat / 2 ^ 24)
      (2 ^ (n - 24)) hfits hslots hcache
  unfold mapRegion
  rw [hsize, span_eq]
  exact ⟨congrArg (·.push r) hregions, hstorages, hslots', hcache', fun s => (hclaimed s).1,
    fun s => (hclaimed s).2⟩

namespace Enlarged

variable {bus' : Bus} {pageBits : Word} (h : bus.Enlarged r n pageBits bus')
include h

/-- The new region has the slots that it spans. -/
lemma slots_last (hb : bus.Built) (s : ℕ) : bus'.slots[s]?.join = some bus.regions.size ↔
    r.base.toNat / 2 ^ 24 ≤ s ∧ s < r.base.toNat / 2 ^ 24 + 2 ^ (n - 24) := by
  rw [h.slot]
  split
  · rename_i hs
    exact iff_of_true rfl hs
  · rename_i hs
    exact iff_of_false (fun hold => absurd (hb.number s _ hold) (lt_irrefl _)) hs

/-- Of the slots of another region, those are left that the new one does not span. -/
lemma slots_of_ne (hk : k ≠ bus.regions.size) (s : ℕ) : bus'.slots[s]?.join = some k ↔
    bus.slots[s]?.join = some k ∧
      ¬(r.base.toNat / 2 ^ 24 ≤ s ∧ s < r.base.toNat / 2 ^ 24 + 2 ^ (n - 24)) := by
  rw [h.slot]
  split
  · rename_i hs
    exact iff_of_false (fun hnew => hk (Option.some.inj hnew).symm) fun hold => hold.2 hs
  · rename_i hs
    exact (and_iff_left hs).symm

/-- Over the slots that the new region spans the cache has the new pages, and over the others those
from before. -/
lemma layout_eq {address : Word} (hlt : address.toNat < 2 ^ 28) :
    bus'.cache.layout address =
      if r.base.toNat / 2 ^ 24 ≤ address.toNat / 2 ^ 24 ∧
          address.toNat / 2 ^ 24 < r.base.toNat / 2 ^ 24 + 2 ^ (n - 24) then
        .ofSize r.size pageBits
      else bus.cache.layout address := by
  rw [bus'.layout_eq hlt, h.cached]
  split
  · rfl
  · exact (bus.layout_eq hlt).symm

/-- An address is in the new region, over which the cache has the given pages, or it is where it
was, with the pages that it had. -/
lemma regionNumber? {address : Word} (hnumber : bus'.regionNumber? address = some k) :
    k = bus.regions.size ∧ bus'.cache.layout address = .ofSize r.size pageBits ∨
      bus.regionNumber? address = some k ∧
        bus'.cache.layout address = bus.cache.layout address := by
  obtain ⟨hlt, hslot⟩ := (regionNumber?_eq_some_iff _ _ _).mp hnumber
  rw [h.slot] at hslot
  rw [h.layout_eq hlt, regionNumber?_eq_some_iff, and_iff_right hlt]
  split at hslot
  · rename_i hnew
    rw [if_pos hnew]
    exact .inl ⟨(Option.some.inj hslot).symm, rfl⟩
  · rename_i hold
    rw [if_neg hold]
    exact .inr ⟨hslot, rfl⟩

/-- The new region is placed where its base and size say. -/
lemma placed_last (hb : bus.Built) (hbase : 2 ^ 24 ∣ r.base.toNat) (hsize : r.size.toNat = 2 ^ n)
    (hfits : r.base.toNat / 2 ^ 24 + 2 ^ (n - 24) ≤ 16)
    (hlayout : (Cache.Layout.ofSize r.size pageBits).size.toNat = 2 ^ min n 24) :
    bus'.Placed bus.regions.size r n := by
  refine ⟨hbase, hsize, hfits, h.slots_last hb, fun address ha => ?_⟩
  obtain ⟨hlt, hs⟩ := (regionNumber?_eq_some_iff _ _ _).mp ha
  rw [h.layout_eq hlt, if_pos ((h.slots_last hb _).mp hs), hlayout]

/-- A region that shares no address with the new one is placed as before. -/
lemma placed_of_free {r' : Region} {n' : ℕ} (hk : k ≠ bus.regions.size)
    (hp : bus.Placed k r' n') (hbase : 2 ^ 24 ∣ r.base.toNat) (hsize : r.size.toNat = 2 ^ n)
    (hfree : r.span.overlaps r'.span = false) : bus'.Placed k r' n' := by
  have hold {s : ℕ} (hs : bus.slots[s]?.join = some k) :
      ¬(r.base.toNat / 2 ^ 24 ≤ s ∧ s < r.base.toNat / 2 ^ 24 + 2 ^ (n - 24)) := fun hnew =>
    slots_disjoint hbase hsize hp.base hp.size hfree hnew ((hp.slots s).mp hs)
  refine ⟨hp.base, hp.size, hp.fits, fun s => ?_, fun address ha => ?_⟩
  · rw [h.slots_of_ne hk, and_iff_left_of_imp hold, hp.slots]
  · obtain ⟨hlt, hs⟩ := (regionNumber?_eq_some_iff _ _ _).mp ha
    have hs' := ((h.slots_of_ne hk _).mp hs).1
    rw [h.layout_eq hlt, if_neg (hold hs')]
    exact hp.layout address ((regionNumber?_eq_some_iff _ _ _).mpr ⟨hlt, hs'⟩)

end Enlarged

/-- Adding a region where there is none yet. -/
lemma Built.mapRegion (hb : bus.Built) (hbase : 2 ^ 24 ∣ r.base.toNat)
    (hsize : r.size.toNat = 2 ^ n) (hfits : r.base.toNat / 2 ^ 24 + 2 ^ (n - 24) ≤ 16)
    (htwo : 2 ≤ p) (hpage : p ≤ n) (hslot : p ≤ 24)
    (hfree : ∀ r' ∈ bus.regions, r.span.overlaps r'.span = false)
    (hstorage : r.storage < bus.storages.size) :
    (bus.mapRegion r (UInt32.ofNat p)).Built ∧
      (bus.mapRegion r (UInt32.ofNat p)).regions = bus.regions.push r ∧
      (bus.mapRegion r (UInt32.ofNat p)).storages = bus.storages := by
  have hp : (UInt32.ofNat p).toNat = p := by
    rw [UInt32.toNat_ofNat']
    exact Nat.mod_eq_of_lt (by omega)
  have hregular : (Cache.Layout.ofSize r.size (UInt32.ofNat p)).Regular :=
    Cache.Layout.regular_ofSize hsize (by omega) (by omega) (by omega)
  have hlayout : (Cache.Layout.ofSize r.size (UInt32.ofNat p)).size.toNat = 2 ^ min n 24 :=
    (Cache.Layout.ofSize_spec hsize (by omega) (by omega) (by omega)).2
  have he := enlarged_mapRegion hb.slots hb.cache hsize hfits (UInt32.ofNat p)
  refine ⟨⟨he.slotsSize, he.cacheSize, ?_, ?_, ?_, ?_, ?_⟩, he.regions, he.storages⟩
  · intro i hi
    rw [he.cached]
    split
    · exact ⟨_, hregular, rfl⟩
    · exact hb.empty i hi
  · rw [he.storages]
    exact hb.zero
  · intro k r' hr'
    rw [he.regions, Array.getElem?_push] at hr'
    split at hr'
    · rename_i hk
      obtain rfl := Option.some.inj hr'
      exact ⟨n, hk ▸ he.placed_last hb hbase hsize hfits hlayout⟩
    · rename_i hk
      obtain ⟨n', hp'⟩ := hb.placed k r' hr'
      exact ⟨n', he.placed_of_free hk hp' hbase hsize (hfree r' (Array.mem_of_getElem? hr'))⟩
  · intro k r' hr'
    rw [he.storages]
    rw [he.regions, Array.getElem?_push] at hr'
    split at hr'
    · obtain rfl := Option.some.inj hr'
      exact hstorage
    · exact hb.storage k r' hr'
  · intro s k hs
    rw [he.regions, Array.size_push]
    rw [he.slot] at hs
    split at hs
    · obtain rfl : bus.regions.size = k := Option.some.inj hs
      exact Nat.lt_succ_self _
    · exact Nat.lt_succ_of_lt (hb.number s k hs)

/-! ### Adding a configured region -/

/-- What adding a configured region leaves. -/
structure Added (bus : Bus) (config : RegionConfig) (r : Region) (bus' : Bus) : Prop where
  built : bus'.Built
  regions : bus'.regions = bus.regions.push r
  storages : config.mirror = none ∧ r.storage = bus.storages.size ∧
      bus'.storages = bus.storages.push (.ofSize r.size) ∨
    config.mirror ≠ none ∧ bus'.storages = bus.storages ∧
      ∃ r' ∈ bus.regions, r'.storage = r.storage

lemma Built.addStorage (hb : bus.Built) {size : Word} (htwo : 2 ≤ n) (hsize : size.toNat = 2 ^ n) :
    (bus.addStorage size).2.Built where
  slots := hb.slots
  cache := hb.cache
  empty := hb.empty
  zero i m hm := by
    have hm : (bus.storages.push (.ofSize size))[i]? = some m := hm
    rw [Array.getElem?_push] at hm
    split at hm
    · obtain rfl := Option.some.inj hm
      exact ⟨rfl, n, htwo, by rw [LinearMemory.size_ofSize hsize, hsize]⟩
    · exact hb.zero i m hm
  placed k r hr := by
    obtain ⟨n, hp⟩ := hb.placed k r hr
    exact ⟨n, hp.base, hp.size, hp.fits, hp.slots, hp.layout⟩
  storage k r hr := by
    show r.storage < (bus.storages.push _).size
    rw [Array.size_push]
    exact Nat.lt_succ_of_lt (hb.storage k r hr)
  number := hb.number

/-- The storage of a region that is no mirror is new. -/
lemma storageFor_own {config : RegionConfig} (hm : config.mirror = none) (size : Word) :
    bus.storageFor config size = .ok (bus.addStorage size) := by
  unfold storageFor
  rw [hm]

/-- A mirror of a region that is there gets the storage of one with its name. -/
lemma exists_storageFor_mirror {config : RegionConfig} {target : String}
    (hm : config.mirror = some target) (htarget : ∃ r ∈ bus.regions, r.name = target)
    (size : Word) :
    ∃ r' ∈ bus.regions, bus.storageFor config size = .ok (r'.storage, bus) := by
  obtain ⟨r, hr, hname⟩ := htarget
  have hsome : (bus.regions.find? (·.name == target)).isSome :=
    Array.find?_isSome.mpr ⟨r, hr, by simpa using hname⟩
  obtain ⟨r', hfind⟩ := Option.isSome_iff_exists.mp hsome
  refine ⟨r', Array.mem_of_find?_eq_some hfind, ?_⟩
  unfold storageFor
  rw [hm]
  dsimp only
  rw [hfind]

/-- A sound region that overlaps none and mirrors one if any can be added. -/
lemma addConfig_spec (hb : bus.Built) {config : RegionConfig} (hs : config.Sound n p)
    (hmirror : ∀ target, config.mirror = some target → ∃ r ∈ bus.regions, r.name = target)
    (hfree : ∀ r ∈ bus.regions, MemoryMap.Span.overlaps ⟨config.id, config.base.toNat,
      config.base.toNat + 2 ^ 24 * 2 ^ (n - 24)⟩ r.span = false) :
    ∃ r bus', addConfig bus config = .ok bus' ∧ bus.Added config r bus' ∧
      r.span = ⟨config.id, config.base.toNat, config.base.toNat + 2 ^ 24 * 2 ^ (n - 24)⟩ := by
  have hn := hs.le
  have hsize : (UInt32.ofNat (2 ^ n)).toNat = 2 ^ n := by
    rw [UInt32.toNat_ofNat']
    exact Nat.mod_eq_of_lt (Nat.pow_lt_pow_right (by decide) (by omega))
  have hlt : ¬2 ^ n ≥ UInt32.size :=
    Nat.not_le.mpr (Nat.pow_lt_pow_right (by decide : 1 < 2) (by omega : n < 32))
  let region (storage : ℕ) : Region :=
    { name := config.id, base := config.base, size := UInt32.ofNat (2 ^ n),
      readOnly := config.readOnly, wait := config.wait, storage }
  have hspan (storage : ℕ) : (region storage).span =
      ⟨config.id, config.base.toNat, config.base.toNat + 2 ^ 24 * 2 ^ (n - 24)⟩ := by
    show (⟨_, _, _⟩ : MemoryMap.Span) = _
    rw [hsize, MemoryMap.max_slotSize]
  have hadd {storage : ℕ} {bus₁ : Bus}
      (h : bus.storageFor config (UInt32.ofNat (2 ^ n)) = .ok (storage, bus₁)) :
      addConfig bus config = .ok (bus₁.mapRegion (region storage) (UInt32.ofNat p)) := by
    refine bind_eq_ok.mpr ⟨2 ^ n, hs.size, ?_⟩
    refine throw_else_eq_ok.mpr ⟨hlt, ?_⟩
    refine bind_eq_ok.mpr ⟨_, h, ?_⟩
    exact bind_eq_ok.mpr ⟨p, hs.pageBits_eq, rfl⟩
  have hmap {storage : ℕ} {bus₁ : Bus} (hb₁ : bus₁.Built) (hregions : bus₁.regions = bus.regions)
      (hstorage : storage < bus₁.storages.size) :=
    hb₁.mapRegion (r := region storage) hs.base hsize hs.fits hs.two_le hs.page_le hs.page_le_slot
      (by rw [hregions, hspan]; exact hfree) hstorage
  rcases hm : config.mirror with _ | target
  · have hlast : bus.storages.size < (bus.addStorage (UInt32.ofNat (2 ^ n))).2.storages.size := by
      show _ < (bus.storages.push _).size
      rw [Array.size_push]
      exact Nat.lt_succ_self _
    obtain ⟨hbuilt, hregions, hstorages⟩ :=
      hmap (hb.addStorage (hs.two_le.trans hs.page_le) hsize) rfl hlast
    exact ⟨_, _, hadd (storageFor_own hm _), ⟨hbuilt, hregions, .inl ⟨hm, rfl, hstorages⟩⟩,
      hspan _⟩
  · obtain ⟨r', hr', hstorage⟩ := exists_storageFor_mirror hm (hmirror target hm)
      (UInt32.ofNat (2 ^ n))
    obtain ⟨k, hk⟩ := Array.mem_iff_getElem?.mp hr'
    obtain ⟨hbuilt, hregions, hstorages⟩ := hmap hb rfl (hb.storage k r' hk)
    refine ⟨_, _, hadd hstorage, ⟨hbuilt, hregions, .inr ⟨?_, hstorages, r', hr', rfl⟩⟩, hspan _⟩
    rw [hm]
    exact Option.some_ne_none target

/-! ### Shared storage -/

/-- Two regions have the same storage. -/
def Shares (bus : Bus) : Prop :=
  ∃ (k k' : ℕ) (r r' : Region), k ≠ k' ∧ bus.regions[k]? = some r ∧ bus.regions[k']? = some r' ∧
    r.storage = r'.storage

/-- No region shares its storage. -/
def SharesNone (bus : Bus) : Prop := ∀ (k : ℕ) r, bus.regions[k]? = some r → bus.Unshared k r

variable {bus' : Bus} {config : RegionConfig}

/-- A region that is no mirror gets storage of its own. -/
lemma Added.sharesNone (h : bus.Added config r bus') (hb : bus.Built)
    (hmirror : config.mirror = none) (hbus : bus.SharesNone) : bus'.SharesNone := by
  obtain ⟨-, hstorage, hstorages⟩ := h.storages.resolve_right fun hne => hne.1 hmirror
  have hnew : (bus.storages.push (.ofSize r.size))[bus.storages.size]? = some (.ofSize r.size) :=
    Array.getElem?_push_size
  intro k r₁ hr₁
  rw [h.regions, Array.getElem?_push] at hr₁
  split at hr₁
  · rename_i hk
    obtain rfl := Option.some.inj hr₁
    constructor
    · intro m hm
      rw [hstorages, hstorage, hnew] at hm
      obtain rfl := Option.some.inj hm
      obtain ⟨n, hp⟩ := h.built.placed k r (by rw [h.regions, hk]; exact Array.getElem?_push_size)
      exact LinearMemory.size_ofSize hp.size
    · intro k' r' hr' hsame
      rw [h.regions, Array.getElem?_push] at hr'
      split at hr'
      · rename_i hk'
        rw [hk', hk]
      · have hlt := hb.storage k' r' hr'
        omega
  · have hlt := hb.storage k r₁ hr₁
    have hu := hbus k r₁ hr₁
    constructor
    · intro m hm
      rw [hstorages, Array.getElem?_push, if_neg (by omega)] at hm
      exact hu.size m hm
    · intro k' r' hr' hsame
      rw [h.regions, Array.getElem?_push] at hr'
      split at hr'
      · obtain rfl := Option.some.inj hr'
        omega
      · exact hu.only k' r' hr' hsame

lemma Added.getElem? (h : bus.Added config r bus') {k : ℕ} {r₁ : Region}
    (hr₁ : bus.regions[k]? = some r₁) : bus'.regions[k]? = some r₁ := by
  obtain ⟨hlt, -⟩ := Array.getElem?_eq_some_iff.mp hr₁
  rw [h.regions, Array.getElem?_push, if_neg (by omega), hr₁]

/-- A mirror shares its storage. -/
lemma Added.shares (h : bus.Added config r bus') (hbus : bus.Shares ∨ config.mirror ≠ none) :
    bus'.Shares := by
  rcases hbus with ⟨k, k', r₁, r₂, hne, hr₁, hr₂, hsame⟩ | hmirror
  · exact ⟨k, k', r₁, r₂, hne, h.getElem? hr₁, h.getElem? hr₂, hsame⟩
  · obtain ⟨-, -, r', hr', hsame⟩ := h.storages.resolve_left fun hnone => hmirror hnone.1
    obtain ⟨k, hk⟩ := Array.mem_iff_getElem?.mp hr'
    obtain ⟨hlt, -⟩ := Array.getElem?_eq_some_iff.mp hk
    refine ⟨k, bus.regions.size, r', r, by omega, h.getElem? hk, ?_, hsame⟩
    rw [h.regions]
    exact Array.getElem?_push_size

/-- Regions that pass the check can be added one by one, and what adding one keeps is true in the
end. -/
lemma exists_foldlM_of_step {P : List RegionConfig → Bus → Prop}
    (hstep : ∀ {done : List RegionConfig} {bus bus' : Bus} {config : RegionConfig} {n p : ℕ}
      {r : Region}, bus.Built → P done bus → config.Sound n p → addConfig bus config = .ok bus' →
        bus.Added config r bus' → P (done ++ [config]) bus')
    (configs : List RegionConfig) {done : List RegionConfig} (hb : bus.Built) (hP : P done bus)
    (hcheck : MemoryMap.checkRegions (bus.regions.toList.map Region.span) configs = .ok ()) :
    ∃ bus', configs.foldlM addConfig bus = .ok bus' ∧ bus'.Built ∧ P (done ++ configs) bus' := by
  induction configs generalizing bus done with
  | nil => exact ⟨bus, rfl, hb, (List.append_nil done).symm ▸ hP⟩
  | cons config configs ih =>
    obtain ⟨span, hspan, hrest⟩ := bind_eq_ok.mp hcheck
    obtain ⟨n, p, hs, rfl, hmirror, hfree⟩ := MemoryMap.checkRegion_eq_ok hspan
    have hmem {r : Region} (hr : r ∈ bus.regions) :
        r.span ∈ bus.regions.toList.map Region.span :=
      List.mem_map.mpr ⟨r, Array.mem_toList_iff.mpr hr, rfl⟩
    have hmirror' : ∀ target, config.mirror = some target →
        ∃ r ∈ bus.regions, r.name = target := by
      intro target hm
      obtain ⟨s, hs, hid⟩ := hmirror target hm
      obtain ⟨r, hr, rfl⟩ := List.mem_map.mp hs
      exact ⟨r, Array.mem_toList_iff.mp hr, hid⟩
    obtain ⟨r, bus₁, hadd, hadded, hrspan⟩ :=
      addConfig_spec hb hs hmirror' fun r hr => hfree _ (hmem hr)
    have hspans : bus₁.regions.toList.map Region.span =
        bus.regions.toList.map Region.span ++ [r.span] := by
      rw [hadded.regions, Array.toList_push, List.map_append]
      rfl
    rw [← hrspan, ← hspans] at hrest
    obtain ⟨bus', hfold, hbuilt, hP'⟩ := ih hadded.built (hstep hb hP hs hadd hadded) hrest
    refine ⟨bus', ?_, hbuilt, ?_⟩
    · rw [List.foldlM_cons]
      exact bind_eq_ok.mpr ⟨bus₁, hadd, hfold⟩
    · rwa [List.append_assoc] at hP'

lemma built_empty : Bus.empty.Built where
  slots := rfl
  cache := rfl
  empty i hi := by
    refine ⟨.default, Cache.Layout.regular_default, ?_⟩
    show (Array.replicate 16 _)[i]? = _
    rw [Array.getElem?_replicate, if_pos hi]
  zero i m hm := nomatch hm
  placed k r hr := nomatch hr
  storage k r hr := nomatch hr
  number s k hs := by
    have hs : ((Array.replicate 16 none : Array (Option ℕ))[s]?).join = some k := hs
    rw [Array.getElem?_replicate] at hs
    split at hs
    · exact nomatch hs
    · exact nomatch hs

/-- A memory map that passes its check has a bus, of which is true what adding a region keeps. -/
lemma exists_ofMap_of_step {P : List RegionConfig → Bus → Prop} (hempty : P [] Bus.empty)
    (hstep : ∀ {done : List RegionConfig} {bus bus' : Bus} {config : RegionConfig} {n p : ℕ}
      {r : Region}, bus.Built → P done bus → config.Sound n p → addConfig bus config = .ok bus' →
        bus.Added config r bus' → P (done ++ [config]) bus')
    {map : MemoryMap} (h : map.validate = .ok ()) :
    ∃ bus, ofMap map = .ok bus ∧ bus.Built ∧ P map.regions bus := by
  obtain ⟨bus, hfold, hbuilt, hP⟩ :=
    exists_foldlM_of_step hstep map.regions built_empty hempty (MemoryMap.validate_eq_ok h).2
  exact ⟨bus, bind_eq_ok.mpr ⟨(), h, hfold⟩, hbuilt, hP⟩

/-- A memory map that passes its check has a bus, whose regions share storage exactly if one of them
is a mirror. -/
theorem exists_ofMap {map : MemoryMap} (h : map.validate = .ok ()) :
    ∃ bus, ofMap map = .ok bus ∧ bus.Built ∧
      ((∀ c ∈ map.regions, c.mirror = none) → bus.SharesNone) ∧
      ((∃ c ∈ map.regions, c.mirror ≠ none) → bus.Shares) := by
  refine exists_ofMap_of_step (P := fun done bus =>
    ((∀ c ∈ done, c.mirror = none) → bus.SharesNone) ∧
      ((∃ c ∈ done, c.mirror ≠ none) → bus.Shares)) ?_ ?_ h
  · constructor
    · exact fun _ k r hr => nomatch hr
    · rintro ⟨c, hc, -⟩
      exact nomatch hc
  · rintro done bus bus' config n p r hb ⟨hnone, hshares⟩ - - hadded
    constructor
    · intro hall
      refine hadded.sharesNone hb (hall config (by simp)) (hnone fun c hc => hall c ?_)
      exact List.mem_append_left _ hc
    · rintro ⟨c, hc, hsome⟩
      rcases List.mem_append.mp hc with hc | hc
      · exact hadded.shares (.inl (hshares ⟨c, hc, hsome⟩))
      · obtain rfl := List.mem_singleton.mp hc
        exact hadded.shares (.inr hsome)

lemma validate_handheld : MemoryMap.handheld.validate = .ok () := by decide +kernel

lemma ofMap_handheld : ofMap .handheld = .ok handheld := by
  obtain ⟨bus, hbus, -⟩ := exists_ofMap validate_handheld
  rw [handheld, hbus]

/-- Nothing has happened yet on the bus of the handheld. -/
lemma built_handheld : handheld.Built := by
  obtain ⟨bus, hbus, hbuilt, -⟩ := exists_ofMap validate_handheld
  rw [handheld, hbus]
  exact hbuilt

/-! ### Before anything happens -/

/-- The cache over an address, before anything happens, has a regular layout and no pages. -/
lemma Built.exists_layout (hb : bus.Built) (address : Word) :
    (bus.cache.layout address).Regular ∧
      bus.cache.regions[Cache.regionIndex address]? =
        some (.ofLayout (bus.cache.layout address)) := by
  have hlt : Cache.regionIndex address < 16 := by
    rw [Cache.regionIndex_eq]
    exact Nat.mod_lt _ (by decide)
  obtain ⟨l, hregular, hregion⟩ := hb.empty _ hlt
  have hlayout : bus.cache.layout address = l := by
    rw [InstructionCache.layout, hregion]
    rfl
  rw [hlayout]
  exact ⟨hregular, hregion⟩

lemma Built.orderly (hb : bus.Built) : bus.Orderly where
  regular address := (hb.exists_layout address).1
  placed := hb.placed

/-- No page has been created. -/
lemma Built.page?_eq_none (hb : bus.Built) (region page : ℕ) :
    bus.cache.page? region page = none := by
  rw [InstructionCache.page?]
  rcases Nat.lt_or_ge region 16 with hlt | hge
  · obtain ⟨l, -, hregion⟩ := hb.empty region hlt
    rw [hregion]
    show ((Array.replicate l.pageCount none)[page]?).join = none
    rw [Array.getElem?_replicate]
    split <;> rfl
  · rw [Array.getElem?_eq_none (hb.cache.symm ▸ hge)]
    rfl

/-- Nothing is in the cache. -/
lemma Built.get?_eq_none (hb : bus.Built) (id : HandleId) : bus.cache.get? id = none := by
  rw [InstructionCache.get?, hb.page?_eq_none]

end Bus

end Armv4T
