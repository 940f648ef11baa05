import Mathlib
import Armv4T.Proofs.Bus.Build

/-!
# The regions of a bus are those of its map

A memory map that passes its check is built as it is written (`Bus.exists_configured`). Region by
region the bus has what is configured; a region has the addresses that it claims, none of which it
loses to a later one; the cache over it has the configured pages; and storage is shared between a
mirror and its target and nobody else. Every one of these facts is kept when a region is added
(`Bus.Realizes.extends`), so that it holds of any number of regions.
-/

namespace Armv4T

variable {bus bus' : Bus} {configs : List RegionConfig} {config : RegionConfig} {k n p : ℕ}
  {r : Region}

/-- An address is one of those that a region claims: its own, and the rest of its last slot. -/
def Region.Claims (r : Region) (address : Word) : Prop :=
  r.base.toNat ≤ address.toNat ∧
    address.toNat < r.base.toNat + max r.size.toNat MemoryMap.slotSize

/-- A region is what the configuration says. -/
structure RegionConfig.Describes (config : RegionConfig) (r : Region) : Prop where
  name : r.name = config.id
  base : r.base = config.base
  size : config.sizeBytes = .ok r.size.toNat
  readOnly : r.readOnly = config.readOnly
  wait : r.wait = config.wait

namespace Bus

/-- A configured region and the region of the same number. -/
def Pairs (bus : Bus) (configs : List RegionConfig) (k : ℕ) (c : RegionConfig) (r : Region) :
    Prop :=
  configs[k]? = some c ∧ bus.regions[k]? = some r

/-- The regions of a bus are the configured ones, in their order, with their pages, and share
storage as configured. -/
structure Realizes (bus : Bus) (configs : List RegionConfig) : Prop where
  size : bus.regions.size = configs.length
  describes : ∀ k c r, bus.Pairs configs k c r → c.Describes r
  pages : ∀ k c r address, bus.Pairs configs k c r → bus.regionNumber? address = some k →
    c.pageSizeBytes = .ok (2 ^ (bus.cache.layout address).pageBits.toNat)
  mirror : ∀ k c r target, bus.Pairs configs k c r → c.mirror = some target →
    ∃ k' c' r', bus.Pairs configs k' c' r' ∧ c'.id = target ∧ r.storage = r'.storage
  own : ∀ k c r k' c' r', bus.Pairs configs k c r → bus.Pairs configs k' c' r' →
    c.mirror = none → c'.mirror = none → r.storage = r'.storage → k = k'

/-! ### Adding a region -/

/-- What adding a configured region consists of. -/
lemma addConfig_eq_ok (h : addConfig bus config = .ok bus') :
    ∃ size storage bus₁ pageBits, config.sizeBytes = .ok size ∧ size < UInt32.size ∧
      bus.storageFor config (.ofNat size) = .ok (storage, bus₁) ∧
      config.pageBits = .ok pageBits ∧
      bus' = bus₁.mapRegion
        { name := config.id, base := config.base, size := .ofNat size, readOnly := config.readOnly,
          wait := config.wait, storage } (.ofNat pageBits) := by
  unfold addConfig at h
  obtain ⟨size, hsize, h₁⟩ := bind_eq_ok.mp h
  obtain ⟨hlt, h₂⟩ := throw_else_eq_ok.mp h₁
  obtain ⟨⟨storage, bus₁⟩, hstorage, h₃⟩ := bind_eq_ok.mp h₂
  obtain ⟨pageBits, hpage, h₄⟩ := bind_eq_ok.mp h₃
  exact ⟨size, storage, bus₁, pageBits, hsize, Nat.not_le.mp hlt, hstorage, hpage,
    (Except.ok.inj h₄).symm⟩

/-- The storage of a mirror is that of a region with the name of its target, and the storage of a
region that is no mirror is new. -/
lemma storageFor_eq_ok {size : Word} {storage : ℕ} {bus₁ : Bus}
    (h : bus.storageFor config size = .ok (storage, bus₁)) :
    (∃ target, config.mirror = some target ∧ bus₁ = bus ∧
        ∃ r ∈ bus.regions, r.name = target ∧ r.storage = storage) ∨
      config.mirror = none ∧ bus₁ = (bus.addStorage size).2 ∧ storage = bus.storages.size := by
  unfold storageFor at h
  rcases hm : config.mirror with _ | target
  · rw [hm] at h
    obtain ⟨rfl, rfl⟩ := Prod.mk.inj (Except.ok.inj h)
    exact .inr ⟨rfl, rfl, rfl⟩
  · rw [hm] at h
    dsimp only at h
    rcases hfind : bus.regions.find? (·.name == target) with _ | r
    · rw [hfind] at h
      exact nomatch h
    · rw [hfind] at h
      obtain ⟨rfl, rfl⟩ := Prod.mk.inj (Except.ok.inj h)
      refine .inl ⟨target, rfl, rfl, r, Array.mem_of_find?_eq_some hfind, ?_, rfl⟩
      simpa using Array.find?_some hfind

/-- A bus and one with one more region, which is the configured one. -/
structure Extends (bus : Bus) (config : RegionConfig) (r : Region) (bus' : Bus) : Prop where
  regions : bus'.regions = bus.regions.push r
  describes : config.Describes r
  pages : ∀ k address, bus'.regionNumber? address = some k →
    k = bus.regions.size ∧
        config.pageSizeBytes = .ok (2 ^ (bus'.cache.layout address).pageBits.toNat) ∨
      bus.regionNumber? address = some k ∧ bus'.cache.layout address = bus.cache.layout address
  storage : (∃ target, config.mirror = some target ∧
      ∃ r' ∈ bus.regions, r'.name = target ∧ r.storage = r'.storage) ∨
    config.mirror = none ∧ r.storage = bus.storages.size

lemma Built.extends (hb : bus.Built) (hs : config.Sound n p)
    (hadd : addConfig bus config = .ok bus') : ∃ r, bus.Extends config r bus' := by
  obtain ⟨size, storage, bus₁, pageBits, hsize, hlt, hstorage, hpage, rfl⟩ := addConfig_eq_ok hadd
  obtain rfl : p = pageBits := Except.ok.inj (hs.pageBits_eq.symm.trans hpage)
  obtain rfl : 2 ^ n = size := Except.ok.inj (hs.size.symm.trans hsize)
  have hframe : bus₁.regions = bus.regions ∧ bus₁.slots = bus.slots ∧ bus₁.cache = bus.cache := by
    rcases storageFor_eq_ok hstorage with ⟨-, -, rfl, -⟩ | ⟨-, rfl, -⟩ <;> exact ⟨rfl, rfl, rfl⟩
  obtain ⟨hregions, hslots, hcache⟩ := hframe
  set r : Region :=
    { name := config.id, base := config.base, size := .ofNat (2 ^ n), readOnly := config.readOnly,
      wait := config.wait, storage } with hr
  have hrsize : r.size.toNat = 2 ^ n := by
    rw [hr, UInt32.toNat_ofNat']
    exact Nat.mod_eq_of_lt hlt
  have henlarged := enlarged_mapRegion (hslots ▸ hb.slots) (hcache ▸ hb.cache) hrsize hs.fits
    (UInt32.ofNat p)
  refine ⟨r, ?_, ⟨rfl, rfl, hrsize ▸ hsize, rfl, rfl⟩, fun k address hk => ?_, ?_⟩
  · rw [henlarged.regions, hregions]
  · rcases henlarged.regionNumber? hk with ⟨hnew, hlayout⟩ | ⟨hold, hlayout⟩
    · have hp : (UInt32.ofNat p).toNat = p := by
        have hslot := hs.page_le_slot
        rw [UInt32.toNat_ofNat']
        exact Nat.mod_eq_of_lt (by omega)
      obtain ⟨hbits, -⟩ := Cache.Layout.ofSize_spec hrsize (hp.symm ▸ hs.two_le)
        (hp.symm ▸ hs.page_le) (hp.symm ▸ hs.page_le_slot)
      rw [hlayout, hbits, hp]
      exact .inl ⟨hregions ▸ hnew, hs.page⟩
    · refine .inr ⟨?_, ?_⟩
      · rw [regionNumber?_eq_some_iff, hslots, ← regionNumber?_eq_some_iff] at hold
        exact hold
      · rw [hlayout, InstructionCache.layout, hcache]
        rfl
  · rcases storageFor_eq_ok hstorage with ⟨target, hm, -, r', hr', hname, hsame⟩ | ⟨hm, -, hlast⟩
    · exact .inl ⟨target, hm, r', hr', hname, hsame.symm⟩
    · exact .inr ⟨hm, hlast⟩

lemma Realizes.exists_pairs (h : bus.Realizes configs) (hr : bus.regions[k]? = some r) :
    ∃ c, bus.Pairs configs k c r := by
  obtain ⟨hlt, -⟩ := Array.getElem?_eq_some_iff.mp hr
  exact ⟨_, List.getElem?_eq_getElem (h.size ▸ hlt), hr⟩

namespace Extends

variable (he : bus.Extends config r bus') {c : RegionConfig} {r₁ : Region}
include he

/-- The regions from before keep their numbers. -/
lemma pairs (hp : bus.Pairs configs k c r₁) : bus'.Pairs (configs ++ [config]) k c r₁ := by
  obtain ⟨hlt, -⟩ := List.getElem?_eq_some_iff.mp hp.1
  obtain ⟨hlt', -⟩ := Array.getElem?_eq_some_iff.mp hp.2
  refine ⟨(List.getElem?_append_left hlt).trans hp.1, ?_⟩
  rw [he.regions, Array.getElem?_push, if_neg (by omega), hp.2]

/-- A region is one from before or the new one, which is the last. -/
lemma pairs_cases (hsize : bus.regions.size = configs.length)
    (hp : bus'.Pairs (configs ++ [config]) k c r₁) :
    bus.Pairs configs k c r₁ ∨ k = bus.regions.size ∧ c = config ∧ r₁ = r := by
  obtain ⟨hc, hr₁⟩ := hp
  rw [he.regions, Array.getElem?_push] at hr₁
  split at hr₁
  · rename_i hk
    rw [hk, hsize, List.getElem?_concat_length] at hc
    exact .inr ⟨hk, (Option.some.inj hc).symm, (Option.some.inj hr₁).symm⟩
  · obtain ⟨hlt, -⟩ := Array.getElem?_eq_some_iff.mp hr₁
    rw [List.getElem?_append_left (hsize ▸ hlt)] at hc
    exact .inl ⟨hc, hr₁⟩

/-- No region from before has the storage of a new one that is no mirror. -/
lemma storage_ne (hb : bus.Built) (hr₁ : bus.regions[k]? = some r₁) (hm : config.mirror = none) :
    r₁.storage ≠ r.storage := by
  have hlt := hb.storage k r₁ hr₁
  rcases he.storage with ⟨target, hsome, -⟩ | ⟨-, hlast⟩
  · exact nomatch hm.symm.trans hsome
  · omega

end Extends

/-- A region that is added is the configured one, and the regions before it stay as they are. -/
lemma Realizes.extends (hb : bus.Built) (h : bus.Realizes configs)
    (he : bus.Extends config r bus') : bus'.Realizes (configs ++ [config]) where
  size := by
    rw [he.regions, Array.size_push, h.size, List.length_append, List.length_singleton]
  describes k c r₁ hp := by
    rcases he.pairs_cases h.size hp with hp | ⟨-, rfl, rfl⟩
    · exact h.describes k c r₁ hp
    · exact he.describes
  pages k c r₁ address hp hk := by
    rcases he.pages k address hk with ⟨hnew, hpage⟩ | ⟨hnumber, hlayout⟩
    · rcases he.pairs_cases h.size hp with hp | ⟨-, rfl, rfl⟩
      · obtain ⟨hlt, -⟩ := Array.getElem?_eq_some_iff.mp hp.2
        omega
      · exact hpage
    · rcases he.pairs_cases h.size hp with hp | ⟨hnew, -, -⟩
      · rw [hlayout]
        exact h.pages k c r₁ address hp hnumber
      · have hlt := hb.number _ k ((regionNumber?_eq_some_iff _ _ _).mp hnumber).2
        omega
  mirror k c r₁ target hp hm := by
    rcases he.pairs_cases h.size hp with hp | ⟨-, rfl, rfl⟩
    · obtain ⟨k', c', r', hp', hid, hsame⟩ := h.mirror k c r₁ target hp hm
      exact ⟨k', c', r', he.pairs hp', hid, hsame⟩
    · obtain ⟨target', hm', r', hr', hname, hsame⟩ :=
        he.storage.resolve_right fun hnone => nomatch hm.symm.trans hnone.1
      obtain rfl : target = target' := Option.some.inj (hm.symm.trans hm')
      obtain ⟨k', hk'⟩ := Array.mem_iff_getElem?.mp hr'
      obtain ⟨c', hp'⟩ := h.exists_pairs hk'
      exact ⟨k', c', r', he.pairs hp', (h.describes k' c' r' hp').name ▸ hname, hsame⟩
  own k c r₁ k' c' r₂ hp hp' hm hm' hsame := by
    rcases he.pairs_cases h.size hp with hk | ⟨hk, hc, hr⟩ <;>
      rcases he.pairs_cases h.size hp' with hk' | ⟨hk', hc', hr'⟩
    · exact h.own k c r₁ k' c' r₂ hk hk' hm hm' hsame
    · exact absurd (hsame.trans (hr' ▸ rfl)) (he.storage_ne hb hk.2 (hc' ▸ hm'))
    · exact absurd (hsame.symm.trans (hr ▸ rfl)) (he.storage_ne hb hk'.2 (hc ▸ hm))
    · exact hk.trans hk'.symm

lemma realizes_empty : Bus.empty.Realizes [] where
  size := rfl
  describes _ _ _ hp := nomatch hp.1
  pages _ _ _ _ hp := nomatch hp.1
  mirror _ _ _ _ hp := nomatch hp.1
  own _ _ _ _ _ _ hp := nomatch hp.1

/-! ### The addresses of a region -/

/-- A region has the addresses that it claims. -/
lemma Placed.regionNumber?_iff (h : bus.Placed k r n) {address : Word}
    (hlt : address.toNat < 2 ^ 28) : bus.regionNumber? address = some k ↔ r.Claims address := by
  obtain ⟨x, hx⟩ := h.base
  rw [regionNumber?_eq_some_iff, and_iff_right hlt, h.slots, Region.Claims, h.size,
    MemoryMap.max_slotSize]
  generalize 2 ^ (n - 24) = span
  omega

/-- A bus is built as the map says. -/
structure Configured (bus : Bus) (map : MemoryMap) : Prop extends Realizes bus map.regions where
  ids : (map.regions.map RegionConfig.id).Nodup
  region : ∀ address r, address.toNat < MemoryMap.addressLimit →
    (bus.region? address = some r ↔ r ∈ bus.regions ∧ r.Claims address)
  layout : ∀ k c r address, bus.Pairs map.regions k c r → bus.region? address = some r →
    c.pageSizeBytes = .ok (2 ^ (bus.cache.layout address).pageBits.toNat) ∧
      (bus.cache.layout address).size.toNat = min r.size.toNat MemoryMap.slotSize

/-- Every memory map that passes its check is built, and built as it says. -/
theorem exists_configured {map : MemoryMap} (h : map.validate = .ok ()) :
    ∃ bus, ofMap map = .ok bus ∧ bus.Configured map := by
  obtain ⟨bus, hbus, hbuilt, hrealizes⟩ := exists_ofMap_of_step
    (P := fun configs bus => bus.Realizes configs) realizes_empty
    (fun hb h hs hadd _ => by
      obtain ⟨r, he⟩ := hb.extends hs hadd
      exact h.extends hb he) h
  refine ⟨bus, hbus, ⟨hrealizes, (MemoryMap.validate_eq_ok h).1, ?_, ?_⟩⟩
  · intro address r hlt
    rw [region?_eq_bind, Option.bind_eq_some_iff]
    constructor
    · rintro ⟨k, hk, hr⟩
      obtain ⟨n, hp⟩ := hbuilt.placed k r hr
      exact ⟨Array.mem_of_getElem? hr, (hp.regionNumber?_iff hlt).mp hk⟩
    · rintro ⟨hr, hclaims⟩
      obtain ⟨k, hk⟩ := Array.mem_iff_getElem?.mp hr
      obtain ⟨n, hp⟩ := hbuilt.placed k r hk
      exact ⟨k, (hp.regionNumber?_iff hlt).mpr hclaims, hk⟩
  · intro k c r address hp hr
    obtain ⟨k', hk', hr'⟩ := Option.bind_eq_some_iff.mp (bus.region?_eq_bind address ▸ hr)
    obtain ⟨hlt, -⟩ := (regionNumber?_eq_some_iff _ _ _).mp hk'
    obtain ⟨n', hplaced'⟩ := hbuilt.placed k' r hr'
    obtain ⟨n, hplaced⟩ := hbuilt.placed k r hp.2
    have hk : bus.regionNumber? address = some k :=
      (hplaced.regionNumber?_iff hlt).mpr ((hplaced'.regionNumber?_iff hlt).mp hk')
    refine ⟨hrealizes.pages k c r address hp hk, ?_⟩
    rw [hplaced.layout address hk, hplaced.size]
    rcases Nat.le_total n 24 with hn | hn
    · have hpow : 2 ^ n ≤ MemoryMap.slotSize := Nat.pow_le_pow_right (by decide) hn
      rw [min_eq_left hn, min_eq_left hpow]
    · have hpow : MemoryMap.slotSize ≤ 2 ^ n := Nat.pow_le_pow_right (n := 2) (by decide) hn
      rw [min_eq_right hn, min_eq_right hpow]
      rfl

/-- The map of the handheld, with its mirrors, is built as it says. -/
theorem exists_configured_handheld :
    MemoryMap.handheld.validate = .ok () ∧
      ∃ bus, ofMap .handheld = .ok bus ∧ bus.Configured .handheld :=
  ⟨validate_handheld, exists_configured validate_handheld⟩

end Bus

end Armv4T
