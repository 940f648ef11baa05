import Mathlib
import Armv4T.Proofs.Cache.Invalidate

/-!
# Room for every instruction

A regular layout has a page for every address and a slot for every instruction that can start in a
page. So an instruction that is inserted into the cache can be found there
(`InstructionCache.get?_insert_self`). Two instructions have one slot exactly if the addresses of
one of them mirror those of the other (`InstructionCache.place_eq_iff`).
-/

namespace Armv4T

namespace Cache

variable {l : Layout}

lemma Layout.Regular.pageIndex_lt (h : l.Regular) (address : Word) :
    l.pageIndex address < l.pageCount := by
  obtain ⟨n, hle, hn, hsize⟩ := h.size
  have hlt : l.pageBits.toNat < 32 := by omega
  rw [h.pageIndex_eq hsize, pageCount, Word.toNat_shiftRight_of_lt _ hlt, hsize]
  refine Nat.div_lt_div_of_lt_of_dvd (Nat.pow_dvd_pow 2 hle) ?_
  exact Nat.mod_lt _ (Nat.two_pow_pos n)

lemma Layout.Regular.slotIndex_lt (h : l.Regular) (address : Word) (set : InstrSet) :
    l.slotIndex address set < l.slotCount set := by
  have htwo := h.two_le
  have hle := h.pageBits_le
  have hoffset : (l.pageOffset address).toNat < 2 ^ l.pageBits.toNat := by
    have hpage := Word.toNat_one_shiftLeft (n := l.pageBits) (by omega)
    rw [pageOffset, Word.toNat_and_sub_one hpage]
    exact Nat.mod_lt _ (Nat.two_pow_pos _)
  have hcount {d : Word} (hd : d.toNat ≤ 2) :
      ((1 : Word) <<< (l.pageBits - d)).toNat = 2 ^ (l.pageBits.toNat - d.toNat) := by
    have hsub : (l.pageBits - d).toNat = l.pageBits.toNat - d.toNat :=
      UInt32.toNat_sub_of_le _ _ (UInt32.le_iff_toNat_le.mpr (by omega))
    rw [Word.toNat_one_shiftLeft (by omega), hsub]
  have hslot {d : Word} (hd : d.toNat ≤ 2) :
      (l.pageOffset address >>> d).toNat < ((1 : Word) <<< (l.pageBits - d)).toNat := by
    rw [hcount hd, Word.toNat_shiftRight_of_lt _ (by omega)]
    refine Nat.div_lt_of_lt_mul ?_
    rwa [← Nat.pow_add, Nat.add_sub_cancel' (by omega)]
  cases set with
  | arm => exact hslot (d := 2) (by decide)
  | thumb => exact hslot (d := 1) (by decide)

/-- The slot of an instruction is a quotient of its offset in the page. -/
lemma Layout.Regular.slotIndex_eq (h : l.Regular) (address : Word) (set : InstrSet) :
    l.slotIndex address set =
      address.toNat % 2 ^ l.pageBits.toNat / set.width.toNat := by
  have hle := h.pageBits_le
  have hpage := Word.toNat_one_shiftLeft (n := l.pageBits) (by omega)
  have hslot {d : Word} (hd : d.toNat < 32) : (l.pageOffset address >>> d).toNat =
      address.toNat % 2 ^ l.pageBits.toNat / 2 ^ d.toNat := by
    rw [Word.toNat_shiftRight_of_lt _ hd, pageOffset, Word.toNat_and_sub_one hpage]
  cases set with
  | arm => exact hslot (d := 2) (by decide)
  | thumb => exact hslot (d := 1) (by decide)

/-- The page and the slot of an address together are its position in the layout. -/
lemma position_eq_iff {n p e : ℕ} (hp : p ≤ n) (he : e ≤ p) (a b : ℕ) :
    a % 2 ^ n / 2 ^ p = b % 2 ^ n / 2 ^ p ∧ a % 2 ^ p / 2 ^ e = b % 2 ^ p / 2 ^ e ↔
      a % 2 ^ n / 2 ^ e = b % 2 ^ n / 2 ^ e := by
  have hpow : 2 ^ p = 2 ^ e * 2 ^ (p - e) := by
    rw [← Nat.pow_add, Nat.add_sub_cancel' he]
  have hpage (x : ℕ) : x % 2 ^ n / 2 ^ p = x % 2 ^ n / 2 ^ e / 2 ^ (p - e) := by
    rw [hpow, Nat.div_div_eq_div_mul]
  have hslot (x : ℕ) : x % 2 ^ p / 2 ^ e = x % 2 ^ n / 2 ^ e % 2 ^ (p - e) := by
    rw [← Nat.mod_mod_of_dvd x (Nat.pow_dvd_pow 2 hp), hpow, Nat.mod_mul_right_div_self]
  constructor
  · rintro ⟨hdiv, hmod⟩
    rw [hpage, hpage] at hdiv
    rw [hslot, hslot] at hmod
    rw [← Nat.div_add_mod (a % 2 ^ n / 2 ^ e) (2 ^ (p - e)), hdiv, hmod, Nat.div_add_mod]
  · intro h
    rw [hpage, hpage, hslot, hslot, h]
    exact ⟨rfl, rfl⟩

/-- A handle that is put into one of the slots is found there. -/
lemma Page.get?_put {p : Page} {set : InstrSet} {slot count : ℕ} (h : Handle) (hslot : slot < count)
    (hslots : p.slots set = #[] ∨ (p.slots set).size = count) :
    (p.put set slot count h).get? set slot = some h := by
  rw [get?, put, slots_mapSlots, if_pos rfl]
  rcases hslots with hempty | hsize
  · rw [hempty]
    show ((Array.replicate count none).setIfInBounds slot (some h))[slot]?.join = _
    rw [Array.getElem?_setIfInBounds_self, Array.size_replicate, if_pos hslot]
    rfl
  · have hne : (p.slots set).isEmpty = false := by
      rw [Array.isEmpty, hsize]
      exact decide_eq_false (by omega)
    rw [hne]
    show ((p.slots set).setIfInBounds slot (some h))[slot]?.join = _
    rw [Array.getElem?_setIfInBounds_self, hsize, if_pos hslot]
    rfl

end Cache

namespace InstructionCache

open Cache

variable {c : InstructionCache}

/-- An inserted instruction is found, if its page can be created or has slots for it. -/
lemma get?_insert_self {h : Handle} {page : Option Page}
    (hcell : c.cell? (regionIndex h.address) ((c.layout h.address).pageIndex h.address) = some page)
    (hregular : (c.layout h.address).Regular)
    (hslots : (page.getD {}).refresh.slots h.set = #[] ∨
      ((page.getD {}).refresh.slots h.set).size = (c.layout h.address).slotCount h.set) :
    (c.insert h).2.get? (c.insert h).1 = some h := by
  have hpage : c.pageAt h.address = (page.getD {}).refresh := by
    rw [pageAt, page?_eq_join, hcell]
    rfl
  rw [get?_eq_some_iff]
  refine ⟨_, ?_, ?_, ?_, Page.get?_put h (hregular.slotIndex_lt h.address h.set) hslots⟩
  · have hself := page?_modifyPage_self c (regionIndex h.address)
      ((c.layout h.address).pageIndex h.address) fun p => some ((p.getD {}).refresh.put h.set
        ((c.layout h.address).slotIndex h.address h.set) ((c.layout h.address).slotCount h.set) h)
    rw [hcell] at hself
    exact hself
  · rw [Page.put_invalid, Page.refresh_invalid]
  · rw [Page.put_generation, ← hpage]
    rfl

/-- Two points have the same slot exactly if they are of the same set and in the same region of the
cache, and are the same instruction up to the size after which the region repeats. -/
theorem place_eq_iff (hc : c.Regular) {p q : Point} {n : ℕ}
    (hsize : (c.layout p.address).size.toNat = 2 ^ n) :
    c.place p = c.place q ↔ p.set = q.set ∧ regionIndex p.address = regionIndex q.address ∧
      p.address.toNat % 2 ^ n / p.set.width.toNat =
        q.address.toNat % 2 ^ n / p.set.width.toNat := by
  obtain ⟨set, a⟩ := p
  obtain ⟨set', b⟩ := q
  obtain ⟨n', hle, -, hsize'⟩ := (hc a).size
  obtain rfl : n' = n := Nat.pow_right_injective le_rfl (hsize'.symm.trans hsize)
  have htwo := (hc a).two_le
  obtain ⟨e, he, hwidth⟩ : ∃ e ≤ 2, set.width.toNat = 2 ^ e := by
    cases set
    · exact ⟨2, le_rfl, rfl⟩
    · exact ⟨1, by decide, rfl⟩
  have hposition : (c.layout a).pageIndex a = (c.layout a).pageIndex b ∧
      (c.layout a).slotIndex a set = (c.layout a).slotIndex b set ↔
        a.toNat % 2 ^ n' / 2 ^ e = b.toNat % 2 ^ n' / 2 ^ e := by
    rw [(hc a).pageIndex_eq hsize, (hc a).pageIndex_eq hsize, (hc a).slotIndex_eq,
      (hc a).slotIndex_eq, hwidth]
    exact position_eq_iff hle (he.trans htwo) a.toNat b.toNat
  rw [hwidth, ← hposition]
  constructor
  · intro h
    have hset : set = set' := congrArg HandleId.set h
    have hregion : regionIndex a = regionIndex b := congrArg HandleId.region h
    subst hset
    have hpage : (c.layout a).pageIndex a = (c.layout b).pageIndex b := congrArg HandleId.page h
    have hslot : (c.layout a).slotIndex a set = (c.layout b).slotIndex b set :=
      congrArg HandleId.slot h
    rw [← c.layout_congr hregion] at hpage hslot
    exact ⟨rfl, hregion, hpage, hslot⟩
  · rintro ⟨rfl, hregion, hpage, hslot⟩
    rw [c.layout_congr hregion] at hpage hslot
    show (⟨_, _, _, _, _⟩ : HandleId) = ⟨_, _, _, _, _⟩
    rw [hregion, c.layout_congr hregion, hpage, hslot]

end InstructionCache

end Armv4T
