import Mathlib
import Armv4T.MemoryMap.Basic

/-!
# What a checked memory map says

A region that passes the check has a size and a page size that are powers of two, pages that are not
larger than the region or a slot, and a base at the start of a slot; it ends within the decoded
range, mirrors a region before it if it mirrors one, and overlaps none of them
(`MemoryMap.checkRegion_eq_ok`).
-/

namespace Armv4T

/-! ### Checks that succeed -/

section

variable {ε α β : Type} {b : β} {e : ε}

lemma bind_eq_ok {x : Except ε α} {f : α → Except ε β} :
    (x >>= f) = .ok b ↔ ∃ a, x = .ok a ∧ f a = .ok b := by
  cases x with
  | error e => exact ⟨nofun, fun ⟨_, h, _⟩ => nomatch h⟩
  | ok a =>
    constructor
    · exact fun h => ⟨a, rfl, h⟩
    · rintro ⟨a', ha, h⟩
      cases ha
      exact h

/-- A computation that goes on after a check has passed the check. -/
lemma throw_else_eq_ok {c : Prop} [Decidable c] {k : Unit → Except ε β} :
    (if c then throw e >>= k else k ()) = .ok b ↔ ¬c ∧ k () = .ok b := by
  split
  · rename_i h
    exact ⟨nofun, fun h' => absurd h h'.1⟩
  · rename_i h
    exact (and_iff_right h).symm

end

namespace Size

lemma exists_eq_two_pow {n : ℕ} (h : isPowerOfTwo n = true) : ∃ k, n = 2 ^ k := by
  refine Nat.ne_zero_and_sub_one_eq_zero_iff_isPowerOfTwo.mp ?_
  simpa [isPowerOfTwo] using h

/-- The lowest set bit of a power of two is the only one. -/
lemma trailingZeros_two_pow {k : ℕ} (h : k < 64) : trailingZeros (2 ^ k) = k := by
  have hfind : (List.range 64).find? (2 ^ k).testBit = some k := by
    refine List.find?_range_eq_some.mpr ⟨Nat.testBit_two_pow_self, List.mem_range.mpr h, ?_⟩
    intro j hj
    rw [Nat.testBit_two_pow_of_ne (by omega)]
    rfl
  rw [trailingZeros, hfind]
  rfl

end Size

/-- A region of `2 ^ n` bytes with pages of `2 ^ p` bytes that says both correctly. -/
structure RegionConfig.Sound (r : RegionConfig) (n p : ℕ) : Prop where
  size : r.sizeBytes = .ok (2 ^ n)
  page : r.pageSizeBytes = .ok (2 ^ p)
  two_le : 2 ≤ p
  page_le : p ≤ n
  page_le_slot : p ≤ 24
  base : 2 ^ 24 ∣ r.base.toNat
  fits : r.base.toNat / 2 ^ 24 + 2 ^ (n - 24) ≤ 16

lemma RegionConfig.Sound.pageBits_eq {r : RegionConfig} {n p : ℕ} (h : r.Sound n p) :
    r.pageBits = .ok p := by
  have hslot := h.page_le_slot
  rw [pageBits, h.page]
  exact congrArg Except.ok (Size.trailingZeros_two_pow (by omega))

namespace MemoryMap

/-- A region claims at least a slot. -/
lemma max_slotSize (n : ℕ) : max (2 ^ n) slotSize = 2 ^ 24 * 2 ^ (n - 24) := by
  rw [show slotSize = 2 ^ 24 from rfl, ← Nat.pow_add]
  rcases Nat.le_total n 24 with h | h
  · rw [max_eq_right (Nat.pow_le_pow_right (by decide) h), Nat.sub_eq_zero_of_le h]
  · rw [max_eq_left (Nat.pow_le_pow_right (by decide) h), Nat.add_sub_cancel' h]

/-- A page that is a power of two between a word and the smaller of a region and a slot. -/
lemma exists_page {page n : ℕ}
    (h : ¬(!Size.isPowerOfTwo page || page < 4 || page > min (2 ^ n) slotSize) = true) :
    ∃ p, page = 2 ^ p ∧ 2 ≤ p ∧ p ≤ n ∧ p ≤ 24 := by
  simp only [Bool.or_eq_true, Bool.not_eq_true', decide_eq_true_eq, not_or, Bool.not_eq_false,
    Nat.not_lt, gt_iff_lt] at h
  obtain ⟨⟨hpow, hfour⟩, hmin⟩ := h
  obtain ⟨p, rfl⟩ := Size.exists_eq_two_pow hpow
  refine ⟨p, rfl, ?_, ?_, ?_⟩
  · exact (Nat.pow_le_pow_iff_right (a := 2) (by decide)).mp hfour
  · exact (Nat.pow_le_pow_iff_right (a := 2) (by decide)).mp (hmin.trans (min_le_left _ _))
  · exact (Nat.pow_le_pow_iff_right (a := 2) (by decide)).mp (hmin.trans (min_le_right _ _))

/-- What is known of a region that passes the check. -/
theorem checkRegion_eq_ok {earlier : List Span} {r : RegionConfig} {span : Span}
    (h : checkRegion earlier r = .ok span) :
    ∃ n p, r.Sound n p ∧
      span = ⟨r.id, r.base.toNat, r.base.toNat + 2 ^ 24 * 2 ^ (n - 24)⟩ ∧
      (∀ target, r.mirror = some target → ∃ s ∈ earlier, s.id = target) ∧
      ∀ s ∈ earlier, span.overlaps s = false := by
  unfold checkRegion at h
  obtain ⟨size, hsize, h₁⟩ := bind_eq_ok.mp h
  obtain ⟨hpow, h₂⟩ := throw_else_eq_ok.mp h₁
  obtain ⟨hbase, h₃⟩ := throw_else_eq_ok.mp h₂
  obtain ⟨page, hpage, h₄⟩ := bind_eq_ok.mp h₃
  obtain ⟨hpages, h₅⟩ := throw_else_eq_ok.mp h₄
  clear h h₁ h₂ h₃ h₄
  obtain ⟨n, rfl⟩ := Size.exists_eq_two_pow (by simpa using hpow)
  obtain ⟨p, rfl, htwo, hle, hslot⟩ := exists_page hpages
  set own : Span := ⟨r.id, r.base.toNat, r.base.toNat + max (2 ^ n) slotSize⟩ with hown
  obtain ⟨hmirror, hlimit, hfind, rfl⟩ :
      (∀ target, r.mirror = some target → ∃ s ∈ earlier, s.id = target) ∧
        ¬own.stop > addressLimit ∧ earlier.find? own.overlaps = none ∧ own = span := by
    rcases hm : r.mirror with _ | target
    · rw [hm] at h₅
      obtain ⟨hlimit, h₆⟩ := throw_else_eq_ok.mp h₅
      dsimp only at h₆
      rcases hfind : earlier.find? own.overlaps with _ | other
      · rw [hfind] at h₆
        exact ⟨nofun, hlimit, rfl, Except.ok.inj h₆⟩
      · rw [hfind] at h₆
        exact nomatch h₆
    · rw [hm] at h₅
      obtain ⟨hany, h₆⟩ := throw_else_eq_ok.mp h₅
      obtain ⟨hlimit, h₇⟩ := throw_else_eq_ok.mp h₆
      dsimp only at h₇
      rcases hfind : earlier.find? own.overlaps with _ | other
      · rw [hfind] at h₇
        refine ⟨?_, hlimit, rfl, Except.ok.inj h₇⟩
        rintro target ⟨rfl⟩
        simpa using hany
      · rw [hfind] at h₇
        exact nomatch h₇
  have hstop : own.stop = r.base.toNat + 2 ^ 24 * 2 ^ (n - 24) := by
    rw [← max_slotSize]
  refine ⟨n, p, ?_, ?_, hmirror, ?_⟩
  · have hbase' : 2 ^ 24 ∣ r.base.toNat := by
      refine Nat.dvd_of_mod_eq_zero ?_
      simpa [slotSize] using hbase
    refine ⟨hsize, hpage, htwo, hle, hslot, hbase', ?_⟩
    rw [hstop, show addressLimit = 2 ^ 28 from rfl] at hlimit
    generalize 2 ^ (n - 24) = span at hlimit ⊢
    omega
  · rw [hown, max_slotSize]
  · intro s hs
    simpa using List.find?_eq_none.mp hfind s hs

/-- A region that is found twice has an id that was seen before. -/
lemma nodup_of_duplicate? {seen : List String} {regions : List RegionConfig}
    (h : duplicate? seen regions = none) (hseen : seen.Nodup) :
    (seen ++ regions.map RegionConfig.id).Nodup := by
  induction regions generalizing seen with
  | nil => rwa [List.map_nil, List.append_nil]
  | cons r regions ih =>
    unfold duplicate? at h
    split at h
    · exact nomatch h
    · rename_i hnew
      have hnodup : (seen ++ [r.id]).Nodup := by
        refine List.nodup_append.mpr ⟨hseen, List.nodup_singleton _, ?_⟩
        rintro a ha b hb rfl
        rw [List.mem_singleton.mp hb] at ha
        exact hnew (List.contains_iff_mem.mpr ha)
      have hrest := ih h hnodup
      rwa [List.append_assoc] at hrest

/-- The ids of a checked map are different, and its regions are checked in order. -/
lemma validate_eq_ok {map : MemoryMap} (h : map.validate = .ok ()) :
    (map.regions.map RegionConfig.id).Nodup ∧ checkRegions [] map.regions = .ok () := by
  unfold validate at h
  obtain ⟨-, h₁⟩ := throw_else_eq_ok.mp h
  rcases hduplicate : duplicate? [] map.regions with _ | id
  · dsimp only at h₁
    rw [hduplicate] at h₁
    exact ⟨nodup_of_duplicate? hduplicate List.nodup_nil, h₁⟩
  · dsimp only at h₁
    rw [hduplicate] at h₁
    exact nomatch h₁

end MemoryMap

end Armv4T
