import Mathlib
import Armv4T.Proofs.Cache.Entries
import Armv4T.Proofs.Word.Align

/-!
# What a store invalidates

A store marks the pages from the one of its first byte to the one of its last byte, walking from the
start of a page to the start of the next. Where every layout is regular (`Cache.Layout.Regular`),
so that pages do not cross the border of a region, the walk meets the page of every byte in between
and no other page (`InstructionCache.page?_invalidate`). A range that runs past the last address
marks the page of its first byte alone.

So no reference into the page of a stored byte is live afterwards
(`InstructionCache.get?_invalidate_of_mem`).
-/

namespace Armv4T

namespace Cache

lemma regionIndex_eq (address : Word) : regionIndex address = address.toNat / 2 ^ 24 % 16 :=
  Word.toNat_field address (by decide) (by decide)

namespace Layout

/-- Pages have at least the size of a word and fit into the size after which the layout repeats,
which is a power of two and fits into a region. -/
structure Regular (l : Layout) : Prop where
  two_le : 2 ≤ l.pageBits.toNat
  size : ∃ n, l.pageBits.toNat ≤ n ∧ n ≤ 24 ∧ l.size.toNat = 2 ^ n

variable {l : Layout} {size pageBits : Word} {n : ℕ}

lemma Regular.pageBits_le (h : l.Regular) : l.pageBits.toNat ≤ 24 := by
  obtain ⟨n, hle, hn, -⟩ := h.size
  omega

/-- A layout for a size that is a power of two has this size, up to that of a region. -/
lemma ofSize_spec (hsize : size.toNat = 2 ^ n) (htwo : 2 ≤ pageBits.toNat)
    (hpage : pageBits.toNat ≤ n) (hregion : pageBits.toNat ≤ 24) :
    (ofSize size pageBits).pageBits = pageBits ∧
      (ofSize size pageBits).size.toNat = 2 ^ min n 24 := by
  have hbits : max 2 (min pageBits regionBits) = pageBits := by
    have hmin : min pageBits regionBits = pageBits :=
      if_pos (UInt32.le_iff_toNat_le.mpr hregion)
    rw [hmin]
    have hle : (2 : Word) ≤ pageBits := UInt32.le_iff_toNat_le.mpr htwo
    exact if_pos hle
  refine ⟨hbits, ?_⟩
  have hbytes : max size.toNat (1 <<< (max 2 (min pageBits regionBits)).toNat) = 2 ^ n := by
    rw [hbits, hsize, Nat.one_shiftLeft]
    exact max_eq_left (Nat.pow_le_pow_right (by decide) hpage)
  have hpow : min (2 ^ n) (2 ^ 24) = 2 ^ min n 24 := by
    rcases Nat.le_total n 24 with h | h
    · rw [min_eq_left h, min_eq_left (Nat.pow_le_pow_right (by decide) h)]
    · rw [min_eq_right h, min_eq_right (Nat.pow_le_pow_right (by decide) h)]
  have hregion : regionSize = 2 ^ 24 := rfl
  show (UInt32.ofNat (min (Nat.nextPowerOfTwo (max size.toNat
    (1 <<< (max 2 (min pageBits regionBits)).toNat))) regionSize)).toNat = _
  rw [hbytes, nextPowerOfTwo_two_pow, hregion, hpow, UInt32.toNat_ofNat']
  exact Nat.mod_eq_of_lt (Nat.pow_lt_pow_right (by decide) (by omega))

lemma regular_ofSize (hsize : size.toNat = 2 ^ n) (htwo : 2 ≤ pageBits.toNat)
    (hpage : pageBits.toNat ≤ n) (hregion : pageBits.toNat ≤ 24) :
    (ofSize size pageBits).Regular := by
  obtain ⟨hbits, hsize'⟩ := ofSize_spec hsize htwo hpage hregion
  refine ⟨by rwa [hbits], min n 24, ?_, min_le_right n 24, hsize'⟩
  rw [hbits]
  exact le_min hpage hregion

lemma regular_default : default.Regular :=
  regular_ofSize (n := 16) rfl (by decide) (by decide) (by decide)

/-- The page of an address is a quotient of its offset in the layout. -/
lemma Regular.pageIndex_eq (h : l.Regular) (hsize : l.size.toNat = 2 ^ n) (address : Word) :
    l.pageIndex address = address.toNat % 2 ^ n / 2 ^ l.pageBits.toNat := by
  have hlt : l.pageBits.toNat < 32 := by
    have hle := h.pageBits_le
    omega
  rw [pageIndex, Word.toNat_shiftRight_of_lt _ hlt, Word.toNat_and_sub_one hsize]

/-- Addresses of one region and one multiple of the page size have one page. -/
lemma Regular.pageIndex_congr (h : l.Regular) {a b : Word}
    (hab : a.toNat / 2 ^ l.pageBits.toNat = b.toNat / 2 ^ l.pageBits.toNat) :
    l.pageIndex a = l.pageIndex b := by
  obtain ⟨n, hle, -, hsize⟩ := h.size
  have hsplit (x : ℕ) : x % 2 ^ n / 2 ^ l.pageBits.toNat =
      x / 2 ^ l.pageBits.toNat % 2 ^ (n - l.pageBits.toNat) := by
    have hpow : 2 ^ n = 2 ^ l.pageBits.toNat * 2 ^ (n - l.pageBits.toNat) := by
      rw [← Nat.pow_add, Nat.add_sub_cancel' hle]
    rw [hpow, Nat.mod_mul_right_div_self]
  rw [h.pageIndex_eq hsize, h.pageIndex_eq hsize, hsplit, hsplit, hab]

end Layout

end Cache

namespace InstructionCache

open Cache

variable {c : InstructionCache} {id : HandleId}

/-- Every region has a regular layout. -/
def Regular (c : InstructionCache) : Prop := ∀ address, (c.layout address).Regular

lemma Regular.congr {c' : InstructionCache} (h : c.Regular) (hlayout : c'.layout = c.layout) :
    c'.Regular := by
  intro address
  rw [hlayout]
  exact h address

/-- The layout is that of the region. -/
lemma layout_congr (c : InstructionCache) {a b : Word} (h : regionIndex a = regionIndex b) :
    c.layout a = c.layout b := by
  rw [layout, layout, h]

/-- A reference points into the page of an address. -/
structure InPage (c : InstructionCache) (id : HandleId) (address : Word) : Prop where
  region : id.region = regionIndex address
  page : id.page = (c.layout address).pageIndex address

instance (c : InstructionCache) (id : HandleId) (address : Word) :
    Decidable (c.InPage id address) :=
  decidable_of_iff
    (id.region = regionIndex address ∧ id.page = (c.layout address).pageIndex address)
    ⟨fun h => ⟨h.1, h.2⟩, fun h => ⟨h.region, h.page⟩⟩

/-- Which page an address is in is a matter of the layouts. -/
lemma inPage_congr {c' : InstructionCache} (h : c'.layout = c.layout) {address : Word} :
    c'.InPage id address ↔ c.InPage id address := by
  constructor
  · rintro ⟨hregion, hpage⟩
    exact ⟨hregion, h ▸ hpage⟩
  · rintro ⟨hregion, hpage⟩
    exact ⟨hregion, h ▸ hpage⟩

/-- A page does not cross the border of a region. -/
lemma Regular.regionIndex_congr (hc : c.Regular) {a b : Word}
    (hab : a.toNat / 2 ^ (c.layout b).pageBits.toNat = b.toNat / 2 ^ (c.layout b).pageBits.toNat) :
    regionIndex a = regionIndex b := by
  have hpow :
      2 ^ 24 = 2 ^ (c.layout b).pageBits.toNat * 2 ^ (24 - (c.layout b).pageBits.toNat) := by
    rw [← Nat.pow_add, Nat.add_sub_cancel' (hc b).pageBits_le]
  rw [regionIndex_eq, regionIndex_eq, hpow, ← Nat.div_div_eq_div_mul, ← Nat.div_div_eq_div_mul, hab]

/-- Addresses of one multiple of the page size have one page. -/
lemma InPage.congr (hc : c.Regular) {a b : Word} (h : c.InPage id a)
    (hab : a.toNat / 2 ^ (c.layout b).pageBits.toNat = b.toNat / 2 ^ (c.layout b).pageBits.toNat) :
    c.InPage id b := by
  have hregion := hc.regionIndex_congr hab
  refine ⟨h.region.trans hregion, ?_⟩
  rw [h.page, c.layout_congr hregion]
  exact (hc b).pageIndex_congr hab

lemma Marked.get?_eq_none {c' : InstructionCache} (h : Marked c c') (hget : c.get? id = none) :
    c'.get? id = none := by
  rcases hget' : c'.get? id with _ | e
  · rfl
  · exact nomatch hget.symm.trans (h.get? hget')

/-- Where a page ends is a matter of the layout. -/
lemma nextPage_congr {c' : InstructionCache} (h : c'.layout = c.layout) (cursor : Word) :
    c'.nextPage cursor = c.nextPage cursor := by
  rw [nextPage, nextPage, h]

/-- The page after one that starts at an address starts a page size later, unless that is past the
last address. -/
lemma Regular.toNat_nextPage (hc : c.Regular) {cursor : Word}
    (haligned : 2 ^ (c.layout cursor).pageBits.toNat ∣ cursor.toNat) :
    (c.nextPage cursor).toNat = (cursor.toNat + 2 ^ (c.layout cursor).pageBits.toNat) % 2 ^ 32 := by
  have hle := (hc cursor).pageBits_le
  have hstep := Word.toNat_one_shiftLeft (n := (c.layout cursor).pageBits) (by omega)
  rw [nextPage, UInt32.toNat_add, Word.toNat_alignDown hstep, hstep, Nat.div_mul_cancel haligned]

/-- The walk goes on by a page as long as it does not wrap. -/
lemma Regular.toNat_nextPage_of_lt (hc : c.Regular) {cursor : Word}
    (haligned : 2 ^ (c.layout cursor).pageBits.toNat ∣ cursor.toNat)
    (hlt : cursor < c.nextPage cursor) :
    (c.nextPage cursor).toNat = cursor.toNat + 2 ^ (c.layout cursor).pageBits.toNat := by
  have hnext := hc.toNat_nextPage haligned
  have hlt' : cursor.toNat < (c.nextPage cursor).toNat := UInt32.lt_iff_toNat_lt.mp hlt
  have hpow : 2 ^ (c.layout cursor).pageBits.toNat ≤ 2 ^ 24 :=
    Nat.pow_le_pow_right (by decide) (hc cursor).pageBits_le
  have hcursor := cursor.toNat_lt
  rw [hnext] at hlt' ⊢
  rcases Nat.lt_or_ge (cursor.toNat + 2 ^ (c.layout cursor).pageBits.toNat) (2 ^ 32) with
    hfits | hwraps
  · exact Nat.mod_eq_of_lt hfits
  · rw [Nat.mod_eq_sub_mod hwraps, Nat.mod_eq_of_lt (by omega)] at hlt'
    omega

/-- The next page starts a page of its own region too. -/
lemma Regular.dvd_nextPage (hc : c.Regular) {cursor : Word}
    (haligned : 2 ^ (c.layout cursor).pageBits.toNat ∣ cursor.toNat)
    (hlt : cursor < c.nextPage cursor) :
    2 ^ (c.layout (c.nextPage cursor)).pageBits.toNat ∣ (c.nextPage cursor).toNat := by
  have hle := (hc cursor).pageBits_le
  have hnext := hc.toNat_nextPage_of_lt haligned hlt
  set p := (c.layout cursor).pageBits.toNat
  set next := c.nextPage cursor
  obtain ⟨x, hx⟩ := haligned
  have hsum : next.toNat = 2 ^ p * (x + 1) := by
    rw [Nat.mul_succ, ← hx, hnext]
  have hpow : 2 ^ 24 = 2 ^ p * 2 ^ (24 - p) := by
    rw [← Nat.pow_add, Nat.add_sub_cancel' hle]
  have hdiv : next.toNat / 2 ^ 24 = (x + 1) / 2 ^ (24 - p) ∧
      cursor.toNat / 2 ^ 24 = x / 2 ^ (24 - p) := by
    rw [hsum, hx, hpow]
    have hpos := Nat.two_pow_pos p
    exact ⟨Nat.mul_div_mul_left _ _ hpos, Nat.mul_div_mul_left _ _ hpos⟩
  by_cases hborder : 2 ^ (24 - p) ∣ x + 1
  · -- the next page is the first one of its region
    have hregion : 2 ^ 24 ∣ next.toNat := by
      rw [hsum, hpow]
      exact Nat.mul_dvd_mul_left _ hborder
    exact (Nat.pow_dvd_pow 2 (hc next).pageBits_le).trans hregion
  · have hsame : regionIndex next = regionIndex cursor := by
      rw [regionIndex_eq, regionIndex_eq, hdiv.1, hdiv.2, Nat.succ_div, if_neg hborder,
        Nat.add_zero]
    rw [c.layout_congr hsame]
    exact ⟨x + 1, hsum⟩

/-- What comes before the next page is in the page of the cursor. -/
lemma Regular.inPage_cursor_iff (hc : c.Regular) {cursor address : Word}
    (haligned : 2 ^ (c.layout cursor).pageBits.toNat ∣ cursor.toNat) (hge : cursor ≤ address)
    (hlt : address.toNat < cursor.toNat + 2 ^ (c.layout cursor).pageBits.toNat) :
    c.InPage id cursor ↔ c.InPage id address := by
  have hpage : address.toNat / 2 ^ (c.layout cursor).pageBits.toNat =
      cursor.toNat / 2 ^ (c.layout cursor).pageBits.toNat := by
    obtain ⟨x, hx⟩ := haligned
    have hge' : cursor.toNat ≤ address.toNat := UInt32.le_iff_toNat_le.mp hge
    rw [hx] at hge' hlt ⊢
    rw [Nat.mul_div_cancel_left _ (Nat.two_pow_pos _)]
    refine Nat.div_eq_of_lt_le ?_ ?_
    · rwa [Nat.mul_comm]
    · rwa [Nat.succ_mul, Nat.mul_comm x]
  have hlayout := c.layout_congr (hc.regionIndex_congr hpage)
  exact ⟨fun hin => hin.congr hc (by rw [hlayout, hpage]), fun hin => hin.congr hc hpage⟩

/-- A walk from the page of an address meets the page of a reference: it is the page of the address,
or of another one from there up to the last one. -/
def Meets (c : InstructionCache) (first last : Word) (id : HandleId) : Prop :=
  c.InPage id first ∨ ∃ address, first ≤ address ∧ address ≤ last ∧ c.InPage id address

/-- Marking the page of an address marks this page and no other. -/
lemma page?_invalidatePage (c : InstructionCache) (id : HandleId) (address : Word) :
    (c.invalidatePage address).page? id.region id.page =
      if c.InPage id address then (c.page? id.region id.page).map Page.invalidate
      else c.page? id.region id.page := by
  split
  · rename_i hin
    rw [invalidatePage, ← hin.region, ← hin.page, page?_modifyPage_self, page?_eq_join]
    cases c.cell? id.region id.page <;> rfl
  · rename_i hout
    exact page?_modifyPage_of_ne c _ fun h => hout ⟨h.1.symm, h.2.symm⟩

/-- No reference into a page that was marked is live. -/
lemma get?_eq_none_of_marked {c' : InstructionCache}
    (h : c'.page? id.region id.page = (c.page? id.region id.page).map Page.invalidate) :
    c'.get? id = none := by
  rw [get?, h]
  cases c.page? id.region id.page <;> rfl

lemma get?_invalidatePage_of_inPage {address : Word} (h : c.InPage id address) :
    (c.invalidatePage address).get? id = none :=
  get?_eq_none_of_marked ((c.page?_invalidatePage id address).trans (if_pos h))

/-- The last page of a walk is the only one that is left to be met. -/
lemma Regular.meets_iff_of_last (hc : c.Regular) {first cursor last : Word}
    (haligned : 2 ^ (c.layout cursor).pageBits.toNat ∣ cursor.toNat) (hge : cursor ≤ first)
    (hlt : first.toNat < cursor.toNat + 2 ^ (c.layout cursor).pageBits.toNat)
    (hstop : c.nextPage cursor ≤ cursor ∨ c.nextPage cursor > last) :
    c.Meets first last id ↔ c.InPage id cursor := by
  have hnext := hc.toNat_nextPage haligned
  have hpast {address : Word} (hle : address ≤ last) :
      address.toNat < cursor.toNat + 2 ^ (c.layout cursor).pageBits.toNat := by
    have haddress := address.toNat_lt
    rcases Nat.lt_or_ge (cursor.toNat + 2 ^ (c.layout cursor).pageBits.toNat) (2 ^ 32) with
      hfits | hwraps
    · rw [Nat.mod_eq_of_lt hfits] at hnext
      rcases hstop with hback | hend
      · have hback' := UInt32.le_iff_toNat_le.mp hback
        have hpos := Nat.two_pow_pos (c.layout cursor).pageBits.toNat
        omega
      · have hend' := UInt32.lt_iff_toNat_lt.mp hend
        have hle' := UInt32.le_iff_toNat_le.mp hle
        omega
    · omega
  constructor
  · rintro (hin | ⟨address, hge', hle, hin⟩)
    · exact (hc.inPage_cursor_iff haligned hge hlt).mpr hin
    · exact (hc.inPage_cursor_iff haligned (UInt32.le_trans hge hge') (hpast hle)).mpr hin
  · exact fun hin => .inl ((hc.inPage_cursor_iff haligned hge hlt).mp hin)

/-- A walk that goes on meets the page of the cursor and what the rest of the walk meets. -/
lemma Regular.meets_iff_of_next (hc : c.Regular) {first cursor last : Word}
    (haligned : 2 ^ (c.layout cursor).pageBits.toNat ∣ cursor.toNat) (hge : cursor ≤ first)
    (hlt : first.toNat < cursor.toNat + 2 ^ (c.layout cursor).pageBits.toNat)
    (hforward : cursor < c.nextPage cursor) (hwithin : c.nextPage cursor ≤ last) :
    c.Meets first last id ↔ c.InPage id cursor ∨ c.Meets (c.nextPage cursor) last id := by
  have hnext := hc.toNat_nextPage_of_lt haligned hforward
  have hsooner : first ≤ c.nextPage cursor := UInt32.le_iff_toNat_le.mpr (by omega)
  constructor
  · rintro (hin | ⟨address, hge', hle, hin⟩)
    · exact .inl ((hc.inPage_cursor_iff haligned hge hlt).mpr hin)
    · rcases Nat.lt_or_ge address.toNat (c.nextPage cursor).toNat with hbefore | hafter
      · rw [hnext] at hbefore
        exact .inl ((hc.inPage_cursor_iff haligned (UInt32.le_trans hge hge') hbefore).mpr hin)
      · exact .inr (.inr ⟨address, UInt32.le_iff_toNat_le.mpr hafter, hle, hin⟩)
  · rintro (hin | hin | ⟨address, hge', hle, hin⟩)
    · exact .inl ((hc.inPage_cursor_iff haligned hge hlt).mp hin)
    · exact .inr ⟨_, hsooner, hwithin, hin⟩
    · exact .inr ⟨address, UInt32.le_trans hsooner hge', hle, hin⟩

open Classical in
/-- A walk from the start of the page of an address marks the pages that it meets and no others. -/
lemma page?_invalidateFrom (hc : c.Regular) {first cursor last : Word}
    (haligned : 2 ^ (c.layout cursor).pageBits.toNat ∣ cursor.toNat) (hge : cursor ≤ first)
    (hlt : first.toNat < cursor.toNat + 2 ^ (c.layout cursor).pageBits.toNat) :
    (c.invalidateFrom cursor last).page? id.region id.page =
      if c.Meets first last id then (c.page? id.region id.page).map Page.invalidate
      else c.page? id.region id.page := by
  revert first
  fun_induction invalidateFrom c cursor last with
  | case1 c cursor next marked hstop =>
    intro first hge hlt
    have hmeets : c.Meets first last id ↔ c.InPage id cursor :=
      hc.meets_iff_of_last haligned hge hlt hstop
    simp only [marked, page?_invalidatePage, hmeets]
  | case2 c cursor next marked hgo ih =>
    intro first hge hlt
    obtain ⟨hback, hend⟩ := not_or.mp hgo
    have hforward : cursor < next := UInt32.not_le.mp hback
    have hlayout : marked.layout = c.layout := (marked_invalidatePage c cursor).layout
    have hmeets : c.Meets first last id ↔ c.InPage id cursor ∨ c.Meets next last id :=
      hc.meets_iff_of_next haligned hge hlt hforward (UInt32.not_lt.mp hend)
    have hmeets' : marked.Meets next last id ↔ c.Meets next last id := by
      simp only [Meets, inPage_congr hlayout]
    rw [ih (hc.congr hlayout) (by rw [hlayout]; exact hc.dvd_nextPage haligned hforward)
      (UInt32.le_refl next) (Nat.lt_add_of_pos_right (Nat.two_pow_pos _)), page?_invalidatePage]
    simp only [hmeets, hmeets']
    -- a page that is met twice is marked as if it were met once
    by_cases hin : c.InPage id cursor <;> by_cases hlater : c.Meets next last id <;>
      simp only [hin, hlater, if_true, if_false, or_true, or_false, Option.map_map]
    rfl

/-- A range marks the page of a reference: it has a byte, and the page is that of its first byte or
of one that follows up to its last one. -/
def Marks (c : InstructionCache) (start len : Word) (id : HandleId) : Prop :=
  len ≠ 0 ∧ c.Meets start (start + (len - 1)) id

open Classical in
/-- What is stored marks the pages of its bytes and no others. -/
theorem page?_invalidate (hc : c.Regular) (start len : Word) (id : HandleId) :
    (c.invalidate start len).page? id.region id.page =
      if c.Marks start len id then (c.page? id.region id.page).map Page.invalidate
      else c.page? id.region id.page := by
  unfold Marks
  rcases eq_or_ne len 0 with rfl | hlen
  · simp only [invalidate, if_true, ne_eq, not_true_eq_false, false_and, if_false]
  have hbits := (hc start).pageBits_le
  have hstep := Word.toNat_one_shiftLeft (n := (c.layout start).pageBits) (by omega)
  have hpage := Word.toNat_alignDown hstep start
  simp only [invalidate, ne_eq, hlen, not_false_eq_true, true_and]
  set page := Word.alignDown start (1 <<< (c.layout start).pageBits)
  have hregion : regionIndex page = regionIndex start := by
    refine hc.regionIndex_congr ?_
    rw [hpage, Nat.mul_div_cancel _ (Nat.two_pow_pos _)]
  have hlayout := c.layout_congr hregion
  refine page?_invalidateFrom hc ?_ ?_ ?_
  · rw [hlayout, hpage]
    exact Nat.dvd_mul_left _ _
  · rw [UInt32.le_iff_toNat_le, hpage]
    exact Nat.div_mul_le_self _ _
  · rw [hlayout, hpage]
    exact Nat.lt_div_mul_add (Nat.two_pow_pos _)

/-- A range that ends within the address space marks the pages of its bytes. -/
lemma marks_iff_of_fits {start len : Word} (hfits : start.toNat + len.toNat ≤ 2 ^ 32) :
    c.Marks start len id ↔ ∃ address : Word, start.toNat ≤ address.toNat ∧
      address.toNat < start.toNat + len.toNat ∧ c.InPage id address := by
  rcases eq_or_ne len 0 with rfl | hlen
  · refine iff_of_false (fun h => h.1 rfl) ?_
    rintro ⟨address, hge, hlt, -⟩
    have hzero : (0 : Word).toNat = 0 := rfl
    omega
  have hpos : len.toNat ≠ 0 := fun e => hlen (UInt32.toNat_inj.mp e)
  have hlast := Word.toNat_last hlen hfits
  constructor
  · rintro ⟨-, hin | ⟨address, hge, hle, hin⟩⟩
    · exact ⟨start, le_rfl, by omega, hin⟩
    · rw [UInt32.le_iff_toNat_le] at hge hle
      exact ⟨address, hge, by omega, hin⟩
  · rintro ⟨address, hge, hlt, hin⟩
    exact ⟨hlen, .inr ⟨address, UInt32.le_iff_toNat_le.mpr hge,
      UInt32.le_iff_toNat_le.mpr (by omega), hin⟩⟩

/-- What is stored invalidates the pages of all its bytes. -/
theorem get?_invalidate_of_mem (hc : c.Regular) {start len address : Word}
    (hfits : start.toNat + len.toNat ≤ 2 ^ 32) (hge : start.toNat ≤ address.toNat)
    (hlt : address.toNat < start.toNat + len.toNat) (hid : c.InPage id address) :
    (c.invalidate start len).get? id = none := by
  have hmarks := (marks_iff_of_fits hfits).mpr ⟨address, hge, hlt, hid⟩
  exact get?_eq_none_of_marked ((page?_invalidate hc start len id).trans (if_pos hmarks))

end InstructionCache

end Armv4T
