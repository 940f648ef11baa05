import Mathlib
import Armv4T.Proofs.Cache.Operations

/-!
# What the slot of an address holds

The region, the page, the slot and the set of an address name one slot of the cache
(`InstructionCache.place`). What is in it when the page is handed out (`InstructionCache.held?`) is
what a look-up sees. This file says for each request to the cache what the slot holds afterwards: an
insertion into the slot replaces the entry, a successor is recorded in it, a range that touches the
page, emptying the cache and a new layout of the region take it away, and nothing else happens to
it. The requests are the operations (`InstructionCache.Operation`) and giving a region a new layout.
-/

namespace Armv4T

/-- A handle without the successor that is recorded in it. -/
def Handle.unlinked (h : Handle) : Handle := { h with next := none }

namespace Cache

/-- Regular layouts are those that can be asked for. -/
lemma Layout.regular_iff_exists_ofSize (l : Layout) :
    l.Regular ↔ ∃ size pageBits, l = ofSize size pageBits := by
  constructor
  · intro h
    obtain ⟨n, hle, hn, hsize⟩ := h.size
    obtain ⟨hbits, hbytes⟩ := ofSize_spec hsize h.two_le hle h.pageBits_le
    refine ⟨l.size, l.pageBits, ?_⟩
    have hsame : (ofSize l.size l.pageBits).size = l.size := by
      rw [← UInt32.toNat_inj, hbytes, hsize, min_eq_left hn]
    exact congrArg₂ Layout.mk hsame.symm hbits.symm
  · rintro ⟨size, pageBits, rfl⟩
    exact ofSize_regular size pageBits

namespace Page

/-- A page that was handed out is handed out again as it is. -/
@[simp] lemma refresh_refresh (p : Page) : p.refresh.refresh = p.refresh := by
  rw [refresh, refresh_invalid]
  rfl

/-- Putting a handle into a slot leaves what is in the others. -/
lemma get?_put_other {p : Page} {set set' : InstrSet} {slot slot' count : ℕ} (h : Handle)
    (hne : ¬(set = set' ∧ slot = slot')) :
    (p.put set slot count h).get? set' slot' = p.get? set' slot' := by
  rw [get?, put, slots_mapSlots]
  split
  · rename_i hset
    have hslot : slot ≠ slot' := fun e => hne ⟨hset, e⟩
    rw [Array.getElem?_setIfInBounds_ne hslot, get?]
    split
    · rename_i hempty
      rw [Array.isEmpty_iff] at hempty
      rw [Array.getElem?_replicate, hempty]
      split <;> rfl
    · rfl
  · rfl

end Page

end Cache

namespace InstructionCache

open Cache

variable {c c' : InstructionCache} {p : Point}

/-- What the slot of a point holds when its page is handed out. -/
def held? (c : InstructionCache) (p : Point) : Option Handle :=
  (c.pageAt p.address).get? p.set ((c.layout p.address).slotIndex p.address p.set)

/-- A look-up finds what the slot holds if it was inserted for the address. -/
lemma find?_map_snd (c : InstructionCache) (address : Word) (set : InstrSet) :
    (c.find? address set).map Prod.snd =
      (c.held? ⟨set, address⟩).filter fun h => h.address = address := by
  unfold find? held?
  dsimp only
  rcases (c.pageAt address).get? set ((c.layout address).slotIndex address set) with _ | h
  · rfl
  · by_cases ha : h.address = address
    · simp [Option.filter, ha]
    · simp [Option.filter, ha]

/-! ### One page -/

/-- What a slot holds depends on its page and on the layout of its region. -/
lemma held?_congr (hlayout : c'.layout p.address = c.layout p.address)
    (hpage : c'.page? (c.place p).region (c.place p).page =
      c.page? (c.place p).region (c.place p).page) : c'.held? p = c.held? p := by
  have hpage' : c'.pageAt p.address = c.pageAt p.address := by
    rw [pageAt, pageAt, hlayout]
    exact congrArg (fun q => (q.getD {}).refresh) hpage
  rw [held?, held?, hpage', hlayout]

/-- What a slot holds after its page was changed. -/
lemma held?_modifyPage_self {f : Option Page → Option Page} {q : Option Page}
    (hcell : c.cell? (c.place p).region (c.place p).page = some q) :
    (c.modifyPage (c.place p).region (c.place p).page f).held? p =
      ((f q).getD {}).refresh.get? p.set (c.place p).slot := by
  have hpage : (c.modifyPage (c.place p).region (c.place p).page f).pageAt p.address =
      ((f q).getD {}).refresh := by
    have hself := page?_modifyPage_self c (c.place p).region (c.place p).page f
    rw [hcell] at hself
    rw [pageAt, layout_modifyPage]
    exact congrArg (fun q => (q.getD {}).refresh) hself
  rw [held?, hpage, layout_modifyPage]
  rfl

lemma held?_modifyPage_of_ne {region page : ℕ} (f : Option Page → Option Page)
    (h : ¬(region = (c.place p).region ∧ page = (c.place p).page)) :
    (c.modifyPage region page f).held? p = c.held? p :=
  held?_congr (by rw [layout_modifyPage]) (page?_modifyPage_of_ne c f h)

lemma held?_eq_of_cell? {q : Option Page}
    (hcell : c.cell? (c.place p).region (c.place p).page = some q) :
    c.held? p = (q.getD {}).refresh.get? p.set (c.place p).slot := by
  have hpage : c.pageAt p.address = (q.getD {}).refresh := by
    show ((c.cell? (c.place p).region (c.place p).page).join.getD {}).refresh = _
    rw [hcell]
    rfl
  rw [held?, hpage]
  rfl

/-- Every slot of a roomy cache has a place for its page. -/
lemma Roomy.cell_place (h : c.Roomy) (p : Point) :
    ∃ q, c.cell? (c.place p).region (c.place p).page = some q ∧
      ∀ page ∈ q, page.Sized (c.layout p.address) :=
  h.cell p.address

/-! ### Operations -/

/-- Handing out a page changes nothing in the slots. -/
lemma Roomy.held?_touch (h : c.Roomy) (address : Word) : (c.touch address).held? p = c.held? p := by
  obtain ⟨q, hcell, -⟩ := h.cell_place p
  by_cases hsame : regionIndex address = (c.place p).region ∧
      (c.layout address).pageIndex address = (c.place p).page
  · rw [InstructionCache.touch, hsame.1, hsame.2, held?_modifyPage_self hcell,
      held?_eq_of_cell? hcell, Option.getD_some, Page.refresh_refresh]
  · exact held?_modifyPage_of_ne _ hsame

/-- An insertion into the slot replaces what is there, and any other leaves it. -/
lemma Roomy.held?_insert (h : c.Roomy) (e : Handle) :
    (c.insert e).2.held? p = if c.place e.point = c.place p then some e else c.held? p := by
  set change : Option Page → Option Page := fun q => some ((q.getD {}).refresh.put e.set
    (c.place e.point).slot ((c.layout e.address).slotCount e.set) e)
  have hinsert : (c.insert e).2.held? p =
      (c.modifyPage (c.place e.point).region (c.place e.point).page change).held? p := rfl
  rw [hinsert]
  obtain ⟨q, hcell, -⟩ := h.cell_place p
  split
  · rename_i hplace
    obtain ⟨q', hcell', hsized⟩ := h.cell_place e.point
    obtain rfl : q = q' := by
      rw [hplace, hcell] at hcell'
      exact Option.some.inj hcell'
    have hset : e.set = p.set := congrArg HandleId.set hplace
    have hslot := (h.regular e.address).slotIndex_lt e.address e.set
    have hput := Page.get?_put e hslot (sized_refresh hsized e.set)
    rw [hplace, held?_modifyPage_self hcell, ← hset, ← hplace]
    show (Page.put _ _ _ _ _).refresh.get? _ _ = _
    rw [Page.get?_refresh, Page.put_invalid, Page.refresh_invalid]
    exact hput
  · rename_i hplace
    by_cases hpage : (c.place e.point).region = (c.place p).region ∧
        (c.place e.point).page = (c.place p).page
    · have hother : ¬(e.set = p.set ∧ (c.place e.point).slot = (c.place p).slot) := by
        rintro ⟨hset, hslot⟩
        refine hplace (HandleId.mk.injEq .. ▸ ⟨hpage.1, hpage.2, hslot, hset, rfl⟩)
      rw [hpage.1, hpage.2, held?_modifyPage_self hcell, held?_eq_of_cell? hcell]
      show (Page.put _ _ _ _ _).refresh.get? _ _ = _
      rw [Page.get?_refresh, Page.put_invalid, Page.refresh_invalid]
      exact Page.get?_put_other e hother
    · exact held?_modifyPage_of_ne _ hpage

/-- Recording a successor changes no more than that. -/
lemma Roomy.held?_link (h : c.Roomy) (id next : HandleId) :
    ((c.link id next).held? p).map Handle.unlinked = (c.held? p).map Handle.unlinked := by
  unfold InstructionCache.link
  split
  · by_cases hpage : id.region = (c.place p).region ∧ id.page = (c.place p).page
    · obtain ⟨q, hcell, -⟩ := h.cell_place p
      rw [hpage.1, hpage.2, held?_modifyPage_self hcell, held?_eq_of_cell? hcell]
      cases q with
      | none => rfl
      | some page =>
        show ((page.link _ _ _).refresh.get? _ _).map _ = (page.refresh.get? _ _).map _
        rw [Page.get?_refresh, Page.get?_refresh, Page.link_invalid, Page.get?_link]
        split
        · rfl
        · split
          · rw [Option.map_map]
            rfl
          · rfl
    · rw [held?_modifyPage_of_ne _ hpage]
  · rfl

/-- Emptying the cache leaves nothing in any slot. -/
lemma held?_clear (c : InstructionCache) (p : Point) : c.clear.held? p = none := by
  rw [held?, pageAt, page?_clear, layout_clear]
  cases c.page? (regionIndex p.address) ((c.layout p.address).pageIndex p.address) with
  | none => exact Page.get?_default _ _
  | some page => rw [Option.map_some, Option.getD_some, Page.get?_refresh]; rfl

/-! ### Ranges -/

/-- A range of bytes touches the page of a point: one of its addresses is in the page. -/
def Touches (c : InstructionCache) (start len : Word) (p : Point) : Prop :=
  ∃ address : Word, start.toNat ≤ address.toNat ∧ address.toNat < start.toNat + len.toNat ∧
    c.InPage (c.place p) address

/-- A slot whose page cannot be resolved holds nothing. -/
lemma held?_eq_none (hlayout : c'.layout = c.layout)
    (h : ∀ generation, c'.get? { c.place p with generation } = none) : c'.held? p = none := by
  rcases hheld : c'.held? p with _ | e
  · rfl
  · obtain ⟨page, hpage, hvalid, -, hslot⟩ :=
      (get?_pageAt_eq_some_iff c' p.address p.set _ e).mp hheld
    rw [hlayout] at hpage hslot
    have hget : c'.get? { c.place p with generation := page.generation } = some e :=
      (get?_eq_some_iff c' _ e).mpr ⟨page, hpage, hvalid, rfl, hslot⟩
    exact nomatch (h _).symm.trans hget

/-- A range that touches the page takes away what the slot holds. -/
lemma Roomy.held?_invalidate_of_touches (h : c.Roomy) {start len : Word}
    (hfits : start.toNat + len.toNat ≤ 2 ^ 32) (htouches : c.Touches start len p) :
    (c.invalidate start len).held? p = none := by
  obtain ⟨address, hge, hlt, hregion, hpage⟩ := htouches
  exact held?_eq_none (c.marked_invalidate start len).layout fun _ =>
    get?_invalidate_of_mem h.regular hfits hge hlt ⟨hregion, hpage⟩

/-- A range that does not touch the page leaves what the slot holds. -/
lemma Roomy.held?_invalidate_of_not_touches (h : c.Roomy) {start len : Word}
    (hfits : start.toNat + len.toNat ≤ 2 ^ 32) (htouches : ¬c.Touches start len p) :
    (c.invalidate start len).held? p = c.held? p := by
  refine held?_congr (by rw [(c.marked_invalidate start len).layout]) ?_
  have hspared : ¬c.Marks start len (c.place p) := fun hmarks =>
    htouches ((marks_iff_of_fits hfits).mp hmarks)
  exact (page?_invalidate h.regular start len (c.place p)).trans (if_neg hspared)

/-! ### A new layout -/

/-- The regions of a cache after one was given a new layout. -/
lemma cell?_configure (c : InstructionCache) (region : ℕ) (l : Layout) (region' page : ℕ) :
    (c.configure region l).cell? region' page =
      if region % regionCount = region' then
        c.regions[region']?.bind fun _ => (CacheRegion.ofLayout l).pages[page]?
      else c.cell? region' page := by
  obtain ⟨regions, compiled⟩ := c
  simp only [configure, cell?, modifyRegion, Array.getElem?_modify]
  split
  · rw [Option.bind_map]
    rfl
  · rfl

lemma layout_configure_of_ne (c : InstructionCache) {region : ℕ} (l : Layout) {address : Word}
    (h : region % regionCount ≠ regionIndex address) :
    (c.configure region l).layout address = c.layout address := by
  obtain ⟨regions, compiled⟩ := c
  simp only [configure, layout, modifyRegion, Array.getElem?_modify, if_neg h]

/-- A region with a new layout has no pages, so that its slots are empty. -/
lemma held?_configure_self (c : InstructionCache) {region : ℕ} (l : Layout)
    (h : region % regionCount = regionIndex p.address) : (c.configure region l).held? p = none := by
  have hpage (page : ℕ) : (c.configure region l).page? (regionIndex p.address) page = none := by
    rw [page?_eq_join, cell?_configure, if_pos h]
    rcases c.regions[regionIndex p.address]? with _ | r
    · rfl
    · show ((Array.replicate l.pageCount none)[page]?).join = none
      rw [Array.getElem?_replicate]
      split <;> rfl
  rw [held?, pageAt, hpage]
  exact Page.get?_default _ _

lemma held?_configure_of_ne (c : InstructionCache) {region : ℕ} (l : Layout)
    (h : region % regionCount ≠ regionIndex p.address) :
    (c.configure region l).held? p = c.held? p := by
  refine held?_congr (c.layout_configure_of_ne l h) ?_
  have hregion : region % regionCount ≠ (c.place p).region := h
  rw [page?_eq_join, cell?_configure, if_neg hregion, page?_eq_join]

/-- A regular layout makes room in its region again. -/
lemma Roomy.configure (h : c.Roomy) (region : ℕ) {l : Layout} (hl : l.Regular) :
    (c.configure region l).Roomy := by
  have hregion (address : Word) : ∃ r, c.regions[regionIndex address]? = some r := by
    obtain ⟨q, hcell, -⟩ := h.cell address
    obtain ⟨r, hr, -⟩ := Option.bind_eq_some_iff.mp hcell
    exact ⟨r, hr⟩
  have hlayout (address : Word) : (c.configure region l).layout address =
      if region % regionCount = regionIndex address then l else c.layout address := by
    split
    · rename_i hsame
      obtain ⟨r, hr⟩ := hregion address
      obtain ⟨regions, compiled⟩ := c
      simp only [InstructionCache.configure, layout, modifyRegion, Array.getElem?_modify,
        if_pos hsame]
      rw [show regions[regionIndex address]? = some r from hr]
      rfl
    · exact c.layout_configure_of_ne l ‹_›
  refine ⟨fun address => ?_, fun address => ?_⟩
  · rw [hlayout]
    split
    · exact hl
    · exact h.regular address
  · rw [hlayout, cell?_configure]
    split
    · obtain ⟨r, hr⟩ := hregion address
      refine ⟨none, ?_, by simp⟩
      rw [hr]
      show (Array.replicate _ none)[_]? = _
      rw [Array.getElem?_replicate, if_pos (hl.pageIndex_lt address)]
    · exact h.cell address

end InstructionCache

end Armv4T
