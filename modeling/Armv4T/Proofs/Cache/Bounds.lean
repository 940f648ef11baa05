import Mathlib
import Armv4T.Proofs.Cache.DirectMapped
import Armv4T.Proofs.Cache.Marking

/-!
# Indices into the cache

The cache finds regions, pages and slots by their numbers. Here its requests are written once more
with accesses that have no result where the number is out of range (`InstructionCache.Checked`), and
they turn out to have the results that they have without the check.

What carries the proof is the shape of the cache. It has as many regions as an address can select,
and a region has as many places for pages as its layout has pages (`InstructionCache.Fitted`). No
operation changes this, and a region with a new layout has a place for each of its pages. Beyond
that a roomy cache is enough, since every page is the page of some address
(`Cache.Layout.Regular.exists_address`). A reference that was handed out under an earlier layout
names a region that exists, and nothing else in it is relied on.
-/

namespace Armv4T

open Cache

lemma Cache.exists_regionIndex_eq {region : ℕ} (h : region < regionCount) :
    ∃ address, regionIndex address = region := by
  have hcount : regionCount = 16 := rfl
  refine ⟨UInt32.ofNat (region * 2 ^ 24), ?_⟩
  rw [regionIndex_eq, UInt32.toNat_ofNat_of_lt' (by rw [UInt32.size]; omega)]
  omega

/-- Every page of every region is the page of an address. -/
lemma Cache.Layout.Regular.exists_address {l : Layout} (h : l.Regular) {region page : ℕ}
    (hregion : region < regionCount) (hpage : page < l.pageCount) :
    ∃ address, regionIndex address = region ∧ l.pageIndex address = page := by
  obtain ⟨n, hle, hn, hsize⟩ := h.size
  have hcount : l.pageCount = 2 ^ (n - l.pageBits.toNat) := by
    rw [Layout.pageCount, Word.toNat_shiftRight_of_lt _ (by omega), hsize,
      Nat.pow_div hle (by decide)]
  -- the page starts below the size, and the size is a part of the region
  have hstart : page * 2 ^ l.pageBits.toNat < 2 ^ n := by
    rw [hcount] at hpage
    calc page * 2 ^ l.pageBits.toNat < 2 ^ (n - l.pageBits.toNat) * 2 ^ l.pageBits.toNat :=
          Nat.mul_lt_mul_of_pos_right hpage (Nat.two_pow_pos _)
      _ = 2 ^ n := by rw [← pow_add, Nat.sub_add_cancel hle]
  have hpart : 2 ^ n ∣ 2 ^ 24 := Nat.pow_dvd_pow 2 hn
  have hle24 : 2 ^ n ≤ 2 ^ 24 := Nat.le_of_dvd (Nat.two_pow_pos _) hpart
  have hcount' : regionCount = 16 := rfl
  have haddress : (UInt32.ofNat (region * 2 ^ 24 + page * 2 ^ l.pageBits.toNat)).toNat =
      region * 2 ^ 24 + page * 2 ^ l.pageBits.toNat :=
    UInt32.toNat_ofNat_of_lt' (by rw [UInt32.size]; omega)
  refine ⟨UInt32.ofNat (region * 2 ^ 24 + page * 2 ^ l.pageBits.toNat), ?_, ?_⟩
  · rw [regionIndex_eq, haddress]
    omega
  · obtain ⟨k, hk⟩ := hpart
    rw [h.pageIndex_eq hsize, haddress, hk, mul_left_comm, Nat.mul_add_mod,
      Nat.mod_eq_of_lt hstart, Nat.mul_div_cancel _ (Nat.two_pow_pos _)]

/-- A page has one slot for every instruction that can start in it. -/
lemma Cache.Layout.Regular.slotCount_eq {l : Layout} (h : l.Regular) (set : InstrSet) :
    l.slotCount set = 2 ^ l.pageBits.toNat / set.width.toNat := by
  have htwo := h.two_le
  have hle := h.pageBits_le
  have hcount {d : Word} (hd : d.toNat ≤ 2) :
      ((1 : Word) <<< (l.pageBits - d)).toNat = 2 ^ l.pageBits.toNat / 2 ^ d.toNat := by
    have hsub : (l.pageBits - d).toNat = l.pageBits.toNat - d.toNat :=
      UInt32.toNat_sub_of_le _ _ (UInt32.le_iff_toNat_le.mpr (by omega))
    rw [Word.toNat_one_shiftLeft (by omega), hsub, Nat.pow_div (by omega) (by decide)]
  cases set with
  | arm => exact hcount (d := 2) (by decide)
  | thumb => exact hcount (d := 1) (by decide)

namespace InstructionCache

variable {c : InstructionCache}

/-! ### The shape of a cache -/

/-- The layout of each region with the number of its places for pages. -/
def shape (c : InstructionCache) : Array (Layout × ℕ) :=
  c.regions.map fun r => (r.layout, r.pages.size)

lemma shape_modifyPage (c : InstructionCache) (region page : ℕ) (f : Option Page → Option Page) :
    (c.modifyPage region page f).shape = c.shape := by
  obtain ⟨regions, compiled⟩ := c
  simp only [shape, modifyPage, modifyRegion]
  refine map_modify_of_comp (fun r => ?_) regions region
  exact congrArg (r.layout, ·) Array.size_modify

lemma shape_link (c : InstructionCache) (id next : HandleId) :
    (c.link id next).shape = c.shape := by
  unfold link
  split
  · exact c.shape_modifyPage _ _ _
  · rfl

lemma shape_invalidate (c : InstructionCache) (start len : Word) :
    (c.invalidate start len).shape = c.shape := by
  rcases eq_or_ne len 0 with rfl | hlen
  · rfl
  · obtain ⟨later, -, hfold⟩ := c.exists_walk start hlen
    rw [hfold]
    generalize c.pageStart start :: later = cursors
    clear hfold
    induction cursors generalizing c with
    | nil => rfl
    | cons cursor cursors ih => exact (ih _).trans (c.shape_modifyPage _ _ _)

lemma shape_clear (c : InstructionCache) : c.clear.shape = c.shape := by
  obtain ⟨regions, compiled⟩ := c
  simp only [shape, clear, Array.map_map]
  refine congrArg (regions.map ·) (funext fun r => ?_)
  exact congrArg (r.layout, ·) Array.size_map

/-- Operations keep the shape. -/
lemma shape_operate (c : InstructionCache) (op : Operation) : (c.operate op).shape = c.shape := by
  cases op with
  | insert h => exact c.shape_modifyPage _ _ _
  | lookup address set => exact c.shape_modifyPage _ _ _
  | link id next => exact c.shape_link id next
  | invalidate start len => exact c.shape_invalidate start len
  | clear => exact c.shape_clear
  | touch address => exact c.shape_modifyPage _ _ _

/-- A roomy cache with as many regions as an address can select, and with as many places for pages
in each as its layout has pages. -/
structure Fitted (c : InstructionCache) : Prop extends c.Roomy where
  size : c.shape.size = regionCount
  pages : ∀ s ∈ c.shape, s.2 = s.1.pageCount

lemma fitted_ofLayouts {layouts : Fin regionCount → Layout} (h : ∀ i, (layouts i).Regular) :
    (ofLayouts layouts).Fitted := by
  refine ⟨roomy_ofLayouts h, Array.size_map.trans Array.size_ofFn, ?_⟩
  intro s hs
  obtain ⟨r, hr, rfl⟩ := Array.mem_map.mp hs
  obtain ⟨i, rfl⟩ := Array.mem_ofFn.mp hr
  exact Array.size_replicate

namespace Fitted

lemma operate (h : c.Fitted) (op : Operation) : (c.operate op).Fitted := by
  refine ⟨h.toRoomy.operate op, ?_, ?_⟩
  · rw [shape_operate]
    exact h.size
  · rw [shape_operate]
    exact h.pages

lemma configure (h : c.Fitted) (region : ℕ) {l : Layout} (hl : l.Regular) :
    (c.configure region l).Fitted := by
  have hshape : (c.configure region l).shape =
      c.shape.modify (region % regionCount) fun _ => (l, l.pageCount) := by
    obtain ⟨regions, compiled⟩ := c
    refine Array.ext_getElem? fun i => ?_
    simp only [shape, InstructionCache.configure, InstructionCache.modifyRegion,
      Array.getElem?_map, Array.getElem?_modify]
    split
    · rw [Option.map_map, Option.map_map]
      refine congrArg (Option.map · _) (funext fun r => ?_)
      exact congrArg (l, ·) Array.size_replicate
    · rfl
  refine ⟨h.toRoomy.configure region hl, ?_, ?_⟩
  · rw [hshape, Array.size_modify]
    exact h.size
  · intro s hs
    rw [hshape] at hs
    obtain ⟨i, hi⟩ := Array.mem_iff_getElem?.mp hs
    rw [Array.getElem?_modify] at hi
    split at hi
    · obtain ⟨-, -, rfl⟩ := Option.map_eq_some_iff.mp hi
      rfl
    · exact h.pages s (Array.mem_of_getElem? hi)

lemma serve (h : c.Fitted) {r : Request} (hr : ∀ region l, r = .configure region l → l.Regular) :
    (c.serve r).Fitted := by
  cases r with
  | operate op => exact h.operate op
  | configure region l => exact h.configure region (hr region l rfl)

lemma exists_region (h : c.Fitted) {region : ℕ} (hregion : region < regionCount) :
    ∃ r, c.regions[region]? = some r := by
  have hsize : c.regions.size = regionCount := Array.size_map.symm.trans h.size
  exact ⟨_, Array.getElem?_eq_getElem (hsize ▸ hregion)⟩

end Fitted

/-- What the direct accesses rely on in a region: its size is a power of two between the size of its
pages and 16 MiB, and a page that has slots for a set has one for every instruction of the set. -/
structure Exact (r : CacheRegion) : Prop where
  twoPow : ∃ n, r.layout.size.toNat = 2 ^ n
  pageBits : 2 ≤ r.layout.pageBits.toNat ∧ r.layout.pageBits.toNat ≤ 24
  page_le : 2 ^ r.layout.pageBits.toNat ≤ r.layout.size.toNat
  size_le : r.layout.size.toNat ≤ regionSize
  slots : ∀ q ∈ r.pages, ∀ p ∈ q, ∀ set : InstrSet, p.slots set ≠ #[] →
    (p.slots set).size = 2 ^ r.layout.pageBits.toNat / set.width.toNat

lemma Fitted.exact (h : c.Fitted) {r : CacheRegion} (hr : r ∈ c.regions) : Exact r := by
  obtain ⟨region, hregion⟩ := Array.mem_iff_getElem?.mp hr
  have hsize : c.regions.size = regionCount := Array.size_map.symm.trans h.size
  have hlt : region < regionCount := hsize ▸ (Array.getElem?_eq_some_iff.mp hregion).1
  have hlayout {address : Word} (haddress : regionIndex address = region) :
      c.layout address = r.layout := by
    rw [layout, haddress, hregion]
    rfl
  obtain ⟨first, hfirst⟩ := exists_regionIndex_eq hlt
  have hregular : r.layout.Regular := hlayout hfirst ▸ h.regular first
  have hcount : r.pages.size = r.layout.pageCount :=
    h.pages _ (Array.mem_map.mpr ⟨r, hr, rfl⟩)
  obtain ⟨n, hle, hn, htwoPow⟩ := hregular.size
  refine ⟨⟨n, htwoPow⟩, ⟨hregular.two_le, hregular.pageBits_le⟩, ?_, ?_, ?_⟩
  · rw [htwoPow]
    exact Nat.pow_le_pow_right (by decide) hle
  · rw [htwoPow]
    exact Nat.pow_le_pow_right (by decide) hn
  · intro q hq p hp set hne
    obtain ⟨page, hpage⟩ := Array.mem_iff_getElem?.mp hq
    have hpage_lt : page < r.layout.pageCount := hcount ▸ (Array.getElem?_eq_some_iff.mp hpage).1
    obtain ⟨address, haddress, hindex⟩ := hregular.exists_address hlt hpage_lt
    obtain ⟨q', hcell, hsized⟩ := h.cell address
    rw [hlayout haddress, haddress, hindex, cell?, hregion] at hcell
    obtain rfl : q = q' := Option.some.inj (hpage.symm.trans hcell)
    rw [hlayout haddress] at hsized
    rw [(hsized p hp set).resolve_left hne, hregular.slotCount_eq]

/-! ### Changes of one page -/

lemma modify_modify {α : Type*} (xs : Array α) (i : ℕ) (f g : α → α) :
    (xs.modify i f).modify i g = xs.modify i fun x => g (f x) := by
  refine Array.ext_getElem? fun j => ?_
  simp only [Array.getElem?_modify]
  split
  · exact Option.map_map ..
  · rfl

/-- A change of an element depends only on the element. -/
lemma modify_congr {α : Type*} {xs : Array α} {i : ℕ} {x : α} (hx : xs[i]? = some x) {f g : α → α}
    (h : f x = g x) : xs.modify i f = xs.modify i g := by
  refine Array.ext_getElem? fun j => ?_
  rw [Array.getElem?_modify, Array.getElem?_modify]
  split
  · rename_i hj
    rw [← hj, hx, Option.map_some, Option.map_some, h]
  · rfl

lemma modifyPage_modifyPage (region page : ℕ) (f g : Option Page → Option Page) :
    (c.modifyPage region page f).modifyPage region page g =
      c.modifyPage region page fun q => g (f q) := by
  obtain ⟨regions, compiled⟩ := c
  simp only [modifyPage, modifyRegion, modify_modify, CacheRegion.modifyPage]

/-- A change of a page depends only on what is in its place. -/
lemma modifyPage_congr {region page : ℕ} {q : Option Page} (hcell : c.cell? region page = some q)
    {f g : Option Page → Option Page} (h : f q = g q) :
    c.modifyPage region page f = c.modifyPage region page g := by
  obtain ⟨r, hr, hpage⟩ := Option.bind_eq_some_iff.mp hcell
  obtain ⟨regions, compiled⟩ := c
  simp only [modifyPage, modifyRegion, mk.injEq, and_true]
  refine modify_congr hr ?_
  exact congrArg (CacheRegion.mk r.layout) (modify_congr hpage h)

/-! ### Requests that check their indices -/

namespace Checked

/-- The layout of the region an address falls in. -/
def layout (c : InstructionCache) (address : Word) : Option Layout := do
  let r ← c.regions[regionIndex address]?
  return r.layout

/-- The page of an address, as it is handed out, and the cache after that. -/
def pageFor (c : InstructionCache) (address : Word) : Option (Page × InstructionCache) := do
  let r ← c.regions[regionIndex address]?
  let index := r.layout.pageIndex address
  let q ← r.pages[index]?
  let page := (q.getD {}).refresh
  return (page, c.modifyPage (regionIndex address) index fun _ => some page)

/-- Looks an address up. Its slot may be missing. -/
def lookup (c : InstructionCache) (address : Word) (set : InstrSet) :
    Option (Option (HandleId × Handle) × InstructionCache) := do
  let layout ← layout c address
  let slot := layout.slotIndex address set
  let (page, c) ← pageFor c address
  let id : HandleId :=
    { region := regionIndex address, page := layout.pageIndex address, slot, set
      generation := page.generation }
  match page.get? set slot with
  | some h => return (if h.address = address then some (id, h) else none, c)
  | none => return (none, c)

/-- Puts a handle into a slot of a page, after the slots of the set have been allocated. -/
def put (p : Page) (set : InstrSet) (slot count : ℕ) (h : Handle) : Option Page :=
  let slots := if (p.slots set).isEmpty then Array.replicate count none else p.slots set
  if slot < slots.size then some (p.mapSlots set fun _ => slots.setIfInBounds slot (some h))
  else none

/-- Inserts a handle into the slot of its address. -/
def insert (c : InstructionCache) (h : Handle) : Option (HandleId × InstructionCache) := do
  let layout ← layout c h.address
  let slot := layout.slotIndex h.address h.set
  let (page, c) ← pageFor c h.address
  let page' ← put page h.set slot (layout.slotCount h.set) h
  let index := layout.pageIndex h.address
  let c := c.modifyPage (regionIndex h.address) index fun _ => some page'
  return (⟨regionIndex h.address, index, slot, h.set, page.generation⟩,
    { c with compiled := c.compiled + 1 })

/-- The handle of a live reference. Its page and its slot may be missing. -/
def get (c : InstructionCache) (id : HandleId) : Option (Option Handle) := do
  let r ← c.regions[id.region]?
  match r.pages[id.page]?.join with
  | some p =>
    return if p.invalid || p.generation != id.generation then none else p.get? id.set id.slot
  | none => return none

/-- Records the successor of an entry. Its page and its slot may be missing. -/
def link (c : InstructionCache) (id next : HandleId) : Option InstructionCache := do
  let r ← c.regions[id.region]?
  match r.pages[id.page]?.join with
  | some p =>
    return if p.invalid || p.generation != id.generation then c
      else c.modifyPage id.region id.page fun _ => some (p.link id.set id.slot next)
  | none => return c

/-- Marks the page of a cursor invalid, and gives the next cursor. -/
def invalidatePage (c : InstructionCache) (cursor : Word) : Option (Word × InstructionCache) := do
  let r ← c.regions[regionIndex cursor]?
  let index := r.layout.pageIndex cursor
  let q ← r.pages[index]?
  let step := (1 : Word) <<< r.layout.pageBits
  return (Word.alignDown cursor step + step,
    c.modifyPage (regionIndex cursor) index fun _ => q.map Page.invalidate)

/-- Marks the pages from the one of a cursor on. -/
def invalidateFrom (c : InstructionCache) (cursor last : Word) : Option InstructionCache :=
  match invalidatePage c cursor with
  | some (next, marked) =>
    if next ≤ cursor ∨ next > last then some marked else invalidateFrom marked next last
  | none => none
termination_by UInt32.size - cursor.toNat
decreasing_by
  rename_i h
  have hlt : cursor < next := UInt32.not_le.mp fun hle => h (.inl hle)
  have := UInt32.lt_iff_toNat_lt.mp hlt
  have := next.toNat_lt_size
  omega

/-- Marks the pages that overlap a range of bytes. -/
def invalidate (c : InstructionCache) (address len : Word) : Option InstructionCache := do
  if len = 0 then return c
  let layout ← layout c address
  invalidateFrom c (Word.alignDown address (1 <<< layout.pageBits)) (address + (len - 1))

/-- Replaces the layout of a region. -/
def configure (c : InstructionCache) (region : ℕ) (l : Layout) : Option InstructionCache := do
  let _ ← c.regions[region % regionCount]?
  return c.configure region l

section Roomy

variable (h : c.Roomy)
include h

/-- The region of an address, and the place of its page. -/
lemma exists_place (address : Word) :
    ∃ r q, c.regions[regionIndex address]? = some r ∧ c.layout address = r.layout ∧
      r.pages[r.layout.pageIndex address]? = some q ∧
      c.cell? (regionIndex address) ((c.layout address).pageIndex address) = some q ∧
      ∀ p ∈ q, p.Sized (c.layout address) := by
  obtain ⟨q, hcell, hsized⟩ := h.cell address
  obtain ⟨r, hr, hpage⟩ := Option.bind_eq_some_iff.mp hcell
  have hlayout : c.layout address = r.layout := by
    rw [InstructionCache.layout, hr]
    rfl
  exact ⟨r, q, hr, hlayout, hlayout ▸ hpage, hcell, hsized⟩

lemma layout_eq (address : Word) : layout c address = some (c.layout address) := by
  obtain ⟨r, q, hr, hlayout, -⟩ := exists_place h address
  rw [layout, hr, hlayout]
  rfl

lemma pageFor_eq (address : Word) :
    pageFor c address = some (c.pageAt address, c.touch address) := by
  obtain ⟨r, q, hr, hlayout, hpage, hcell, -⟩ := exists_place h address
  have hpageAt : c.pageAt address = (q.getD {}).refresh := by
    rw [pageAt, page?_eq_join, hcell]
    rfl
  have htouch : c.touch address = c.modifyPage (regionIndex address)
      (r.layout.pageIndex address) fun _ => some (q.getD {}).refresh := by
    rw [touch, ← hlayout]
    exact modifyPage_congr hcell rfl
  simp only [pageFor, hr, hpage, Option.bind_eq_bind, Option.bind_some, hpageAt, htouch,
    Option.pure_def]

lemma sized_pageAt (address : Word) : (c.pageAt address).Sized (c.layout address) := by
  obtain ⟨r, q, -, -, -, hcell, hsized⟩ := exists_place h address
  rw [pageAt, page?_eq_join, hcell]
  exact Roomy.sized_refresh hsized

lemma lookup_eq (address : Word) (set : InstrSet) :
    lookup c address set = some (c.lookup address set) := by
  rw [lookup, layout_eq h, Option.bind_eq_bind, Option.bind_some, pageFor_eq h,
    Option.bind_eq_bind, Option.bind_some, InstructionCache.lookup, find?]
  dsimp only
  cases (c.pageAt address).get? set ((c.layout address).slotIndex address set) with
  | none => rfl
  | some e => rfl

omit h in
/-- A slot that the layout has is there once the slots have been allocated. -/
lemma put_eq {p : Page} {set : InstrSet} {slot count : ℕ} (hslot : slot < count)
    (hslots : p.slots set = #[] ∨ (p.slots set).size = count) (e : Handle) :
    put p set slot count e = some (p.put set slot count e) := by
  have hsize : (if (p.slots set).isEmpty then Array.replicate count none else p.slots set).size =
      count := by
    rcases hslots with hempty | hsize
    · rw [hempty]
      exact Array.size_replicate
    · split
      · exact Array.size_replicate
      · exact hsize
  have hput : p.put set slot count e = p.mapSlots set fun _ =>
      (if (p.slots set).isEmpty then Array.replicate count none else p.slots set).setIfInBounds slot
        (some e) := by
    cases set <;> rfl
  rw [put, hput]
  exact if_pos (hsize.symm ▸ hslot)

lemma insert_eq (e : Handle) : insert c e = some (c.insert e) := by
  have hslot := (h.regular e.address).slotIndex_lt e.address e.set
  have hsized := sized_pageAt h e.address e.set
  rw [insert, layout_eq h, Option.bind_eq_bind, Option.bind_some, pageFor_eq h,
    Option.bind_eq_bind, Option.bind_some]
  dsimp only
  rw [put_eq hslot hsized, Option.bind_eq_bind, Option.bind_some]
  obtain ⟨r, q, -, -, -, hcell, -⟩ := exists_place h e.address
  have hpageAt : c.pageAt e.address = (q.getD {}).refresh := by
    rw [pageAt, page?_eq_join, hcell]
    rfl
  have hpage : (c.touch e.address).modifyPage (regionIndex e.address)
      ((c.layout e.address).pageIndex e.address) (fun _ => some ((c.pageAt e.address).put e.set
        ((c.layout e.address).slotIndex e.address e.set)
        ((c.layout e.address).slotCount e.set) e)) =
      c.modifyPage (regionIndex e.address) ((c.layout e.address).pageIndex e.address) fun p =>
        some ((p.getD {}).refresh.put e.set ((c.layout e.address).slotIndex e.address e.set)
          ((c.layout e.address).slotCount e.set) e) := by
    rw [touch, modifyPage_modifyPage, hpageAt]
    exact modifyPage_congr hcell rfl
  rw [hpage]
  rfl

lemma invalidatePage_eq (cursor : Word) :
    invalidatePage c cursor = some (c.nextPage cursor, c.invalidatePage cursor) := by
  obtain ⟨r, q, hr, hlayout, hpage, hcell, -⟩ := exists_place h cursor
  have hmarked : c.invalidatePage cursor = c.modifyPage (regionIndex cursor)
      (r.layout.pageIndex cursor) fun _ => q.map Page.invalidate := by
    rw [InstructionCache.invalidatePage, ← hlayout]
    exact modifyPage_congr hcell rfl
  simp only [invalidatePage, hr, hpage, Option.bind_eq_bind, Option.bind_some, hmarked, nextPage,
    hlayout, Option.pure_def]

lemma invalidateFrom_eq (cursor last : Word) :
    invalidateFrom c cursor last = some (c.invalidateFrom cursor last) := by
  fun_induction InstructionCache.invalidateFrom c cursor last with
  | case1 c cursor next marked hstop =>
    rw [invalidateFrom, invalidatePage_eq h]
    exact if_pos hstop
  | case2 c cursor next marked hgo ih =>
    rw [invalidateFrom, invalidatePage_eq h]
    exact (if_neg hgo).trans (ih (h.invalidatePage cursor))

lemma invalidate_eq (start len : Word) :
    invalidate c start len = some (c.invalidate start len) := by
  unfold invalidate InstructionCache.invalidate
  split
  · rfl
  · rw [layout_eq h]
    exact invalidateFrom_eq h _ _

end Roomy

/-- A reference to a region that exists is all that looking its entry up relies on. -/
lemma get_eq {id : HandleId} {r : CacheRegion} (hr : c.regions[id.region]? = some r) :
    get c id = some (c.get? id) := by
  rw [get, hr, Option.bind_eq_bind, Option.bind_some, get?, page?, hr, Option.bind_some]
  cases r.pages[id.page]?.join <;> rfl

lemma link_eq {id : HandleId} {r : CacheRegion} (hr : c.regions[id.region]? = some r)
    (next : HandleId) : link c id next = some (c.link id next) := by
  have hpage : c.page? id.region id.page = r.pages[id.page]?.join := by
    rw [page?, hr, Option.bind_some]
  rw [link, hr, Option.bind_eq_bind, Option.bind_some, InstructionCache.link, isLive, hpage]
  cases hp : r.pages[id.page]?.join with
  | none => rfl
  | some p =>
    have hcell : c.cell? id.region id.page = some (some p) := by
      rw [cell?, hr, Option.bind_some]
      exact Option.join_eq_some_iff.mp hp
    rw [modifyPage_congr hcell (g := fun _ => some (p.link id.set id.slot next)) rfl]
    cases hinvalid : p.invalid <;> cases hgeneration : p.generation == id.generation <;>
      simp [bne, hinvalid, hgeneration]

lemma configure_eq {region : ℕ} {r : CacheRegion}
    (hr : c.regions[region % regionCount]? = some r) (l : Layout) :
    configure c region l = some (c.configure region l) := by
  rw [configure, hr]
  rfl

end Checked

/-! ### Histories -/

namespace Request

/-- The request uses references from a set only, and asks for layouts by their size and the size of
their pages. -/
def Uses (issued : Set HandleId) : Request → Prop
  | .operate (.link id next) => id ∈ issued ∧ next ∈ issued
  | .configure _ l => ∃ size pageBits, l = .ofSize size pageBits
  | _ => True

/-- The references that a request hands out. -/
def handsOut (c : InstructionCache) : Request → Set HandleId
  | .operate op => {id | ∃ h, c.handedOut? op = some (id, h)}
  | .configure .. => ∅

end Request

/-- What a cache with the given layouts can become by requests that use only references it has
handed out before, together with these references. -/
inductive Served (layouts : Fin regionCount → Layout) : InstructionCache → Set HandleId → Prop
  | new : Served layouts (ofLayouts layouts) ∅
  | serve {c : InstructionCache} {issued : Set HandleId} (h : Served layouts c issued)
      {r : Request} (hr : r.Uses issued) : Served layouts (c.serve r) (issued ∪ r.handsOut c)

/-- Every request has a result with the access that checks its index, and it is the one without
the check. Emptying the cache uses no index. -/
structure Unfailing (c : InstructionCache) (issued : Set HandleId) : Prop where
  insert : ∀ h, Checked.insert c h = some (c.insert h)
  lookup : ∀ address set, Checked.lookup c address set = some (c.lookup address set)
  pageFor : ∀ address, Checked.pageFor c address = some (c.pageAt address, c.touch address)
  get : ∀ id ∈ issued, Checked.get c id = some (c.get? id)
  link : ∀ id ∈ issued, ∀ next, Checked.link c id next = some (c.link id next)
  invalidate : ∀ start len, Checked.invalidate c start len = some (c.invalidate start len)
  configure : ∀ region l, Checked.configure c region l = some (c.configure region l)

/-- A reference that is handed out names the region of an address. -/
lemma region_lt_of_handedOut {op : Operation} {id : HandleId}
    {e : Handle} (h : c.handedOut? op = some (id, e)) : id.region < regionCount := by
  cases op with
  | insert e' =>
    obtain ⟨rfl, -⟩ := Prod.mk.inj (Option.some.inj h)
    exact regionIndex_lt e'.address
  | lookup address set =>
    have hplace := ((c.find?_eq_some_iff address set id e).mp h).1
    have hregion : id.region = regionIndex address := congrArg HandleId.region hplace
    exact hregion ▸ regionIndex_lt address
  | link | invalidate | clear | touch => exact nomatch h

namespace Served

variable {layouts : Fin regionCount → Layout} {issued : Set HandleId}

lemma fitted (hlayouts : ∀ i, (layouts i).Regular) (h : Served layouts c issued) : c.Fitted := by
  induction h with
  | new => exact fitted_ofLayouts hlayouts
  | serve _ hr ih =>
    refine ih.serve fun region l hconfigure => ?_
    subst hconfigure
    obtain ⟨size, pageBits, rfl⟩ := hr
    exact Layout.ofSize_regular size pageBits

lemma region_lt (h : Served layouts c issued) {id : HandleId} (hid : id ∈ issued) :
    id.region < regionCount := by
  induction h with
  | new => exact hid.elim
  | @serve c issued _ r _ ih =>
    rcases hid with hold | hnew
    · exact ih hold
    · cases r with
      | operate op =>
        obtain ⟨e, he⟩ := hnew
        exact region_lt_of_handedOut he
      | configure => exact hnew.elim

end Served

/-- Whatever sizes and page sizes a cache is made with, and whatever it has been asked for since
with references that it handed out, its regions and pages have their exact sizes, and no index that
a request uses is out of range. -/
theorem indices_in_range {sizes pageBits : Fin regionCount → Word} {issued : Set HandleId}
    (h : Served (fun i => .ofSize (sizes i) (pageBits i)) c issued) :
    (∀ r ∈ c.regions, Exact r) ∧ Unfailing c issued := by
  have hfitted : c.Fitted := h.fitted fun i => Layout.ofSize_regular (sizes i) (pageBits i)
  have hroomy := hfitted.toRoomy
  refine ⟨fun r hr => hfitted.exact hr, ?_⟩
  constructor
  case insert => exact Checked.insert_eq hroomy
  case lookup => exact Checked.lookup_eq hroomy
  case pageFor => exact Checked.pageFor_eq hroomy
  case invalidate => exact Checked.invalidate_eq hroomy
  case get =>
    intro id hid
    obtain ⟨r, hr⟩ := hfitted.exists_region (h.region_lt hid)
    exact Checked.get_eq hr
  case link =>
    intro id hid next
    obtain ⟨r, hr⟩ := hfitted.exists_region (h.region_lt hid)
    exact Checked.link_eq hr next
  case configure =>
    intro region l
    obtain ⟨r, hr⟩ := hfitted.exists_region (Nat.mod_lt region (by decide : 0 < regionCount))
    exact Checked.configure_eq hr l

/-- A reference into the last page of a region is looked up after the region has shrunk to one page
of a word, and leads nowhere. -/
theorem indices_in_range_shrunk :
    let h := Handle.decode .arm 0xE3A00001 0x0203FE00
    let c := ((ofLayouts quarterMegabyte).insert h).2.configure 2 (.ofSize 0 0)
    let id := ((ofLayouts quarterMegabyte).insert h).1
    ∃ issued, Served quarterMegabyte c issued ∧ id ∈ issued ∧ id.page = 511 ∧
      Checked.get c id = some none := by
  intro h c id
  let insert : Request := .operate (.insert h)
  let shrink : Request := .configure 2 (.ofSize 0 0)
  have hnew : Served quarterMegabyte (ofLayouts quarterMegabyte) ∅ := .new
  have huses : insert.Uses ∅ := trivial
  have hshrink : shrink.Uses (∅ ∪ insert.handsOut (ofLayouts quarterMegabyte)) := ⟨0, 0, rfl⟩
  have hserved : Served (fun _ => .ofSize 0x40000 9) c _ := (hnew.serve huses).serve hshrink
  have hid : id ∈ insert.handsOut (ofLayouts quarterMegabyte) := ⟨h, rfl⟩
  have hpage : id.page = 511 := by
    have hquarter : (0x40000 : Word).toNat = 2 ^ 18 := rfl
    have htwo : 2 ≤ (9 : Word).toNat := by decide
    obtain ⟨hbits, hsize⟩ := Layout.ofSize_spec hquarter htwo (by decide) (by decide)
    show ((ofLayouts quarterMegabyte).layout h.address).pageIndex h.address = 511
    rw [layout_ofLayouts]
    show (Layout.ofSize 0x40000 9).pageIndex h.address = 511
    have haddress : h.address.toNat = 0x0203FE00 := rfl
    rw [(Layout.ofSize_regular 0x40000 9).pageIndex_eq hsize, hbits, haddress]
    decide
  refine ⟨_, hserved, .inl (.inr hid), hpage, ?_⟩
  rw [(indices_in_range hserved).2.get id (.inl (.inr hid))]
  -- the region has no page yet, so none of its pages is there
  have hnone : c.page? id.region id.page = none := by
    have hregion : 2 % regionCount = id.region := by decide
    rw [page?_eq_join, cell?_configure, if_pos hregion]
    rcases ((ofLayouts quarterMegabyte).insert h).2.regions[id.region]? with _ | r
    · rfl
    · show ((Array.replicate _ none)[id.page]?).join = none
      rw [Array.getElem?_replicate]
      split <;> rfl
  rw [get?, hnone]

end InstructionCache

end Armv4T
