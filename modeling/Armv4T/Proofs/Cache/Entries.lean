import Mathlib
import Armv4T.Cache.Basic

/-!
# Live entries of the instruction cache

What can be found in the cache is what its live references lead to (`InstructionCache.get?`). This
file says how each operation changes that: handing out a page and marking pages invalid only lose
entries, an insertion adds the entry of its own reference, and recording a successor changes the
entry it is recorded in. A look-up finds the live entry in the slot of the address, provided that
it was inserted for the same address.

The slot of an address depends on the layouts alone, which no operation changes.
-/

namespace Armv4T

/-- An instruction set and an address: what an instruction is fetched by. -/
structure Point where
  set : InstrSet
  address : Word
  deriving DecidableEq, Repr

/-- What a decoded instruction was fetched by. -/
def Handle.point (h : Handle) : Point := ⟨h.set, h.address⟩

/-- What a reference points at, whatever its generation. -/
def HandleId.place (id : HandleId) : HandleId := { id with generation := 0 }

namespace Cache.Page

@[simp] lemma get?_default (set : InstrSet) (slot : Nat) : ({} : Page).get? set slot = none := by
  cases set <;> rfl

/-- A page that had to be emptied has no entries. -/
lemma get?_refresh (p : Page) (set : InstrSet) (slot : Nat) :
    p.refresh.get? set slot = if p.invalid then none else p.get? set slot := by
  unfold refresh
  split
  · cases set <;> rfl
  · rfl

@[simp] lemma refresh_invalid (p : Page) : p.refresh.invalid = false := by
  unfold refresh
  split
  · rfl
  · exact Bool.eq_false_iff.mpr ‹_›

@[simp] lemma put_invalid (p : Page) (set : InstrSet) (slot count : Nat) (h : Handle) :
    (p.put set slot count h).invalid = p.invalid := by
  cases set <;> rfl

@[simp] lemma put_generation (p : Page) (set : InstrSet) (slot count : Nat) (h : Handle) :
    (p.put set slot count h).generation = p.generation := by
  cases set <;> rfl

@[simp] lemma link_invalid (p : Page) (set : InstrSet) (slot : Nat) (next : HandleId) :
    (p.link set slot next).invalid = p.invalid := by
  cases set <;> rfl

@[simp] lemma link_generation (p : Page) (set : InstrSet) (slot : Nat) (next : HandleId) :
    (p.link set slot next).generation = p.generation := by
  cases set <;> rfl

/-- Changing the slots of one set changes these and no others. -/
lemma slots_mapSlots (p : Page) (set set' : InstrSet)
    (f : Array (Option Handle) → Array (Option Handle)) :
    (p.mapSlots set f).slots set' = if set = set' then f (p.slots set') else p.slots set' := by
  cases set <;> cases set' <;> rfl

/-- After a handle was put into a slot, the slot holds nothing else. -/
lemma get?_put_self {p : Page} {set : InstrSet} {slot count : Nat} {h h' : Handle}
    (hget : (p.put set slot count h).get? set slot = some h') : h' = h := by
  rw [get?, put, slots_mapSlots, if_pos rfl, Option.join_eq_some_iff,
    Array.getElem?_setIfInBounds_self] at hget
  obtain ⟨-, e⟩ := Option.ite_none_right_eq_some.mp hget
  simpa using e.symm

/-- The other slots are as they were, or empty if the slots of the set were allocated. -/
lemma get?_put_of_ne {p : Page} {set set' : InstrSet} {slot slot' count : Nat} {h h' : Handle}
    (hne : ¬(set = set' ∧ slot = slot'))
    (hget : (p.put set slot count h).get? set' slot' = some h') :
    p.get? set' slot' = some h' := by
  rw [get?, put, slots_mapSlots] at hget
  by_cases hset : set = set'
  · have hslot : slot ≠ slot' := fun e => hne ⟨hset, e⟩
    rw [if_pos hset, Option.join_eq_some_iff, Array.getElem?_setIfInBounds_ne hslot] at hget
    rw [get?, Option.join_eq_some_iff]
    split at hget
    · rw [Array.getElem?_replicate] at hget
      split at hget <;> simp at hget
    · exact hget
  · rw [if_neg hset] at hget
    exact hget

/-- Recording a successor changes the entry of the slot and no other. -/
lemma get?_link (p : Page) (set set' : InstrSet) (slot slot' : Nat) (next : HandleId) :
    (p.link set slot next).get? set' slot' =
      if set = set' ∧ slot = slot' then
        (p.get? set' slot').map fun h => { h with next := some next }
      else p.get? set' slot' := by
  rw [get?, link, slots_mapSlots]
  by_cases hset : set = set'
  · rw [if_pos hset, Array.getElem?_modify]
    by_cases hslot : slot = slot'
    · rw [if_pos hslot, if_pos ⟨hset, hslot⟩, get?]
      cases (p.slots set')[slot']? <;> rfl
    · rw [if_neg hslot, if_neg fun e => hslot e.2, get?]
  · rw [if_neg hset, if_neg fun e => hset e.1, get?]

end Cache.Page

namespace InstructionCache

open Cache

/-- The entry that an instruction has, whatever its generation. -/
def place (c : InstructionCache) (p : Point) : HandleId := c.idAt p.address p.set 0

@[simp] lemma place_idAt (c : InstructionCache) (address : Word) (set : InstrSet)
    (generation : Word) : (c.idAt address set generation).place = c.place ⟨set, address⟩ := rfl

/-- The place of a page, which holds one if the page has been created. -/
def cell? (c : InstructionCache) (region page : Nat) : Option (Option Page) :=
  c.regions[region]?.bind (·.pages[page]?)

lemma page?_eq_join (c : InstructionCache) (region page : Nat) :
    c.page? region page = (c.cell? region page).join := rfl

/-! ### Changing one page -/

lemma cell?_modifyPage (c : InstructionCache) (region page region' page' : Nat)
    (f : Option Page → Option Page) :
    (c.modifyPage region page f).cell? region' page' =
      if region = region' ∧ page = page' then (c.cell? region' page').map f
      else c.cell? region' page' := by
  obtain ⟨regions, compiled⟩ := c
  simp only [cell?, modifyPage, modifyRegion, Array.getElem?_modify]
  by_cases hr : region = region'
  · rcases hregion : regions[region']? with _ | ⟨layout, pages⟩
    · simp [hr]
    · by_cases hp : page = page'
      · simp [hr, hp, CacheRegion.modifyPage, Array.getElem?_modify]
      · simp [hr, hp, CacheRegion.modifyPage, Array.getElem?_modify]
  · simp [hr]

lemma page?_modifyPage_self (c : InstructionCache) (region page : Nat)
    (f : Option Page → Option Page) :
    (c.modifyPage region page f).page? region page = (c.cell? region page).bind f := by
  rw [page?_eq_join, cell?_modifyPage, if_pos ⟨rfl, rfl⟩]
  cases c.cell? region page <;> rfl

lemma page?_modifyPage_of_ne (c : InstructionCache) {region page region' page' : Nat}
    (f : Option Page → Option Page) (h : ¬(region = region' ∧ page = page')) :
    (c.modifyPage region page f).page? region' page' = c.page? region' page' := by
  rw [page?_eq_join, cell?_modifyPage, if_neg h, page?_eq_join]

@[simp] lemma layout_modifyPage (c : InstructionCache) (region page : Nat)
    (f : Option Page → Option Page) : (c.modifyPage region page f).layout = c.layout := by
  funext address
  obtain ⟨regions, compiled⟩ := c
  simp only [layout, modifyPage, modifyRegion, Array.getElem?_modify]
  split
  · cases regions[regionIndex address]? <;> rfl
  · rfl

/-- What a live reference leads to. -/
lemma get?_eq_some_iff (c : InstructionCache) (id : HandleId) (h : Handle) :
    c.get? id = some h ↔ ∃ p, c.page? id.region id.page = some p ∧ p.invalid = false ∧
      p.generation = id.generation ∧ p.get? id.set id.slot = some h := by
  unfold get?
  rcases c.page? id.region id.page with _ | p
  · simp
  · by_cases hv : p.invalid
    · simp [hv]
    · by_cases hg : p.generation = id.generation <;> simp [hv, hg]

/-- What a live reference leads to depends on its page alone. -/
lemma get?_congr {c c' : InstructionCache} {id : HandleId}
    (h : c'.page? id.region id.page = c.page? id.region id.page) : c'.get? id = c.get? id := by
  rw [get?, get?, h]

/-! ### Look-ups -/

/-- A page holds an entry after it was handed out if it was valid and held the entry before. -/
lemma get?_pageAt_eq_some_iff (c : InstructionCache) (address : Word) (set : InstrSet)
    (slot : Nat) (h : Handle) :
    (c.pageAt address).get? set slot = some h ↔
      ∃ p, c.page? (regionIndex address) ((c.layout address).pageIndex address) = some p ∧
        p.invalid = false ∧ c.pageAt address = p ∧ p.get? set slot = some h := by
  unfold pageAt
  rcases c.page? (regionIndex address) ((c.layout address).pageIndex address) with _ | p
  · simp [Page.get?_refresh]
  · by_cases hv : p.invalid
    · simp [Page.get?_refresh, hv]
    · simp [Page.refresh, hv]

/-- A look-up finds the live entry in the slot of the address, if it was inserted for this
address. -/
lemma find?_eq_some_iff (c : InstructionCache) (address : Word) (set : InstrSet)
    (id : HandleId) (h : Handle) :
    c.find? address set = some (id, h) ↔
      id.place = c.place ⟨set, address⟩ ∧ c.get? id = some h ∧ h.address = address := by
  have hfind : c.find? address set = some (id, h) ↔
      (c.pageAt address).get? set ((c.layout address).slotIndex address set) = some h ∧
        h.address = address ∧ id = c.idAt address set (c.pageAt address).generation := by
    unfold find?
    dsimp only
    rcases (c.pageAt address).get? set ((c.layout address).slotIndex address set) with _ | h'
    · simp
    · by_cases ha : h'.address = address
      · simp only [ha, if_true, Option.some.injEq, Prod.mk.injEq]
        constructor
        · rintro ⟨rfl, rfl⟩
          exact ⟨rfl, ha, rfl⟩
        · rintro ⟨rfl, -, rfl⟩
          exact ⟨rfl, rfl⟩
      · simp only [ha, if_false, Option.some.injEq]
        constructor
        · exact fun e => absurd e (by simp)
        · rintro ⟨rfl, e, -⟩
          exact absurd e ha
  rw [hfind, get?_pageAt_eq_some_iff, get?_eq_some_iff]
  constructor
  · rintro ⟨⟨p, hp, hvalid, hpage, hget⟩, haddress, rfl⟩
    exact ⟨rfl, ⟨p, hp, hvalid, by rw [hpage]; rfl, hget⟩, haddress⟩
  · rintro ⟨hplace, ⟨p, hp, hvalid, hgen, hget⟩, haddress⟩
    obtain ⟨region, page, slot, set', generation⟩ := id
    simp only [HandleId.place, place, idAt, HandleId.mk.injEq, and_true] at hplace
    obtain ⟨rfl, rfl, rfl, rfl⟩ := hplace
    have hpage : c.pageAt address = p := by
      simp only [pageAt, hp, Option.getD_some, Page.refresh, hvalid]
      rfl
    refine ⟨⟨p, hp, hvalid, hpage, hget⟩, haddress, ?_⟩
    rw [hpage, hgen]
    rfl

/-! ### Handing out a page -/

@[simp] lemma layout_touch (c : InstructionCache) (address : Word) :
    (c.touch address).layout = c.layout := by
  rw [touch, layout_modifyPage]

/-- A page is emptied or left as it is when it is handed out. -/
lemma get?_of_get?_touch {c : InstructionCache} {address : Word} {id : HandleId} {h : Handle}
    (hget : (c.touch address).get? id = some h) : c.get? id = some h := by
  by_cases hcell : regionIndex address = id.region ∧
      (c.layout address).pageIndex address = id.page
  · rw [get?_eq_some_iff] at hget ⊢
    obtain ⟨q, hq, -, hgen, hslot⟩ := hget
    rw [touch, hcell.1, hcell.2, page?_modifyPage_self] at hq
    obtain ⟨p?, hp, hrefresh⟩ := Option.bind_eq_some_iff.mp hq
    obtain rfl := Option.some.inj hrefresh
    rw [Page.get?_refresh] at hslot
    obtain ⟨hvalid, hslot⟩ := Option.ite_none_left_eq_some.mp hslot
    rcases p? with _ | p
    · simp at hslot
    · have hvalid' : p.invalid = false := by simpa using hvalid
      refine ⟨p, by rw [page?_eq_join, hp]; rfl, hvalid', ?_, hslot⟩
      simpa [Page.refresh, hvalid'] using hgen
  · rwa [touch, get?_congr (page?_modifyPage_of_ne c _ hcell)] at hget

/-- What a look-up finds is there after its page was handed out. -/
lemma get?_touch_of_find? {c : InstructionCache} {address : Word} {set : InstrSet}
    {id : HandleId} {h : Handle} (hfind : c.find? address set = some (id, h)) :
    (c.touch address).get? id = some h := by
  obtain ⟨hplace, hget, -⟩ := (c.find?_eq_some_iff address set id h).mp hfind
  obtain ⟨p, hp, hvalid, hgen, hslot⟩ := (c.get?_eq_some_iff id h).mp hget
  have hregion : regionIndex address = id.region := (congrArg HandleId.region hplace).symm
  have hpage : (c.layout address).pageIndex address = id.page :=
    (congrArg HandleId.page hplace).symm
  rw [get?_eq_some_iff]
  refine ⟨p, ?_, hvalid, hgen, hslot⟩
  obtain ⟨p?, hcell, rfl⟩ : ∃ p?, c.cell? id.region id.page = some p? ∧ p? = some p := by
    rw [page?_eq_join, Option.join_eq_some_iff] at hp
    exact ⟨_, hp, rfl⟩
  rw [touch, hregion, hpage, page?_modifyPage_self, hcell]
  simp [Page.refresh, hvalid]

/-! ### Insertions -/

@[simp] lemma layout_insert (c : InstructionCache) (h : Handle) :
    (c.insert h).2.layout = c.layout :=
  layout_modifyPage c _ _ _

/-- The reference to an inserted handle points at the place of its address and set. -/
@[simp] lemma place_insert (c : InstructionCache) (h : Handle) :
    (c.insert h).1.place = c.place h.point := rfl

/-- After an insertion a live reference either is the new one and leads to the new handle, or
points elsewhere and leads to what it led to before. -/
lemma get?_insert {c : InstructionCache} {h h' : Handle} {id : HandleId}
    (hget : (c.insert h).2.get? id = some h') :
    (id = (c.insert h).1 ∧ h' = h) ∨ (id.place ≠ c.place h.point ∧ c.get? id = some h') := by
  set target := (c.insert h).1 with htarget
  have hpage : ∀ region page, (c.insert h).2.page? region page =
      (c.modifyPage target.region target.page fun p =>
        some ((p.getD {}).refresh.put h.set target.slot
          ((c.layout h.address).slotCount h.set) h)).page? region page := fun _ _ => rfl
  by_cases hcell : target.region = id.region ∧ target.page = id.page
  · rw [get?_eq_some_iff, hpage, ← hcell.1, ← hcell.2, page?_modifyPage_self] at hget
    obtain ⟨q, hq, -, hgen, hslot⟩ := hget
    obtain ⟨p?, hp, hput⟩ := Option.bind_eq_some_iff.mp hq
    obtain rfl := Option.some.inj hput
    have hp' : c.page? target.region target.page = p? := by rw [page?_eq_join, hp]; rfl
    have htgen : target.generation = (p?.getD {}).refresh.generation := by
      rw [← hp']
      rfl
    rw [Page.put_generation] at hgen
    by_cases hsame : h.set = id.set ∧ target.slot = id.slot
    · left
      refine ⟨?_, ?_⟩
      · obtain ⟨region, page, slot, set', generation⟩ := id
        simp only at hcell hsame hgen
        rw [← hcell.1, ← hcell.2, ← hsame.1, ← hsame.2, ← hgen, ← htgen]
        rfl
      · rw [← hsame.1, ← hsame.2] at hslot
        exact Page.get?_put_self hslot
    · right
      refine ⟨fun e => hsame ?_, ?_⟩
      · exact ⟨(congrArg HandleId.set e).symm, (congrArg HandleId.slot e).symm⟩
      · have hold := Page.get?_put_of_ne hsame hslot
        rw [Page.get?_refresh] at hold
        obtain ⟨hvalid, hold⟩ := Option.ite_none_left_eq_some.mp hold
        rcases p? with _ | p
        · simp at hold
        · have hvalid' : p.invalid = false := by simpa using hvalid
          rw [get?_eq_some_iff, ← hcell.1, ← hcell.2]
          refine ⟨p, hp', hvalid', ?_, hold⟩
          simpa [Page.refresh, hvalid'] using hgen
  · right
    refine ⟨fun e => hcell ?_, ?_⟩
    · exact ⟨(congrArg HandleId.region e).symm, (congrArg HandleId.page e).symm⟩
    · rwa [get?_congr ((hpage _ _).trans (page?_modifyPage_of_ne c _ hcell))] at hget

/-! ### Recording a successor -/

@[simp] lemma layout_link (c : InstructionCache) (id next : HandleId) :
    (c.link id next).layout = c.layout := by
  unfold link
  split
  · exact layout_modifyPage c _ _ _
  · rfl

/-- After a successor was recorded a live reference leads to what it led to before, with the
successor in it if it is the reference the successor was recorded for. -/
lemma get?_link {c : InstructionCache} {id next id' : HandleId} {h : Handle}
    (hget : (c.link id next).get? id' = some h) :
    c.get? id' = some h ∨
      ∃ h₀, id' = id ∧ c.get? id = some h₀ ∧ h = { h₀ with next := some next } := by
  unfold link at hget
  by_cases hlive : c.isLive id
  · rw [if_pos hlive] at hget
    by_cases hcell : id.region = id'.region ∧ id.page = id'.page
    · rw [get?_eq_some_iff, ← hcell.1, ← hcell.2, page?_modifyPage_self] at hget
      obtain ⟨q, hq, hvalid, hgen, hslot⟩ := hget
      obtain ⟨p?, hp, hlink⟩ := Option.bind_eq_some_iff.mp hq
      obtain ⟨p, rfl, rfl⟩ := Option.map_eq_some_iff.mp hlink
      have hp' : c.page? id.region id.page = some p := by rw [page?_eq_join, hp]; rfl
      rw [Page.link_invalid] at hvalid
      rw [Page.link_generation] at hgen
      rw [Page.get?_link] at hslot
      split at hslot
      · rename_i hsame
        obtain ⟨h₀, hget₀, rfl⟩ := Option.map_eq_some_iff.mp hslot
        -- a live reference is known by its place: its generation is that of the page
        have hidgen : p.generation = id.generation := by
          rw [isLive, hp'] at hlive
          simp only [Bool.and_eq_true, beq_iff_eq] at hlive
          exact hlive.2
        have hid : id' = id := by
          obtain ⟨region, page, slot, set, generation⟩ := id
          obtain ⟨region', page', slot', set', generation'⟩ := id'
          simp only at hcell hsame hgen hidgen
          rw [hcell.1, hcell.2, hsame.1, hsame.2, ← hgen, ← hidgen]
        refine .inr ⟨h₀, hid, ?_, rfl⟩
        subst hid
        exact (get?_eq_some_iff c id' h₀).mpr ⟨p, hp', hvalid, hgen, hget₀⟩
      · left
        rw [get?_eq_some_iff, ← hcell.1, ← hcell.2]
        exact ⟨p, hp', hvalid, hgen, hslot⟩
    · left
      rwa [get?_congr (page?_modifyPage_of_ne c _ hcell)] at hget
  · rw [if_neg hlive] at hget
    exact .inl hget

/-! ### Marking pages invalid -/

/-- Some pages of the first cache are marked invalid in the second, and nothing else differs. -/
structure Marked (c c' : InstructionCache) : Prop where
  layout : c'.layout = c.layout
  page? : ∀ region page, c'.page? region page = c.page? region page ∨
    c'.page? region page = (c.page? region page).map Page.invalidate

namespace Marked

variable {c c' c'' : InstructionCache}

lemma refl (c : InstructionCache) : Marked c c := ⟨rfl, fun _ _ => .inl rfl⟩

lemma trans (h : Marked c c') (h' : Marked c' c'') : Marked c c'' := by
  refine ⟨h'.layout.trans h.layout, fun region page => ?_⟩
  rcases h.page? region page with hp | hp <;> rcases h'.page? region page with hp' | hp'
  · exact .inl (hp'.trans hp)
  · exact .inr (by rw [hp', hp])
  · exact .inr (hp'.trans hp)
  · right
    rw [hp', hp, Option.map_map]
    rfl

/-- What is live after pages were marked was live before. -/
lemma get? (h : Marked c c') {id : HandleId} {e : Handle} (hget : c'.get? id = some e) :
    c.get? id = some e := by
  rw [get?_eq_some_iff] at hget ⊢
  obtain ⟨q, hq, hvalid, hgen, hslot⟩ := hget
  rcases h.page? id.region id.page with hp | hp
  · exact ⟨q, hp ▸ hq, hvalid, hgen, hslot⟩
  · obtain ⟨p, -, rfl⟩ := Option.map_eq_some_iff.mp (hp ▸ hq)
    simp [Page.invalidate] at hvalid

end Marked

lemma marked_invalidatePage (c : InstructionCache) (address : Word) :
    Marked c (c.invalidatePage address) := by
  refine ⟨layout_modifyPage c _ _ _, fun region page => ?_⟩
  by_cases hcell : regionIndex address = region ∧ (c.layout address).pageIndex address = page
  · right
    rw [invalidatePage, hcell.1, hcell.2, page?_modifyPage_self, page?_eq_join]
    cases c.cell? region page <;> rfl
  · exact .inl (page?_modifyPage_of_ne c _ hcell)

lemma marked_invalidateFrom (c : InstructionCache) (cursor last : Word) :
    Marked c (c.invalidateFrom cursor last) := by
  fun_induction invalidateFrom c cursor last with
  | case1 c cursor next marked h => exact marked_invalidatePage c cursor
  | case2 c cursor next marked h ih => exact (marked_invalidatePage c cursor).trans ih

/-- A store marks pages and does nothing else to the cache. -/
lemma marked_invalidate (c : InstructionCache) (address len : Word) :
    Marked c (c.invalidate address len) := by
  unfold invalidate
  split
  · exact .refl c
  · exact marked_invalidateFrom c _ _

lemma page?_clear (c : InstructionCache) (region page : Nat) :
    c.clear.page? region page = (c.page? region page).map Page.invalidate := by
  obtain ⟨regions, compiled⟩ := c
  simp only [clear, InstructionCache.page?, Array.getElem?_map]
  rcases regions[region]? with _ | ⟨layout, pages⟩
  · rfl
  · simp only [Option.map_some, Option.bind_some, Array.getElem?_map]
    rcases pages[page]? with _ | _ | p <;> rfl

/-- Marking every page leaves nothing live. -/
@[simp] lemma get?_clear (c : InstructionCache) (id : HandleId) : c.clear.get? id = none := by
  rw [InstructionCache.get?, page?_clear]
  cases c.page? id.region id.page <;> rfl

@[simp] lemma layout_clear (c : InstructionCache) : c.clear.layout = c.layout := by
  obtain ⟨regions, compiled⟩ := c
  funext address
  simp only [clear, layout, Array.getElem?_map]
  cases regions[regionIndex address]? <;> rfl

end InstructionCache

end Armv4T
