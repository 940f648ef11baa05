import Mathlib
import Armv4T.Proofs.Cache.Operations

/-!
# The pages that a range marks

Invalidating a range walks over pages: from the start of the page of its first byte, each cursor is
the start of the next page, and the cursors ascend (`InstructionCache.exists_walk`). Page sizes may
differ between regions. The walk writes the marks of pages and nothing else, so the cache without
its marks (`InstructionCache.unmarked`) is the same before and after. Where the range ends within
the address space, a page is marked afterwards exactly if it was marked before or has been created
and has a byte of the range (`InstructionCache.isInvalid_invalidate_iff`). The references that stop
resolving are the live ones into the newly marked pages
(`InstructionCache.invalidate_marks_range`).
-/

namespace Armv4T

namespace Cache.Page

/-- A page without its mark. -/
def unmarked (p : Page) : Page := { p with invalid := false }

end Cache.Page

namespace InstructionCache

open Cache

variable {c : InstructionCache}

/-- A page has been created and is marked invalid. -/
def isInvalid (c : InstructionCache) (region page : ℕ) : Bool :=
  (c.page? region page).any (·.invalid)

/-- The cache without the marks on its pages: the layouts, the pages that have been created with
their slots and generations, and the number of instructions ever inserted. -/
def unmarked (c : InstructionCache) : InstructionCache :=
  ⟨c.regions.map fun r => ⟨r.layout, r.pages.map (·.map Page.unmarked)⟩, c.compiled⟩

/-! ### The walk -/

/-- The start of the page of an address. -/
def pageStart (c : InstructionCache) (address : Word) : Word :=
  Word.alignDown address (1 <<< (c.layout address).pageBits)

/-- Each cursor is the start of the page after the one before it, and above it. -/
def IsWalk (c : InstructionCache) (cursors : List Word) : Prop :=
  cursors.IsChain fun cursor next => next = c.nextPage cursor ∧ cursor < next

lemma exists_walkFrom (c : InstructionCache) (cursor last : Word) :
    ∃ later : List Word, c.IsWalk (cursor :: later) ∧
      c.invalidateFrom cursor last = (cursor :: later).foldl invalidatePage c := by
  fun_induction invalidateFrom c cursor last with
  | case1 c cursor next marked hstop => exact ⟨[], .singleton _, rfl⟩
  | case2 c cursor next marked hgo ih =>
    obtain ⟨later, hwalk, hfold⟩ := ih
    have hforward : cursor < next := UInt32.not_le.mp (not_or.mp hgo).1
    have hnext : marked.nextPage = c.nextPage :=
      funext (nextPage_congr (marked_invalidatePage c cursor).layout)
    rw [IsWalk, hnext] at hwalk
    exact ⟨next :: later, .cons_cons ⟨rfl, hforward⟩ hwalk, hfold⟩

/-- Invalidating a range that is not empty is a walk from the start of the page of its first
byte. -/
lemma exists_walk (c : InstructionCache) (start : Word) {len : Word} (hlen : len ≠ 0) :
    ∃ later : List Word, c.IsWalk (c.pageStart start :: later) ∧
      c.invalidate start len = (c.pageStart start :: later).foldl invalidatePage c := by
  rw [invalidate, if_neg hlen]
  exact c.exists_walkFrom _ _

/-! ### What the walk leaves -/

/-- A change of one element that a map does not see. -/
lemma map_modify_of_comp {α β : Type*} {f : α → α} {g : α → β} (h : ∀ x, g (f x) = g x)
    (xs : Array α) (i : ℕ) : (xs.modify i f).map g = xs.map g := by
  refine Array.ext_getElem? fun j => ?_
  rw [Array.getElem?_map, Array.getElem?_map, Array.getElem?_modify]
  split
  · rw [Option.map_map]
    exact congrArg (Option.map · _) (funext h)
  · rfl

lemma unmarked_invalidatePage (c : InstructionCache) (address : Word) :
    (c.invalidatePage address).unmarked = c.unmarked := by
  obtain ⟨regions, compiled⟩ := c
  simp only [unmarked, invalidatePage, modifyPage, modifyRegion, mk.injEq, and_true]
  refine map_modify_of_comp (fun r => ?_) regions _
  obtain ⟨layout, pages⟩ := r
  refine congrArg (CacheRegion.mk layout) (map_modify_of_comp (fun p => ?_) pages _)
  rw [Option.map_map]
  rfl

lemma unmarked_foldl_invalidatePage (c : InstructionCache) (cursors : List Word) :
    (cursors.foldl invalidatePage c).unmarked = c.unmarked := by
  induction cursors generalizing c with
  | nil => rfl
  | cons cursor cursors ih => exact (ih _).trans (c.unmarked_invalidatePage cursor)

/-- Invalidating a range changes nothing but marks. -/
lemma unmarked_invalidate (c : InstructionCache) (start len : Word) :
    (c.invalidate start len).unmarked = c.unmarked := by
  rcases eq_or_ne len 0 with rfl | hlen
  · rfl
  · obtain ⟨later, -, hfold⟩ := c.exists_walk start hlen
    rw [hfold]
    exact c.unmarked_foldl_invalidatePage _

/-! ### What the walk marks -/

/-- A range that ends within the address space marks the pages of its bytes that have been
created. -/
lemma isInvalid_invalidate_iff (hc : c.Regular) {start len : Word}
    (hfits : start.toNat + len.toNat ≤ 2 ^ 32) (region page : ℕ) :
    (c.invalidate start len).isInvalid region page ↔
      c.isInvalid region page ∨ (c.page? region page).isSome ∧ ∃ x : Word,
        start.toNat ≤ x.toNat ∧ x.toNat < start.toNat + len.toNat ∧
          regionIndex x = region ∧ (c.layout x).pageIndex x = page := by
  -- some reference into the page
  let id : HandleId := { region, page, slot := 0, set := .arm, generation := 0 }
  have hmarks : c.Marks start len id ↔ ∃ x : Word,
      start.toNat ≤ x.toNat ∧ x.toNat < start.toNat + len.toNat ∧
        regionIndex x = region ∧ (c.layout x).pageIndex x = page := by
    rw [marks_iff_of_fits hfits]
    refine exists_congr fun x => and_congr_right fun _ => and_congr_right fun _ => ?_
    exact ⟨fun hin => ⟨hin.region.symm, hin.page.symm⟩, fun h => ⟨h.1.symm, h.2.symm⟩⟩
  have hpage := page?_invalidate hc start len id
  rw [← hmarks, isInvalid, isInvalid]
  by_cases hmarked : c.Marks start len id
  · rw [if_pos hmarked] at hpage
    rw [hpage]
    cases c.page? region page with
    | none => simp
    | some p => simp [hmarked, Page.invalidate]
  · rw [if_neg hmarked] at hpage
    rw [hpage, or_iff_left fun h => hmarked h.2]

/-- A reference resolves as it did before pages were marked, unless its page is marked. -/
lemma get?_of_marked {c' : InstructionCache} (h : Marked c c') (id : HandleId) :
    c'.get? id = if c'.isInvalid id.region id.page then none else c.get? id := by
  rcases h.page? id.region id.page with hsame | hmarked
  · rw [get?_congr hsame, isInvalid, hsame, get?]
    cases c.page? id.region id.page with
    | none => rfl
    | some p => cases hv : p.invalid <;> simp [hv]
  · rw [get?_eq_none_of_marked hmarked, isInvalid, hmarked]
    cases hp : c.page? id.region id.page with
    | none => simp [get?, hp]
    | some p => rfl

lemma isInvalid_eq_false_of_get? {id : HandleId} {e : Handle} (h : c.get? id = some e) :
    c.isInvalid id.region id.page = false := by
  obtain ⟨p, hp, hvalid, -⟩ := (c.get?_eq_some_iff id e).mp h
  rw [isInvalid, hp]
  exact hvalid

/-- Invalidating a range that ends within the address space, in a cache with any mix of page sizes,
is a walk up through the starts of finitely many pages. Afterwards a page is marked exactly if it
was marked before or has been created and is the page of an address in the range. Nothing but marks
has changed. The references that have stopped resolving are the live ones into the newly marked
pages, and every other one resolves as before. -/
theorem invalidate_marks_range (hc : c.Regular) {start len : Word}
    (hfits : start.toNat + len.toNat ≤ 2 ^ 32) :
    let c' := c.invalidate start len
    (len ≠ 0 → ∃ later : List Word, c.IsWalk (c.pageStart start :: later) ∧
        c' = (c.pageStart start :: later).foldl invalidatePage c) ∧
      (∀ region page, c'.isInvalid region page ↔
        c.isInvalid region page ∨ (c.page? region page).isSome ∧ ∃ x : Word,
          start.toNat ≤ x.toNat ∧ x.toNat < start.toNat + len.toNat ∧
            regionIndex x = region ∧ (c.layout x).pageIndex x = page) ∧
      c'.unmarked = c.unmarked ∧
      (∀ id, c.get? id ≠ none ∧ c'.get? id = none ↔ c.get? id ≠ none ∧
        ¬c.isInvalid id.region id.page ∧ c'.isInvalid id.region id.page) ∧
      ∀ id, c'.get? id ≠ none → c'.get? id = c.get? id := by
  intro c'
  have hget (id : HandleId) : c'.get? id =
      if c'.isInvalid id.region id.page then none else c.get? id :=
    get?_of_marked (c.marked_invalidate start len) id
  refine ⟨c.exists_walk start, isInvalid_invalidate_iff hc hfits, c.unmarked_invalidate start len,
    fun id => and_congr_right fun hlive => ?_, fun id hlive => ?_⟩
  · obtain ⟨e, he⟩ := Option.ne_none_iff_exists'.mp hlive
    have hvalid := isInvalid_eq_false_of_get? he
    rw [hget]
    simp [hvalid, hlive]
  · rw [hget] at hlive ⊢
    exact if_neg fun hmarked => hlive (if_pos hmarked)

/-- Pages of 512 bytes in the region at 0x02000000, and of 4 KiB elsewhere. -/
def mixedPages (i : Fin regionCount) : Layout :=
  if i.val = 2 then .ofSize 0x40000 9 else .ofSize 0x8000 12

/-- Four bytes across the border of two regions mark the last page of the first region, where a
reference is lost, and the first page of the second one, but not the page after it. -/
theorem invalidate_marks_range_border :
    let h := Handle.decode .arm 0xE3A00001 0x02FFFE00
    let id := ((ofLayouts mixedPages).insert h).1
    let c := (ofLayouts mixedPages).operateAll [.insert h, .touch 0x03000000, .touch 0x03001000]
    c.Regular ∧ (0x02FFFFFE : Word).toNat + (4 : Word).toNat ≤ 2 ^ 32 ∧
      (c.get? id ≠ none ∧ (c.invalidate 0x02FFFFFE 4).get? id = none) ∧
      (c.invalidate 0x02FFFFFE 4).isInvalid 3 0 ∧ ¬(c.invalidate 0x02FFFFFE 4).isInvalid 3 1 := by
  intro h id c
  have hlayouts : ∀ i, (mixedPages i).Regular := fun i => by
    unfold mixedPages
    split <;> exact Layout.ofSize_regular _ _
  have hc : c.Regular := ((roomy_ofLayouts hlayouts).operateAll _).regular
  have hfits : (0x02FFFFFE : Word).toNat + (4 : Word).toNat ≤ 2 ^ 32 := by decide
  obtain ⟨-, hmarks, -, hlost, -⟩ := invalidate_marks_range hc hfits
  have hmarked : (c.invalidate 0x02FFFFFE 4).isInvalid id.region id.page :=
    (hmarks _ _).mpr (.inr ⟨by decide +kernel, 0x02FFFFFE, by decide +kernel⟩)
  refine ⟨hc, hfits, (hlost id).mpr ⟨by decide +kernel, by decide +kernel, hmarked⟩, ?_, ?_⟩
  · exact (hmarks 3 0).mpr (.inr ⟨by decide +kernel, 0x03000001, by decide +kernel⟩)
  · decide +kernel

end InstructionCache

end Armv4T
