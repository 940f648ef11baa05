import Mathlib
import Armv4T.Proofs.Cache.Operations

/-!
# Caches that differ in their generations

The generation of a page only serves to recognise stale references into it. So a cache works in the
same way if the generations of its pages are shifted by constants, one for each page, in the pages
and in all references: in those that are handed out, and in the successors that entries record.

One cache is shifted against another (`InstructionCache.Shifted`) if every page is, or if both have
to be emptied before they are used. Then what is found in one is found in the other, up to the shift
(`InstructionCache.Shifted.find?`, `InstructionCache.Shifted.get?`), and whatever is done to both
leaves them shifted by the same constants. Caches of one layout that have just been cleared are
shifted by some constants, whatever they held before (`InstructionCache.exists_shifted_clear`).
-/

namespace Armv4T

variable {δ : ℕ → ℕ → Word}

/-- The reference into a page of the shifted generation. -/
def HandleId.shift (δ : ℕ → ℕ → Word) (id : HandleId) : HandleId :=
  { id with generation := id.generation + δ id.region id.page }

/-- The handle with a shifted reference to its successor. -/
def Handle.shift (δ : ℕ → ℕ → Word) (h : Handle) : Handle :=
  { h with next := h.next.map (·.shift δ) }

@[simp] lemma Handle.shift_decode (set : InstrSet) (opcode address : Word) :
    (decode set opcode address).shift δ = decode set opcode address := rfl

/-! ### Pages -/

namespace Cache.Page

/-- The page of a shifted generation with shifted handles. -/
def shift (δ : ℕ → ℕ → Word) (d : Word) (p : Page) : Page where
  arm := p.arm.map (·.map (·.shift δ))
  thumb := p.thumb.map (·.map (·.shift δ))
  invalid := p.invalid
  generation := p.generation + d

variable {d : Word} {set : InstrSet} {slot count : ℕ}

lemma slots_shift (p : Page) (set : InstrSet) :
    (p.shift δ d).slots set = (p.slots set).map (·.map (·.shift δ)) := by
  cases set <;> rfl

lemma get?_shift (p : Page) (set : InstrSet) (slot : ℕ) :
    (p.shift δ d).get? set slot = (p.get? set slot).map (·.shift δ) := by
  rw [get?, get?, slots_shift, Array.getElem?_map]
  rcases (p.slots set)[slot]? with _ | _ | h <;> rfl

/-- A change of the slots that commutes with the shift of the handles. -/
lemma mapSlots_shift (p : Page) (set : InstrSet)
    {f g : Array (Option Handle) → Array (Option Handle)}
    (hfg : ∀ slots, g (slots.map (·.map (·.shift δ))) = (f slots).map (·.map (·.shift δ))) :
    (p.shift δ d).mapSlots set g = (p.mapSlots set f).shift δ d := by
  obtain ⟨arm, thumb, invalid, generation⟩ := p
  cases set with
  | arm => exact congrArg (Page.mk · _ invalid (generation + d)) (hfg arm)
  | thumb => exact congrArg (Page.mk _ · invalid (generation + d)) (hfg thumb)

lemma put_shift (p : Page) (set : InstrSet) (slot count : ℕ) (h : Handle) :
    (p.shift δ d).put set slot count (h.shift δ) = (p.put set slot count h).shift δ d := by
  refine p.mapSlots_shift set fun slots => ?_
  by_cases hempty : slots = #[]
  · simp [hempty]
  · simp [hempty]

lemma link_shift (p : Page) (set : InstrSet) (slot : ℕ) (next : HandleId) :
    (p.shift δ d).link set slot (next.shift δ) = (p.link set slot next).shift δ d := by
  refine p.mapSlots_shift set fun slots => ?_
  apply Array.ext_getElem?
  intro i
  simp only [Array.getElem?_map, Array.getElem?_modify]
  split
  · rcases slots[i]? with _ | _ | h <;> rfl
  · rfl

/-- A page that has to be created or emptied before it is used, and the generation it then has. -/
def Asleep (q : Option Page) (generation : Word) : Prop :=
  (∀ p ∈ q, p.invalid = true) ∧ (q.getD {}).refresh = { generation }

/-- The second page is the shifted first one, or both have to be emptied before they are used. -/
inductive Shifted (δ : ℕ → ℕ → Word) (d : Word) : Option Page → Option Page → Prop
  | awake {p : Page} (h : p.invalid = false) : Shifted δ d (some p) (some (p.shift δ d))
  | asleep {q q' : Option Page} {generation : Word} (hq : Asleep q generation)
    (hq' : Asleep q' (generation + d)) : Shifted δ d q q'

/-- A page that was marked invalid is asleep. -/
lemma asleep_invalidate (q : Option Page) :
    Asleep (q.map Page.invalidate) ((q.map Page.invalidate).getD {}).refresh.generation := by
  cases q with
  | none => exact ⟨by simp, rfl⟩
  | some p => exact ⟨by simp [Page.invalidate], rfl⟩

/-- Marking a page that is asleep changes nothing. -/
lemma Asleep.invalidate {q : Option Page} {generation : Word} (h : Asleep q generation) :
    Asleep (q.map Page.invalidate) generation := by
  cases q with
  | none => exact h
  | some p =>
    have hinvalid : p.invalidate = p := by
      have hp := h.1 p rfl
      obtain ⟨arm, thumb, invalid, generation⟩ := p
      obtain rfl : invalid = true := hp
      rfl
    rw [Option.map_some, hinvalid]
    exact h

namespace Shifted

variable {q q' : Option Page}

/-- Pages are handed out shifted. -/
lemma refresh (h : Shifted δ d q q') :
    (q'.getD {}).refresh = ((q.getD {}).refresh).shift δ d := by
  cases h with
  | @awake p h =>
    have hshift : (p.shift δ d).invalid = false := h
    simp [Page.refresh, h, hshift]
  | asleep hq hq' =>
    rw [hq.2, hq'.2]
    simp [shift]

lemma touch (h : Shifted δ d q q') :
    Shifted δ d (some (q.getD {}).refresh) (some (q'.getD {}).refresh) := by
  rw [h.refresh]
  exact .awake (refresh_invalid _)

lemma put (h : Shifted δ d q q') (set : InstrSet) (slot count : ℕ) (e : Handle) :
    Shifted δ d (some ((q.getD {}).refresh.put set slot count e))
      (some ((q'.getD {}).refresh.put set slot count (e.shift δ))) := by
  rw [h.refresh, put_shift]
  refine .awake ?_
  rw [put_invalid, refresh_invalid]

lemma link (h : Shifted δ d q q') (set : InstrSet) (slot : ℕ) (next : HandleId)
    (hawake : ∃ p ∈ q, p.invalid = false) :
    Shifted δ d (q.map (·.link set slot next)) (q'.map (·.link set slot (next.shift δ))) := by
  cases h with
  | @awake p h =>
    rw [Option.map_some, Option.map_some, link_shift]
    exact .awake ((link_invalid p set slot next).trans h)
  | asleep hq hq' =>
    obtain ⟨p, hp, hvalid⟩ := hawake
    exact absurd (hq.1 p hp) (by simp [hvalid])

lemma invalidate (h : Shifted δ d q q') :
    Shifted δ d (q.map Page.invalidate) (q'.map Page.invalidate) := by
  cases h with
  | @awake p h =>
    have hgeneration : p.generation + d + 1 = p.generation + 1 + d := by
      rw [add_assoc, add_comm d, ← add_assoc]
    have hq' := asleep_invalidate (some (p.shift δ d))
    have hnext : (((some (p.shift δ d)).map Page.invalidate).getD {}).refresh.generation =
        p.generation + 1 + d := hgeneration
    rw [hnext] at hq'
    exact .asleep (asleep_invalidate (some p)) hq'
  | asleep hq hq' => exact .asleep hq.invalidate hq'.invalidate

end Shifted

end Cache.Page

/-! ### Caches -/

namespace InstructionCache

open Cache

/-- The second cache has the layout of the first one, and its pages are shifted against those of the
first one by the constants `δ`. -/
structure Shifted (δ : ℕ → ℕ → Word) (c c' : InstructionCache) : Prop where
  layout : c'.layout = c.layout
  roomy : c.Roomy
  roomy' : c'.Roomy
  page : ∀ region page,
    Page.Shifted δ (δ region page) (c.page? region page) (c'.page? region page)

variable {c c' : InstructionCache}

/-- The page that a reference points into, if the reference is live. -/
def livePage? (c : InstructionCache) (id : HandleId) : Option Page :=
  (c.page? id.region id.page).filter fun p => !p.invalid && p.generation == id.generation

lemma get?_eq_bind (c : InstructionCache) (id : HandleId) :
    c.get? id = (c.livePage? id).bind (·.get? id.set id.slot) := by
  rw [get?, livePage?]
  rcases c.page? id.region id.page with _ | p
  · rfl
  · have hstale : (p.invalid || p.generation != id.generation) =
        !(!p.invalid && p.generation == id.generation) := by
      rw [Bool.not_and, Bool.not_not]
      rfl
    show (if p.invalid || p.generation != id.generation then none else p.get? id.set id.slot) = _
    rw [Option.filter_some, hstale]
    cases !p.invalid && p.generation == id.generation <;> rfl

lemma isLive_eq_isSome (c : InstructionCache) (id : HandleId) :
    c.isLive id = (c.livePage? id).isSome := by
  rw [isLive, livePage?]
  rcases c.page? id.region id.page with _ | p
  · rfl
  · cases h : !p.invalid && p.generation == id.generation <;> simp [h]

/-- No reference into a page that is asleep is live. -/
lemma livePage?_of_asleep {id : HandleId} {generation : Word}
    (h : Page.Asleep (c.page? id.region id.page) generation) : c.livePage? id = none := by
  rw [livePage?, Option.filter_eq_none_iff]
  intro p hp
  simp [h.1 p hp]

namespace Shifted

/-! ### What is found -/

lemma pageAt (h : Shifted δ c c') (address : Word) :
    c'.pageAt address = (c.pageAt address).shift δ
      (δ (regionIndex address) ((c.layout address).pageIndex address)) := by
  rw [InstructionCache.pageAt, InstructionCache.pageAt, h.layout]
  exact (h.page _ _).refresh

/-- References to the page of an address are handed out shifted. -/
lemma idAt (h : Shifted δ c c') (address : Word) (set : InstrSet) :
    c'.idAt address set (c'.pageAt address).generation =
      (c.idAt address set (c.pageAt address).generation).shift δ := by
  rw [h.pageAt, InstructionCache.idAt, h.layout]
  rfl

/-- What is found in one cache is found in the other, up to the shift. -/
lemma find? (h : Shifted δ c c') (address : Word) (set : InstrSet) :
    c'.find? address set =
      (c.find? address set).map fun found => (found.1.shift δ, found.2.shift δ) := by
  simp only [InstructionCache.find?, h.idAt, h.layout]
  rw [h.pageAt, Page.get?_shift]
  rcases (c.pageAt address).get? set ((c.layout address).slotIndex address set) with _ | e
  · rfl
  · show (if e.address = address then _ else _) = _
    dsimp only
    split <;> rfl

/-- A shifted reference is as live as the reference itself. -/
lemma livePage? (h : Shifted δ c c') (id : HandleId) :
    c'.livePage? (id.shift δ) = (c.livePage? id).map (·.shift δ (δ id.region id.page)) := by
  have hpage := h.page id.region id.page
  generalize hq : c.page? id.region id.page = q at hpage
  generalize hq' : c'.page? id.region id.page = q' at hpage
  cases hpage with
  | @awake p hp =>
    have hshifted : c'.page? (id.shift δ).region (id.shift δ).page =
        some (p.shift δ (δ id.region id.page)) := hq'
    have hgeneration : (p.generation + δ id.region id.page ==
        id.generation + δ id.region id.page) = (p.generation == id.generation) := by
      rw [Bool.eq_iff_iff]
      simp
    rw [InstructionCache.livePage?, InstructionCache.livePage?, hq, hshifted]
    show (if !p.invalid && p.generation + δ id.region id.page == id.generation + δ id.region id.page
      then _ else _) = Option.map _ (if _ then _ else _)
    rw [hgeneration]
    split <;> rfl
  | asleep hs hs' =>
    have hdead : c.livePage? id = none := livePage?_of_asleep (hq ▸ hs)
    have hs' : Page.Asleep (c'.page? (id.shift δ).region (id.shift δ).page) _ := hq'.symm ▸ hs'
    have hdead' : c'.livePage? (id.shift δ) = none := livePage?_of_asleep hs'
    rw [hdead, hdead']
    rfl

lemma isLive (h : Shifted δ c c') (id : HandleId) : c'.isLive (id.shift δ) = c.isLive id := by
  rw [isLive_eq_isSome, isLive_eq_isSome, h.livePage?, Option.isSome_map]

/-- A shifted reference leads to the shifted handle. -/
lemma get? (h : Shifted δ c c') (id : HandleId) :
    c'.get? (id.shift δ) = (c.get? id).map (·.shift δ) := by
  rw [get?_eq_bind, get?_eq_bind, h.livePage?]
  rcases c.livePage? id with _ | p
  · rfl
  · exact p.get?_shift id.set id.slot

/-! ### What is done -/

/-- The same page is changed in both caches. -/
lemma modifyPage (h : Shifted δ c c') {region page : ℕ} {f f' : Option Page → Option Page}
    (hroomy : (c.modifyPage region page f).Roomy) (hroomy' : (c'.modifyPage region page f').Roomy)
    (hf : Page.Shifted δ (δ region page) ((c.cell? region page).bind f)
      ((c'.cell? region page).bind f')) :
    Shifted δ (c.modifyPage region page f) (c'.modifyPage region page f') where
  layout := by rw [layout_modifyPage, layout_modifyPage, h.layout]
  roomy := hroomy
  roomy' := hroomy'
  page region' page' := by
    by_cases hcell : region = region' ∧ page = page'
    · obtain ⟨rfl, rfl⟩ := hcell
      rw [page?_modifyPage_self, page?_modifyPage_self]
      exact hf
    · rw [page?_modifyPage_of_ne c f hcell, page?_modifyPage_of_ne c' f' hcell]
      exact h.page region' page'

/-- The page of an address is changed in both caches. -/
lemma modifyPageOf (h : Shifted δ c c') (address : Word) {f f' : Option Page → Option Page}
    (hroomy : (c.modifyPage (regionIndex address) ((c.layout address).pageIndex address) f).Roomy)
    (hroomy' :
      (c'.modifyPage (regionIndex address) ((c.layout address).pageIndex address) f').Roomy)
    (hf : ∀ {q q'}, Page.Shifted δ (δ (regionIndex address) ((c.layout address).pageIndex address))
      q q' → Page.Shifted δ (δ (regionIndex address) ((c.layout address).pageIndex address))
        (f q) (f' q')) :
    Shifted δ (c.modifyPage (regionIndex address) ((c.layout address).pageIndex address) f)
      (c'.modifyPage (regionIndex address) ((c.layout address).pageIndex address) f') := by
  obtain ⟨q, hq, -⟩ := h.roomy.cell address
  obtain ⟨q', hq', -⟩ := h.roomy'.cell address
  rw [h.layout] at hq'
  refine h.modifyPage hroomy hroomy' ?_
  have hpage := h.page (regionIndex address) ((c.layout address).pageIndex address)
  rw [page?_eq_join, page?_eq_join, hq, hq'] at hpage
  rw [hq, hq']
  exact hf hpage

lemma touch (h : Shifted δ c c') (address : Word) :
    Shifted δ (c.touch address) (c'.touch address) := by
  have hroomy' := h.roomy'.touch address
  unfold InstructionCache.touch at hroomy' ⊢
  rw [h.layout] at hroomy' ⊢
  exact h.modifyPageOf address (h.roomy.touch address) hroomy' .touch

/-- The shifted handle is inserted under the shifted reference. -/
lemma insert (h : Shifted δ c c') (e : Handle) :
    (c'.insert (e.shift δ)).1 = (c.insert e).1.shift δ ∧
      Shifted δ (c.insert e).2 (c'.insert (e.shift δ)).2 := by
  have hroomy := h.roomy.insert e
  have hroomy' := h.roomy'.insert (e.shift δ)
  have hpage := h.modifyPageOf e.address ⟨hroomy.regular, hroomy.cell⟩
    (h.layout ▸ ⟨hroomy'.regular, hroomy'.cell⟩) fun hq => hq.put e.set
      ((c.layout e.address).slotIndex e.address e.set) ((c.layout e.address).slotCount e.set) e
  refine ⟨h.idAt e.address e.set, ?_, hroomy, hroomy', fun region page => ?_⟩
  · rw [layout_insert, layout_insert, h.layout]
  · have hinsert : (c'.insert (e.shift δ)).2.page? region page =
        (c'.modifyPage (regionIndex e.address) ((c.layout e.address).pageIndex e.address) fun p =>
          some ((p.getD {}).refresh.put e.set ((c.layout e.address).slotIndex e.address e.set)
            ((c.layout e.address).slotCount e.set) (e.shift δ))).page? region page := by
      rw [← h.layout]
      rfl
    rw [hinsert]
    exact hpage.page region page

lemma link (h : Shifted δ c c') (id next : HandleId) :
    Shifted δ (c.link id next) (c'.link (id.shift δ) (next.shift δ)) := by
  have hroomy := h.roomy.link id next
  have hroomy' := h.roomy'.link (id.shift δ) (next.shift δ)
  unfold InstructionCache.link at hroomy hroomy' ⊢
  rw [h.isLive] at hroomy' ⊢
  split
  · rename_i hlive
    rw [if_pos hlive] at hroomy hroomy'
    refine h.modifyPage hroomy hroomy' ?_
    rw [isLive_eq_isSome] at hlive
    obtain ⟨p, hp⟩ := Option.isSome_iff_exists.mp hlive
    obtain ⟨hp, hvalid⟩ := Option.filter_eq_some_iff.mp hp
    have hmap (c : InstructionCache) (f : Page → Page) :
        (c.cell? id.region id.page).bind (·.map f) = (c.page? id.region id.page).map f := by
      rw [page?_eq_join]
      rcases c.cell? id.region id.page with _ | q <;> rfl
    have hlinked := (h.page id.region id.page).link id.set id.slot next
      ⟨p, hp, by simpa using (Bool.and_eq_true_iff.mp hvalid).1⟩
    rw [← hmap, ← hmap] at hlinked
    exact hlinked
  · exact h

lemma invalidatePage (h : Shifted δ c c') (address : Word) :
    Shifted δ (c.invalidatePage address) (c'.invalidatePage address) := by
  have hroomy' := h.roomy'.invalidatePage address
  unfold InstructionCache.invalidatePage at hroomy' ⊢
  rw [h.layout] at hroomy' ⊢
  exact h.modifyPageOf address (h.roomy.invalidatePage address) hroomy' .invalidate

lemma clear (h : Shifted δ c c') : Shifted δ c.clear c'.clear where
  layout := by rw [layout_clear, layout_clear, h.layout]
  roomy := h.roomy.clear
  roomy' := h.roomy'.clear
  page region page := by
    rw [page?_clear, page?_clear]
    exact (h.page region page).invalidate

end Shifted

/-- Caches of one layout that have just been cleared are shifted by some constants, whatever they
held before. -/
lemma exists_shifted_clear (hlayout : c'.layout = c.layout) (hc : c.Roomy) (hc' : c'.Roomy) :
    ∃ δ, Shifted δ c.clear c'.clear := by
  let generation (c : InstructionCache) (region page : ℕ) : Word :=
    (((c.page? region page).map Page.invalidate).getD {}).refresh.generation
  refine ⟨fun region page => generation c' region page - generation c region page, ?_, hc.clear,
    hc'.clear, fun region page => ?_⟩
  · rw [layout_clear, layout_clear, hlayout]
  · rw [page?_clear, page?_clear]
    refine .asleep (Page.asleep_invalidate _) ?_
    have hsum : generation c region page + (generation c' region page - generation c region page) =
        generation c' region page := add_sub_cancel _ _
    exact hsum.symm ▸ Page.asleep_invalidate _

end InstructionCache

end Armv4T
