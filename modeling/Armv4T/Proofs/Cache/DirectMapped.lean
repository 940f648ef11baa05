import Mathlib
import Armv4T.Proofs.Cache.Identity
import Armv4T.Proofs.Cache.Slots

/-!
# The cache as a direct-mapped store

What a look-up finds is told by the requests that the cache has served. The most recent insertion
into the slot of the address decides: the look-up succeeds exactly if it was made for the address
and nothing since then has taken the entry away, that is neither a range that touches the page, nor
emptying the cache, nor a new layout of the region. The handle found is the one inserted, up to the
successor recorded in it (`InstructionCache.isSome_lookup_iff`).

The proof follows the history from its end. A request fills the slot, drops what is in it or does
neither (`InstructionCache.map_unlinked_held?_serve`), and the last request of a history either is
the most recent insertion or leaves it to the requests before
(`InstructionCache.lastInserted_concat`).
-/

namespace Armv4T.InstructionCache

open Cache

/-- A request to the cache: an operation, or a new layout for a region. -/
inductive Request
  | operate (op : Operation)
  | configure (region : ℕ) (layout : Layout)
  deriving DecidableEq

/-- The cache after a request. -/
def serve (c : InstructionCache) : Request → InstructionCache
  | .operate op => c.operate op
  | .configure region layout => c.configure region layout

/-- The cache after a history of requests. -/
def serveAll (c : InstructionCache) (history : List Request) : InstructionCache :=
  history.foldl serve c

lemma serveAll_concat (c : InstructionCache) (history : List Request) (r : Request) :
    c.serveAll (history ++ [r]) = (c.serveAll history).serve r :=
  List.foldl_concat ..

namespace Request

/-- New layouts are regular, and ranges of bytes end within the address space. -/
def Admissible : Request → Prop
  | .operate (.invalidate start len) => start.toNat + len.toNat ≤ 2 ^ 32
  | .configure _ layout => layout.Regular
  | _ => True

/-- The request inserts into the slot of a point. -/
def Fills (c : InstructionCache) (p : Point) : Request → Prop
  | .operate (.insert h) => c.place h.point = c.place p
  | _ => False

/-- The request takes away what is in the slot of a point. -/
def Drops (c : InstructionCache) (p : Point) : Request → Prop
  | .operate (.invalidate start len) => c.Touches start len p
  | .operate .clear => True
  | .configure region _ => region % regionCount = regionIndex p.address
  | _ => False

end Request

/-- The most recent insertion into the slot of a point is that of a handle, and no request since has
taken it away. -/
def LastInserted (c : InstructionCache) (history : List Request) (p : Point) (h : Handle) : Prop :=
  ∃ before after, history = before ++ .operate (.insert h) :: after ∧
    c.place h.point = c.place p ∧ ∀ r ∈ after, ¬r.Fills c p ∧ ¬r.Drops c p

variable {c c' : InstructionCache} {p q : Point} {r : Request} {h : Handle} {history : List Request}

/-! ### Layouts -/

/-- Whether a point has the slot of another is a matter of the layout of the region. -/
lemma place_eq_congr (hlayout : c'.layout p.address = c.layout p.address) :
    c'.place q = c'.place p ↔ c.place q = c.place p := by
  by_cases hregion : regionIndex q.address = regionIndex p.address
  · have hq : c'.layout q.address = c.layout q.address := by
      rw [c'.layout_congr hregion, c.layout_congr hregion, hlayout]
    rw [place, place, place, place, idAt, idAt, idAt, idAt, hq, hlayout]
  · exact iff_of_false (fun e => hregion (congrArg HandleId.region e))
      fun e => hregion (congrArg HandleId.region e)

lemma touches_congr (hlayout : c'.layout p.address = c.layout p.address) {start len : Word} :
    c'.Touches start len p ↔ c.Touches start len p := by
  have hplace : c'.place p = c.place p := by rw [place, place, idAt, idAt, hlayout]
  refine exists_congr fun address => and_congr_right fun _ => and_congr_right fun _ => ?_
  rw [hplace]
  have hsame (hregion : (c.place p).region = regionIndex address) :
      c'.layout address = c.layout address := by
    have hregion' : regionIndex address = regionIndex p.address := hregion.symm
    rw [c'.layout_congr hregion', c.layout_congr hregion', hlayout]
  constructor
  · rintro ⟨hregion, hpage⟩
    exact ⟨hregion, by rwa [← hsame hregion]⟩
  · rintro ⟨hregion, hpage⟩
    exact ⟨hregion, by rwa [hsame hregion]⟩

lemma fills_congr (hlayout : c'.layout p.address = c.layout p.address) :
    r.Fills c' p ↔ r.Fills c p := by
  rcases r with (h | _ | _ | _ | _ | _) | _
  · exact place_eq_congr hlayout
  all_goals exact Iff.rfl

lemma drops_congr (hlayout : c'.layout p.address = c.layout p.address) :
    r.Drops c' p ↔ r.Drops c p := by
  rcases r with (_ | _ | _ | _ | _ | _) | _
  case operate.invalidate => exact touches_congr hlayout
  all_goals exact Iff.rfl

lemma lastInserted_congr (hlayout : c'.layout p.address = c.layout p.address) :
    c'.LastInserted history p h ↔ c.LastInserted history p h := by
  simp only [LastInserted, place_eq_congr hlayout, fills_congr hlayout, drops_congr hlayout]

/-- A request that drops nothing from a slot leaves the layout of its region. -/
lemma layout_serve (hdrops : ¬r.Drops c p) : (c.serve r).layout p.address = c.layout p.address := by
  cases r with
  | operate op => exact congrFun (c.layout_operate op) p.address
  | configure region l => exact c.layout_configure_of_ne l hdrops

/-! ### One request -/

lemma Roomy.serve (hc : c.Roomy) (hr : r.Admissible) : (c.serve r).Roomy := by
  cases r with
  | operate op => exact hc.operate op
  | configure region l => exact hc.configure region hr

/-- After an insertion into a slot it holds what was inserted. -/
lemma Roomy.held?_serve_insert (hc : c.Roomy) (hplace : c.place h.point = c.place p) :
    (c.serve (.operate (.insert h))).held? p = some h := by
  show (c.insert h).2.held? p = some h
  rw [hc.held?_insert, if_pos hplace]

/-- After a request that takes away what is in a slot it is empty. -/
lemma Roomy.held?_serve_of_drops (hc : c.Roomy) (hr : r.Admissible) (hdrops : r.Drops c p) :
    (c.serve r).held? p = none := by
  rcases r with (_ | _ | _ | ⟨start, len⟩ | _ | _) | ⟨region, l⟩
  case operate.invalidate => exact hc.held?_invalidate_of_touches hr hdrops
  case operate.clear => exact c.held?_clear p
  case configure => exact c.held?_configure_self l hdrops
  all_goals exact hdrops.elim

/-- After any other request a slot holds what it held, up to a successor. -/
lemma Roomy.map_unlinked_held?_serve (hc : c.Roomy) (hr : r.Admissible) (hfills : ¬r.Fills c p)
    (hdrops : ¬r.Drops c p) :
    ((c.serve r).held? p).map Handle.unlinked = (c.held? p).map Handle.unlinked := by
  rcases r with (e | ⟨address, set⟩ | ⟨id, next⟩ | ⟨start, len⟩ | _ | address) | ⟨region, l⟩
  · show ((c.insert e).2.held? p).map _ = _
    have hother : c.place e.point ≠ c.place p := hfills
    rw [hc.held?_insert, if_neg hother]
  · exact congrArg _ (hc.held?_touch address)
  · exact hc.held?_link id next
  · exact congrArg _ (hc.held?_invalidate_of_not_touches hr hdrops)
  · exact absurd trivial hdrops
  · exact congrArg _ (hc.held?_touch address)
  · exact congrArg _ (c.held?_configure_of_ne l hdrops)

/-! ### Histories -/

/-- The last request of a history is the most recent insertion into a slot, or leaves the slot to
the requests before. -/
lemma lastInserted_concat :
    c.LastInserted (history ++ [r]) p h ↔
      r = .operate (.insert h) ∧ c.place h.point = c.place p ∨
        ¬r.Fills c p ∧ ¬r.Drops c p ∧ c.LastInserted history p h := by
  constructor
  · rintro ⟨before, after, hsplit, hplace, hafter⟩
    rcases after.eq_nil_or_concat with rfl | ⟨after, last, rfl⟩
    · obtain ⟨-, hlast⟩ := List.append_inj' hsplit rfl
      exact .inl ⟨List.singleton_inj.mp hlast, hplace⟩
    · rw [List.concat_eq_append, ← List.cons_append, ← List.append_assoc] at hsplit
      obtain ⟨rfl, hlast⟩ := List.append_inj' hsplit rfl
      obtain rfl := List.singleton_inj.mp hlast
      obtain ⟨hfills, hdrops⟩ := hafter r (by simp)
      exact .inr ⟨hfills, hdrops, before, after, rfl, hplace,
        fun r' hr' => hafter r' (by simp [hr'])⟩
  · rintro (⟨rfl, hplace⟩ | ⟨hfills, hdrops, before, after, rfl, hplace, hafter⟩)
    · exact ⟨history, [], rfl, hplace, by simp⟩
    · refine ⟨before, after ++ [r], by simp, hplace, fun r' hr' => ?_⟩
      rcases List.mem_append.mp hr' with hmem | hmem
      · exact hafter r' hmem
      · obtain rfl := List.mem_singleton.mp hmem
        exact ⟨hfills, hdrops⟩

lemma Roomy.serveAll (hc : c.Roomy) (hadmissible : ∀ r ∈ history, r.Admissible) :
    (c.serveAll history).Roomy := by
  induction history using List.reverseRecOn with
  | nil => exact hc
  | append_singleton history r ih =>
    rw [serveAll_concat]
    exact (ih fun r' hr' => hadmissible r' (by simp [hr'])).serve (hadmissible r (by simp))

/-- What the slot of a point holds after a history is what was inserted into it last and not taken
away since. -/
theorem Roomy.held?_serveAll (hc : c.Roomy) (hempty : c.held? p = none)
    (hadmissible : ∀ r ∈ history, r.Admissible) (u : Handle) :
    ((c.serveAll history).held? p).map Handle.unlinked = some u ↔
      ∃ h, (c.serveAll history).LastInserted history p h ∧ h.unlinked = u := by
  induction history using List.reverseRecOn with
  | nil =>
    have hnone : (c.serveAll []).held? p = none := hempty
    rw [hnone]
    refine iff_of_false (by simp) ?_
    rintro ⟨h, ⟨before, after, hsplit, -⟩, -⟩
    simp at hsplit
  | append_singleton history r ih =>
    have hbefore : ∀ r ∈ history, r.Admissible := fun r' hr' => hadmissible r' (by simp [hr'])
    have hr : r.Admissible := hadmissible r (by simp)
    have hroomy := hc.serveAll hbefore
    replace ih := ih hbefore
    simp only [serveAll_concat, lastInserted_concat]
    set now := c.serveAll history
    by_cases hdrops : r.Drops now p
    · have hlast (h : Handle) : r ≠ .operate (.insert h) := by
        rintro rfl
        exact hdrops
      have hdrops' : r.Drops (now.serve r) p := by
        rcases r with op | ⟨region, l⟩
        · exact (drops_congr (congrFun (now.layout_operate op) p.address)).mpr hdrops
        · exact hdrops
      rw [hroomy.held?_serve_of_drops hr hdrops]
      simp [hlast, hdrops']
    · have hlayout := layout_serve hdrops
      rw [fills_congr hlayout, drops_congr hlayout]
      simp only [lastInserted_congr hlayout, place_eq_congr hlayout]
      by_cases hfills : r.Fills now p
      · obtain ⟨e, rfl⟩ : ∃ e, r = .operate (.insert e) := by
          rcases r with (e | _ | _ | _ | _ | _) | _
          · exact ⟨e, rfl⟩
          all_goals exact hfills.elim
        have hplace : now.place e.point = now.place p := hfills
        rw [hroomy.held?_serve_insert hplace]
        simp [hfills, hplace]
      · have hlast (h : Handle) :
            ¬(r = .operate (.insert h) ∧ now.place h.point = now.place p) := by
          rintro ⟨rfl, hplace⟩
          exact hfills hplace
        rw [hroomy.map_unlinked_held?_serve hr hfills hdrops, ih]
        simp [hlast, hfills, hdrops]

/-- A cache that was just made holds nothing. -/
lemma held?_ofLayouts (layouts : Fin regionCount → Layout) (p : Point) :
    (ofLayouts layouts).held? p = none := by
  have hpage (region page : ℕ) : (ofLayouts layouts).page? region page = none := by
    show (((Array.ofFn fun i => CacheRegion.ofLayout (layouts i))[region]?).bind
      (·.pages[page]?)).join = none
    rw [Array.getElem?_ofFn]
    split
    · show ((Array.replicate _ none)[page]?).join = none
      rw [Array.getElem?_replicate]
      split <;> rfl
    · rfl
  rw [held?, pageAt, hpage]
  exact Page.get?_default _ _

/-- In a cache with any layouts that can be asked for (`Cache.Layout.regular_iff_exists_ofSize`),
after any history of requests, a look-up succeeds exactly if the most recent insertion into the slot
of the address and the set was made for the address, and since then the cache was not emptied, the
region got no new layout and no range touched the page. The handle that it finds then is the one
inserted in everything but the successor. -/
theorem isSome_lookup_iff {layouts : Fin regionCount → Layout} (hlayouts : ∀ i, (layouts i).Regular)
    {history : List Request} (hadmissible : ∀ r ∈ history, r.Admissible) (address : Word)
    (set : InstrSet) :
    let c := (ofLayouts layouts).serveAll history
    ((c.lookup address set).1.isSome ↔
        ∃ h, c.LastInserted history ⟨set, address⟩ h ∧ h.address = address) ∧
      ∀ h id e, c.LastInserted history ⟨set, address⟩ h →
        (c.lookup address set).1 = some (id, e) → e.unlinked = h.unlinked := by
  intro c
  set p : Point := ⟨set, address⟩
  have hheld (u : Handle) : (c.held? p).map Handle.unlinked = some u ↔
      ∃ h, c.LastInserted history p h ∧ h.unlinked = u :=
    (roomy_ofLayouts hlayouts).held?_serveAll (held?_ofLayouts layouts p) hadmissible u
  have hfound : (c.lookup address set).1.map Prod.snd =
      (c.held? p).filter fun h => h.address = address :=
    c.find?_map_snd address set
  refine ⟨?_, fun h id e hlast hlookup => ?_⟩
  · rw [← Option.isSome_map (f := Prod.snd), hfound, Option.isSome_iff_exists]
    constructor
    · rintro ⟨e, he⟩
      obtain ⟨hheld', haddress⟩ := Option.filter_eq_some_iff.mp he
      obtain ⟨h, hlast, hsame⟩ := (hheld e.unlinked).mp (congrArg _ hheld')
      have haddress' : h.unlinked.address = e.unlinked.address := congrArg Handle.address hsame
      exact ⟨h, hlast, haddress'.trans (of_decide_eq_true haddress)⟩
    · rintro ⟨h, hlast, haddress⟩
      obtain ⟨e, he, hsame⟩ := Option.map_eq_some_iff.mp ((hheld h.unlinked).mpr ⟨h, hlast, rfl⟩)
      have haddress' : e.unlinked.address = h.unlinked.address := congrArg Handle.address hsame
      exact ⟨e, Option.filter_eq_some_iff.mpr ⟨he, decide_eq_true (haddress'.trans haddress)⟩⟩
  · rw [hlookup] at hfound
    obtain ⟨hheld', -⟩ := Option.filter_eq_some_iff.mp hfound.symm
    have hnow := (hheld h.unlinked).mpr ⟨h, hlast, rfl⟩
    rw [hheld'] at hnow
    exact Option.some.inj hnow

/-- An instruction is found after its successor was recorded, another region was stored to, and a
third one got a new layout. -/
theorem isSome_lookup_iff_linked :
    let h := Handle.decode .arm 0xE3A00001 0x02000000
    let own := ((ofLayouts quarterMegabyte).insert h).1
    let history := [.operate (.insert h), .operate (.link own own),
      .operate (.invalidate 0x03000000 4), .configure 4 .default]
    (∀ i, (quarterMegabyte i).Regular) ∧ (∀ r ∈ history, Request.Admissible r) ∧
      (((ofLayouts quarterMegabyte).serveAll history).lookup 0x02000000 .arm).1.isSome := by
  intro h own history
  have hregular : ∀ i, (quarterMegabyte i).Regular := fun _ => Layout.ofSize_regular 0x40000 9
  have hfits : (0x03000000 : Word).toNat + (4 : Word).toNat ≤ 2 ^ 32 := by decide
  have hadmissible : ∀ r ∈ history, r.Admissible := by
    simp only [history, List.forall_mem_cons]
    exact ⟨trivial, trivial, hfits, Layout.regular_default, by simp⟩
  refine ⟨hregular, hadmissible, ?_⟩
  have hiff := (isSome_lookup_iff hregular hadmissible 0x02000000 .arm).1
  refine hiff.mpr ⟨h, ⟨[], _, rfl, rfl, ?_⟩, rfl⟩
  simp only [List.forall_mem_cons]
  refine ⟨⟨not_false, not_false⟩, ⟨not_false, ?_⟩, ⟨not_false, ?_⟩, by simp⟩
  · rintro ⟨address, hge, hlt, hregion, -⟩
    have hregion' : 2 = regionIndex address := hregion
    have hstart : (0x03000000 : Word).toNat = 0x03000000 := rfl
    have hlen : (4 : Word).toNat = 4 := rfl
    rw [regionIndex_eq] at hregion'
    omega
  · show ¬4 % regionCount = regionIndex 0x02000000
    decide

end Armv4T.InstructionCache
