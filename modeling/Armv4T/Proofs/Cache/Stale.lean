import Mathlib
import Armv4T.Proofs.Cache.Identity
import Armv4T.Proofs.Cache.Marking

/-!
# Stale references stay stale

A page is reused in place. It is marked by a range that meets it and by emptying the cache, and it
is emptied when it is handed out while it is marked, which counts its generation up. An operation
does one of three things to a page that has been created (`InstructionCache.Follows`): it marks the
page, it empties the page, or it leaves mark and generation and clears no slot.

So a reference that was handed out resolves until its page is marked. From then on its page is
marked or has a later generation (`InstructionCache.Stale`). The generation is a 32-bit counter that
wraps: a page that is emptied 2 ^ 32 times would be in the generation of the reference again. As
long as this does not happen, the reference never resolves again and no successor is recorded in its
slot (`InstructionCache.stale_forever`).
-/

namespace Armv4T

namespace Cache.Page

/-- One page goes on as the other: neither the mark nor the generation has changed, and the slots
that were filled still are. -/
structure Persists (p p' : Page) : Prop where
  invalid : p'.invalid = p.invalid
  generation : p'.generation = p.generation
  filled : ∀ set slot, (p.get? set slot).isSome → (p'.get? set slot).isSome

/-- One page becomes the other by being emptied. -/
structure Emptied (p p' : Page) : Prop where
  invalid : p.invalid = true
  valid : p'.invalid = false
  generation : p'.generation = p.generation + 1

namespace Persists

variable {p : Page}

lemma refl (p : Page) : p.Persists p := ⟨rfl, rfl, fun _ _ => id⟩

/-- Putting a handle into a slot clears none. -/
lemma put (p : Page) (set : InstrSet) (slot count : ℕ) (h : Handle) :
    p.Persists (p.put set slot count h) := by
  refine ⟨p.put_invalid set slot count h, p.put_generation set slot count h,
    fun set' slot' hfilled => ?_⟩
  rw [get?] at hfilled
  rw [get?, Page.put, slots_mapSlots]
  split
  · have hsize : slot' < (p.slots set').size := by
      by_contra hge
      rw [Array.getElem?_eq_none (Nat.le_of_not_lt hge)] at hfilled
      cases hfilled
    have hne : (p.slots set').isEmpty = false := decide_eq_false (by omega)
    simp only [hne, Bool.false_eq_true, if_false]
    rw [Array.getElem?_setIfInBounds]
    split
    · rw [if_pos (by omega)]
      rfl
    · exact hfilled
  · exact hfilled

/-- Recording a successor clears no slot. -/
lemma link (p : Page) (set : InstrSet) (slot : ℕ) (next : HandleId) :
    p.Persists (p.link set slot next) := by
  refine ⟨p.link_invalid set slot next, p.link_generation set slot next,
    fun set' slot' hfilled => ?_⟩
  rw [get?_link]
  split
  · rwa [Option.isSome_map]
  · exact hfilled

end Persists

end Cache.Page

namespace InstructionCache

open Cache

variable {c : InstructionCache} {id : HandleId} {h : Handle} {p : Page}

/-! ### What an operation does to a page -/

/-- An operation marks the page that a reference points into. -/
def Operation.Marks (c : InstructionCache) (id : HandleId) : Operation → Prop
  | .invalidate start len => c.Marks start len id
  | .clear => True
  | _ => False

/-- The address whose page an operation hands out. -/
def Operation.handsOut? : Operation → Option Word
  | .insert h => some h.address
  | .lookup address _ => some address
  | .touch address => some address
  | _ => none

/-- An operation empties the page that a reference points into: it hands the page out while it is
marked. -/
def empties (c : InstructionCache) (id : HandleId) (op : Operation) : Bool :=
  op.handsOut?.any (fun address => c.InPage id address) && c.isInvalid id.region id.page

/-- How many operations of a run empty the page that a reference points into. -/
def timesEmptied (c : InstructionCache) (id : HandleId) : List Operation → ℕ
  | [] => 0
  | op :: ops => (c.empties id op).toNat + (c.operate op).timesEmptied id ops

lemma timesEmptied_append (c : InstructionCache) (id : HandleId) (ops ops' : List Operation) :
    c.timesEmptied id (ops ++ ops') =
      c.timesEmptied id ops + (c.operateAll ops).timesEmptied id ops' := by
  induction ops generalizing c with
  | nil => simp [timesEmptied, operateAll]
  | cons op ops ih =>
    rw [List.cons_append, timesEmptied, timesEmptied, ih, Nat.add_assoc]
    rfl

/-- Which pages an operation marks is a matter of the layouts. -/
lemma Operation.marks_congr {c' : InstructionCache} (hlayout : c'.layout = c.layout)
    (op : Operation) : op.Marks c' id ↔ op.Marks c id := by
  cases op with
  | invalidate start len =>
    show _ ∧ (_ ∨ _) ↔ _ ∧ (_ ∨ _)
    simp only [inPage_congr hlayout]
  | _ => exact Iff.rfl

/-- What an operation does to a page that has been created: it marks it, empties it, or lets it go
on. -/
inductive Follows (c : InstructionCache) (id : HandleId) (op : Operation) (p p' : Page) : Prop
  | marked (hmarks : op.Marks c id) (hempties : c.empties id op = false) (h : p' = p.invalidate)
  | emptied (hempties : c.empties id op = true) (h : p.Emptied p')
  | persists (hmarks : ¬op.Marks c id) (hempties : c.empties id op = false) (h : p.Persists p')

/-- A change of a page that has been created. -/
lemma page?_modifyPage_of_page? (hp : c.page? id.region id.page = some p)
    (f : Option Page → Option Page) :
    (c.modifyPage id.region id.page f).page? id.region id.page = f (some p) := by
  rw [page?_eq_join, Option.join_eq_some_iff] at hp
  rw [page?_modifyPage_self, hp]
  rfl

/-- An operation that hands out a page, and then changes it in a way that clears no slot. -/
lemma exists_follows_of_handsOut (hp : c.page? id.region id.page = some p) {op : Operation}
    {address : Word} (hout : op.handsOut? = some address) (hmarks : ¬op.Marks c id)
    (f : Page → Page) (hf : ∀ q : Page, q.Persists (f q))
    (hoperate : (c.operate op).page? = (c.modifyPage (regionIndex address)
      ((c.layout address).pageIndex address) fun q => some (f (q.getD {}).refresh)).page?) :
    ∃ p', (c.operate op).page? id.region id.page = some p' ∧ c.Follows id op p p' := by
  have hempties : c.empties id op = (decide (c.InPage id address) && p.invalid) := by
    rw [empties, hout, isInvalid, hp]
    rfl
  rw [hoperate]
  by_cases hin : c.InPage id address
  · rw [decide_eq_true hin, Bool.true_and] at hempties
    rw [← hin.region, ← hin.page, page?_modifyPage_of_page? hp]
    refine ⟨f p.refresh, rfl, ?_⟩
    have hchanged := hf p.refresh
    cases hvalid : p.invalid with
    | true =>
      have hrefresh : p.refresh = p.repopulate := if_pos hvalid
      refine .emptied (hempties.trans hvalid) ⟨hvalid, ?_, ?_⟩
      · rw [hchanged.invalid, Page.refresh_invalid]
      · rw [hchanged.generation, hrefresh]
        rfl
    | false =>
      have hrefresh : p.refresh = p := by rw [Page.refresh, hvalid]; rfl
      rw [hrefresh] at hchanged ⊢
      exact .persists hmarks (hempties.trans hvalid) hchanged
  · rw [decide_eq_false hin, Bool.false_and] at hempties
    have hother := page?_modifyPage_of_ne c (fun q => some (f (q.getD {}).refresh))
      fun h => hin ⟨h.1.symm, h.2.symm⟩
    exact ⟨p, hother.trans hp, .persists hmarks hempties (.refl p)⟩

/-- A page that has been created stays, and an operation marks it, empties it, or lets it go on. -/
lemma page?_operate (hc : c.Regular) (hp : c.page? id.region id.page = some p) (op : Operation) :
    ∃ p', (c.operate op).page? id.region id.page = some p' ∧ c.Follows id op p p' := by
  cases op with
  | insert e =>
    exact exists_follows_of_handsOut hp rfl (fun h => h) (fun q => q.put e.set
      ((c.layout e.address).slotIndex e.address e.set) ((c.layout e.address).slotCount e.set) e)
      (fun q => .put q _ _ _ e) rfl
  | lookup address set =>
    exact exists_follows_of_handsOut hp rfl (fun h => h) (fun q => q) .refl rfl
  | touch address => exact exists_follows_of_handsOut hp rfl (fun h => h) (fun q => q) .refl rfl
  | link source next =>
    have persists {p' : Page} (h : p.Persists p') : c.Follows id (.link source next) p p' :=
      .persists (fun h => h) rfl h
    show ∃ p', (c.link source next).page? id.region id.page = some p' ∧ _
    unfold InstructionCache.link
    split
    · by_cases hpage : source.region = id.region ∧ source.page = id.page
      · rw [hpage.1, hpage.2, page?_modifyPage_of_page? hp]
        exact ⟨_, rfl, persists (.link p _ _ next)⟩
      · exact ⟨p, (page?_modifyPage_of_ne c _ hpage).trans hp, persists (.refl p)⟩
    · exact ⟨p, hp, persists (.refl p)⟩
  | invalidate start len =>
    have hpage := page?_invalidate hc start len id
    rw [hp] at hpage
    by_cases hmarks : c.Marks start len id
    · exact ⟨_, hpage.trans (if_pos hmarks), .marked hmarks rfl rfl⟩
    · exact ⟨p, hpage.trans (if_neg hmarks), .persists hmarks rfl (.refl p)⟩
  | clear =>
    refine ⟨p.invalidate, ?_, .marked trivial rfl rfl⟩
    show c.clear.page? _ _ = _
    rw [page?_clear, hp]
    rfl

/-! ### Live references -/

/-- A reference resolves as long as its page is not marked. -/
lemma isSome_get?_operate (hc : c.Regular) (hlive : (c.get? id).isSome) {op : Operation}
    (hspared : ¬op.Marks c id) : ((c.operate op).get? id).isSome := by
  obtain ⟨e, he⟩ := Option.isSome_iff_exists.mp hlive
  obtain ⟨p, hp, hvalid, hgen, hslot⟩ := (c.get?_eq_some_iff id e).mp he
  obtain ⟨p', hp', hnext⟩ := page?_operate hc hp op
  cases hnext with
  | marked hmarks => exact absurd hmarks hspared
  | emptied _ h => exact absurd h.invalid (by rw [hvalid]; exact Bool.false_ne_true)
  | persists _ _ h =>
    obtain ⟨e', he'⟩ := Option.isSome_iff_exists.mp (h.filled _ _ (Option.isSome_of_eq_some hslot))
    have hget : (c.operate op).get? id = some e' :=
      (get?_eq_some_iff _ id e').mpr ⟨p', hp', h.invalid.trans hvalid, h.generation.trans hgen, he'⟩
    exact Option.isSome_of_eq_some hget

lemma isSome_get?_operateAll (hc : c.Regular) (hlive : (c.get? id).isSome) {ops : List Operation}
    (hspared : ∀ op ∈ ops, ¬op.Marks c id) : ((c.operateAll ops).get? id).isSome := by
  induction ops generalizing c with
  | nil => exact hlive
  | cons op ops ih =>
    have hlayout := c.layout_operate op
    refine ih (hc.congr hlayout) (isSome_get?_operate hc hlive (hspared op List.mem_cons_self)) ?_
    intro later hlater hmarks
    exact hspared later (List.mem_cons_of_mem op hlater) ((later.marks_congr hlayout).mp hmarks)

/-! ### Stale references -/

/-- The page of a reference has been emptied `n` times since the reference was handed out, and it
has been emptied at least once or is marked. -/
def Stale (c : InstructionCache) (id : HandleId) (n : ℕ) : Prop :=
  ∃ p, c.page? id.region id.page = some p ∧ p.generation = id.generation + UInt32.ofNat n ∧
    (p.invalid = true ∨ 0 < n)

namespace Stale

variable {n : ℕ}

/-- Up to the wrap of the counter, a stale reference points into a marked page or a later
generation. -/
lemma isLive (h : c.Stale id n) (hn : n < 2 ^ 32) : c.isLive id = false := by
  obtain ⟨p, hp, hgen, hstale⟩ := h
  rw [InstructionCache.isLive, hp]
  rcases hstale with hinvalid | hpos
  · simp [hinvalid]
  · have hne : p.generation ≠ id.generation := by
      intro hsame
      have hzero : UInt32.ofNat n = 0 := by
        rw [hgen] at hsame
        exact left_eq_add.mp hsame.symm
      have hn0 : n = 0 := by
        have htoNat := congrArg UInt32.toNat hzero
        rwa [UInt32.toNat_ofNat', Nat.mod_eq_of_lt hn] at htoNat
      omega
    simp [hne]

lemma get? (h : c.Stale id n) (hn : n < 2 ^ 32) : c.get? id = none := by
  rcases hget : c.get? id with _ | e
  · rfl
  · obtain ⟨p, hp, hvalid, hgen, -⟩ := (c.get?_eq_some_iff id e).mp hget
    have hlive := h.isLive hn
    rw [InstructionCache.isLive, hp] at hlive
    simp [hvalid, hgen] at hlive

/-- No successor is recorded for a stale reference. -/
lemma link (h : c.Stale id n) (hn : n < 2 ^ 32) (next : HandleId) : c.link id next = c := by
  rw [InstructionCache.link, h.isLive hn]
  rfl

/-- A stale reference stays stale. -/
lemma operate (hc : c.Regular) (h : c.Stale id n) (op : Operation) :
    (c.operate op).Stale id (n + (c.empties id op).toNat) := by
  obtain ⟨p, hp, hgen, hstale⟩ := h
  obtain ⟨p', hp', hnext⟩ := page?_operate hc hp op
  refine ⟨p', hp', ?_⟩
  cases hnext with
  | marked _ hempties h =>
    subst h
    rw [hempties]
    exact ⟨hgen, .inl rfl⟩
  | emptied hempties h =>
    rw [hempties]
    refine ⟨?_, .inr (Nat.succ_pos n)⟩
    rw [h.generation, hgen, Bool.toNat_true, UInt32.ofNat_add, UInt32.add_assoc]
    rfl
  | persists _ hempties h =>
    rw [hempties, h.generation, h.invalid]
    exact ⟨hgen, hstale⟩

lemma operateAll (hc : c.Regular) (h : c.Stale id n) (ops : List Operation) :
    (c.operateAll ops).Stale id (n + c.timesEmptied id ops) := by
  induction ops generalizing c n with
  | nil => exact h
  | cons op ops ih =>
    have hnext := ih (hc.congr (c.layout_operate op)) (h.operate hc op)
    rwa [Nat.add_assoc] at hnext

end Stale

/-- A live reference is still live after a run of operations, and its page was not emptied, or it is
stale. -/
lemma isSome_get?_or_stale (hc : c.Regular) (hlive : (c.get? id).isSome) (ops : List Operation) :
    ((c.operateAll ops).get? id).isSome ∨
      (c.operateAll ops).Stale id (c.timesEmptied id ops) := by
  induction ops generalizing c with
  | nil => exact .inl hlive
  | cons op ops ih =>
    have hregular := hc.congr (c.layout_operate op)
    obtain ⟨e, he⟩ := Option.isSome_iff_exists.mp hlive
    obtain ⟨p, hp, hvalid, hgen, -⟩ := (c.get?_eq_some_iff id e).mp he
    obtain ⟨p', hp', hnext⟩ := page?_operate hc hp op
    rw [timesEmptied]
    cases hnext with
    | marked _ hempties h =>
      subst h
      have hstale : (c.operate op).Stale id 0 :=
        ⟨_, hp', hgen.trans (UInt32.add_zero id.generation).symm, .inl rfl⟩
      rw [hempties]
      exact .inr (hstale.operateAll hregular ops)
    | emptied _ h => exact absurd h.invalid (by rw [hvalid]; exact Bool.false_ne_true)
    | persists hspared hempties h =>
      rw [hempties, Bool.toNat_false, Nat.zero_add]
      exact ih hregular (isSome_get?_operate hc hlive hspared)

/-- In a cache with any layouts, after any operations, let an insertion or a look-up hand out a
reference. Once the reference does not resolve, it resolves in no later state, and recording a
successor for it changes nothing there, provided that its page has been emptied fewer than 2 ^ 32
times since. And the reference resolves as long as no operation marks its page. -/
theorem stale_forever {layouts : Fin regionCount → Layout} (hlayouts : ∀ i, (layouts i).Regular)
    (early : List Operation) (op : Operation)
    (hout : ((ofLayouts layouts).operateAll early).handedOut? op = some (id, h))
    (since : List Operation) :
    let issued := (ofLayouts layouts).operateAll (early ++ [op])
    (∀ late, issued.timesEmptied id (since ++ late) < 2 ^ 32 →
        (issued.operateAll since).get? id = none →
          (issued.operateAll (since ++ late)).get? id = none ∧ ∀ next,
            (issued.operateAll (since ++ late)).link id next =
              issued.operateAll (since ++ late)) ∧
      ((∀ later ∈ since, ¬later.Marks issued id) → (issued.operateAll since).get? id ≠ none) := by
  intro issued
  have hroomy := (roomy_ofLayouts hlayouts).operateAll early
  have hissued : issued = ((ofLayouts layouts).operateAll early).operate op :=
    operateAll_append _ early [op]
  have hregular : issued.Regular := ((roomy_ofLayouts hlayouts).operateAll _).regular
  have hlive : (issued.get? id).isSome :=
    Option.isSome_of_eq_some (hissued ▸ hroomy.get?_handedOut hout)
  refine ⟨fun late hcount hlost => ?_, fun hspared => ?_⟩
  · have hsince : (issued.operateAll since).Stale id (issued.timesEmptied id since) := by
      refine (isSome_get?_or_stale hregular hlive since).resolve_left fun hsome => ?_
      rw [hlost] at hsome
      exact Bool.false_ne_true hsome
    have hlate := hsince.operateAll (hregular.congr (issued.layout_operateAll since)) late
    rw [← timesEmptied_append, ← operateAll_append] at hlate
    exact ⟨hlate.get? hcount, hlate.link hcount⟩
  · exact Option.isSome_iff_ne_none.mp (isSome_get?_operateAll hregular hlive hspared)

/-- A reference survives look-ups and successors, and is lost for good when its page is stored to,
also after the page was emptied and the instruction inserted anew. -/
theorem stale_forever_reinserted :
    let h := Handle.decode .arm 0xE3A00001 0x02000000
    let id := ((ofLayouts quarterMegabyte).insert h).1
    let issued := (ofLayouts quarterMegabyte).operateAll [.insert h]
    let late := [.touch 0x02000000, .insert h]
    (issued.operateAll [.link id id, .lookup 0x02000000 .thumb]).get? id ≠ none ∧
      issued.timesEmptied id (.invalidate 0x020001FE 4 :: late) = 1 ∧
      (issued.operateAll [.invalidate 0x020001FE 4]).get? id = none ∧
      (issued.operateAll (.invalidate 0x020001FE 4 :: late)).get? id = none := by
  intro h id issued late
  have hlayouts : ∀ i, (quarterMegabyte i).Regular := fun _ => Layout.ofSize_regular _ _
  have hcount : issued.timesEmptied id (.invalidate 0x020001FE 4 :: late) = 1 := by decide +kernel
  have hlost : (issued.operateAll [.invalidate 0x020001FE 4]).get? id = none := by decide +kernel
  have hlive := (stale_forever hlayouts [] (.insert h) rfl
    [.link id id, .lookup 0x02000000 .thumb]).2
  have hstale := (stale_forever hlayouts [] (.insert h) rfl [.invalidate 0x020001FE 4]).1 late
    (hcount.trans_lt (by decide)) hlost
  refine ⟨hlive ?_, hcount, hlost, hstale.1⟩
  exact List.forall_mem_cons.mpr ⟨fun hmarks => hmarks,
    List.forall_mem_singleton.mpr fun hmarks => hmarks⟩

end InstructionCache

end Armv4T
