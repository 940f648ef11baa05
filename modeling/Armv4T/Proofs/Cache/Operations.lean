import Mathlib
import Armv4T.Proofs.Cache.Room

/-!
# Operations on the instruction cache

A cache is made with a layout for each of its regions (`InstructionCache.ofLayouts`) and used
through six operations (`InstructionCache.Operation`). Any size and any number of page bits make a
regular layout (`Cache.Layout.ofSize_regular`).

A cache is roomy (`InstructionCache.Roomy`) if its layouts are regular, every address has a place
for its page, and a page that has been created has slots for all instructions of a set, or none yet.
That is how caches are made, and every operation keeps it (`InstructionCache.Roomy.operateAll`). A
roomy cache can take every instruction: a reference that an operation hands out leads to the
instruction it was handed out for (`InstructionCache.Roomy.get?_handedOut`).

A cache is genuine (`InstructionCache.Genuine`) if its entries are the decodings of their opcodes.
It remains so as long as nothing else is inserted (`InstructionCache.Reaches.genuine`).
-/

namespace Armv4T

/-- The instruction of an entry is what its opcode is decoded to. -/
def Handle.Decoded (h : Handle) : Prop := h.instruction = .decode h.set h.opcode

lemma Word.toNat_max (a b : Word) : (max a b).toNat = max a.toNat b.toNat := by
  show (if a ≤ b then b else a).toNat = _
  split
  · exact (max_eq_right (UInt32.le_iff_toNat_le.mp ‹_›)).symm
  · exact (max_eq_left (UInt32.lt_iff_toNat_lt.mp (UInt32.not_le.mp ‹_›)).le).symm

lemma Word.toNat_min (a b : Word) : (min a b).toNat = min a.toNat b.toNat := by
  show (if a ≤ b then a else b).toNat = _
  split
  · exact (min_eq_left (UInt32.le_iff_toNat_le.mp ‹_›)).symm
  · exact (min_eq_right (UInt32.lt_iff_toNat_lt.mp (UInt32.not_le.mp ‹_›)).le).symm

namespace Cache

/-- Whatever size and page size are asked for, the layout is regular. -/
lemma Layout.ofSize_regular (size pageBits : Word) : (ofSize size pageBits).Regular := by
  set bits := max 2 (min pageBits regionBits)
  have hbits : bits.toNat = max 2 (min pageBits.toNat 24) := by
    rw [Word.toNat_max, Word.toNat_min]
    rfl
  have htwo : 2 ≤ bits.toNat := hbits ▸ le_max_left 2 _
  have hle : bits.toNat ≤ 24 := hbits ▸ max_le (by decide) (min_le_right _ _)
  obtain ⟨n, hn⟩ := Nat.isPowerOfTwo_nextPowerOfTwo (max size.toNat (1 <<< bits.toNat))
  have hpage : bits.toNat ≤ n := by
    have hround := le_nextPowerOfTwo (max size.toNat (1 <<< bits.toNat))
    rw [hn] at hround
    replace hround := (le_max_right size.toNat _).trans hround
    rw [Nat.one_shiftLeft] at hround
    exact (Nat.pow_le_pow_iff_right (by decide)).mp hround
  have hpow : min (2 ^ n) (2 ^ 24) = 2 ^ min n 24 :=
    ((pow_right_mono₀ one_le_two).map_min).symm
  have hregion : regionSize = 2 ^ 24 := rfl
  refine ⟨htwo, min n 24, le_min hpage hle, min_le_right n 24, ?_⟩
  show (UInt32.ofNat (min (Nat.nextPowerOfTwo (max size.toNat (1 <<< bits.toNat)))
    regionSize)).toNat = _
  rw [hn, hregion, hpow, UInt32.toNat_ofNat']
  exact Nat.mod_eq_of_lt (Nat.pow_lt_pow_right (by decide) (by omega))

/-! ### Slots of a page -/

/-- A page has slots for all instructions of a set, or none yet. -/
def Page.Sized (l : Layout) (p : Page) : Prop :=
  ∀ set, p.slots set = #[] ∨ (p.slots set).size = l.slotCount set

namespace Page.Sized

variable {l : Layout} {p : Page}

lemma default (l : Layout) : Sized l {} := fun set => .inl (by cases set <;> rfl)

lemma invalidate (h : p.Sized l) : p.invalidate.Sized l := fun set => by
  cases set
  · exact h .arm
  · exact h .thumb

lemma refresh (h : p.Sized l) : p.refresh.Sized l := by
  unfold Page.refresh
  split
  · exact fun set => .inl (by cases set <;> rfl)
  · exact h

lemma put (h : p.Sized l) (set : InstrSet) (slot : ℕ) (e : Handle) :
    (p.put set slot (l.slotCount set) e).Sized l := by
  intro set'
  rw [Page.put, slots_mapSlots]
  split
  · rename_i hset
    subst hset
    right
    rw [Array.size_setIfInBounds]
    rcases h set with hempty | hsize
    · rw [hempty]
      exact Array.size_replicate
    · split
      · exact Array.size_replicate
      · exact hsize
  · exact h set'

lemma link (h : p.Sized l) (set : InstrSet) (slot : ℕ) (next : HandleId) :
    (p.link set slot next).Sized l := by
  intro set'
  rw [Page.link, slots_mapSlots]
  split
  · rw [Array.size_modify]
    refine (h set').imp_left fun hempty => ?_
    rw [hempty]
    exact Array.eq_empty_of_size_eq_zero Array.size_modify
  · exact h set'

end Page.Sized

end Cache

namespace InstructionCache

open Cache

/-- A new cache with the given layouts. -/
def ofLayouts (layouts : Fin regionCount → Layout) : InstructionCache :=
  ⟨.ofFn fun i => .ofLayout (layouts i), 0⟩

/-- An operation on the cache. -/
inductive Operation
  | insert (h : Handle)
  | lookup (address : Word) (set : InstrSet)
  | link (id next : HandleId)
  | invalidate (address len : Word)
  | clear
  | touch (address : Word)
  deriving DecidableEq

/-- What an operation inserts, if it does, is the decoding of its opcode. -/
def Operation.Decodes : Operation → Prop
  | insert h => h.Decoded
  | _ => True

/-- The cache after an operation. -/
def operate (c : InstructionCache) : Operation → InstructionCache
  | .insert h => (c.insert h).2
  | .lookup address set => (c.lookup address set).2
  | .link id next => c.link id next
  | .invalidate address len => c.invalidate address len
  | .clear => c.clear
  | .touch address => c.touch address

/-- The cache after a run of operations. -/
def operateAll (c : InstructionCache) (ops : List Operation) : InstructionCache :=
  ops.foldl operate c

lemma operateAll_append (c : InstructionCache) (ops ops' : List Operation) :
    c.operateAll (ops ++ ops') = (c.operateAll ops).operateAll ops' :=
  List.foldl_append

/-- Operations change no layout. -/
lemma layout_operate (c : InstructionCache) (op : Operation) :
    (c.operate op).layout = c.layout := by
  cases op with
  | insert h => exact c.layout_insert h
  | lookup address set => exact c.layout_touch address
  | link id next => exact c.layout_link id next
  | invalidate address len => exact (c.marked_invalidate address len).layout
  | clear => exact c.layout_clear
  | touch address => exact c.layout_touch address

lemma layout_operateAll (c : InstructionCache) (ops : List Operation) :
    (c.operateAll ops).layout = c.layout := by
  induction ops generalizing c with
  | nil => rfl
  | cons op ops ih => exact (ih _).trans (c.layout_operate op)

/-- The reference that an operation hands out, if it does, and the instruction it is for. -/
def handedOut? (c : InstructionCache) : Operation → Option (HandleId × Handle)
  | .insert h => some ((c.insert h).1, h)
  | .lookup address set => (c.lookup address set).1
  | _ => none

/-! ### Roomy caches -/

/-- Every layout is regular, every address has a place for its page, and a page that has been
created is sized. -/
structure Roomy (c : InstructionCache) : Prop where
  regular : c.Regular
  cell : ∀ address, ∃ page,
    c.cell? (regionIndex address) ((c.layout address).pageIndex address) = some page ∧
      ∀ p ∈ page, p.Sized (c.layout address)

lemma regionIndex_lt (address : Word) : regionIndex address < regionCount := by
  rw [regionIndex_eq]
  exact Nat.mod_lt _ (by decide)

lemma getElem?_regions_ofLayouts (layouts : Fin regionCount → Layout) (address : Word) :
    (ofLayouts layouts).regions[regionIndex address]? =
      some (.ofLayout (layouts ⟨regionIndex address, regionIndex_lt address⟩)) := by
  show (Array.ofFn _)[_]? = _
  rw [Array.getElem?_ofFn, dif_pos (regionIndex_lt address)]

lemma layout_ofLayouts (layouts : Fin regionCount → Layout) (address : Word) :
    (ofLayouts layouts).layout address = layouts ⟨regionIndex address, regionIndex_lt address⟩ := by
  rw [layout, getElem?_regions_ofLayouts]
  rfl

lemma roomy_ofLayouts {layouts : Fin regionCount → Layout} (h : ∀ i, (layouts i).Regular) :
    (ofLayouts layouts).Roomy := by
  refine ⟨fun address => layout_ofLayouts layouts address ▸ h _, fun address => ⟨none, ?_, by simp⟩⟩
  rw [cell?, getElem?_regions_ofLayouts, layout_ofLayouts]
  show (Array.replicate _ none)[_]? = _
  rw [Array.getElem?_replicate, if_pos ((h _).pageIndex_lt address)]

namespace Roomy

variable {c : InstructionCache}

/-- A change of a page that keeps it sized. -/
lemma modifyPage (h : c.Roomy) {region page : ℕ} {f : Option Page → Option Page}
    (hf : ∀ address, regionIndex address = region → ∀ q : Option Page,
      (∀ p ∈ q, p.Sized (c.layout address)) → ∀ p ∈ f q, p.Sized (c.layout address)) :
    (c.modifyPage region page f).Roomy := by
  refine ⟨h.regular.congr (layout_modifyPage c _ _ _), fun address => ?_⟩
  obtain ⟨q, hq, hsized⟩ := h.cell address
  rw [layout_modifyPage, cell?_modifyPage, hq]
  split
  · rename_i hcell
    exact ⟨f q, rfl, hf address hcell.1.symm q hsized⟩
  · exact ⟨q, rfl, hsized⟩

/-- A page that is created when it is handed out is sized, and remains so when it is emptied. -/
lemma sized_refresh {l : Layout} {q : Option Page} (h : ∀ p ∈ q, p.Sized l) :
    (q.getD {}).refresh.Sized l := by
  cases q with
  | none => exact (Page.Sized.default l).refresh
  | some p => exact (h p rfl).refresh

lemma touch (h : c.Roomy) (address : Word) : (c.touch address).Roomy := by
  refine h.modifyPage fun a _ q hq p hp => ?_
  obtain rfl := Option.some.inj hp
  exact sized_refresh hq

lemma insert (h : c.Roomy) (e : Handle) : (c.insert e).2.Roomy := by
  have hpage : (c.modifyPage (regionIndex e.address) ((c.layout e.address).pageIndex e.address)
      fun p => some ((p.getD {}).refresh.put e.set ((c.layout e.address).slotIndex e.address e.set)
        ((c.layout e.address).slotCount e.set) e)).Roomy := by
    refine h.modifyPage fun a ha q hq p hp => ?_
    obtain rfl := Option.some.inj hp
    rw [← c.layout_congr ha]
    exact (sized_refresh hq).put _ _ e
  exact ⟨hpage.regular, hpage.cell⟩

lemma link (h : c.Roomy) (id next : HandleId) : (c.link id next).Roomy := by
  unfold InstructionCache.link
  split
  · refine h.modifyPage fun a _ q hq p hp => ?_
    obtain ⟨p₀, hp₀, rfl⟩ := Option.map_eq_some_iff.mp hp
    exact (hq p₀ hp₀).link _ _ next
  · exact h

/-- Marking a page leaves its slots. -/
lemma sized_invalidate {l : Layout} {q : Option Page} (h : ∀ p ∈ q, p.Sized l) :
    ∀ p ∈ q.map Page.invalidate, p.Sized l := by
  intro p hp
  obtain ⟨p₀, hp₀, rfl⟩ := Option.map_eq_some_iff.mp hp
  exact (h p₀ hp₀).invalidate

lemma invalidatePage (h : c.Roomy) (address : Word) : (c.invalidatePage address).Roomy :=
  h.modifyPage fun _ _ _ => sized_invalidate

lemma invalidateFrom (h : c.Roomy) (cursor last : Word) : (c.invalidateFrom cursor last).Roomy := by
  fun_induction InstructionCache.invalidateFrom c cursor last with
  | case1 c cursor next marked hstop => exact h.invalidatePage cursor
  | case2 c cursor next marked hgo ih => exact ih (h.invalidatePage cursor)

lemma invalidate (h : c.Roomy) (address len : Word) : (c.invalidate address len).Roomy := by
  unfold InstructionCache.invalidate
  split
  · exact h
  · exact h.invalidateFrom _ _

end Roomy

lemma cell?_clear (c : InstructionCache) (region page : ℕ) :
    c.clear.cell? region page = (c.cell? region page).map (·.map Page.invalidate) := by
  obtain ⟨regions, compiled⟩ := c
  simp only [clear, cell?, Array.getElem?_map]
  rcases regions[region]? with _ | ⟨layout, pages⟩
  · rfl
  · exact Array.getElem?_map

namespace Roomy

variable {c : InstructionCache}

lemma clear (h : c.Roomy) : c.clear.Roomy := by
  refine ⟨h.regular.congr (layout_clear c), fun address => ?_⟩
  obtain ⟨q, hq, hsized⟩ := h.cell address
  rw [layout_clear, cell?_clear, hq]
  exact ⟨_, rfl, sized_invalidate hsized⟩

lemma operate (h : c.Roomy) (op : Operation) : (c.operate op).Roomy := by
  cases op with
  | insert e => exact h.insert e
  | lookup address set => exact h.touch address
  | link id next => exact h.link id next
  | invalidate address len => exact h.invalidate address len
  | clear => exact h.clear
  | touch address => exact h.touch address

/-- A cache has room for every instruction, whatever is done to it. -/
theorem operateAll (h : c.Roomy) (ops : List Operation) : (c.operateAll ops).Roomy := by
  induction ops generalizing c with
  | nil => exact h
  | cons op ops ih => exact ih (h.operate op)

/-- What was inserted into a roomy cache is found there. -/
lemma get?_insert (h : c.Roomy) (e : Handle) : (c.insert e).2.get? (c.insert e).1 = some e := by
  obtain ⟨q, hq, hsized⟩ := h.cell e.address
  exact get?_insert_self hq (h.regular e.address) (sized_refresh hsized e.set)

/-- A reference leads to the instruction that it was handed out for. -/
lemma get?_handedOut (h : c.Roomy) {op : Operation} {id : HandleId} {e : Handle}
    (hout : c.handedOut? op = some (id, e)) : (c.operate op).get? id = some e := by
  cases op with
  | insert e' =>
    obtain ⟨rfl, rfl⟩ := Prod.mk.inj (Option.some.inj hout)
    exact h.get?_insert e'
  | lookup address set => exact get?_touch_of_find? hout
  | link | invalidate | clear | touch => exact nomatch hout

end Roomy

/-! ### Reached caches -/

/-- Every entry that can be reached is the decoding of its opcode. -/
def Genuine (c : InstructionCache) : Prop := ∀ id e, c.get? id = some e → e.Decoded

/-- A cache without live entries is genuine. -/
lemma genuine_of_dead {c : InstructionCache} (h : ∀ id, c.get? id = none) : c.Genuine :=
  fun id _ hget => nomatch (h id).symm.trans hget

/-- Operations other than insertions make no entry, and an insertion makes the one it is given. -/
lemma Genuine.operate {c : InstructionCache} (h : c.Genuine) {op : Operation} (hop : op.Decodes) :
    (c.operate op).Genuine := by
  intro id e hget
  cases op with
  | insert e' =>
    rcases InstructionCache.get?_insert hget with ⟨-, rfl⟩ | ⟨-, hold⟩
    · exact hop
    · exact h id e hold
  | lookup address set => exact h id e (get?_of_get?_touch hget)
  | link source next =>
    rcases get?_link hget with hold | ⟨e₀, -, hold, rfl⟩
    · exact h id e hold
    · exact h source e₀ hold
  | invalidate address len => exact h id e ((c.marked_invalidate address len).get? hget)
  | clear => exact nomatch (c.get?_clear id).symm.trans hget
  | touch address => exact h id e (get?_of_get?_touch hget)

/-- One cache becomes the other by operations, which insert decodings only. -/
def Reaches (c c' : InstructionCache) : Prop :=
  ∃ ops : List Operation, (∀ op ∈ ops, op.Decodes) ∧ c' = c.operateAll ops

namespace Reaches

variable {c c' c'' : InstructionCache}

lemma refl (c : InstructionCache) : Reaches c c := ⟨[], List.forall_mem_nil _, rfl⟩

lemma operate (c : InstructionCache) (op : Operation) (h : op.Decodes) :
    Reaches c (c.operate op) := by
  refine ⟨[op], ?_, rfl⟩
  rintro op' hop'
  rwa [List.mem_singleton.mp hop']

lemma trans (h : Reaches c c') (h' : Reaches c' c'') : Reaches c c'' := by
  obtain ⟨ops, hops, rfl⟩ := h
  obtain ⟨ops', hops', rfl⟩ := h'
  refine ⟨ops ++ ops', fun op hop => ?_, (operateAll_append c ops ops').symm⟩
  exact (List.mem_append.mp hop).elim (hops op) (hops' op)

lemma layout (h : Reaches c c') : c'.layout = c.layout := by
  obtain ⟨ops, -, rfl⟩ := h
  exact c.layout_operateAll ops

lemma roomy (h : Reaches c c') (hc : c.Roomy) : c'.Roomy := by
  obtain ⟨ops, -, rfl⟩ := h
  exact hc.operateAll ops

lemma genuine (h : Reaches c c') (hc : c.Genuine) : c'.Genuine := by
  obtain ⟨ops, hops, rfl⟩ := h
  induction ops generalizing c with
  | nil => exact hc
  | cons op ops ih =>
    obtain ⟨hop, hops⟩ := List.forall_mem_cons.mp hops
    exact ih (hc.operate hop) hops

end Reaches

end InstructionCache

end Armv4T
