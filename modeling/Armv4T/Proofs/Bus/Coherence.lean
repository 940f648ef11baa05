import Mathlib
import Armv4T.Proofs.Bus.Build
import Armv4T.Proofs.Cache.Room

/-!
# Coherence of the instruction cache

Memory is written by stores and by images, and the cache is filled by fetches. On the bus of a
memory map the two agree after any sequence of these (`Bus.Agrees`), through whichever region the
bytes were written, exactly if no region of the map is a mirror (`Bus.agrees_iff_unmirrored`), as
long as no image leaves the region in which it starts. A write through one of two regions with the
same storage leaves what the cache remembers of the other one as it was.
-/

namespace Armv4T

/-- What is found in the cache is what is in memory. -/
def Bus.Agrees (bus : Bus) : Prop :=
  ∀ address set id h, (bus.cache.lookup address set).1 = some (id, h) →
    h.opcode = bus.opcodeAt set address

namespace Board

/-- An access to memory or to the cache: a store, an image, the fetch of an instruction, or a look
at the cache. -/
inductive Access
  | store (width : StoreWidth) (address value : Word)
  | image (address : Word) (bytes : ByteArray)
  | fetch (set : InstrSet) (address : Word)
  | lookup (set : InstrSet) (address : Word)

/-- An image does not leave the region in which it starts. -/
def Access.Within (bus : Bus) : Access → Prop
  | image address bytes => bus.Contains address bytes
  | _ => True

/-- The board after an access, whether it stops with a fault or not. -/
def access (b : Board) : Access → Board
  | .store width address value => (Exec.store width address value).after b
  | .image address bytes => (Exec.loadImage address bytes).after b
  | .fetch set address => (Exec.loadHandle address).after (b.mapCore (·.setSet set))
  | .lookup set address => (Exec.lookup address set).after b

/-- The board after accesses, one after the other. -/
def accesses (b : Board) (l : List Access) : Board := l.foldl access b

/-- What accesses keep: the bus has its shape, and the cache is tidy and coherent. -/
structure Consistent (bus : Bus) (b : Board) : Prop where
  shape : Bus.SameShape bus b.bus
  tidy : b.bus.cache.Tidy Set.univ
  coherent : b.bus.Coherent

variable {bus : Bus} {b : Board}

lemma Consistent.agrees (h : b.Consistent bus) : b.bus.Agrees := by
  intro address set id e hfind
  have hpoint := h.tidy.find?_point hfind
  obtain ⟨-, hget, -⟩ := (InstructionCache.find?_eq_some_iff _ _ _ _ _).mp hfind
  have hset : e.set = set := congrArg Point.set hpoint
  have haddress : e.address = address := congrArg Point.address hpoint
  rw [← hset, ← haddress]
  exact h.coherent id e hget

/-- What a board does with its bus only. -/
lemma Consistent.of_bus (h : b.Consistent bus) {b' : Board} (hbus : b'.bus = b.bus) :
    b'.Consistent bus := by
  obtain ⟨hshape, htidy, hcoherent⟩ := h
  exact ⟨hbus ▸ hshape, hbus ▸ htidy, hbus ▸ hcoherent⟩

lemma bus_note? (b : Board) (n : Option Notice) : (b.note? n).bus = b.bus := by
  cases n <;> rfl

/-- An access within its region keeps memory and cache consistent, if regions do not share storage.
-/
lemma Consistent.access (ho : bus.Owned fun _ => True) (h : b.Consistent bus) {x : Access}
    (hx : x.Within bus) : (b.access x).Consistent bus := by
  have ho' := ho.sameShape h.shape
  cases x with
  | store width address value =>
    show ((Exec.store width address value).after b).Consistent bus
    unfold Exec.after Exec.store
    rcases b.bus.fault? (width.align address) with _ | fault
    · refine Consistent.of_bus (b := b.mapBus (·.store width address value)) ⟨?_, ?_, ?_⟩
        (bus_note? _ _)
      · exact h.shape.trans (Bus.sameShape_store _ width address value)
      · exact h.tidy.marked (Bus.marked_store _ width address value)
      · exact h.coherent.store ho' (fun _ _ => trivial) h.tidy.place width address value
    · exact h
  | image address bytes =>
    show ((Exec.loadImage address bytes).after b).Consistent bus
    unfold Exec.after Exec.loadImage
    rcases b.bus.imageFault? address with _ | fault
    · have hin : b.bus.Contains address bytes := by
        intro r hr
        rw [h.shape.region?] at hr
        exact hx r hr
      exact ⟨h.shape.trans (Bus.sameShape_loadImage _ address bytes),
        h.tidy.marked (Bus.marked_loadImage _ address bytes),
        h.coherent.loadImage ho' (fun _ => trivial) h.tidy.place hin⟩
    · exact h
  | fetch set address =>
    show ((Exec.loadHandle address).after _).Consistent bus
    have h₁ : (b.mapCore (·.setSet set)).Consistent bus := h.of_bus rfl
    rcases Exec.loadHandle_spec h₁.tidy address with
      ⟨id, e, b', hload, -, -, hl⟩ | ⟨fault, b', -, hload, hu⟩
    · rw [Exec.after_of_ok hload]
      have hl := hl (Set.mem_univ _)
      exact ⟨h₁.shape.trans (.of_bare hl.bus hl.layout), hl.tidy, (hl.coherent h₁.coherent).1⟩
    · rw [Exec.after_of_error hload]
      refine ⟨h₁.shape.trans (.of_bare hu.bus hu.layout), hu.tidy, ?_⟩
      exact h₁.coherent.of_entries hu.bus fun id e he => .inr ⟨e, hu.entries id e he, rfl, rfl⟩
  | lookup set address =>
    have hlayout := InstructionCache.layout_touch b.bus.cache address
    refine ⟨h.shape.trans (.of_bare rfl hlayout), h.tidy.touch address, ?_⟩
    exact h.coherent.of_entries rfl fun id e he =>
      .inr ⟨e, InstructionCache.get?_of_get?_touch he, rfl, rfl⟩

/-- So do any number of them. -/
lemma Consistent.accesses (ho : bus.Owned fun _ => True) (h : b.Consistent bus) {l : List Access}
    (hl : ∀ x ∈ l, x.Within bus) : (b.accesses l).Consistent bus := by
  induction l generalizing b with
  | nil => exact h
  | cons x l ih =>
    refine ih (h.access ho (hl x List.mem_cons_self)) fun y hy => ?_
    exact hl y (List.mem_cons_of_mem x hy)

end Board

namespace Bus

variable {bus : Bus} {k n : ℕ} {r : Region}

/-! ### A stale decoding -/

/-- The first byte of a region is in the region. -/
lemma Placed.regionNumber?_base (h : bus.Placed k r n) : bus.regionNumber? r.base = some k := by
  have hpos := Nat.two_pow_pos (n - 24)
  have hfits := h.fits
  rw [regionNumber?_eq_some_iff, h.slots]
  generalize 2 ^ (n - 24) = span at *
  omega

lemma Placed.region?_base (h : bus.Placed k r n) (hr : bus.regions[k]? = some r) :
    bus.region? r.base = some r := by
  rw [region?_eq_bind, h.regionNumber?_base, Option.bind_some, hr]

/-- The bases of two regions are in different regions of the cache. -/
lemma Placed.regionIndex_ne {k' n' : ℕ} {r' : Region} (h : bus.Placed k r n)
    (h' : bus.Placed k' r' n') (hne : k ≠ k') :
    Cache.regionIndex r.base ≠ Cache.regionIndex r'.base := by
  intro heq
  obtain ⟨hlt, hslot⟩ := (bus.regionNumber?_eq_some_iff _ _).mp h.regionNumber?_base
  obtain ⟨hlt', hslot'⟩ := (bus.regionNumber?_eq_some_iff _ _).mp h'.regionNumber?_base
  have hslots : r.base.toNat / 2 ^ 24 = r'.base.toNat / 2 ^ 24 := by
    rw [Cache.regionIndex_eq, Cache.regionIndex_eq] at heq
    omega
  rw [hslots, hslot'] at hslot
  exact hne (Option.some.inj hslot).symm

/-- The first words of regions with the same storage are the same word. -/
lemma peek_base (hr : bus.regions[k]? = some r) (hp : bus.Placed k r n) {m : LinearMemory}
    (hm : bus.storages[r.storage]? = some m) : bus.peek .word r.base = m.read32 0 := by
  unfold peek
  rw [hp.region?_base hr]
  dsimp only
  rw [hm, UInt32.sub_self]
  rfl

/-- An opcode at the start of a region is the first word in its storage. -/
lemma opcodeAt_base (hr : bus.regions[k]? = some r) (hp : bus.Placed k r n) {m : LinearMemory}
    (hm : bus.storages[r.storage]? = some m) :
    bus.opcodeAt .arm r.base = (m.read32 0).rotateRight 0 := by
  have hrotation : (r.base &&& 3) * 8 = 0 := by
    have hmask : (r.base &&& 3).toNat = r.base.toNat % 2 ^ 2 :=
      Word.toNat_and_sub_one (n := 4) rfl r.base
    have hzero : r.base &&& 3 = 0 := by
      rw [← UInt32.toNat_inj, hmask]
      exact Nat.mod_eq_zero_of_dvd ((Nat.pow_dvd_pow 2 (by decide : 2 ≤ 24)).trans hp.base)
    rw [hzero]
    rfl
  show (bus.peek .word r.base).rotateRight ((r.base &&& 3) * 8) = _
  rw [peek_base hr hp hm, hrotation]

lemma read32_of_empty {m : LinearMemory} (hdata : m.data = .empty) : m.read32 0 = 0 := by
  have hread (offset : Word) : m.read8 offset = 0 := by
    rw [LinearMemory.read8, LinearMemory.byte_eq_byteAt, hdata]
    rfl
  rw [LinearMemory.read32]
  simp only [hread]
  decide

/-- A one that is copied to the start of an empty storage is the word there. -/
lemma read32_loadBytes {m : LinearMemory} (hdata : m.data = .empty) (htwo : 2 ≤ n)
    (hsize : m.size.toNat = 2 ^ n) : (m.loadBytes 0 ⟨#[1]⟩).read32 0 = 1 := by
  have hfour : 2 ^ 2 ≤ 2 ^ n := Nat.pow_le_pow_right (by decide) htwo
  have hindex (offset : Word) (h : offset.toNat < 4) : m.index offset = offset.toNat := by
    rw [LinearMemory.index_eq_mod hsize]
    exact Nat.mod_eq_of_lt (by omega)
  have hfits : m.index 0 + (⟨#[1]⟩ : ByteArray).size ≤ m.size.toNat := by
    rw [hindex 0 (by decide), hsize]
    exact Nat.one_le_two_pow
  have hread (offset : Word) (h : offset.toNat < 4) : (m.loadBytes 0 ⟨#[1]⟩).read8 offset =
      if offset.toNat = 0 then 1 else 0 := by
    rw [LinearMemory.read8, LinearMemory.index_congr (m.size_loadBytes _ _), hindex offset h,
      LinearMemory.byte_loadBytes hfits, hindex 0 (by decide), LinearMemory.byte_eq_byteAt, hdata]
    by_cases hzero : offset.toNat = 0
    · rw [hzero]
      rfl
    · have hout : ¬((0 : Word).toNat ≤ offset.toNat ∧
          offset.toNat < (0 : Word).toNat + (⟨#[1]⟩ : ByteArray).size) := by
        show ¬(0 ≤ offset.toNat ∧ offset.toNat < 0 + 1)
        omega
      rw [if_neg hout, if_neg hzero]
      rfl
  have halign : Word.alignDown 0 4 = 0 := by decide
  simp only [LinearMemory.read32, halign, hread 0 (by decide), hread (0 + 1) (by decide),
    hread (0 + 2) (by decide), hread (0 + 3) (by decide)]
  decide

/-- What is stored at the start of a region marks no page of another region. -/
lemma get?_invalidate_base {base : Word} (hbase : 2 ^ 24 ∣ base.toNat) {c : InstructionCache}
    (hc : c.Regular) {id : HandleId} (hid : id.region ≠ Cache.regionIndex base) :
    (c.invalidate base 1).get? id = c.get? id := by
  have hbits := (hc base).pageBits_le
  have hpage := (Nat.pow_dvd_pow 2 hbits).trans hbase
  have hstep := Word.toNat_one_shiftLeft (n := (c.layout base).pageBits) (by omega)
  have halign : Word.alignDown base (1 <<< (c.layout base).pageBits) = base := by
    rw [← UInt32.toNat_inj, Word.toNat_alignDown hstep, Nat.div_mul_cancel hpage]
  have hlast : base + (1 - 1) = base := UInt32.add_zero base
  have hstop : c.nextPage base ≤ base ∨ c.nextPage base > base := by
    rcases UInt32.le_total (c.nextPage base) base with hle | hge
    · exact .inl hle
    · rcases UInt32.lt_or_eq_of_le hge with hlt | heq
      · exact .inr hlt
      · exact .inl (heq ▸ UInt32.le_refl _)
  rw [InstructionCache.invalidate, if_neg (by decide), halign, hlast,
    InstructionCache.invalidateFrom, if_pos hstop]
  exact InstructionCache.get?_congr
    (InstructionCache.page?_modifyPage_of_ne c _ fun h => hid h.1.symm)

/-- The first instruction of a region is in the cache after it was fetched, on a bus on which
nothing has happened yet. -/
lemma Built.fetch_base (hb : bus.Built) (hr : bus.regions[k]? = some r) (hp : bus.Placed k r n) :
    ∃ id h, (Board.access { bus } (.fetch .arm r.base)).bus.bare = bus.bare ∧
      (Board.access { bus } (.fetch .arm r.base)).bus.cache.layout = bus.cache.layout ∧
      (Board.access { bus } (.fetch .arm r.base)).bus.cache.get? id = some h ∧
      id.place = bus.cache.place ⟨.arm, r.base⟩ ∧ h.address = r.base ∧
      h.opcode = bus.opcodeAt .arm r.base := by
  have hfault : bus.fault? r.base = none := by
    rw [fault?, hp.region?_base hr, Option.isNone_some, Bool.and_false]
    rfl
  have hmiss : bus.cache.find? r.base .arm = none := by
    rcases hfind : bus.cache.find? r.base .arm with _ | ⟨id, h⟩
    · rfl
    · obtain ⟨-, hget, -⟩ := (InstructionCache.find?_eq_some_iff _ _ _ _ _).mp hfind
      exact nomatch (hb.get?_eq_none id).symm.trans hget
  set cache := bus.cache.touch r.base with hcache
  set h := Handle.decode .arm (bus.opcodeAt .arm r.base) r.base with hh
  let b : Board := Board.mapCore { bus } (·.setSet .arm)
  have hstart : b.core.cacheEnabled = false ∧ cache = b.bus.cache ∨
      b.core.cacheEnabled = true ∧ b.bus.cache.find? r.base b.core.regs.set = none ∧
        cache = b.bus.cache.touch r.base := .inr ⟨rfl, hmiss, rfl⟩
  have hload := Exec.loadHandle_of_miss hstart
  obtain ⟨journal, hfetch⟩ := Exec.fetch_of_noFault (b := b.remember cache) .arm hfault
  replace hload := hload.trans (Exec.bind_of_ok hfetch)
  have hbus : (Board.access { bus } (.fetch .arm r.base)).bus =
      { bus with cache := (cache.insert h).2 } := by
    show ((Exec.loadHandle r.base).after b).bus = _
    rw [Exec.after, hload]
    rfl
  have hlayout : cache.layout = bus.cache.layout := InstructionCache.layout_touch _ _
  rw [hbus]
  refine ⟨(cache.insert h).1, h, rfl, (InstructionCache.layout_insert _ _).trans hlayout, ?_, ?_,
    rfl, rfl⟩
  · obtain ⟨hregular, hpages⟩ := hb.exists_layout r.base
    have hcell : bus.cache.cell? (Cache.regionIndex r.base)
        ((bus.cache.layout r.base).pageIndex r.base) = some none := by
      rw [InstructionCache.cell?, hpages]
      show (Array.replicate _ none)[_]? = _
      rw [Array.getElem?_replicate, if_pos (hregular.pageIndex_lt r.base)]
    have htouched : cache.cell? (Cache.regionIndex r.base)
        ((cache.layout r.base).pageIndex r.base) = some (some {}) := by
      rw [hlayout, hcache, InstructionCache.touch, InstructionCache.cell?_modifyPage,
        if_pos ⟨rfl, rfl⟩, hcell]
      rfl
    exact InstructionCache.get?_insert_self htouched (hlayout.symm ▸ hregular) (.inl rfl)
  · rw [InstructionCache.place_insert, Handle.point_decode,
      InstructionCache.place_eq_of_layout_eq hlayout]

/-- An image of one byte at the start of a region is written to the storage of the region. -/
lemma access_image_base {b : Board} (hregion : b.bus.region? r.base = some r) :
    (b.access (.image r.base ⟨#[1]⟩)).bus =
      b.bus.modifyStorage r.storage (·.loadBytes 0 ⟨#[1]⟩) r.base 1 := by
  show ((Exec.loadImage r.base ⟨#[1]⟩).after b).bus = _
  unfold Exec.after Exec.loadImage imageFault?
  rw [hregion]
  show b.bus.loadImage r.base ⟨#[1]⟩ = _
  unfold Bus.loadImage
  rw [hregion]
  dsimp only
  rw [UInt32.sub_self]
  rfl

/-- What is written through the start of one region leaves what the cache has of another one. -/
lemma find?_modifyStorage_base {k' n' : ℕ} {r' : Region} (hc : bus.cache.Regular)
    (hp : bus.Placed k r n) (hp' : bus.Placed k' r' n') (hne : k ≠ k') {id : HandleId} {h : Handle}
    (hfind : bus.cache.find? r.base .arm = some (id, h)) (storage : ℕ)
    (f : LinearMemory → LinearMemory) :
    (bus.modifyStorage storage f r'.base 1).cache.find? r.base .arm = some (id, h) := by
  obtain ⟨hplace, hget, haddress⟩ := (InstructionCache.find?_eq_some_iff _ _ _ _ _).mp hfind
  have hlayout : (bus.cache.invalidate r'.base 1).layout = bus.cache.layout :=
    (InstructionCache.marked_invalidate bus.cache r'.base 1).layout
  have hid : id.region = Cache.regionIndex r.base := congrArg HandleId.region hplace
  refine (InstructionCache.find?_eq_some_iff _ _ _ _ _).mpr ⟨?_, ?_, haddress⟩
  · rw [hplace]
    exact congrFun (InstructionCache.place_eq_of_layout_eq hlayout).symm ⟨.arm, r.base⟩
  · exact (get?_invalidate_base hp'.base hc (hid ▸ hp.regionIndex_ne hp' hne)).trans hget

/-- Where two regions share their storage, what is fetched through one of them and then written
through the other one is found in the cache as it was. -/
lemma exists_stale (hb : bus.Built) (hs : bus.Shares) :
    ∃ l : List Board.Access, (∀ x ∈ l, x.Within bus) ∧
      ¬(Board.accesses { bus } l).bus.Agrees := by
  obtain ⟨k, k', r, r', hne, hr, hr', hsame⟩ := hs
  obtain ⟨n, hp⟩ := hb.placed k r hr
  obtain ⟨n', hp'⟩ := hb.placed k' r' hr'
  obtain ⟨m, hstorage⟩ : ∃ m, bus.storages[r.storage]? = some m :=
    ⟨_, Array.getElem?_eq_getElem (hb.storage k r hr)⟩
  obtain ⟨hdata, j, htwo, hsize⟩ := hb.zero _ m hstorage
  refine ⟨[.fetch .arm r.base, .image r'.base ⟨#[1]⟩], ?_, fun hagrees => ?_⟩
  · intro x hx
    rcases List.mem_cons.mp hx with rfl | hx
    · trivial
    · obtain rfl := List.mem_singleton.mp hx
      intro r₀ hr₀
      obtain rfl := Option.some.inj ((hp'.region?_base hr').symm.trans hr₀)
      have hone : 1 ≤ MemoryMap.slotSize := by decide
      exact Nat.add_le_add_left (hone.trans (le_max_right _ _)) _
  obtain ⟨id, h, hbare, hlayout, hget, hplace, haddress, hopcode⟩ := hb.fetch_base hr hp
  set b := Board.access { bus } (.fetch .arm r.base)
  have hshape : SameShape bus b.bus := .of_bare hbare hlayout
  have hstorages : b.bus.bare.storages = bus.bare.storages := congrArg Bus.storages hbare
  -- the image is written to the storage of both regions
  have himage : (Board.accesses { bus } [.fetch .arm r.base, .image r'.base ⟨#[1]⟩]).bus =
      b.bus.modifyStorage r.storage (·.loadBytes 0 ⟨#[1]⟩) r'.base 1 := by
    rw [hsame]
    exact access_image_base (by rw [hshape.region?, hp'.region?_base hr'])
  have hshape' := b.bus.sameShape_modifyStorage r.storage (f := (·.loadBytes 0 ⟨#[1]⟩))
    (fun m => m.size_loadBytes 0 _) r'.base 1
  have hstorage' : (b.bus.modifyStorage r.storage (·.loadBytes 0 ⟨#[1]⟩) r'.base 1).storages[
      r.storage]? = some (m.loadBytes 0 ⟨#[1]⟩) := by
    rw [getElem?_modifyStorage, if_pos rfl]
    exact congrArg (Option.map _) ((congrArg (·[r.storage]?) hstorages).trans hstorage)
  -- but the page of the first region is not marked
  have hfind : b.bus.cache.find? r.base .arm = some (id, h) := by
    refine (InstructionCache.find?_eq_some_iff _ _ _ _ _).mpr ⟨?_, hget, haddress⟩
    rw [hplace, InstructionCache.place_eq_of_layout_eq hlayout]
  have hfind' := find?_modifyStorage_base (hb.orderly.regular.congr hlayout) (hp.sameShape hshape)
    (hp'.sameShape hshape) hne hfind r.storage (·.loadBytes 0 ⟨#[1]⟩)
  have hshape'' := hshape.trans hshape'
  generalize b.bus.modifyStorage r.storage (·.loadBytes 0 ⟨#[1]⟩) r'.base 1 = bus' at *
  rw [himage] at hagrees
  have hstale := hagrees r.base .arm id h hfind'
  rw [hopcode, opcodeAt_base hr hp hstorage, read32_of_empty hdata,
    opcodeAt_base (by rw [hshape''.regions, hr]) (hp.sameShape hshape'') hstorage',
    read32_loadBytes hdata htwo hsize] at hstale
  exact absurd hstale (by decide)

/-! ### Memory maps -/

lemma Built.tidy {F : Set Point} (hb : bus.Built) : bus.cache.Tidy F :=
  InstructionCache.tidy_of_dead hb.get?_eq_none

lemma Built.setStrict (hb : bus.Built) (strict : Bool) : { bus with strict }.Built :=
  ⟨hb.slots, hb.cache, hb.empty, hb.zero,
    fun k r hr => (hb.placed k r hr).imp fun _ hp =>
      ⟨hp.base, hp.size, hp.fits, hp.slots, hp.layout⟩,
    hb.storage, hb.number⟩

/-- Memory and cache agree after any accesses, if no two regions share storage and no image leaves
the region in which it starts. -/
lemma Built.agrees (hb : bus.Built) (hs : bus.SharesNone) (core : Core) (strict : Bool)
    {l : List Board.Access} (hl : ∀ x ∈ l, x.Within bus) :
    (Board.accesses { core, bus := { bus with strict } } l).bus.Agrees := by
  set bus' : Bus := { bus with strict } with hbus'
  have hb' : bus'.Built := hb.setStrict strict
  have ho : bus'.Owned fun _ => True := by
    refine ⟨hb'.orderly, fun k r hr _ => ?_⟩
    have hu := hs k r hr
    exact ⟨hu.size, hu.only⟩
  have h : Board.Consistent bus' { core, bus := bus' } :=
    ⟨.refl bus', hb'.tidy, fun id h hget => nomatch (hb'.get?_eq_none id).symm.trans hget⟩
  refine (h.accesses ho fun x hx => ?_).agrees
  have hx := hl x hx
  cases x with
  | image address bytes => exact hx
  | store | fetch | lookup => trivial

/-- Memory and cache of the bus of a memory map agree after any stores, images, fetches and looks at
the cache, on a core and with a strictness of one's choice, exactly if no region of the map is a
mirror. No image may leave the region in which it starts. -/
theorem agrees_iff_unmirrored (map : MemoryMap) (h : map.validate = .ok ()) :
    ∃ bus, ofMap map = .ok bus ∧
      ((∀ (core : Core) (strict : Bool) (l : List Board.Access), (∀ x ∈ l, x.Within bus) →
        (Board.accesses { core, bus := { bus with strict } } l).bus.Agrees) ↔
        ∀ c ∈ map.regions, c.mirror = none) := by
  obtain ⟨bus, hbus, hb, hnone, hshares⟩ := exists_ofMap h
  refine ⟨bus, hbus, fun hall => ?_, fun hmirror core strict l hl => ?_⟩
  · by_contra hmirror
    obtain ⟨c, hc, hsome⟩ : ∃ c ∈ map.regions, c.mirror ≠ none := by
      push Not at hmirror
      exact hmirror
    obtain ⟨l, hl, hstale⟩ := exists_stale hb (hshares ⟨c, hc, hsome⟩)
    exact hstale (hall {} bus.strict l hl)
  · exact hb.agrees (hnone hmirror) core strict hl

/-- The map of the handheld passes its check. -/
theorem agrees_iff_unmirrored_handheld :
    MemoryMap.handheld.validate = .ok () ∧ ∃ bus, ofMap .handheld = .ok bus ∧
      ((∀ (core : Core) (strict : Bool) (l : List Board.Access), (∀ x ∈ l, x.Within bus) →
        (Board.accesses { core, bus := { bus with strict } } l).bus.Agrees) ↔
        ∀ c ∈ MemoryMap.handheld.regions, c.mirror = none) :=
  ⟨validate_handheld, agrees_iff_unmirrored .handheld validate_handheld⟩

/-- Memory and cache do not agree if a look-up finds another opcode than is in memory. -/
lemma not_agrees_of_lookup {address : Word} {set : InstrSet} {old new : Word} (hne : old ≠ new)
    (hfound : ((bus.cache.lookup address set).1.map fun e =>
      (e.2.opcode, bus.opcodeAt set address)) = some (old, new)) : ¬bus.Agrees := by
  intro hagrees
  obtain ⟨⟨id, h⟩, hlookup, hpair⟩ := Option.map_eq_some_iff.mp hfound
  obtain ⟨hold, hnew⟩ := Prod.mk.inj hpair
  have heq := hagrees address set id h hlookup
  rw [hold, hnew] at heq
  exact hne heq

/-- On the handheld, what was fetched from the second mirror of a cartridge is found as it was after
another image was written to the first one. -/
theorem not_forall_agrees :
    ¬∀ (map : MemoryMap) (bus : Bus) (l : List Board.Access), map.validate = .ok () →
      ofMap map = .ok bus →
      (∀ set address, .fetch set address ∈ l → address &&& (set.width - 1) = 0) →
      (Board.accesses { bus } l).bus.Agrees := by
  intro hall
  let l : List Board.Access :=
    [.image 0x08000000 ⟨#[1, 0, 160, 227]⟩, .fetch .arm 0x0A000000,
      .image 0x08000000 ⟨#[2, 0, 160, 227]⟩]
  have hagrees := hall .handheld .handheld l validate_handheld ofMap_handheld ?_
  · let bus := (Board.accesses { bus := .handheld } l).bus
    have hfound : ((bus.cache.lookup 0x0A000000 .arm).1.map fun e => (e.2.opcode,
        bus.opcodeAt .arm 0x0A000000)) = some (0xE3A00001, 0xE3A00002) := by
      decide +kernel
    exact not_agrees_of_lookup (by decide) hfound hagrees
  · intro set address hmem
    simp only [l, List.mem_cons, List.not_mem_nil, reduceCtorEq, or_false, false_or,
      Board.Access.fetch.injEq] at hmem
    obtain ⟨rfl, rfl⟩ := hmem
    decide

/-- Without mirrors too, memory and cache part over an image that leaves its region: it goes on at
the start of the same storage, but the page there is not marked. -/
theorem not_forall_agrees_of_unmirrored :
    ¬∀ (map : MemoryMap) (bus : Bus) (l : List Board.Access), map.validate = .ok () →
      ofMap map = .ok bus → (∀ c ∈ map.regions, c.mirror = none) →
      (∀ set address, .fetch set address ∈ l → address &&& (set.width - 1) = 0) →
      (Board.accesses { bus } l).bus.Agrees := by
  intro hall
  let map : MemoryMap :=
    { name := "small", regions := [{ id := "ram", base := 0x03000000, size := "32KiB" }] }
  let bus : Bus := (ofMap map).toOption.getD .empty
  let l : List Board.Access := [.fetch .arm 0x03000000, .image 0x03FFFFFF ⟨#[0, 1]⟩]
  have hcheck : map.validate = .ok () := by decide +kernel
  have hbus : ofMap map = .ok bus := by
    obtain ⟨bus', hbus', -⟩ := exists_ofMap hcheck
    simp only [bus, hbus', Except.toOption, Option.getD_some]
  have hmirror : ∀ c ∈ map.regions, c.mirror = none := by decide
  have hagrees := hall map bus l hcheck hbus hmirror ?_
  · let after := (Board.accesses { bus } l).bus
    have hfound : ((after.cache.lookup 0x03000000 .arm).1.map fun e => (e.2.opcode,
        after.opcodeAt .arm 0x03000000)) = some (0, 1) := by
      decide +kernel
    exact not_agrees_of_lookup (by decide) hfound hagrees
  · intro set address hmem
    simp only [l, List.mem_cons, List.not_mem_nil, reduceCtorEq, or_false,
      Board.Access.fetch.injEq] at hmem
    obtain ⟨rfl, rfl⟩ := hmem
    decide

end Bus

end Armv4T
