import Mathlib
import Armv4T.Proofs.Bus.Cells

/-!
# Images

An image is refused where its first byte has no region. Otherwise it is copied into the storage of
that region, and wraps at the size of the storage, whatever the addresses of its other bytes stand
for (`Bus.imageCell?`). It can be read back at its address if it is no longer than the storage and
each of its bytes goes to the cell of its address (`Bus.Fits`), which is the case for an image that
ends with the region. If it does not fit then it is accepted nonetheless, and some image of its size
is not what is read back. So loading is faithful or refused for the images that fit and for no
others (`Board.loads_iff_fits`).
-/

namespace Armv4T

namespace Bus

/-- The storage behind an address. -/
def storage? (bus : Bus) (address : Word) : Option LinearMemory :=
  (bus.region? address).bind fun r => bus.storages[r.storage]?

/-- The cell that a byte of an image at an address goes to. -/
def imageCell? (bus : Bus) (address : Word) (i : ℕ) : Option Cell :=
  (bus.region? address).bind fun r => bus.storages[r.storage]?.map fun m =>
    (r.storage, ((address - r.base).toNat + i) % m.size.toNat)

/-- Images of `n` bytes are no longer than the storage at an address, and each of their bytes goes
to the cell of its own address. -/
def Fits (bus : Bus) (address : Word) (n : ℕ) : Prop :=
  ∃ m, bus.storage? address = some m ∧ n ≤ m.size.toNat ∧
    ∀ i < n, bus.cell? (address + .ofNat i) = bus.imageCell? address i

variable {bus bus' : Bus} {address : Word} {r : Region} {m : LinearMemory} {n : ℕ}

instance (bus : Bus) (address : Word) (n : ℕ) : Decidable (bus.Fits address n) :=
  match h : bus.storage? address with
  | none => isFalse fun ⟨_, hm, _⟩ => nomatch h.symm.trans hm
  | some m =>
    if hfits : n ≤ m.size.toNat ∧ ∀ i < n, bus.cell? (address + .ofNat i) = bus.imageCell? address i
    then isTrue ⟨m, h, hfits⟩
    else isFalse fun ⟨_, hm, hfits'⟩ => hfits (Option.some.inj (h.symm.trans hm) ▸ hfits')

lemma SameShape.imageCell? (h : SameShape bus bus') : bus'.imageCell? = bus.imageCell? := by
  funext address i
  unfold Bus.imageCell?
  rw [h.region?]
  refine congrArg _ (funext fun r => ?_)
  have hmap (storages : Array LinearMemory) :
      storages[r.storage]?.map
          (fun m => (r.storage, ((address - r.base).toNat + i) % m.size.toNat)) =
        (storages[r.storage]?.map LinearMemory.size).map fun size =>
          (r.storage, ((address - r.base).toNat + i) % size.toNat) := by
    rw [Option.map_map]
    rfl
  rw [hmap, hmap, h.sizes]

lemma Fits.sameShape (hfits : bus.Fits address n) (h : SameShape bus bus') :
    bus'.Fits address n := by
  obtain ⟨m, hm, hsize, hcell⟩ := hfits
  obtain ⟨r, hr, hm⟩ := Option.bind_eq_some_iff.mp hm
  have hsizes := h.sizes r.storage
  rw [hm] at hsizes
  obtain ⟨m', hm', heq⟩ := Option.map_eq_some_iff.mp hsizes
  refine ⟨m', ?_, heq ▸ hsize, by rwa [h.cell?, h.imageCell?]⟩
  rw [storage?, h.region?, hr, Option.bind_some, hm']

/-! ### What an image does to the cells -/

lemma Mapped.exists_storage (h : bus.Mapped) (hr : bus.region? address = some r) :
    ∃ m k, bus.storages[r.storage]? = some m ∧ m.size.toNat = 2 ^ k := by
  obtain ⟨m, k, hm, -, hk, -⟩ := h.resolve hr
  exact ⟨m, k, hm, hk⟩

/-- The cells after an image. -/
lemma Mapped.contents_loadImage (h : bus.Mapped) (hr : bus.region? address = some r)
    (hm : bus.storages[r.storage]? = some m) (bytes : ByteArray) :
    (bus.loadImage address bytes).contents = overwrite bus.contents
      ((List.range bytes.size).map fun i =>
        ((r.storage, ((address - r.base).toNat + i) % m.size.toNat), byteAt bytes i)) := by
  obtain ⟨m', k, hm', hk⟩ := h.exists_storage hr
  obtain rfl : m = m' := Option.some.inj (hm.symm.trans hm')
  have hk32 : k ≤ 32 := (Word.lt_of_toNat_eq_two_pow hk).le
  have hplace (i : ℕ) : m.index (address - r.base + .ofNat i) =
      ((address - r.base).toNat + i) % m.size.toNat := by
    rw [LinearMemory.index_eq_mod hk, Word.toNat_add_ofNat_mod hk32, hk]
  have hwritten : ((List.range bytes.size).map fun i =>
        ((r.storage, ((address - r.base).toNat + i) % m.size.toNat), byteAt bytes i)) =
      ((List.range bytes.size).map fun i =>
        (m.index (address - r.base + .ofNat i), byteAt bytes i)).map
          fun p => ((r.storage, p.1), p.2) := by
    rw [List.map_map]
    exact List.map_congr_left fun i _ => by simp only [Function.comp, hplace]
  have hbytes : (fun i => bus.contents (r.storage, i)) = m.byte := by
    funext i
    show (bus.storages[r.storage]?.map _).getD 0 = _
    rw [hm]
    rfl
  funext c
  rw [hwritten, overwrite_map_mk, hbytes, ← LinearMemory.byte_loadBytes_eq_overwrite hk]
  unfold loadImage contents
  rw [hr]
  dsimp only
  rw [getElem?_modifyStorage]
  by_cases hc : c.1 = r.storage
  · rw [if_pos hc.symm, if_pos hc, hc, hm]
    rfl
  · rw [if_neg (Ne.symm hc), if_neg hc]

/-! ### Reading back -/

lemma toUInt8_load_byte (mem : Contents) (bus : Bus) (address : Word) :
    (mem.load bus .byte address).toUInt8 = mem.byteAt bus address := by
  have hrange : List.range StoreWidth.byte.bytes.toNat = [0] := rfl
  have hplace : StoreWidth.byte.byteAddress address 0 = address := by
    rw [StoreWidth.byteAddress_zero, LinearMemory.align_byte]
  rw [Contents.load, Contents.number, hrange, List.map_singleton, hplace, littleEndian_singleton]
  apply UInt8.toNat_inj.mp
  rw [UInt32.toNat_toUInt8, UInt32.toNat_ofNat']
  have hlt := (mem.byteAt bus address).toNat_lt
  omega

/-- What is read at the address of an image after it has been loaded. -/
lemma Mapped.readBytes_loadImage (h : bus.Mapped) (address : Word) (bytes : ByteArray) (n : ℕ) :
    (bus.loadImage address bytes).readBytes address n = (List.range n).map fun i =>
      (bus.loadImage address bytes).contents.byteAt bus (address + .ofNat i) := by
  have hs := bus.sameShape_loadImage address bytes
  rw [(h.sameShape hs).readBytes_eq, Contents.load_congr hs.cell?]
  exact List.map_congr_left fun i _ => toUInt8_load_byte _ bus _

/-- Images of a size are read back after they have been loaded. -/
def ReadsBack (bus : Bus) (address : Word) (n : ℕ) : Prop :=
  ∀ bytes : ByteArray, bytes.size = n →
    (bus.loadImage address bytes).readBytes address n = bytes.toList

/-- What is read at the address of a byte of an image that is read back. -/
lemma Mapped.byteAt_of_readsBack (h : bus.Mapped) (hback : bus.ReadsBack address n)
    {bytes : ByteArray} (hsize : bytes.size = n) {i : ℕ} (hi : i < n) :
    (bus.loadImage address bytes).contents.byteAt bus (address + .ofNat i) = byteAt bytes i := by
  have hread := (h.readBytes_loadImage address bytes n).symm.trans (hback bytes hsize)
  rw [LinearMemory.toList_eq_map_byteAt, hsize] at hread
  exact List.map_inj_left.mp hread i (List.mem_range.mpr hi)

/-- Bytes at different distances of less than the size go to different places. -/
lemma add_mod_inj {start size i j : ℕ} (hi : i < size) (hj : j < size)
    (h : (start + i) % size = (start + j) % size) : i = j :=
  (Nat.ModEq.add_left_cancel' start h).eq_of_lt_of_lt hi hj

/-- An image that fits is read back. -/
lemma Mapped.readsBack_of_fits (h : bus.Mapped) (hfits : bus.Fits address n) :
    bus.ReadsBack address n := by
  rintro bytes rfl
  obtain ⟨m, hm, hsize, hcell⟩ := hfits
  obtain ⟨r, hr, hm⟩ := Option.bind_eq_some_iff.mp hm
  rw [h.readBytes_loadImage, LinearMemory.toList_eq_map_byteAt]
  refine List.map_congr_left fun i hi => ?_
  have hi := List.mem_range.mp hi
  have hplace : bus.cell? (address + .ofNat i) =
      some (r.storage, ((address - r.base).toNat + i) % m.size.toNat) := by
    rw [hcell i hi, imageCell?, hr, Option.bind_some, hm]
    rfl
  rw [Contents.byteAt, hplace, h.contents_loadImage hr hm]
  refine overwrite_eq (fun p hp hpi => ?_) ⟨(_, byteAt bytes i), ?_, rfl⟩ _
  · obtain ⟨j, hj, rfl⟩ := List.mem_map.mp hp
    have hj := List.mem_range.mp hj
    exact congrArg (byteAt bytes) (add_mod_inj (by omega) (by omega) (congrArg Prod.snd hpi))
  · exact List.mem_map.mpr ⟨i, List.mem_range.mpr hi, rfl⟩

/-- The image of which one byte is set. -/
def spike (n i : ℕ) : ByteArray := ⟨((List.range n).map fun j => if j = i then 1 else 0).toArray⟩

lemma size_spike (n i : ℕ) : (spike n i).size = n := by
  show (((List.range n).map fun j => if j = i then (1 : UInt8) else 0).toArray).size = n
  rw [List.size_toArray, List.length_map, List.length_range]

lemma byteAt_spike {n i j : ℕ} (hj : j < n) : byteAt (spike n i) j = if j = i then 1 else 0 := by
  simp [byteAt, spike, hj]

/-- An image that is read back is no longer than the storage: the first byte of a longer one is
overwritten. -/
lemma Mapped.le_of_readsBack (h : bus.Mapped) (hr : bus.region? address = some r)
    (hm : bus.storages[r.storage]? = some m) (hback : bus.ReadsBack address n) :
    n ≤ m.size.toNat := by
  by_contra hlt
  have hpos : 0 < m.size.toNat := by
    obtain ⟨m', k, hm', hk⟩ := h.exists_storage hr
    obtain rfl : m = m' := Option.some.inj (hm.symm.trans hm')
    exact hk ▸ Nat.two_pow_pos k
  obtain ⟨l, rfl⟩ := Nat.exists_eq_succ_of_ne_zero (by omega : n ≠ 0)
  have hfirst := h.byteAt_of_readsBack hback (size_spike (l + 1) 0) (Nat.succ_pos l)
  have hplace : bus.cell? (address + .ofNat 0) =
      some (r.storage, (address - r.base).toNat % m.size.toNat) := by
    have hzero : address + .ofNat 0 = address := UInt32.add_zero address
    rw [hzero, cell?, hr, Option.bind_some, hm]
    rfl
  rw [byteAt_spike (Nat.succ_pos l), if_pos rfl, Contents.byteAt, hplace,
    h.contents_loadImage hr hm, size_spike, List.range_succ_eq_map, List.map_cons, overwrite_cons,
    List.map_map] at hfirst
  -- the byte that comes a whole storage later goes to the same cell
  have hlast : (0 : UInt8) = 1 := by
    refine (overwrite_eq (fun p hp hpi => ?_) ⟨_, List.mem_map.mpr ⟨m.size.toNat - 1, ?_, rfl⟩, ?_⟩
      _).symm.trans hfirst
    · obtain ⟨j, hj, rfl⟩ := List.mem_map.mp hp
      have hj := List.mem_range.mp hj
      exact (byteAt_spike (by omega)).trans (if_neg (Nat.succ_ne_zero j))
    · exact List.mem_range.mpr (by omega)
    · show (r.storage, ((address - r.base).toNat + (m.size.toNat - 1 + 1)) % m.size.toNat) = _
      rw [Nat.sub_add_cancel hpos, Nat.add_mod_right]
  exact absurd hlast (by decide)

/-- Each byte of an image that is read back goes to the cell of its address: what another cell holds
does not depend on the byte. -/
lemma Mapped.cell?_of_readsBack (h : bus.Mapped) (hr : bus.region? address = some r)
    (hm : bus.storages[r.storage]? = some m) (hback : bus.ReadsBack address n) {i : ℕ}
    (hi : i < n) :
    bus.cell? (address + .ofNat i) =
      some (r.storage, ((address - r.base).toNat + i) % m.size.toNat) := by
  -- in another cell, the image with this byte set leaves what the image of zeros does
  have hset := h.byteAt_of_readsBack hback (size_spike n i) hi
  have hclear := h.byteAt_of_readsBack hback (size_spike n n) hi
  rw [byteAt_spike hi, if_pos rfl] at hset
  rw [byteAt_spike hi, if_neg (by omega)] at hclear
  rcases hc : bus.cell? (address + .ofNat i) with _ | c
  · rw [Contents.byteAt, hc] at hset
    exact absurd hset (show (0 : UInt8) ≠ 1 by decide)
  · rw [Contents.byteAt, hc, h.contents_loadImage hr hm, size_spike] at hset hclear
    by_contra hne
    have hsame : ∀ j ∈ List.range n,
        (r.storage, ((address - r.base).toNat + j) % m.size.toNat) = c →
          byteAt (spike n i) j = byteAt (spike n n) j := by
      intro j hj hjc
      have hj := List.mem_range.mp hj
      have hji : j ≠ i := by
        rintro rfl
        exact hne (hc.trans (congrArg some hjc.symm))
      rw [byteAt_spike hj, byteAt_spike hj, if_neg hji, if_neg (by omega)]
    have hequal := overwrite_map_congr hsame (f := bus.contents) rfl
    have hbyte : (1 : UInt8) = 0 := hset.symm.trans (hequal.trans hclear)
    exact absurd hbyte (by decide)

/-- Where there is a region, the images of a size are read back exactly if they fit. -/
lemma Mapped.readsBack_iff_fits (h : bus.Mapped) (hr : bus.region? address = some r) (n : ℕ) :
    bus.ReadsBack address n ↔ bus.Fits address n := by
  refine ⟨fun hback => ?_, h.readsBack_of_fits⟩
  obtain ⟨m, k, hm, -⟩ := h.exists_storage hr
  refine ⟨m, by rw [storage?, hr, Option.bind_some, hm], h.le_of_readsBack hr hm hback,
    fun i hi => ?_⟩
  rw [h.cell?_of_readsBack hr hm hback hi, imageCell?, hr, Option.bind_some, hm]
  rfl

/-- Images that are no longer than the storage and end within the slots of their region fit. -/
lemma Mapped.fits_of_contains (h : bus.Mapped) (hm : bus.storage? address = some m)
    {bytes : ByteArray} (hsize : bytes.size ≤ m.size.toNat) (hin : bus.Contains address bytes) :
    bus.Fits address bytes.size := by
  obtain ⟨r, hr, hm'⟩ := Option.bind_eq_some_iff.mp hm
  obtain ⟨k, hk, hr'⟩ := Option.bind_eq_some_iff.mp (bus.region?_eq_bind address ▸ hr)
  obtain ⟨e, hp⟩ := h.placed k r hr'
  obtain ⟨hlt, hslot⟩ := (bus.regionNumber?_eq_some_iff address k).mp hk
  have hfirst := ((hp.slots _).mp hslot).1
  have hend := hin r hr
  have hfits := hp.fits
  obtain ⟨x, hx⟩ := hp.base
  rw [hp.size, MemoryMap.max_slotSize] at hend
  generalize hspan : 2 ^ (e - 24) = span at hend hfits
  refine ⟨m, hm, hsize, fun i hi => ?_⟩
  have hi' : (address + .ofNat i).toNat = address.toNat + i :=
    Word.toNat_add_ofNat address (by omega)
  have hnumber : bus.regionNumber? (address + .ofNat i) = some k := by
    rw [regionNumber?_eq_some_iff, hi', hp.slots, hspan]
    omega
  have hregion : bus.region? (address + .ofNat i) = some r := by
    rw [region?_eq_bind, hnumber, Option.bind_some, hr']
  have hoffset : (address + .ofNat i - r.base).toNat = (address - r.base).toNat + i := by
    obtain ⟨hsub, hle⟩ := hp.toNat_sub_base hk
    rw [(hp.toNat_sub_base hnumber).1, hsub, hi']
    omega
  rw [cell?, hregion, imageCell?, hr, Option.bind_some, Option.bind_some, hoffset]

end Bus

/-! ### Faithful or refused -/

/-- The bus of a checked map refuses an image exactly where its first byte has no region, and then
nothing changes. Elsewhere it accepts every image, and the images of a size are read back exactly if
they fit; those do that are no longer than the storage and stay in the slots of their region. -/
theorem Board.loads_iff_fits {map : MemoryMap} (h : map.validate = .ok ()) :
    ∃ bus, Bus.ofMap map = .ok bus ∧
      ∀ b : Board, Bus.SameShape { bus with strict := b.bus.strict } b.bus → ∀ address : Word,
        (bus.region? address = none → ∀ bytes : ByteArray,
          Exec.loadImage address bytes b = .error (.memoryViolation address) b) ∧
        (bus.region? address ≠ none →
          (∀ bytes : ByteArray, ∃ b', Exec.loadImage address bytes b = .ok () b') ∧
          ∀ n : ℕ, (∀ bytes : ByteArray, bytes.size = n →
              ((Exec.loadImage address bytes).after b).bus.readBytes address n = bytes.toList) ↔
            bus.Fits address n) ∧
        ∀ (m : LinearMemory) (bytes : ByteArray), bus.storage? address = some m →
          bytes.size ≤ m.size.toNat → bus.Contains address bytes → bus.Fits address bytes.size := by
  obtain ⟨bus, hbus, hbuilt, -⟩ := Bus.exists_ofMap h
  refine ⟨bus, hbus, fun b hs address => ⟨fun hr bytes => ?_, fun hr => ?_, fun m bytes hm =>
    hbuilt.mapped.fits_of_contains hm⟩⟩
  · have hregion : b.bus.region? address = none := (congrFun hs.region? address).trans hr
    unfold Exec.loadImage Bus.imageFault?
    rw [hregion]
    rfl
  · obtain ⟨r, hr⟩ := Option.ne_none_iff_exists'.mp hr
    have hregion : b.bus.region? address = some r := (congrFun hs.region? address).trans hr
    have hload (bytes : ByteArray) : Exec.loadImage address bytes b =
        .ok () (b.mapBus (·.loadImage address bytes)) := by
      unfold Exec.loadImage Bus.imageFault?
      rw [hregion]
      rfl
    refine ⟨fun bytes => ⟨_, hload bytes⟩, fun n => ?_⟩
    have hmapped : b.bus.Mapped := (hbuilt.mapped.withStrict _).sameShape hs
    have hstrict : { bus with strict := b.bus.strict }.Fits address n ↔ bus.Fits address n := .rfl
    have hfits : b.bus.Fits address n ↔ { bus with strict := b.bus.strict }.Fits address n :=
      ⟨fun hfits => hfits.sameShape hs.symm, fun hfits => hfits.sameShape hs⟩
    rw [← hstrict, ← hfits, ← hmapped.readsBack_iff_fits hregion]
    refine forall₂_congr fun bytes _ => ?_
    rw [Exec.after_of_ok (hload bytes)]
    rfl

/-- Images of four bytes are read back where palette memory repeats, but not where it ends. -/
theorem Board.loads_iff_fits_handheld :
    MemoryMap.handheld.validate = .ok () ∧
      Bus.SameShape .handheld ({ bus := .handheld } : Board).bus ∧
      Bus.handheld.region? 0x050003FE ≠ none ∧ Bus.handheld.region? 0x05FFFFFE ≠ none ∧
      (∀ bytes : ByteArray, bytes.size = 4 → ((Exec.loadImage 0x050003FE bytes).after
        { bus := .handheld }).bus.readBytes 0x050003FE 4 = bytes.toList) ∧
      ¬∀ bytes : ByteArray, bytes.size = 4 → ((Exec.loadImage 0x05FFFFFE bytes).after
        { bus := .handheld }).bus.readBytes 0x05FFFFFE 4 = bytes.toList := by
  obtain ⟨hrepeats, hends, hfits, hnot⟩ :
      Bus.handheld.region? 0x050003FE ≠ none ∧ Bus.handheld.region? 0x05FFFFFE ≠ none ∧
        Bus.handheld.Fits 0x050003FE 4 ∧ ¬Bus.handheld.Fits 0x05FFFFFE 4 := by decide +kernel
  obtain ⟨bus, hbus, hloads⟩ := loads_iff_fits Bus.validate_handheld
  obtain rfl : Bus.handheld = bus := Except.ok.inj (Bus.ofMap_handheld.symm.trans hbus)
  have hload := hloads { bus := .handheld } (.refl _)
  refine ⟨Bus.validate_handheld, .refl _, hrepeats, hends, ?_, ?_⟩
  · exact (((hload _).2.1 hrepeats).2 4).mpr hfits
  · exact fun hall => hnot ((((hload _).2.1 hends).2 4).mp hall)

/-- It is not true that every image is refused or read back. -/
theorem Board.not_forall_loads :
    ¬∀ (map : MemoryMap) (bus : Bus), map.validate = .ok () → Bus.ofMap map = .ok bus →
      ∀ (address : Word) (bytes : ByteArray), bytes.size < 2 ^ 32 →
        (∃ fault, Exec.loadImage address bytes { bus } = .error fault { bus }) ∨
          ((Exec.loadImage address bytes).after { bus }).bus.readBytes address bytes.size =
            bytes.toList := by
  intro hall
  obtain ⟨hloads, hread⟩ :
      (Exec.loadImage 0x05FFFFFE ⟨#[1, 2, 3, 4]⟩).run' { bus := .handheld } = some () ∧
        ((Exec.loadImage 0x05FFFFFE ⟨#[1, 2, 3, 4]⟩).after
          { bus := .handheld }).bus.readBytes 0x05FFFFFE 4 = [1, 2, 0, 0] := by decide +kernel
  rcases hall .handheld .handheld Bus.validate_handheld Bus.ofMap_handheld 0x05FFFFFE
    ⟨#[1, 2, 3, 4]⟩ (by decide) with ⟨fault, hfault⟩ | hback
  · rw [Exec.ok_of_finishes hloads] at hfault
    exact nomatch hfault
  · rw [LinearMemory.toList_eq_toList_data] at hback
    exact absurd (hread.symm.trans hback) (by decide)

end Armv4T
