import Mathlib
import Armv4T.Proofs.Bus.Build
import Armv4T.Proofs.Decode.Layout
import Armv4T.Proofs.Memory.Values

/-!
# The bus as a memory of bytes

Every mapped address stands for a cell: a position in the storage of its region
(`Bus.cell?`). Two addresses stand for one cell if their regions share the storage, or if the
region repeats between them. What the cells hold is all there is to memory: loads are numbers
written by the bytes of the cells (`Contents.load`), and a store changes the cells of its bytes
(`Contents.store`). Every run of stores on the bus of a checked map is one on the cells
(`Bus.serves_storeAll`), whatever was put into the storage, however much of it has been allocated,
and through whichever mirror it is read.
-/

namespace Armv4T

/-- A byte of memory: the number of a storage and a position in it. -/
abbrev Cell := ℕ × ℕ

/-- What the cells hold. -/
abbrev Contents := Cell → UInt8

/-- The address of a byte of an access to the given address, which is rounded down to the width. -/
def StoreWidth.byteAddress (width : StoreWidth) (address : Word) (j : ℕ) : Word :=
  .ofNat (address.toNat / width.bytes.toNat * width.bytes.toNat + j)

namespace Bus

/-- The cell of an address: the storage of its region, and the offset in the region modulo the size
of that storage. -/
def cell? (bus : Bus) (address : Word) : Option Cell :=
  (bus.region? address).bind fun r => bus.storages[r.storage]?.map fun m =>
    (r.storage, (address - r.base).toNat % m.size.toNat)

/-- An address is in a region that is not read-only. -/
def Writable (bus : Bus) (address : Word) : Prop :=
  ∃ r, bus.region? address = some r ∧ r.readOnly = false

instance (bus : Bus) (address : Word) : Decidable (bus.Writable address) :=
  match h : bus.region? address with
  | none => isFalse fun ⟨_, hr, _⟩ => nomatch h.symm.trans hr
  | some r =>
    if hr : r.readOnly = false then isTrue ⟨r, h, hr⟩
    else isFalse fun ⟨_, hr', h'⟩ => hr (Option.some.inj (h.symm.trans hr') ▸ h')

/-- What the cells of a bus hold. -/
def contents (bus : Bus) : Contents := fun c =>
  (bus.storages[c.1]?.map fun m => m.byte c.2).getD 0

end Bus

namespace Contents

/-- The byte at an address, zero outside of all regions. -/
def byteAt (mem : Contents) (bus : Bus) (address : Word) : UInt8 :=
  ((bus.cell? address).map mem).getD 0

/-- The number that the bytes of an access write. -/
def number (mem : Contents) (bus : Bus) (width : StoreWidth) (address : Word) : ℕ :=
  littleEndian <|
    (List.range width.bytes.toNat).map fun j => mem.byteAt bus (width.byteAddress address j)

/-- The value that a load gives. -/
def load (mem : Contents) (bus : Bus) (kind : LoadKind) (address : Word) : Word :=
  match kind with
  | .byte => .ofNat (mem.number bus .byte address)
  | .signedByte => ⟨(BitVec.ofNat 8 (mem.number bus .byte address)).signExtend 32⟩
  | .half =>
    ⟨(BitVec.ofNat 32 (mem.number bus .half address)).rotateRight (8 * (address.toNat % 2))⟩
  | .signedHalf =>
    if address.toNat % 2 = 0 then ⟨(BitVec.ofNat 16 (mem.number bus .half address)).signExtend 32⟩
    else ⟨(BitVec.ofNat 8 (mem.number bus .byte address)).signExtend 32⟩
  | .word =>
    ⟨(BitVec.ofNat 32 (mem.number bus .word address)).rotateRight (8 * (address.toNat % 4))⟩

/-- The cells of a store with the bytes it writes to them. -/
def written (bus : Bus) (width : StoreWidth) (address value : Word) : List (Cell × UInt8) :=
  (List.range width.bytes.toNat).filterMap fun j =>
    (bus.cell? (width.byteAddress address j)).map fun c => (c, value.digit j)

/-- The cells after a store. -/
def store (mem : Contents) (bus : Bus) (width : StoreWidth) (address value : Word) : Contents :=
  if bus.Writable (width.byteAddress address 0) then
    overwrite mem (written bus width address value)
  else mem

end Contents

/-! ### Addresses of an access -/

namespace StoreWidth

variable (width : StoreWidth) (address : Word)

lemma toNat_align :
    (width.align address).toNat = address.toNat / width.bytes.toNat * width.bytes.toNat := by
  obtain ⟨e, -, hwidth⟩ := width.exists_bytes_eq
  rw [hwidth]
  exact Word.toNat_alignDown hwidth address

lemma align_align : width.align (width.align address) = width.align address := by
  have hpos : 0 < width.bytes.toNat := by cases width <;> decide
  apply UInt32.toNat_inj.mp
  rw [toNat_align, toNat_align, Nat.mul_div_cancel _ hpos]

lemma byteAddress_eq (j : ℕ) : width.byteAddress address j = width.align address + .ofNat j := by
  have hround : width.align address =
      .ofNat (address.toNat / width.bytes.toNat * width.bytes.toNat) := by
    rw [← width.toNat_align, UInt32.ofNat_toNat]
  rw [byteAddress, UInt32.ofNat_add, ← hround]

lemma byteAddress_zero : width.byteAddress address 0 = width.align address := by
  rw [byteAddress_eq]
  exact UInt32.add_zero _

variable {width address}

lemma toNat_byteAddress {j : ℕ} (hj : j < width.bytes.toNat) :
    (width.byteAddress address j).toNat = (width.align address).toNat + j ∧
      (width.byteAddress address j).toNat / 2 ^ 24 = address.toNat / 2 ^ 24 := by
  obtain ⟨e, he, hwidth⟩ := width.exists_bytes_eq
  have hlt := address.toNat_lt
  have halign := width.toNat_align address
  rw [hwidth] at hj halign
  have hsum : (width.byteAddress address j).toNat = (width.align address).toNat + j := by
    rw [byteAddress_eq]
    refine Word.toNat_add_ofNat _ ?_
    obtain rfl | rfl | rfl : e = 0 ∨ e = 1 ∨ e = 2 := by omega
    all_goals omega
  refine ⟨hsum, ?_⟩
  rw [hsum, halign]
  obtain rfl | rfl | rfl : e = 0 ∨ e = 1 ∨ e = 2 := by omega
  all_goals omega

end StoreWidth

namespace Bus

variable {bus bus' : Bus} {k n : ℕ} {r : Region} {m : LinearMemory} {width : StoreWidth}
  {address : Word}

/-- Addresses in one slot have one region. -/
lemma region?_congr (bus : Bus) {a b : Word} (h : a.toNat / 2 ^ 24 = b.toNat / 2 ^ 24) :
    bus.region? a = bus.region? b := by
  have hnumber : bus.regionNumber? a = bus.regionNumber? b := by
    ext k
    have hlt : a.toNat < 2 ^ 28 ↔ b.toNat < 2 ^ 28 := by omega
    show _ = some k ↔ _ = some k
    rw [regionNumber?_eq_some_iff, regionNumber?_eq_some_iff, h, hlt]
  rw [region?_eq_bind, region?_eq_bind, hnumber]

/-- The bytes of an access are in the region of its address. -/
lemma region?_byteAddress (bus : Bus) {j : ℕ} (hj : j < width.bytes.toNat) :
    bus.region? (width.byteAddress address j) = bus.region? address :=
  bus.region?_congr (StoreWidth.toNat_byteAddress hj).2

lemma region?_align (bus : Bus) (width : StoreWidth) (address : Word) :
    bus.region? (width.align address) = bus.region? address := by
  rw [← StoreWidth.byteAddress_zero]
  exact bus.region?_byteAddress (by cases width <;> decide)

/-! ### Resolving the bytes of an access -/

/-- Every region is placed, and has storage of at least a word, the size of which is a power of two.
-/
structure Mapped (bus : Bus) : Prop where
  placed : ∀ k r, bus.regions[k]? = some r → ∃ n, bus.Placed k r n
  storage : ∀ (k : ℕ) r, bus.regions[k]? = some r →
    ∃ m e, bus.storages[r.storage]? = some m ∧ 2 ≤ e ∧ m.size.toNat = 2 ^ e

lemma Built.mapped (h : bus.Built) : bus.Mapped where
  placed := h.placed
  storage k r hr := by
    have hm := Array.getElem?_eq_getElem (h.storage k r hr)
    obtain ⟨-, e, he, hsize⟩ := h.zero _ _ hm
    exact ⟨_, e, hm, he, hsize⟩

lemma Mapped.sameShape (h : bus.Mapped) (hs : SameShape bus bus') : bus'.Mapped where
  placed k r hr := by
    rw [hs.regions] at hr
    obtain ⟨n, hn⟩ := h.placed k r hr
    exact ⟨n, hn.sameShape hs⟩
  storage k r hr := by
    rw [hs.regions] at hr
    obtain ⟨m, e, hm, he, hsize⟩ := h.storage k r hr
    have hmap := hs.sizes r.storage
    rw [hm] at hmap
    obtain ⟨m', hm', heq⟩ := Option.map_eq_some_iff.mp hmap
    exact ⟨m', e, hm', he, heq ▸ hsize⟩

lemma Mapped.withStrict (h : bus.Mapped) (strict : Bool) : { bus with strict }.Mapped where
  placed k r hr := by
    obtain ⟨n, hp⟩ := h.placed k r hr
    exact ⟨n, hp.base, hp.size, hp.fits, hp.slots, hp.layout⟩
  storage := h.storage

lemma SameShape.cell? (h : SameShape bus bus') : bus'.cell? = bus.cell? := by
  funext address
  unfold Bus.cell?
  rw [h.region?]
  refine congrArg _ (funext fun r => ?_)
  have hmap (storages : Array LinearMemory) :
      storages[r.storage]?.map (fun m => (r.storage, (address - r.base).toNat % m.size.toNat)) =
        (storages[r.storage]?.map LinearMemory.size).map fun size =>
          (r.storage, (address - r.base).toNat % size.toNat) := by
    rw [Option.map_map]
    rfl
  rw [hmap, hmap, h.sizes]

/-- Rounding down goes on within a region. -/
lemma Mapped.align_sub (h : bus.Mapped) (hr : bus.region? address = some r) (width : StoreWidth) :
    width.align (address - r.base) = width.align address - r.base := by
  obtain ⟨k, hk, hr'⟩ := Option.bind_eq_some_iff.mp (bus.region?_eq_bind address ▸ hr)
  obtain ⟨n, hp⟩ := h.placed k r hr'
  obtain ⟨e, he, hwidth⟩ := width.exists_bytes_eq
  obtain ⟨hsub, hle⟩ := hp.toNat_sub_base hk
  obtain ⟨x, hx⟩ := hp.base
  have halign := width.toNat_align address
  have hbase : r.base ≤ width.align address := by
    rw [UInt32.le_iff_toNat_le, halign, hwidth]
    obtain rfl | rfl | rfl : e = 0 ∨ e = 1 ∨ e = 2 := by omega
    all_goals omega
  apply UInt32.toNat_inj.mp
  rw [UInt32.toNat_sub_of_le _ _ hbase, width.toNat_align, hsub, halign, hwidth]
  obtain rfl | rfl | rfl : e = 0 ∨ e = 1 ∨ e = 2 := by omega
  all_goals omega

/-- The storage behind an address, and the cells of the bytes of an access in it. -/
lemma Mapped.resolve (h : bus.Mapped) (hr : bus.region? address = some r) :
    ∃ m e, bus.storages[r.storage]? = some m ∧ 2 ≤ e ∧ m.size.toNat = 2 ^ e ∧
      ∀ (width : StoreWidth), ∀ j < width.bytes.toNat,
        bus.cell? (width.byteAddress address j) =
          some (r.storage, m.index (width.align (address - r.base) + .ofNat j)) := by
  obtain ⟨k, hk, hr'⟩ := Option.bind_eq_some_iff.mp (bus.region?_eq_bind address ▸ hr)
  obtain ⟨m, e, hm, he, hsize⟩ := h.storage k r hr'
  refine ⟨m, e, hm, he, hsize, fun width j hj => ?_⟩
  unfold cell?
  rw [bus.region?_byteAddress hj, hr, Option.bind_some, hm, Option.map_some, hsize,
    LinearMemory.index_eq_mod hsize, h.align_sub hr, StoreWidth.byteAddress_eq]
  have hcomm : width.align address + .ofNat j - r.base =
      width.align address - r.base + .ofNat j := by
    grind
  rw [hcomm]

lemma cell?_eq_none (h : bus.region? address = none) : bus.cell? address = none := by
  rw [cell?, h, Option.bind_none]

/-! ### Loads -/

lemma number_eq_zero (mem : Contents) (h : bus.region? address = none) (width : StoreWidth) :
    mem.number bus width address = 0 := by
  have hbyte : ∀ j ∈ List.range width.bytes.toNat,
      mem.byteAt bus (width.byteAddress address j) = 0 := by
    intro j hj
    rw [← bus.region?_byteAddress (List.mem_range.mp hj)] at h
    rw [Contents.byteAt, cell?_eq_none h]
    rfl
  rw [Contents.number, List.map_congr_left hbyte, List.map_const', List.length_range, littleEndian,
    List.map_replicate]
  exact Nat.ofDigits_replicate_zero

/-- The bus reads the number that the bytes of the access write. -/
lemma Mapped.peek_eq (h : bus.Mapped) (width : StoreWidth) (address : Word) :
    bus.peek width address = .ofNat (bus.contents.number bus width address) := by
  rcases hr : bus.region? address with _ | r
  · rw [number_eq_zero _ hr, peek, hr]
    rfl
  · obtain ⟨m, e, hm, -, -, hcell⟩ := h.resolve hr
    have hbyte : ∀ j ∈ List.range width.bytes.toNat,
        bus.contents.byteAt bus (width.byteAddress address j) =
          m.byte (m.index (width.align (address - r.base) + .ofNat j)) := by
      intro j hj
      rw [Contents.byteAt, hcell width j (List.mem_range.mp hj)]
      show (bus.storages[r.storage]?.map _).getD 0 = _
      rw [hm]
      rfl
    rw [peek, hr]
    dsimp only
    rw [hm, Contents.number, List.map_congr_left hbyte]
    exact m.read_eq width _

/-- The distance by which a value is rotated. -/
lemma and_sub_one_mul_eight (width : StoreWidth) (address : Word) :
    (address &&& (width.bytes - 1)) * 8 = .ofNat (8 * (address.toNat % width.bytes.toNat)) := by
  obtain ⟨e, he, hwidth⟩ := width.exists_bytes_eq
  have hmask := Word.toNat_and_sub_one hwidth address
  apply UInt32.toNat_inj.mp
  rw [UInt32.toNat_mul, hmask, hwidth, UInt32.toNat_ofNat', Nat.mul_comm]
  rfl

/-- A load of the bus is one of the cells. -/
lemma Mapped.load_eq (h : bus.Mapped) (kind : LoadKind) (address : Word) :
    bus.load kind address = bus.contents.load bus kind address := by
  cases kind with
  | byte => exact h.peek_eq .byte address
  | signedByte =>
    show (bus.peek .byte address).signExtend8 = _
    rw [h.peek_eq, Word.signExtend8_ofNat]
    rfl
  | half =>
    have hdistance : (address &&& 1) * 8 = .ofNat (8 * (address.toNat % 2)) :=
      and_sub_one_mul_eight .half address
    show (bus.peek .half address).rotateRight _ = _
    rw [h.peek_eq, hdistance, Word.rotateRight_eq _ (by omega)]
    rfl
  | signedHalf =>
    have hodd : address.bit 0 = decide (address.toNat % 2 = 1) := by
      rw [Word.bit_eq_decide address (by decide)]
      exact congrArg (fun x => decide (x % 2 = 1)) (Nat.div_one _)
    show (if address.bit 0 then (bus.peek .byte address).signExtend8
      else (bus.peek .half address).signExtend16) = _
    rw [h.peek_eq, h.peek_eq, Word.signExtend8_ofNat, Word.signExtend16_ofNat, hodd]
    by_cases heven : address.toNat % 2 = 0
    · rw [if_neg (by simp [heven])]
      exact (if_pos heven).symm
    · rw [if_pos (by simpa using heven)]
      exact (if_neg heven).symm
  | word =>
    have hdistance : (address &&& 3) * 8 = .ofNat (8 * (address.toNat % 4)) :=
      and_sub_one_mul_eight .word address
    show (bus.peek .word address).rotateRight _ = _
    rw [h.peek_eq, hdistance, Word.rotateRight_eq _ (by omega)]
    rfl

/-! ### Stores -/

lemma store_eq_of_not_writable (h : ¬bus.Writable address) (width : StoreWidth) (value : Word) :
    bus.store width address value = bus := by
  have hnone : bus.writable? (width.align address) = none := by
    rw [writable?, bus.region?_align width address]
    rcases hr : bus.region? address with _ | r
    · rfl
    · have hreadOnly : r.readOnly = true := by
        by_contra hwritable
        exact h ⟨r, hr, Bool.eq_false_of_not_eq_true hwritable⟩
      exact if_pos hreadOnly
  unfold store
  dsimp only
  rw [hnone]

/-- A store of the bus is one to the cells. -/
lemma Mapped.contents_store (h : bus.Mapped) (width : StoreWidth) (address value : Word) :
    (bus.store width address value).contents = bus.contents.store bus width address value := by
  have hfirst : bus.Writable (width.byteAddress address 0) ↔ bus.Writable address := by
    rw [Writable, bus.region?_byteAddress (by cases width <;> decide)]
    rfl
  by_cases hwritable : bus.Writable address
  · obtain ⟨r, hr, hreadOnly⟩ := id hwritable
    obtain ⟨m, e, hm, -, -, hcell⟩ := h.resolve hr
    have hsome : bus.writable? (width.align address) =
        some (r.storage, width.align address - r.base) := by
      rw [writable?, bus.region?_align width address, hr]
      exact if_neg (by simp [hreadOnly])
    have hwritten : Contents.written bus width address value =
        ((List.range width.bytes.toNat).map fun j =>
          (m.index (width.align (address - r.base) + .ofNat j), value.digit j)).map
            fun p => ((r.storage, p.1), p.2) := by
      rw [Contents.written, List.map_map, ← List.filterMap_eq_map]
      refine List.filterMap_congr fun j hj => ?_
      rw [hcell width j (List.mem_range.mp hj)]
      rfl
    have hround : width.align (width.align address - r.base) = width.align (address - r.base) := by
      rw [← h.align_sub hr, StoreWidth.align_align]
    have hbytes : (fun i => bus.contents (r.storage, i)) = m.byte := by
      funext i
      show (bus.storages[r.storage]?.map _).getD 0 = _
      rw [hm]
      rfl
    funext c
    rw [Contents.store, if_pos (hfirst.mpr hwritable), hwritten, overwrite_map_mk, hbytes, ← hround,
      ← LinearMemory.byte_write]
    unfold store contents
    dsimp only
    rw [hsome]
    dsimp only
    rw [getElem?_modifyStorage]
    by_cases hc : c.1 = r.storage
    · rw [if_pos hc.symm, if_pos hc, hc, hm]
      rfl
    · rw [if_neg (Ne.symm hc), if_neg hc]
  · rw [store_eq_of_not_writable hwritable, Contents.store, if_neg (hwritable ∘ hfirst.mp)]

/-! ### Bytes -/

lemma Mapped.readBytes_eq (h : bus.Mapped) (address : Word) (count : ℕ) :
    bus.readBytes address count = (List.range count).map fun i =>
      (bus.contents.load bus .byte (address + .ofNat i)).toUInt8 := by
  refine List.map_congr_left fun i _ => ?_
  rw [h.peek_eq]
  rfl

end Bus

/-! ### Runs of stores -/

/-- A store: its width, the address as it is given, and the value. -/
structure Write where
  width : StoreWidth
  address : Word
  value : Word

/-- The bus after stores. -/
def Bus.storeAll (bus : Bus) (writes : List Write) : Bus :=
  writes.foldl (fun bus w => bus.store w.width w.address w.value) bus

/-- The board after stores, of which the ones that fail are passed over. -/
def Board.storeAll (b : Board) (writes : List Write) : Board :=
  writes.foldl (fun b w => (Exec.store w.width w.address w.value).after b) b

/-- The cells after stores. -/
def Contents.storeAll (mem : Contents) (bus : Bus) (writes : List Write) : Contents :=
  writes.foldl (fun mem w => mem.store bus w.width w.address w.value) mem

/-- The memory of a board behaves like cells with the given contents. Only accesses outside of all
regions of a strict bus fail, and these change nothing. -/
structure Board.Serves (b : Board) (bus : Bus) (mem : Contents) : Prop where
  load : ∀ kind address,
    if b.bus.strict = true ∧ bus.region? address = none then
      Exec.load kind address b = .error (.memoryViolation address) b
    else ∃ journal, Exec.load kind address b = .ok (mem.load bus kind address) { b with journal }
  unmapped : ∀ kind address, bus.region? address = none → mem.load bus kind address = 0
  store : ∀ width address value,
    if b.bus.strict = true ∧ bus.region? address = none then
      Exec.store width address value b = .error (.memoryViolation (width.align address)) b
    else ∃ bus' journal,
      Exec.store width address value b = .ok () { b with bus := bus', journal } ∧
        bus'.contents = mem.store bus width address value ∧
        (¬bus.Writable address → bus' = b.bus)
  readBytes : ∀ address count, b.bus.readBytes address count =
    (List.range count).map fun i => (mem.load bus .byte (address + .ofNat i)).toUInt8

namespace Contents

variable {mem : Contents} {bus bus' : Bus} {address : Word}

lemma load_congr (h : bus'.cell? = bus.cell?) : mem.load bus' = mem.load bus := by
  have hnumber : mem.number bus' = mem.number bus := by
    unfold number byteAt
    rw [h]
  unfold load
  rw [hnumber]

lemma store_congr (hcell : bus'.cell? = bus.cell?) (hregion : bus'.region? = bus.region?) :
    mem.store bus' = mem.store bus := by
  funext width address value
  have hwritable : bus'.Writable (width.byteAddress address 0) ↔
      bus.Writable (width.byteAddress address 0) := by
    rw [Bus.Writable, hregion]
    rfl
  unfold store written
  rw [hcell]
  exact if_congr hwritable rfl rfl

lemma load_eq_zero (mem : Contents) (h : bus.region? address = none) (kind : LoadKind) :
    mem.load bus kind address = 0 := by
  have hnumber (width : StoreWidth) := Bus.number_eq_zero mem h width
  have hrotate (n : ℕ) : (BitVec.ofNat 32 0).rotateRight n = 0 := by simp [BitVec.rotateRight_def]
  cases kind with
  | byte => rw [load, hnumber]; rfl
  | signedByte => rw [load, hnumber]; rfl
  | half => rw [load, hnumber, hrotate]; rfl
  | signedHalf => rw [load, hnumber, hnumber]; exact ite_self _
  | word => rw [load, hnumber, hrotate]; rfl

end Contents

namespace Bus

variable {bus bus' : Bus}

/-- A run of stores leaves the shape of the bus. -/
lemma sameShape_storeAll (bus : Bus) (writes : List Write) :
    SameShape bus (bus.storeAll writes) := by
  induction writes generalizing bus with
  | nil => exact .refl bus
  | cons w writes ih => exact (bus.sameShape_store w.width w.address w.value).trans (ih _)

/-- A run of stores does to the cells what the stores do. -/
lemma Mapped.contents_storeAll (h : bus.Mapped) (hs : SameShape bus bus') (writes : List Write) :
    (bus'.storeAll writes).contents = bus'.contents.storeAll bus writes := by
  induction writes generalizing bus' with
  | nil => rfl
  | cons w writes ih =>
    have hstore : (bus'.store w.width w.address w.value).contents =
        bus'.contents.store bus w.width w.address w.value := by
      rw [(h.sameShape hs).contents_store, Contents.store_congr hs.cell? hs.region?]
    have hrest := ih (hs.trans (bus'.sameShape_store w.width w.address w.value))
    rw [hstore] at hrest
    exact hrest

end Bus

namespace Board

variable {b : Board} {bus : Bus}

lemma serves_contents (hm : bus.Mapped)
    (hs : Bus.SameShape { bus with strict := b.bus.strict } b.bus) :
    b.Serves bus b.bus.contents := by
  have hregion : b.bus.region? = bus.region? := hs.region?
  have hcell : b.bus.cell? = bus.cell? := hs.cell?
  have hm' : b.bus.Mapped := (hm.withStrict _).sameShape hs
  have hfault (address : Word) : b.bus.fault? address =
      if b.bus.strict = true ∧ bus.region? address = none then some (.memoryViolation address)
      else none := by
    rw [Bus.fault?, hregion]
    simp only [Bool.and_eq_true, Option.isNone_iff_eq_none]
  refine ⟨fun kind address => ?_, fun kind address h => Contents.load_eq_zero _ h kind,
    fun width address value => ?_, fun address count => ?_⟩
  · unfold Exec.load
    rw [hfault]
    split
    · rfl
    · dsimp only
      rw [hm'.load_eq, Contents.load_congr hcell]
      rcases b.bus.loadNotice? address with _ | n
      · exact ⟨b.journal, rfl⟩
      · exact ⟨b.journal.push n, rfl⟩
  · unfold Exec.store
    rw [hfault, ← hregion, Bus.region?_align, hregion]
    split
    · rfl
    · dsimp only
      have hstore : (b.bus.store width address value).contents =
          b.bus.contents.store bus width address value := by
        rw [hm'.contents_store, Contents.store_congr hcell hregion]
      have hdropped : ¬bus.Writable address → b.bus.store width address value = b.bus := by
        intro h
        refine Bus.store_eq_of_not_writable (fun hwritable => h ?_) width value
        rwa [Bus.Writable, hregion] at hwritable
      rcases b.bus.storeNotice? (width.align address) with _ | n
      · exact ⟨_, b.journal, rfl, hstore, hdropped⟩
      · exact ⟨_, b.journal.push n, rfl, hstore, hdropped⟩
  · rw [hm'.readBytes_eq, Contents.load_congr hcell]

/-- A store that fails leaves the bus as a store outside of all regions does. -/
lemma bus_after_store (b : Board) (width : StoreWidth) (address value : Word) :
    ((Exec.store width address value).after b).bus = b.bus.store width address value := by
  rcases hfault : b.bus.fault? (width.align address) with _ | fault
  · have hok : ∃ b', Exec.store width address value b = .ok () b' ∧
        b'.bus = b.bus.store width address value := by
      unfold Exec.store
      rw [hfault]
      refine ⟨_, rfl, ?_⟩
      rcases b.bus.storeNotice? (width.align address) with _ | n <;> rfl
    obtain ⟨b', hok, hbus⟩ := hok
    rw [Exec.after_of_ok hok, hbus]
  · have herror : Exec.store width address value b = .error fault b := by
      unfold Exec.store
      rw [hfault]
    have hunmapped : b.bus.region? address = none := by
      by_contra hregion
      rw [Bus.fault?, Bus.region?_align, if_neg (by simp [hregion])] at hfault
      exact nomatch hfault
    rw [Exec.after_of_error herror, Bus.store_eq_of_not_writable]
    rintro ⟨r, hr, -⟩
    exact nomatch hunmapped.symm.trans hr

lemma bus_storeAll (b : Board) (writes : List Write) :
    (b.storeAll writes).bus = b.bus.storeAll writes := by
  induction writes generalizing b with
  | nil => rfl
  | cons w writes ih =>
    have hstep := b.bus_after_store w.width w.address w.value
    exact (ih _).trans (congrArg (·.storeAll writes) hstep)

end Board

/-- The bus of a checked map is a memory of bytes: whatever stores are made, loads give what the
cells hold after them. -/
theorem Bus.serves_storeAll {map : MemoryMap} (h : map.validate = .ok ()) :
    ∃ bus, ofMap map = .ok bus ∧ bus.contents = (fun _ => 0) ∧
      ∀ b : Board, SameShape { bus with strict := b.bus.strict } b.bus →
        ∀ writes, (b.storeAll writes).Serves bus (b.bus.contents.storeAll bus writes) := by
  obtain ⟨bus, hbus, hbuilt, -⟩ := exists_ofMap h
  refine ⟨bus, hbus, ?_, fun b hs writes => ?_⟩
  · funext c
    show (bus.storages[c.1]?.map _).getD 0 = 0
    rcases hm : bus.storages[c.1]? with _ | m
    · rfl
    · show m.byte c.2 = 0
      rw [LinearMemory.byte_eq_byteAt, (hbuilt.zero _ m hm).1]
      exact byteAt_of_size_le (Nat.zero_le _)
  · have hshape : SameShape b.bus (b.storeAll writes).bus := by
      rw [b.bus_storeAll]
      exact b.bus.sameShape_storeAll writes
    have hcontents : (b.storeAll writes).bus.contents = b.bus.contents.storeAll bus writes := by
      rw [b.bus_storeAll]
      exact (hbuilt.mapped.withStrict _).contents_storeAll hs writes
    have hstrict : (b.storeAll writes).bus.strict = b.bus.strict := hshape.strict
    rw [← hcontents]
    exact Board.serves_contents hbuilt.mapped (hstrict ▸ hs.trans hshape)

/-- A word that is stored on the handheld, read back from a mirror and off by two bytes. -/
theorem Bus.serves_storeAll_handheld :
    let b := ({ bus := handheld } : Board).storeAll [⟨.word, 0x02000001, 0x11223344⟩]
    MemoryMap.handheld.validate = .ok () ∧ SameShape handheld ({ bus := handheld } : Board).bus ∧
      ∃ journal, Exec.load .word 0x02040002 b = .ok 0x33441122 { b with journal } := by
  obtain ⟨bus, hbus, hzero, hserves⟩ := serves_storeAll validate_handheld
  obtain rfl : handheld = bus := Except.ok.inj (ofMap_handheld.symm.trans hbus)
  have h := (hserves { bus := handheld } (.refl _) [⟨.word, 0x02000001, 0x11223344⟩]).load .word
    0x02040002
  rw [hzero] at h
  have hvalue : (Contents.storeAll (fun _ => 0) handheld [⟨.word, 0x02000001, 0x11223344⟩]).load
      handheld .word 0x02040002 = 0x33441122 := by decide +kernel
  have hregion : handheld.region? 0x02040002 ≠ none := by decide +kernel
  rw [if_neg fun h => hregion h.2, hvalue] at h
  exact ⟨validate_handheld, .refl _, h⟩

end Armv4T
