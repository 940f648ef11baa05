import Mathlib
import Armv4T.Proofs.Bus.Cells
import Armv4T.Proofs.Bus.Upkeep
import Armv4T.Proofs.Exec.Made

/-!
# Buses with the same memory

Two buses have the same memory (`Bus.SameMemory`) if they have the same regions and hold the same
bytes. How much of a storage has been allocated does not count, since what is behind the end of its
buffer is zero, and the cache does not count either. Such buses give the same values
(`Bus.SameMemory.load`), and after the same stores they still have the same memory
(`Bus.SameMemory.storeAll`).
-/

namespace Armv4T.Bus

/-- Two buses have the same regions, and storages of the same sizes that hold the same bytes. -/
structure SameMemory (bus bus' : Bus) : Prop where
  wiring : bus'.wiring = bus.wiring
  sizes : ∀ i : ℕ, bus'.storages[i]?.map LinearMemory.size = bus.storages[i]?.map LinearMemory.size
  contents : bus'.contents = bus.contents

variable {bus bus' bus'' : Bus}

lemma SameShape.wiring (h : SameShape bus bus') : bus'.wiring = bus.wiring := by
  show (⟨bus'.regions, #[], bus'.slots, .empty, bus'.strict⟩ : Bus) =
    ⟨bus.regions, #[], bus.slots, .empty, bus.strict⟩
  rw [h.regions, h.slots, h.strict]

/-- Buses of the same shape have the same memory if they hold the same bytes. -/
lemma SameShape.sameMemory (h : SameShape bus bus') (hcontents : bus'.contents = bus.contents) :
    SameMemory bus bus' :=
  ⟨h.wiring, h.sizes, hcontents⟩

namespace SameMemory

lemma refl (bus : Bus) : SameMemory bus bus := ⟨rfl, fun _ => rfl, rfl⟩

lemma trans (h : SameMemory bus bus') (h' : SameMemory bus' bus'') : SameMemory bus bus'' where
  wiring := h'.wiring.trans h.wiring
  sizes i := (h'.sizes i).trans (h.sizes i)
  contents := h'.contents.trans h.contents

/-- The cache does not count. -/
lemma of_bare (h : bus'.bare = bus.bare) : SameMemory bus bus' := by
  have hbare := congrArg Bus.storages h
  have hstorages : bus'.storages = bus.storages := hbare
  have hwiring := congrArg (fun b : Bus => { b with storages := #[] }) h
  refine ⟨hwiring, fun i => ?_, ?_⟩
  · rw [hstorages]
  · unfold Bus.contents
    rw [hstorages]

/-- What depends on the regions alone is the same. -/
lemma eq_of_wiring {α : Type} (h : SameMemory bus bus') (f : Bus → α)
    (hf : ∀ bus, f bus = f bus.wiring) : f bus' = f bus := by
  rw [hf bus', h.wiring, ← hf]

lemma region? (h : SameMemory bus bus') (address : Word) :
    bus'.region? address = bus.region? address :=
  h.eq_of_wiring (·.region? address) fun _ => rfl

/-- The storages of a number are both there, and they hold the same bytes, or neither is. -/
lemma storage_cases (h : SameMemory bus bus') (i : ℕ) :
    bus.storages[i]? = none ∧ bus'.storages[i]? = none ∨
      ∃ m m', bus.storages[i]? = some m ∧ bus'.storages[i]? = some m' ∧ m'.size = m.size ∧
        m'.byte = m.byte := by
  have hsizes := h.sizes i
  rcases hm : bus.storages[i]? with _ | m <;> rcases hm' : bus'.storages[i]? with _ | m'
  · exact .inl ⟨rfl, rfl⟩
  · rw [hm, hm'] at hsizes
    exact nomatch hsizes
  · rw [hm, hm'] at hsizes
    exact nomatch hsizes
  · rw [hm, hm'] at hsizes
    refine .inr ⟨m, m', rfl, rfl, Option.some.inj hsizes, funext fun j => ?_⟩
    have hbyte := congrFun h.contents (i, j)
    simpa only [Bus.contents, hm, hm', Option.map_some, Option.getD_some] using hbyte

/-! ### Loads -/

lemma peek (h : SameMemory bus bus') (width : StoreWidth) (address : Word) :
    bus'.peek width address = bus.peek width address := by
  unfold Bus.peek
  rw [h.region? address]
  rcases bus.region? address with _ | r
  · rfl
  · rcases h.storage_cases r.storage with ⟨hm, hm'⟩ | ⟨m, m', hm, hm', hsize, hbyte⟩
    · simp only [hm, hm']
    · simp only [hm, hm']
      exact LinearMemory.read_congr hsize fun _ _ => congrFun hbyte _

lemma load (h : SameMemory bus bus') (kind : LoadKind) (address : Word) :
    bus'.load kind address = bus.load kind address := by
  cases kind <;> simp only [Bus.load, h.peek]

lemma opcodeAt (h : SameMemory bus bus') (set : InstrSet) (address : Word) :
    bus'.opcodeAt set address = bus.opcodeAt set address :=
  opcodeAt_eq_of_peek fun width => h.peek width address

/-! ### Stores -/

/-- The same write to the same storage, whatever becomes of the caches. -/
lemma modifyStorage (h : SameMemory bus bus') (storage : ℕ) {f : LinearMemory → LinearMemory}
    (hsize : ∀ m, (f m).size = m.size)
    (hbyte : ∀ m m' : LinearMemory, m'.size = m.size → m'.byte = m.byte → (f m').byte = (f m).byte)
    (address len : Word) :
    SameMemory (bus.modifyStorage storage f address len)
      (bus'.modifyStorage storage f address len) where
  wiring := h.wiring
  sizes i := by
    rw [(sameShape_modifyStorage bus' storage hsize address len).sizes,
      (sameShape_modifyStorage bus storage hsize address len).sizes, h.sizes]
  contents := by
    funext ⟨i, j⟩
    simp only [Bus.contents, getElem?_modifyStorage]
    rcases h.storage_cases i with ⟨hm, hm'⟩ | ⟨m, m', hm, hm', hsame, hbytes⟩
    · rw [hm, hm']
    · rw [hm, hm']
      split
      · exact congrFun (hbyte m m' hsame hbytes) j
      · exact congrFun hbytes j

lemma store (h : SameMemory bus bus') (width : StoreWidth) (address value : Word) :
    SameMemory (bus.store width address value) (bus'.store width address value) := by
  have hwritable : bus'.writable? (width.align address) = bus.writable? (width.align address) :=
    h.eq_of_wiring (·.writable? (width.align address)) fun _ => rfl
  simp only [Bus.store, hwritable]
  rcases bus.writable? (width.align address) with _ | ⟨storage, offset⟩
  · exact h
  · refine h.modifyStorage storage (fun m => m.size_write width offset value) ?_ _ _
    intro m m' hsize hbyte
    have hindex : m'.index = m.index := funext fun _ => LinearMemory.index_congr hsize _
    rw [LinearMemory.byte_write, LinearMemory.byte_write, hbyte, hindex]

/-- The same stores leave the same memory. -/
lemma storeAll (h : SameMemory bus bus') (writes : List Write) :
    SameMemory (bus.storeAll writes) (bus'.storeAll writes) := by
  induction writes generalizing bus bus' with
  | nil => exact h
  | cons w writes ih => exact ih (h.store w.width w.address w.value)

end SameMemory

end Armv4T.Bus
