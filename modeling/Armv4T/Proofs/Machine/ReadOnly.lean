import Mathlib
import Armv4T.Machine.Debug
import Armv4T.Proofs.Step.Issued

/-!
# Read-only storage

A store changes a cell only if its region may be written and the cell is one of those of its bytes
(`Target.Covers`). Storage that is only behind read-only regions (`Bus.ReadOnly`) is therefore the
same after every run, whatever the machine executes and whatever is written to memory from outside.
Elsewhere a step changes only what the stores that it issues cover
(`Machine.contents_actAll_of_readOnly`).
-/

namespace Armv4T

/-- The byte of a cell is one of those that a store to the target writes, unless it is dropped. -/
def Target.Covers (t : Target) (bus : Bus) (c : Cell) : Prop :=
  ∃ j < t.width.bytes.toNat, bus.cell? (t.width.byteAddress t.address j) = some c

/-- All regions of a storage are read-only. -/
def Bus.ReadOnly (bus : Bus) (storage : ℕ) : Prop :=
  ∀ r ∈ bus.regions, r.storage = storage → r.readOnly = true

/-! ### What a store changes -/

namespace Contents

variable {mem : Contents} {bus : Bus} {c : Cell}

lemma store_ne {width : StoreWidth} {address value : Word}
    (h : mem.store bus width address value c ≠ mem c) :
    bus.Writable address ∧ (Target.mk width address).Covers bus c := by
  unfold store at h
  split at h
  · rename_i hwritable
    have hregion : bus.region? (width.byteAddress address 0) = bus.region? address :=
      bus.region?_byteAddress (by cases width <;> decide)
    rw [Bus.Writable, hregion] at hwritable
    refine ⟨hwritable, ?_⟩
    by_contra hcovers
    refine h (overwrite_of_ne ?_ mem)
    rintro p hp rfl
    obtain ⟨j, hj, hcell⟩ := List.mem_filterMap.mp hp
    obtain ⟨c, hc, rfl⟩ := Option.map_eq_some_iff.mp hcell
    exact hcovers ⟨j, List.mem_range.mp hj, hc⟩
  · exact absurd rfl h

/-- A cell that changes is covered by a store to a region that may be written. -/
lemma storeAll_ne {writes : List Write} (h : mem.storeAll bus writes c ≠ mem c) :
    ∃ w ∈ writes, bus.Writable w.address ∧ w.target.Covers bus c := by
  induction writes generalizing mem with
  | nil => exact absurd rfl h
  | cons w writes ih =>
    by_cases hfirst : mem.store bus w.width w.address w.value c = mem c
    · have hrest : (mem.store bus w.width w.address w.value).storeAll bus writes c ≠
          mem.store bus w.width w.address w.value c := by
        rw [hfirst]
        exact h
      obtain ⟨w', hw', hcovers⟩ := ih hrest
      exact ⟨w', List.mem_cons_of_mem _ hw', hcovers⟩
    · exact ⟨w, List.mem_cons_self, store_ne hfirst⟩

end Contents

/-- Where a region may be written, its storage is not read-only. -/
lemma Target.Covers.not_readOnly {t : Target} {bus : Bus} {c : Cell} (h : t.Covers bus c)
    (hwritable : bus.Writable t.address) : ¬bus.ReadOnly c.1 := by
  intro hreadOnly
  obtain ⟨j, hj, hcell⟩ := h
  obtain ⟨r, hr, hwrite⟩ := hwritable
  rw [Bus.cell?, bus.region?_byteAddress hj, hr, Option.bind_some] at hcell
  obtain ⟨m, -, rfl⟩ := Option.map_eq_some_iff.mp hcell
  obtain ⟨k, -, hregion⟩ := Option.bind_eq_some_iff.mp (bus.region?_eq_bind t.address ▸ hr)
  have hread := hreadOnly r (Array.mem_of_getElem? hregion) rfl
  exact Bool.false_ne_true (hwrite.symm.trans hread)

namespace Board.Wrote

variable {b b' : Board} {ts : List Target} {bus : Bus} {c : Cell}

/-- Stores leave the shape of the bus, if the layout of the cache stays. -/
lemma sameShape (h : b.Wrote b' ts) (hlayout : b'.bus.cache.layout = b.bus.cache.layout) :
    Bus.SameShape b.bus b'.bus := by
  obtain ⟨writes, -, hsame⟩ := h
  have hshape := b.bus.sameShape_storeAll writes
  have hwiring := hsame.wiring
  exact ⟨(congrArg Bus.regions hwiring).trans hshape.regions,
    (congrArg Bus.slots hwiring).trans hshape.slots,
    (congrArg Bus.strict hwiring).trans hshape.strict,
    fun i => (hsame.sizes i).trans (hshape.sizes i), hlayout⟩

/-- The cells after stores to the targets are those before with the stores made to them. -/
lemma exists_writes (h : b.Wrote b' ts) (hm : bus.Mapped)
    (hs : Bus.SameShape { bus with strict := b.bus.strict } b.bus) :
    ∃ writes : List Write, writes.map Write.target = ts ∧
      b'.bus.contents = b.bus.contents.storeAll bus writes := by
  obtain ⟨writes, hwrites, hsame⟩ := h
  refine ⟨writes, hwrites, ?_⟩
  rw [hsame.contents]
  exact (hm.withStrict _).contents_storeAll hs writes

end Board.Wrote

/-! ### Runs -/

namespace Machine

/-- What happens to a machine from outside: an input, or bytes that are written to memory. -/
inductive Act
  | input (i : Input)
  | writeMemory (address : Word) (bytes : List UInt8)
  deriving DecidableEq, Repr

/-- The machine after an act. A fault leaves what was done before it. -/
def act (m : Machine) : Act → Machine
  | .input i => m.receive i
  | .writeMemory address bytes => after (onBoard (writeMemory address bytes)) m

/-- The machine after a run of acts. -/
def actAll (m : Machine) (acts : List Act) : Machine := acts.foldl act m

lemma made_writeMemory (address : Word) (bytes : List UInt8) :
    Exec.Made .full (writeMemory address bytes) := by
  induction bytes generalizing address with
  | nil => exact .pure ()
  | cons byte rest ih => exact .bind (.store rfl _ _ _) fun _ => ih _

/-- An input changes memory by stores, if at all. -/
lemma wrote_receive (m : Machine) (i : Input) : ∃ ts, m.board.Wrote (m.receive i).board ts := by
  have hnothing {b : Board} (h : b.bus.bare = m.board.bus.bare) : ∃ ts, m.board.Wrote b ts :=
    ⟨[], .of_sameMemory (.of_bare h)⟩
  cases i with
  | command c =>
    cases c with
    | step =>
      obtain ⟨done, -, -, hwrote⟩ := m.wrote_step
      exact ⟨done, hwrote⟩
    | request line =>
      refine hnothing ?_
      show (m.board.request line).bus.bare = _
      unfold Board.request
      split <;> rfl
    | acknowledge mask => exact hnothing rfl
  | setMaster on => exact hnothing rfl
  | setEnabled mask => exact hnothing rfl
  | writeRegister id value =>
    rw [receive, board_after_onBoard]
    exact hnothing (congrArg Bus.bare (bus_writeRegister id value m.board))
  | reset entry => exact hnothing rfl

lemma wrote_act (m : Machine) (a : Act) : ∃ ts, m.board.Wrote (m.act a).board ts := by
  cases a with
  | input i => exact m.wrote_receive i
  | writeMemory address bytes =>
    have hplain : Exec.Plain true (writeMemory address bytes) :=
      (made_writeMemory address bytes).plain id
    -- stores only add to the stores that were made before
    let P (bus : Bus) := ∃ writes, Bus.SameMemory (m.board.bus.storeAll writes) bus
    have hstore : ∀ bus width address value, P bus → P (bus.store width address value) := by
      rintro bus width address value ⟨writes, hsame⟩
      refine ⟨writes ++ [⟨width, address, value⟩], ?_⟩
      rw [Bus.storeAll, List.foldl_append]
      exact hsame.store width address value
    obtain ⟨writes, hsame⟩ := hplain.keeps_bus hstore ⟨[], .refl m.board.bus⟩
    rw [act, board_after_onBoard]
    exact ⟨_, writes, rfl, hsame⟩

lemma caches_act (m : Machine) (a : Act) : m.board.Caches (m.act a).board := by
  cases a with
  | input i => exact m.caches_receive i
  | writeMemory address bytes =>
    rw [act, board_after_onBoard]
    exact ((made_writeMemory address bytes).plain id).caches m.board

lemma sameShape_act (m : Machine) (a : Act) : Bus.SameShape m.board.bus (m.act a).board.bus := by
  obtain ⟨ts, hwrote⟩ := m.wrote_act a
  exact hwrote.sameShape (m.caches_act a).layout

/-- The shape of the bus is the same after every run. -/
lemma sameShape_actAll (m : Machine) (acts : List Act) :
    Bus.SameShape m.board.bus (m.actAll acts).board.bus := by
  induction acts generalizing m with
  | nil => exact .refl m.board.bus
  | cons a acts ih => exact (m.sameShape_act a).trans (ih (m.act a))

variable {m : Machine} {bus : Bus}

/-- Storage that is read-only is the same after an act. -/
lemma contents_act (hm : bus.Mapped)
    (hs : Bus.SameShape { bus with strict := m.board.bus.strict } m.board.bus) {c : Cell}
    (hc : bus.ReadOnly c.1) (a : Act) :
    (m.act a).board.bus.contents c = m.board.bus.contents c := by
  obtain ⟨ts, hwrote⟩ := m.wrote_act a
  obtain ⟨writes, -, hcontents⟩ := hwrote.exists_writes hm hs
  rw [hcontents]
  by_contra hne
  obtain ⟨w, -, hwritable, hcovers⟩ := Contents.storeAll_ne hne
  exact hcovers.not_readOnly hwritable hc

lemma contents_actAll (hm : bus.Mapped)
    (hs : Bus.SameShape { bus with strict := m.board.bus.strict } m.board.bus) {c : Cell}
    (hc : bus.ReadOnly c.1) (acts : List Act) :
    (m.actAll acts).board.bus.contents c = m.board.bus.contents c := by
  induction acts generalizing m with
  | nil => rfl
  | cons a acts ih =>
    have hs' := hs.trans_strict (m.sameShape_act a)
    exact (ih hs').trans (contents_act hm hs hc a)

/-- On the bus of a checked map, whatever has been put into its storage, a run changes no byte of a
storage all regions of which are read-only. The run may execute anything and may fail, and bytes may
be written to memory in between. In every machine that it leads to, a step does to memory what the
stores do that it issues, all of them if it finishes and the first of them if it stops with a fault:
every byte that it changes is covered by one of them, in a region that may be written. -/
theorem contents_actAll_of_readOnly {map : MemoryMap} (h : map.validate = .ok ()) :
    ∃ bus, Bus.ofMap map = .ok bus ∧
      ∀ m : Machine, Bus.SameShape { bus with strict := m.board.bus.strict } m.board.bus →
        ∀ acts : List Act,
          let now := m.actAll acts
          (∀ k, bus.ReadOnly k → ∀ i,
            now.board.bus.contents (k, i) = m.board.bus.contents (k, i)) ∧
          ∃ writes : List Write, writes.map Write.target <+: now.issued ∧
            (now.fault? .step = none → writes.map Write.target = now.issued) ∧
            (now.perform .step).board.bus.contents =
              now.board.bus.contents.storeAll bus writes ∧
            ∀ c, (now.perform .step).board.bus.contents c ≠ now.board.bus.contents c →
              ∃ w ∈ writes, bus.Writable w.address ∧ w.target.Covers bus c := by
  obtain ⟨bus, hbus, hbuilt, -⟩ := Bus.exists_ofMap h
  refine ⟨bus, hbus, fun m hs acts => ?_⟩
  intro now
  constructor
  · intro k hk i
    exact contents_actAll hbuilt.mapped hs hk acts
  · have hs' := hs.trans_strict (m.sameShape_actAll acts)
    obtain ⟨done, hdone, hall, hwrote⟩ := now.wrote_step
    obtain ⟨writes, rfl, hcontents⟩ := hwrote.exists_writes hbuilt.mapped hs'
    refine ⟨writes, hdone, hall, hcontents, fun c hc => ?_⟩
    rw [hcontents] at hc
    exact Contents.storeAll_ne hc

/-- A program of the handheld that stores to its read-only memory, where bytes are also written from
outside. -/
theorem contents_actAll_of_readOnly_bios :
    let m := handheld [(0x03000000, 0xE5801000)]
    let acts : List Act := [.input (.writeRegister 15 0x03000000), .input (.command .step),
      .writeMemory 0 [0xFF, 0xFF], .input (.command (.request 3))]
    MemoryMap.handheld.validate = .ok () ∧ Bus.SameShape .handheld m.board.bus ∧
      Bus.handheld.ReadOnly 0 ∧
      ∀ i, (m.actAll acts).board.bus.contents (0, i) = m.board.bus.contents (0, i) := by
  intro m acts
  have hshape : Bus.SameShape .handheld m.board.bus := sameShape_handheld _
  have hreadOnly : Bus.handheld.ReadOnly 0 := by
    unfold Bus.ReadOnly
    decide +kernel
  obtain ⟨bus, hbus, hrun⟩ := contents_actAll_of_readOnly Bus.validate_handheld
  obtain rfl : Bus.handheld = bus := Except.ok.inj (Bus.ofMap_handheld.symm.trans hbus)
  obtain ⟨himmutable, -⟩ := hrun m hshape acts
  exact ⟨Bus.validate_handheld, hshape, hreadOnly, himmutable 0 hreadOnly⟩

/-- The store that the program issues, which the bus drops. -/
example : ((handheld [(0x03000000, 0xE5801000)]).act
    (.input (.writeRegister 15 0x03000000))).issued = [⟨.word, 0⟩] := by decide +kernel

end Machine

end Armv4T
