import Mathlib
import Armv4T.Proofs.Cache.Tidy
import Armv4T.Proofs.Step.Frame
import Armv4T.Step

/-!
# Fetching through the cache

A fetch finds a decoded instruction in the cache or decodes it and inserts it. This file says what
that does to a tidy cache (`Exec.loadHandle_spec`): the handle was decoded at the point of the
fetch, the reference to it names the slot of the point, the cache stays tidy, and nothing that an
instruction can see changes. If the cache agrees with the memory (`Bus.Coherent`) then so does the
handle.
-/

namespace Armv4T

namespace Bus

/-- The opcode in memory at an address. -/
def opcodeAt (bus : Bus) (set : InstrSet) (address : Word) : Word :=
  match set with
  | .arm => bus.load .word address
  | .thumb => bus.load .half address &&& 0xFFFF

/-- Every live entry of the cache has the opcode that is in memory at its address. -/
def Coherent (bus : Bus) : Prop :=
  ∀ id h, bus.cache.get? id = some h → h.opcode = bus.opcodeAt h.set h.address

/-- The memory can be read without the cache. -/
lemma opcodeAt_congr {bus bus' : Bus} (h : bus'.bare = bus.bare) :
    bus'.opcodeAt = bus.opcodeAt := by
  have hbare (bus : Bus) : bus.opcodeAt = bus.bare.opcodeAt := rfl
  rw [hbare bus', h, ← hbare]

/-- A cache stays coherent if every live entry is an old one, up to its link, or agrees with the
memory. -/
lemma Coherent.of_entries {bus bus' : Bus} (h : bus.Coherent) (hbare : bus'.bare = bus.bare)
    (hentries : ∀ id e, bus'.cache.get? id = some e →
      e.opcode = bus.opcodeAt e.set e.address ∨
        ∃ e₀, bus.cache.get? id = some e₀ ∧ e₀.opcode = e.opcode ∧ e₀.point = e.point) :
    bus'.Coherent := by
  intro id e hget
  rw [opcodeAt_congr hbare]
  rcases hentries id e hget with heq | ⟨e₀, hget₀, hopcode, hpoint⟩
  · exact heq
  · have hset : e₀.set = e.set := congrArg Point.set hpoint
    have haddress : e₀.address = e.address := congrArg Point.address hpoint
    rw [← hopcode, ← hset, ← haddress]
    exact h id e₀ hget₀

end Bus

namespace Core

/-- What the next instruction is fetched by. -/
def point (c : Core) : Point := ⟨c.regs.set, c.nextAddress⟩

end Core

namespace Board

/-- The board with another cache. -/
def remember (b : Board) (cache : InstructionCache) : Board :=
  b.mapBus fun bus => { bus with cache }

/-- A board with the same core, where the cache has changed without a change of its layout. -/
structure Recached (b b' : Board) : Prop where
  core : b'.core = b.core
  irq : b'.irq = b.irq
  bus : b'.bus.bare = b.bus.bare
  layout : b'.bus.cache.layout = b.bus.cache.layout

lemma Recached.place {b b' : Board} (h : Recached b b') :
    b'.bus.cache.place = b.bus.cache.place :=
  InstructionCache.place_eq_of_layout_eq h.layout

end Board

namespace Exec

variable {b b' : Board}

/-! ### Decoding from memory -/

lemma fetchOpcode_of_fault {set : InstrSet} {address : Word} {fault : Fault}
    (h : b.bus.fault? address = some fault) : fetchOpcode set address b = .error fault b := by
  have hload (kind : LoadKind) : load kind address b = .error fault b := by
    unfold load
    rw [h]
  cases set with
  | arm => exact hload .word
  | thumb => exact bind_of_error (hload .half)

lemma fetchOpcode_of_noFault (set : InstrSet) {address : Word}
    (h : b.bus.fault? address = none) :
    fetchOpcode set address b =
      .ok (b.bus.opcodeAt set address) (b.note? (b.bus.loadNotice? address)) := by
  have hload (kind : LoadKind) : load kind address b =
      .ok (b.bus.load kind address) (b.note? (b.bus.loadNotice? address)) := by
    unfold load
    rw [h]
  cases set with
  | arm => exact hload .word
  | thumb => exact bind_of_ok (hload .half)

lemma fetch_of_fault {set : InstrSet} {address : Word} {fault : Fault}
    (h : b.bus.fault? address = some fault) : fetch set address b = .error fault b :=
  bind_of_error (fetchOpcode_of_fault h)

/-- A fetch that does not fail gives the decoding of the opcode in memory, and changes at most the
journal. -/
lemma fetch_of_noFault (set : InstrSet) {address : Word} (h : b.bus.fault? address = none) :
    ∃ journal, fetch set address b =
      .ok (Handle.decode set (b.bus.opcodeAt set address) address) { b with journal } := by
  obtain ⟨journal, hnote⟩ : ∃ journal, b.note? (b.bus.loadNotice? address) =
      { b with journal } := by
    cases b.bus.loadNotice? address with
    | none => exact ⟨b.journal, rfl⟩
    | some n => exact ⟨b.journal.push n, rfl⟩
  have hopcode := fetchOpcode_of_noFault set h
  rw [hnote] at hopcode
  unfold fetch
  rw [bind_of_ok hopcode]
  dsimp only
  split
  · exact ⟨_, rfl⟩
  · exact ⟨_, rfl⟩

/-! ### Loading a handle -/

/-- What a successful fetch at the next address, or at another one, leaves behind. -/
structure Loaded (F : Set Point) (b : Board) (address : Word) (id : HandleId) (h : Handle)
    (b' : Board) : Prop extends b.Recached b' where
  point : h.point = ⟨b.core.regs.set, address⟩
  fits : h.Fits F b.bus.cache
  place : id.place = b.bus.cache.place h.point
  tidy : b'.bus.cache.Tidy F
  /-- The reference leads to the handle and to nothing else. -/
  only : ∀ e, b'.bus.cache.get? id = some e → e = h
  /-- Apart from the new handle, if there is one, nothing comes to life. -/
  entries : ∀ id' e, b'.bus.cache.get? id' = some e → b.bus.cache.get? id' = some e ∨
    id' = id ∧ e = h ∧ h.opcode = b.bus.opcodeAt h.set h.address ∧
      (b.core.cacheEnabled = true → b.bus.cache.find? address b.core.regs.set = none ∧
        id = ((b.bus.cache.touch address).insert h).1)
  /-- If the slot is empty afterwards then the handle was just decoded. -/
  fresh : b'.bus.cache.find? address b.core.regs.set = none →
    h.opcode = b.bus.opcodeAt h.set h.address
  coherent : b.bus.Coherent → b'.bus.Coherent ∧ h.opcode = b.bus.opcodeAt h.set h.address

/-- What a failed fetch leaves behind. -/
structure Unloaded (F : Set Point) (b : Board) (b' : Board) : Prop extends b.Recached b' where
  tidy : b'.bus.cache.Tidy F
  entries : ∀ id e, b'.bus.cache.get? id = some e → b.bus.cache.get? id = some e

/-- A fetch looks the instruction up, if decodings are cached, and decodes it if that fails. -/
lemma loadHandle_apply (address : Word) (b : Board) :
    loadHandle address b =
      ((if b.core.cacheEnabled then lookup address b.core.regs.set else pure none) >>=
        fun hit => match hit with
          | some found => pure found
          | none => do
            let h ← fetch b.core.regs.set address
            return (← insert h, h) : Exec (HandleId × Handle)) b := by
  show (if b.core.cacheEnabled then _ >>= _ else _ >>= _ : Exec (HandleId × Handle)) b = _
  cases b.core.cacheEnabled <;> rfl

/-- A fetch that does not find its instruction decodes it. -/
lemma loadHandle_of_miss {address : Word} {cache : InstructionCache}
    (h : b.core.cacheEnabled = false ∧ cache = b.bus.cache ∨
      b.core.cacheEnabled = true ∧ b.bus.cache.find? address b.core.regs.set = none ∧
        cache = b.bus.cache.touch address) :
    loadHandle address b = (do
      let h ← fetch b.core.regs.set address
      return (← insert h, h) : Exec (HandleId × Handle)) (b.remember cache) := by
  rw [loadHandle_apply]
  rcases h with ⟨he, rfl⟩ | ⟨he, hmiss, rfl⟩
  · have hhit : (if b.core.cacheEnabled then lookup address b.core.regs.set else pure none) b =
        .ok none b := by
      rw [he]
      rfl
    exact bind_of_ok hhit
  · have hhit : (if b.core.cacheEnabled then lookup address b.core.regs.set else pure none) b =
        .ok none (b.remember (b.bus.cache.touch address)) := by
      rw [he]
      show EStateM.Result.ok (b.bus.cache.find? address b.core.regs.set) _ = _
      rw [hmiss]
      rfl
    exact bind_of_ok hhit

lemma loadHandle_of_hit {address : Word} {id : HandleId} {h : Handle}
    (he : b.core.cacheEnabled = true)
    (hfind : b.bus.cache.find? address b.core.regs.set = some (id, h)) :
    loadHandle address b = .ok (id, h) (b.remember (b.bus.cache.touch address)) := by
  have hhit : (if b.core.cacheEnabled then lookup address b.core.regs.set else pure none) b =
      .ok (some (id, h)) (b.remember (b.bus.cache.touch address)) := by
    rw [he]
    show EStateM.Result.ok (b.bus.cache.find? address b.core.regs.set) _ = _
    rw [hfind]
    rfl
  rw [loadHandle_apply]
  exact bind_of_ok hhit

variable {F : Set Point} {address : Word}

/-- A hit hands out the page and gives what is in the slot. -/
lemma loaded_of_hit (ht : b.bus.cache.Tidy F) {id : HandleId} {h : Handle}
    (hfind : b.bus.cache.find? address b.core.regs.set = some (id, h)) :
    Loaded F b address id h (b.remember (b.bus.cache.touch address)) := by
  have hpoint := ht.find?_point hfind
  have htouch := InstructionCache.get?_touch_of_find? hfind
  obtain ⟨-, hget, -⟩ := (InstructionCache.find?_eq_some_iff _ _ _ _ _).mp hfind
  have hold : ∀ id' e, (b.bus.cache.touch address).get? id' = some e →
      b.bus.cache.get? id' = some e := fun _ _ => InstructionCache.get?_of_get?_touch
  refine
    { core := rfl, irq := rfl, bus := rfl, layout := InstructionCache.layout_touch _ _,
      point := hpoint, fits := ht.fits id h hget, place := ht.place id h hget,
      tidy := ht.touch address, only := ?_, entries := fun id' e he => .inl (hold id' e he),
      fresh := ?_, coherent := ?_ }
  · exact fun e he => Option.some.inj (he.symm.trans htouch)
  · intro hmiss
    have hfind' : (b.bus.cache.touch address).find? address b.core.regs.set = some (id, h) := by
      obtain ⟨hplace, -, haddress⟩ := (InstructionCache.find?_eq_some_iff _ _ _ _ _).mp hfind
      refine (InstructionCache.find?_eq_some_iff _ _ _ _ _).mpr ⟨?_, htouch, haddress⟩
      rw [hplace, InstructionCache.place_eq_of_layout_eq (InstructionCache.layout_touch _ _)]
    exact absurd (hmiss.symm.trans hfind') (by simp)
  · intro hcoherent
    exact ⟨fun id' e he => hcoherent id' e (hold id' e he), hcoherent id h hget⟩

/-- A miss inserts the decoding of the opcode in memory. -/
lemma loaded_of_miss (ht : b.bus.cache.Tidy F) (hF : (⟨b.core.regs.set, address⟩ : Point) ∈ F)
    {cache : InstructionCache} {journal : Array Notice}
    (hc : b.core.cacheEnabled = false ∧ cache = b.bus.cache ∨
      b.core.cacheEnabled = true ∧ b.bus.cache.find? address b.core.regs.set = none ∧
        cache = b.bus.cache.touch address)
    {h : Handle}
    (hh : h = .decode b.core.regs.set (b.bus.opcodeAt b.core.regs.set address) address) :
    Loaded F b address (cache.insert h).1 h
      { b.remember (cache.insert h).2 with journal } := by
  have hlayout : cache.layout = b.bus.cache.layout := by
    rcases hc with ⟨-, rfl⟩ | ⟨-, -, rfl⟩
    · rfl
    · exact InstructionCache.layout_touch _ _
  have hplace := InstructionCache.place_eq_of_layout_eq hlayout
  have hold : ∀ id e, cache.get? id = some e → b.bus.cache.get? id = some e := by
    intro id e he
    rcases hc with ⟨-, rfl⟩ | ⟨-, -, rfl⟩
    · exact he
    · exact InstructionCache.get?_of_get?_touch he
  have htidy : cache.Tidy F := ht.of_get? hlayout hold
  have hfits (c : InstructionCache) : h.Fits F c := by
    rw [hh]
    exact Handle.fits_decode _ c hF
  have hpoint : h.point = ⟨b.core.regs.set, address⟩ := by
    rw [hh]
    exact Handle.point_decode _ _ _
  have hopcode : h.opcode = b.bus.opcodeAt h.set h.address := by
    have hset : h.set = b.core.regs.set := congrArg Point.set hpoint
    rw [hset, hh]
    rfl
  refine
    { core := rfl, irq := rfl, bus := rfl,
      layout := (InstructionCache.layout_insert cache h).trans hlayout,
      point := hpoint, fits := hfits _, place := by rw [InstructionCache.place_insert, hplace],
      tidy := htidy.insert (hfits cache), only := ?_, entries := ?_, fresh := fun _ => hopcode,
      coherent := ?_ }
  · intro e he
    rcases InstructionCache.get?_insert he with ⟨-, heq⟩ | ⟨hne, -⟩
    · exact heq
    · exact absurd (InstructionCache.place_insert cache h) hne
  · intro id e he
    rcases InstructionCache.get?_insert he with ⟨hid, heq⟩ | ⟨-, hget⟩
    · refine .inr ⟨hid, heq, hopcode, fun henabled => ?_⟩
      rcases hc with ⟨hdisabled, -⟩ | ⟨-, hmiss, rfl⟩
      · exact absurd (hdisabled.symm.trans henabled) Bool.false_ne_true
      · exact ⟨hmiss, rfl⟩
    · exact .inl (hold id e hget)
  · intro hcoherent
    refine ⟨hcoherent.of_entries rfl fun id e he => ?_, hopcode⟩
    rcases InstructionCache.get?_insert he with ⟨-, rfl⟩ | ⟨-, hget⟩
    · exact .inl hopcode
    · exact .inr ⟨e, hold id e hget, rfl, rfl⟩

/-- A fetch finds or decodes the instruction at an address, unless the address is out of bounds for
a strict bus. It leaves a tidy cache tidy if its point is one of the set. -/
theorem loadHandle_spec (ht : b.bus.cache.Tidy F) (address : Word) :
    (∃ id h b', loadHandle address b = .ok (id, h) b' ∧ b'.core = b.core ∧
      h.point = ⟨b.core.regs.set, address⟩ ∧
      ((⟨b.core.regs.set, address⟩ : Point) ∈ F → Loaded F b address id h b')) ∨
      ∃ fault b', b.bus.fault? address = some fault ∧
        loadHandle address b = .error fault b' ∧ Unloaded F b b' := by
  have miss {cache : InstructionCache}
      (hc : b.core.cacheEnabled = false ∧ cache = b.bus.cache ∨
        b.core.cacheEnabled = true ∧ b.bus.cache.find? address b.core.regs.set = none ∧
          cache = b.bus.cache.touch address) :
      (∃ id h b', loadHandle address b = .ok (id, h) b' ∧ b'.core = b.core ∧
        h.point = ⟨b.core.regs.set, address⟩ ∧
        ((⟨b.core.regs.set, address⟩ : Point) ∈ F → Loaded F b address id h b')) ∨
        ∃ fault b', b.bus.fault? address = some fault ∧
          loadHandle address b = .error fault b' ∧ Unloaded F b b' := by
    have hload := loadHandle_of_miss hc
    rcases hfault : b.bus.fault? address with _ | fault
    · left
      obtain ⟨journal, hfetch⟩ := fetch_of_noFault (b := b.remember cache) b.core.regs.set hfault
      rw [bind_of_ok hfetch] at hload
      exact ⟨_, _, _, hload, rfl, Handle.point_decode _ _ _, fun hF => loaded_of_miss ht hF hc rfl⟩
    · right
      have hfetch : fetch b.core.regs.set address (b.remember cache) = .error fault _ :=
        fetch_of_fault hfault
      rw [bind_of_error hfetch] at hload
      refine ⟨fault, _, rfl, hload, ?_⟩
      rcases hc with ⟨-, rfl⟩ | ⟨-, -, rfl⟩
      · exact { core := rfl, irq := rfl, bus := rfl, layout := rfl, tidy := ht,
                entries := fun _ _ he => he }
      · exact { core := rfl, irq := rfl, bus := rfl,
                layout := InstructionCache.layout_touch _ _, tidy := ht.touch address,
                entries := fun _ _ => InstructionCache.get?_of_get?_touch }
  rcases he : b.core.cacheEnabled with _ | _
  · exact miss (.inl ⟨he, rfl⟩)
  · rcases hfind : b.bus.cache.find? address b.core.regs.set with _ | ⟨id, h⟩
    · exact miss (.inr ⟨he, hfind, rfl⟩)
    · exact .inl ⟨id, h, _, loadHandle_of_hit he hfind, rfl, ht.find?_point hfind,
        fun _ => loaded_of_hit ht hfind⟩

end Exec

end Armv4T
