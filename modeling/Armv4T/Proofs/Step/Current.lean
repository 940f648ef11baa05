import Mathlib
import Armv4T.Proofs.Step.Fetch

/-!
# The current instruction and its successor

Between steps the core may remember the decoding of the next instruction. The board is in step
(`Board.Synced`) if what it remembers, as far as it is still live, was decoded at the program
counter and for the current set. On such a board the instruction that is about to be executed is the
one at the program counter (`Exec.currentHandle_spec`), and if execution continues where the entry
of an instruction is linked to, then following the link keeps the board in step
(`Exec.follow_spec`).

Both hold as long as the points that are fetched do not share slots.
-/

namespace Armv4T

namespace Board

/-- What is remembered of the next instruction, as far as it is live, was decoded at a point. -/
def Remembers (b : Board) (p : Point) : Prop :=
  ∀ id h, b.core.current = some id → b.bus.cache.get? id = some h → h.point = p

/-- What is remembered of the next instruction was decoded where the next instruction is. -/
def Synced (b : Board) : Prop := b.Remembers b.core.point

end Board

namespace Handle

/-- Where execution continues is a matter of the point and the opcode. -/
lemma successor_congr {h h' : Handle} (hpoint : h'.point = h.point) (hopcode : h'.opcode = h.opcode)
    (hdecoded : h.instruction = .decode h.set h.opcode)
    (hdecoded' : h'.instruction = .decode h'.set h'.opcode) : h'.successor = h.successor := by
  have hset : h'.set = h.set := congrArg Point.set hpoint
  have haddress : h'.address = h.address := congrArg Point.address hpoint
  have hinstruction : h'.instruction = h.instruction := by
    rw [hdecoded', hdecoded, hset, hopcode]
  rw [successor, successor, hset, haddress, hinstruction]

end Handle

namespace Exec

/-- What is known after the current instruction was found. -/
structure Ready (F : Set Point) (b : Board) (id : HandleId) (h : Handle) (b' : Board) : Prop where
  core : b'.core = { b.core with current := some id }
  irq : b'.irq = b.irq
  bus : b'.bus.bare = b.bus.bare
  layout : b'.bus.cache.layout = b.bus.cache.layout
  point : h.point = b.core.point
  fits : h.Fits F b.bus.cache
  place : id.place = b.bus.cache.place h.point
  tidy : b'.bus.cache.Tidy F
  only : ∀ e, b'.bus.cache.get? id = some e → e = h
  fresh : b'.bus.cache.find? h.address h.set = none → h.opcode = b.bus.opcodeAt h.set h.address
  coherent : b.bus.Coherent → b'.bus.Coherent ∧ h.opcode = b.bus.opcodeAt h.set h.address

variable {F : Set Point} {b : Board}

lemma currentHandle_apply (b : Board) :
    currentHandle b = ((bus fun bus => b.core.current.bind bus.cache.get?) >>= fun live =>
      match live with
      | some h => pure h
      | none => do
        let (id, h) ← loadHandle (← core Core.nextAddress)
        setCurrent (some id)
        return h : Exec Handle) b := rfl

lemma currentHandle_of_live {id : HandleId} {h : Handle} (hcurrent : b.core.current = some id)
    (hget : b.bus.cache.get? id = some h) : currentHandle b = .ok h b := by
  have hlive : bus (fun bus => b.core.current.bind bus.cache.get?) b = .ok (some h) b := by
    show EStateM.Result.ok (b.core.current.bind b.bus.cache.get?) b = _
    rw [hcurrent, Option.bind_some, hget]
  rw [currentHandle_apply]
  exact bind_of_ok hlive

lemma currentHandle_of_dead (hdead : b.core.current.bind b.bus.cache.get? = none) :
    currentHandle b = (do
      let (id, h) ← loadHandle b.core.nextAddress
      setCurrent (some id)
      return h : Exec Handle) b := by
  have hnone : bus (fun bus => b.core.current.bind bus.cache.get?) b = .ok none b := by
    show EStateM.Result.ok (b.core.current.bind b.bus.cache.get?) b = _
    rw [hdead]
  rw [currentHandle_apply]
  exact bind_of_ok hnone

lemma currentHandle_of_load (hdead : b.core.current.bind b.bus.cache.get? = none) {id : HandleId}
    {h : Handle} {b' : Board} (hload : loadHandle b.core.nextAddress b = .ok (id, h) b') :
    currentHandle b = .ok h (b'.mapCore ({ · with current := some id })) := by
  rw [currentHandle_of_dead hdead]
  exact bind_of_ok hload

lemma currentHandle_of_load_error (hdead : b.core.current.bind b.bus.cache.get? = none)
    {fault : Fault} {b' : Board} (hload : loadHandle b.core.nextAddress b = .error fault b') :
    currentHandle b = .error fault b' := by
  rw [currentHandle_of_dead hdead]
  exact bind_of_error hload

/-- A live entry of the right point is the current instruction. -/
lemma ready_of_live (ht : b.bus.cache.Tidy F) (hs : b.Synced) {id : HandleId} {h : Handle}
    (hcurrent : b.core.current = some id) (hget : b.bus.cache.get? id = some h) :
    Ready F b id h b := by
  have hplace := ht.place id h hget
  refine
    { core := by rw [← hcurrent], irq := rfl, bus := rfl, layout := rfl,
      point := hs id h hcurrent hget, fits := ht.fits id h hget, place := hplace, tidy := ht,
      only := fun e he => Option.some.inj (he.symm.trans hget), fresh := fun hmiss => ?_,
      coherent := fun hcoherent => ⟨hcoherent, hcoherent id h hget⟩ }
  have hfind : b.bus.cache.find? h.address h.set = some (id, h) :=
    (InstructionCache.find?_eq_some_iff _ _ _ _ _).mpr ⟨hplace, hget, rfl⟩
  exact absurd (hmiss.symm.trans hfind) (by simp)

/-- What was just loaded at the program counter is the current instruction. -/
lemma Loaded.ready {id : HandleId} {h : Handle} {b' : Board}
    (hl : Loaded F b b.core.nextAddress id h b') :
    Ready F b id h (b'.mapCore ({ · with current := some id })) := by
  have hset : h.set = b.core.regs.set := congrArg Point.set hl.point
  have haddress : h.address = b.core.nextAddress := congrArg Point.address hl.point
  exact
    { core := by rw [Board.mapCore, hl.core], irq := hl.irq, bus := hl.bus, layout := hl.layout,
      point := hl.point, fits := hl.fits, place := hl.place, tidy := hl.tidy, only := hl.only,
      fresh := fun hmiss => hl.fresh (by rw [← haddress, ← hset]; exact hmiss),
      coherent := hl.coherent }

/-- The current instruction is the one at the program counter, on a board that is in step. It is not
found only if the address is out of bounds for a strict bus, and then nothing was remembered. -/
theorem currentHandle_spec (ht : b.bus.cache.Tidy F) (hs : b.Synced) (hF : b.core.point ∈ F) :
    (∃ id h b', currentHandle b = .ok h b' ∧ Ready F b id h b') ∨
      ∃ fault b', b.bus.fault? b.core.nextAddress = some fault ∧
        currentHandle b = .error fault b' ∧ Unloaded F b b' ∧
        b.core.current.bind b.bus.cache.get? = none := by
  rcases hlive : b.core.current.bind b.bus.cache.get? with _ | h
  · rcases loadHandle_spec ht b.core.nextAddress with
      ⟨id, h, b', hload, -, -, hl⟩ | ⟨fault, b', hfault, hload, hu⟩
    · exact .inl ⟨id, h, _, currentHandle_of_load hlive hload, (hl hF).ready⟩
    · exact .inr ⟨fault, b', hfault, currentHandle_of_load_error hlive hload, hu, rfl⟩
  · obtain ⟨id, hcurrent, hget⟩ := Option.bind_eq_some_iff.mp hlive
    exact .inl ⟨id, h, b, currentHandle_of_live hcurrent hget, ready_of_live ht hs hcurrent hget⟩

/-- To be in step is to have the instruction at the program counter as the current one, whenever one
can be found. -/
theorem synced_iff (ht : b.bus.cache.Tidy F) :
    b.Synced ↔ ∀ h b', currentHandle b = .ok h b' → h.point = b.core.point := by
  constructor
  · intro hs h b' hok
    rcases hlive : b.core.current.bind b.bus.cache.get? with _ | e
    · rcases loadHandle_spec ht b.core.nextAddress with
        ⟨id, e, b₁, hload, -, hpoint, -⟩ | ⟨fault, b₁, -, hload, -⟩
      · rw [currentHandle_of_load hlive hload] at hok
        cases hok
        exact hpoint
      · rw [currentHandle_of_load_error hlive hload] at hok
        exact nomatch hok
    · obtain ⟨id, hcurrent, hget⟩ := Option.bind_eq_some_iff.mp hlive
      rw [currentHandle_of_live hcurrent hget] at hok
      cases hok
      exact hs id _ hcurrent hget
  · intro hat id h hcurrent hget
    exact hat h b (currentHandle_of_live hcurrent hget)

/-! ### Following a link -/

/-- What is known after the successor was remembered: it names the slot of the program counter. -/
structure Followed (F : Set Point) (b : Board) (n : HandleId) (b' : Board) : Prop where
  core : b'.core = { b.core with current := some n }
  irq : b'.irq = b.irq
  bus : b'.bus.bare = b.bus.bare
  layout : b'.bus.cache.layout = b.bus.cache.layout
  mem : b.core.point ∈ F
  place : n.place = b.bus.cache.place b.core.point
  tidy : b'.bus.cache.Tidy F
  coherent : b.bus.Coherent → b'.bus.Coherent

/-- The board is in step after a link was followed. -/
lemma Followed.synced {n : HandleId} {b' : Board} (h : Followed F b n b')
    (hinj : Set.InjOn b.bus.cache.place F) : b'.Synced := by
  intro id e hcurrent hget
  have hid : n = id := by
    rw [h.core] at hcurrent
    exact Option.some.inj hcurrent
  have hplace := InstructionCache.place_eq_of_layout_eq h.layout
  have hpoint : b'.core.point = b.core.point := by
    rw [h.core]
    rfl
  rw [hpoint]
  refine h.tidy.point_eq (by rwa [hplace]) hget h.mem ?_
  rw [← hid, h.place, hplace]

/-- What an instruction has to leave for its link to be followed: its reference leads to it if it is
live at all, and execution continues at its successor. -/
structure Executed (F : Set Point) (b : Board) (id : HandleId) (h : Handle) : Prop where
  fits : h.Fits F b.bus.cache
  place : id.place = b.bus.cache.place h.point
  only : ∀ e, b.bus.cache.get? id = some e → e = h
  successor : h.successor = b.core.point
  /-- An instruction that continues at itself is as it is in memory, unless it is in its slot. -/
  loop : h.point = b.core.point → b.bus.cache.find? h.address h.set = none →
    h.opcode = b.bus.opcodeAt h.set h.address

lemma follow_of_live {id n : HandleId} {e : Handle} (hget : b.bus.cache.get? n = some e) :
    follow id (some n) b = .ok () (b.mapCore ({ · with current := some n })) := by
  have hvalid : bus (fun bus => ((some n).bind bus.cache.get?).isSome) b = .ok true b := by
    show EStateM.Result.ok ((some n).bind b.bus.cache.get?).isSome b = _
    rw [Option.bind_some, hget]
    rfl
  exact bind_of_ok hvalid

lemma follow_of_dead (id : HandleId) {next : Option HandleId}
    (hdead : next.bind b.bus.cache.get? = none) :
    follow id next b = (do
      let (found, _) ← loadHandle b.core.nextAddress
      link id found
      setCurrent (some found) : Exec Unit) b := by
  have hinvalid : bus (fun bus => (next.bind bus.cache.get?).isSome) b = .ok false b := by
    show EStateM.Result.ok (next.bind b.bus.cache.get?).isSome b = _
    rw [hdead]
    rfl
  exact bind_of_ok hinvalid

/-- Without cached decodings, or without a current one, no successor is looked for. -/
lemma followCurrent_of_none (next : Option HandleId)
    (h : (if b.core.cacheEnabled then b.core.current else none) = none) :
    followCurrent next b = setCurrent none b := by
  have hread : core (fun c => if c.cacheEnabled then c.current else none) b = .ok none b :=
    congrArg (EStateM.Result.ok · b) h
  exact bind_of_ok hread

lemma followCurrent_of_some (next : Option HandleId) {id : HandleId}
    (h : (if b.core.cacheEnabled then b.core.current else none) = some id) :
    followCurrent next b = follow id next b := by
  have hread : core (fun c => if c.cacheEnabled then c.current else none) b = .ok (some id) b :=
    congrArg (EStateM.Result.ok · b) h
  exact bind_of_ok hread

/-- Whatever is live where an instruction was once its successor has been loaded continues at this
successor. -/
lemma Loaded.successor_eq {id n : HandleId} {h h' : Handle} {b' : Board}
    (hl : Loaded F b b.core.nextAddress n h' b') (hx : Executed F b id h)
    (henabled : b.core.cacheEnabled = true) (hinj : Set.InjOn b.bus.cache.place F) {e : Handle}
    (hget : b'.bus.cache.get? id = some e) :
    e.successor = b.core.point := by
  rw [← hx.successor]
  rcases hl.entries id e hget with hold | ⟨rfl, rfl, hopcode, hmiss⟩
  · rw [hx.only e hold]
  -- the instruction was inserted anew into its own slot, as its own successor
  have hpoint : e.point = b.core.point := hl.point
  have hself : e.point = h.point :=
    hinj hl.fits.mem hx.fits.mem (hl.place.symm.trans hx.place)
  have hset : e.set = h.set := congrArg Point.set hself
  have haddress : e.address = h.address := congrArg Point.address hself
  have hset' : e.set = b.core.regs.set := congrArg Point.set hl.point
  have haddress' : e.address = b.core.nextAddress := congrArg Point.address hl.point
  have hmiss' : b.bus.cache.find? h.address h.set = none := by
    rw [← hset, ← haddress, hset', haddress']
    exact (hmiss henabled).1
  refine Handle.successor_congr hself ?_ hx.fits.decoded hl.fits.decoded
  rw [hopcode, hx.loop (hself.symm.trans hpoint) hmiss', hset, haddress]

/-- Following the link of an instruction leads to where execution continues. It fails only if the
program counter is out of bounds for a strict bus. -/
theorem follow_spec (ht : b.bus.cache.Tidy F) {id : HandleId} {h : Handle}
    (hx : Executed F b id h) (henabled : b.core.cacheEnabled = true)
    (hinj : Set.InjOn b.bus.cache.place F) :
    (∃ n b', follow id h.next b = .ok () b' ∧ b'.core = { b.core with current := some n } ∧
      (b.core.point ∈ F → Followed F b n b')) ∨
      ∃ fault b', b.bus.fault? b.core.nextAddress = some fault ∧
        follow id h.next b = .error fault b' ∧ Unloaded F b b' := by
  rcases hlive : h.next.bind b.bus.cache.get? with _ | e
  · have hfollow := follow_of_dead id hlive
    rcases loadHandle_spec ht b.core.nextAddress with
      ⟨n, h', b', hload, hcore, -, hl⟩ | ⟨fault, b', hfault, hload, hu⟩
    · left
      rw [bind_of_ok hload] at hfollow
      have hcore' : ({ b'.core with current := some n } : Core) =
          { b.core with current := some n } := by rw [hcore]
      refine ⟨n, _, hfollow, hcore', fun hF => ?_⟩
      replace hl := hl hF
      have hplace := hl.toRecached.place
      have hn : n.place = b.bus.cache.place b.core.point := by
        rw [hl.place, hl.point]
        rfl
      exact
        { core := hcore'
          irq := hl.irq, bus := hl.bus
          layout := (InstructionCache.layout_link _ _ _).trans hl.layout
          mem := hF, place := hn
          tidy := hl.tidy.link fun e he => by
            rw [hl.successor_eq hx henabled hinj he, hplace]
            exact ⟨hF, hn⟩
          coherent := fun hcoherent => by
            have hcoherent' := (hl.coherent hcoherent).1
            refine hcoherent'.of_entries rfl fun id' e he => .inr ?_
            have he : (b'.bus.cache.link id n).get? id' = some e := he
            rcases InstructionCache.get?_link he with hold | ⟨e₀, rfl, hold, rfl⟩
            · exact ⟨e, hold, rfl, rfl⟩
            · exact ⟨e₀, hold, rfl, rfl⟩ }
    · right
      rw [bind_of_error hload] at hfollow
      exact ⟨fault, b', hfault, hfollow, hu⟩
  · left
    obtain ⟨n, hnext, hget⟩ := Option.bind_eq_some_iff.mp hlive
    rw [hnext]
    refine ⟨n, _, follow_of_live hget, rfl, fun hF => ?_⟩
    have hn : n.place = b.bus.cache.place b.core.point := by
      rw [(hx.fits.next n hnext).2, hx.successor]
    exact { core := rfl, irq := rfl, bus := rfl, layout := rfl, mem := hF, place := hn, tidy := ht,
            coherent := fun hcoherent => hcoherent }

end Exec

end Armv4T
