import Mathlib
import Armv4T.Proofs.Step.Current
import Armv4T.Proofs.Step.Sequential

/-!
# Caches that mirror the memory

After a cache was emptied and while nothing is stored, every live entry was decoded from what is in
memory at its address, and sits in the slot of its address (`Bus.Mirrored`). That takes no
assumption on which addresses share a slot: an entry may be replaced at any time, but it is never
mistaken for another one, as long as a reference to the next instruction is followed right after it
was made (`Board.Poised`). A step of such a board executes the instruction in memory at its next
address (`Exec.step_of_poised`).
-/

namespace Armv4T

/-- The handle was decoded from what is in memory at its address. -/
def Handle.Mirrors (h : Handle) (bus : Bus) : Prop :=
  h.instruction = .decode h.set (bus.opcodeAt h.set h.address)

namespace Bus

/-- Every live entry of the cache sits in the slot of its point and was decoded from what is in
memory there. -/
structure Mirrored (bus : Bus) : Prop where
  place : ∀ id h, bus.cache.get? id = some h → id.place = bus.cache.place h.point
  decoded : ∀ id h, bus.cache.get? id = some h → h.Mirrors bus

variable {bus bus' : Bus}

lemma mirrored_of_dead (h : ∀ id, bus.cache.get? id = none) : bus.Mirrored where
  place id e he := by simp [h] at he
  decoded id e he := by simp [h] at he

/-- A cache goes on mirroring the memory if every live entry is an old one, up to its link, or was
decoded from the memory into its slot. -/
lemma Mirrored.of_entries (h : bus.Mirrored) (hbare : bus'.bare = bus.bare)
    (hlayout : bus'.cache.layout = bus.cache.layout)
    (hentries : ∀ id e, bus'.cache.get? id = some e →
      id.place = bus.cache.place e.point ∧ e.Mirrors bus ∨
        ∃ e₀ next, bus.cache.get? id = some e₀ ∧ e = { e₀ with next }) : bus'.Mirrored := by
  have hboth : ∀ id e, bus'.cache.get? id = some e →
      id.place = bus.cache.place e.point ∧ e.Mirrors bus := by
    intro id e hget
    rcases hentries id e hget with hnew | ⟨e₀, next, hget₀, rfl⟩
    · exact hnew
    · exact ⟨h.place id e₀ hget₀, h.decoded id e₀ hget₀⟩
  refine ⟨fun id e hget => ?_, fun id e hget => ?_⟩
  · rw [InstructionCache.place_eq_of_layout_eq hlayout]
    exact (hboth id e hget).1
  · rw [Handle.Mirrors, opcodeAt_congr hbare]
    exact (hboth id e hget).2

end Bus

/-- What a fetch at an address leaves behind: a handle for what is in memory there, and a reference
to it that leads to nothing else. -/
structure Exec.Found (b : Board) (address : Word) (id : HandleId) (h : Handle) (b' : Board) : Prop
    extends b.Recached b' where
  decoded : h.instruction = .decode b.core.regs.set (b.bus.opcodeAt b.core.regs.set address)
  mirrored : b'.bus.Mirrored
  only : ∀ e, b'.bus.cache.get? id = some e → e = h
  unlinked : (∀ id, b.bus.cache.get? id = none) → h.next = none

/-- The cache mirrors the memory, and what is remembered as the next instruction is the one that is
in memory at the next address. -/
structure Board.Poised (b : Board) : Prop where
  mirrored : b.bus.Mirrored
  current : ∀ id h, b.core.current = some id → b.bus.cache.get? id = some h →
    h.instruction = .decode b.core.regs.set (b.bus.opcodeAt b.core.regs.set b.core.nextAddress)

lemma Board.SameDevices.strict {b b' : Board} (h : b.SameDevices b') :
    b'.bus.strict = b.bus.strict := by
  have hbare : b'.bus.bare.strict = b.bus.bare.strict := by rw [h.bus]
  exact hbare

lemma Board.SameDevices.opcodeAt {b b' : Board} (h : b.SameDevices b') :
    b'.bus.opcodeAt = b.bus.opcodeAt := Bus.opcodeAt_congr h.bus

namespace Exec

variable {b : Board}

/-! ### Finding instructions -/

lemma found_of_hit (hm : b.bus.Mirrored) {address : Word} {id : HandleId} {h : Handle}
    (hfind : b.bus.cache.find? address b.core.regs.set = some (id, h)) :
    Found b address id h (b.remember (b.bus.cache.touch address)) := by
  obtain ⟨hplace, hget, haddress⟩ := (InstructionCache.find?_eq_some_iff _ _ _ _ _).mp hfind
  have hset : h.set = b.core.regs.set :=
    congrArg HandleId.set ((hm.place id h hget).symm.trans hplace)
  have hlayout := InstructionCache.layout_touch b.bus.cache address
  refine
    { core := rfl, irq := rfl, bus := rfl, layout := hlayout, decoded := ?_, mirrored := ?_,
      only := fun e he => ?_, unlinked := fun hdead => ?_ }
  · rw [← hset, ← haddress]
    exact hm.decoded id h hget
  · exact hm.of_entries rfl hlayout fun id' e he =>
      .inr ⟨e, e.next, InstructionCache.get?_of_get?_touch he, rfl⟩
  · exact Option.some.inj (he.symm.trans (InstructionCache.get?_touch_of_find? hfind))
  · exact nomatch (hdead id).symm.trans hget

lemma found_of_miss (hm : b.bus.Mirrored) {address : Word} {cache : InstructionCache}
    {journal : Array Notice} {h : Handle} (hlayout : cache.layout = b.bus.cache.layout)
    (hold : ∀ id e, cache.get? id = some e → b.bus.cache.get? id = some e)
    (hh : h = .decode b.core.regs.set (b.bus.opcodeAt b.core.regs.set address) address) :
    Found b address (cache.insert h).1 h { b.remember (cache.insert h).2 with journal } := by
  have hset : h.set = b.core.regs.set := by rw [hh, Handle.set_decode]
  have haddress : h.address = address := by rw [hh]; rfl
  have hdecoded : h.instruction =
      .decode b.core.regs.set (b.bus.opcodeAt b.core.regs.set address) := by rw [hh]; rfl
  have hinsert := (InstructionCache.layout_insert cache h).trans hlayout
  refine
    { core := rfl, irq := rfl, bus := rfl, layout := hinsert, decoded := hdecoded,
      mirrored := ?_, only := fun e he => ?_, unlinked := fun _ => by rw [hh]; rfl }
  · refine hm.of_entries rfl hinsert fun id e he => ?_
    rcases InstructionCache.get?_insert he with ⟨rfl, rfl⟩ | ⟨-, hget⟩
    · refine .inl ⟨?_, ?_⟩
      · rw [InstructionCache.place_insert, InstructionCache.place_eq_of_layout_eq hlayout]
      · rw [Handle.Mirrors, hset, haddress, hdecoded]
    · exact .inr ⟨e, e.next, hold id e hget, rfl⟩
  · rcases InstructionCache.get?_insert he with ⟨-, heq⟩ | ⟨hne, -⟩
    · exact heq
    · exact absurd (InstructionCache.place_insert cache h) hne

/-- On a bus that is not strict a fetch finds what is in memory. -/
lemma exists_found (hm : b.bus.Mirrored) (hstrict : b.bus.strict = false) (address : Word) :
    ∃ id h b', loadHandle address b = .ok (id, h) b' ∧ Found b address id h b' := by
  have miss {cache : InstructionCache}
      (hc : b.core.cacheEnabled = false ∧ cache = b.bus.cache ∨
        b.core.cacheEnabled = true ∧ b.bus.cache.find? address b.core.regs.set = none ∧
          cache = b.bus.cache.touch address) :
      ∃ id h b', loadHandle address b = .ok (id, h) b' ∧ Found b address id h b' := by
    have hload := loadHandle_of_miss hc
    have hlenient : (b.remember cache).bus.fault? address = none := Bus.fault?_of_lenient hstrict _
    obtain ⟨journal, hfetch⟩ := fetch_of_noFault b.core.regs.set hlenient
    rw [bind_of_ok hfetch] at hload
    refine ⟨_, _, _, hload, found_of_miss hm ?_ ?_ rfl⟩
    · rcases hc with ⟨-, rfl⟩ | ⟨-, -, rfl⟩
      · rfl
      · exact InstructionCache.layout_touch _ _
    · rcases hc with ⟨-, rfl⟩ | ⟨-, -, rfl⟩
      · exact fun _ _ he => he
      · exact fun _ _ => InstructionCache.get?_of_get?_touch
  rcases he : b.core.cacheEnabled with _ | _
  · exact miss (.inl ⟨he, rfl⟩)
  · rcases hfind : b.bus.cache.find? address b.core.regs.set with _ | ⟨id, h⟩
    · exact miss (.inr ⟨he, hfind, rfl⟩)
    · exact ⟨id, h, _, loadHandle_of_hit he hfind, found_of_hit hm hfind⟩

/-- The current instruction of a poised board is the one in memory. -/
lemma exists_currentHandle (hp : b.Poised) (hstrict : b.bus.strict = false) :
    ∃ h b', currentHandle b = .ok h b' ∧
      h.instruction =
        .decode b.core.regs.set (b.bus.opcodeAt b.core.regs.set b.core.nextAddress) ∧
      b'.bus.Mirrored ∧ ((∀ id, b.bus.cache.get? id = none) → h.next = none) := by
  rcases hlive : b.core.current.bind b.bus.cache.get? with _ | h
  · obtain ⟨id, h, b', hload, hfound⟩ := exists_found hp.mirrored hstrict b.core.nextAddress
    exact ⟨h, _, currentHandle_of_load hlive hload, hfound.decoded, hfound.mirrored,
      hfound.unlinked⟩
  · obtain ⟨id, hcurrent, hget⟩ := Option.bind_eq_some_iff.mp hlive
    exact ⟨h, b, currentHandle_of_live hcurrent hget, hp.current id h hcurrent hget, hp.mirrored,
      fun hdead => nomatch (hdead id).symm.trans hget⟩

/-- Looking for the successor of an instruction without a link leaves the board poised. -/
lemma exists_followCurrent (hm : b.bus.Mirrored) (hstrict : b.bus.strict = false) :
    ∃ b', followCurrent none b = .ok () b' ∧ b'.Poised := by
  rcases hcurrent : (if b.core.cacheEnabled then b.core.current else none) with _ | id
  · refine ⟨_, followCurrent_of_none none hcurrent, hm, fun id h hnone => nomatch hnone⟩
  · obtain ⟨n, h, b', hload, hfound⟩ := exists_found hm hstrict b.core.nextAddress
    rw [followCurrent_of_some none hcurrent, follow_of_dead id rfl, bind_of_ok hload]
    have hlink : ∀ id' e, (b'.bus.cache.link id n).get? id' = some e →
        ∃ e₀ next, b'.bus.cache.get? id' = some e₀ ∧ e = { e₀ with next } := by
      intro id' e he
      rcases InstructionCache.get?_link he with hget | ⟨e₀, rfl, hget, rfl⟩
      · exact ⟨e, e.next, hget, rfl⟩
      · exact ⟨e₀, _, hget, rfl⟩
    refine ⟨_, rfl, ?_, ?_⟩
    · exact hfound.mirrored.of_entries rfl (InstructionCache.layout_link _ _ _)
        fun id' e he => .inr (hlink id' e he)
    · rintro id' e ⟨rfl⟩ he
      obtain ⟨e₀, next, hget, rfl⟩ := hlink n e he
      obtain rfl := hfound.only e₀ hget
      have hdecoded := hfound.decoded
      rw [← Bus.opcodeAt_congr hfound.bus, ← hfound.core] at hdecoded
      exact hdecoded

/-! ### Stepping -/

/-- A board on which an instruction of a step is executed: the program counter has moved on, and
nothing else has changed that an instruction can see. -/
structure Underway (b b₁ : Board) : Prop where
  devices : b.SameDevices b₁
  mirrored : b₁.bus.Mirrored
  regs : b₁.core.regs = b.core.regs.write .pc (b.core.pc + b.core.width)
  conditionPassed : b₁.core.conditionPassed = true
  halted : b₁.core.halted = false

/-- A step of a poised board without an armed interrupt executes the instruction that is in memory
at the next address, and looks for its successor. -/
lemma step_of_poised (hp : b.Poised) (hrunning : b.core.halted = false)
    (hstrict : b.bus.strict = false) :
    ∃ h b₁, h.instruction =
        .decode b.core.regs.set (b.bus.opcodeAt b.core.regs.set b.core.nextAddress) ∧
      ((∀ id, b.bus.cache.get? id = none) → h.next = none) ∧ Underway b b₁ ∧
      ∀ b₂ b₃, instruction h b₁ = .ok () b₂ → advance h b₂ = .ok () b₃ →
        b₃.irq.armed = false → b₃.core.halted = false → step b = .ok () b₃ := by
  obtain ⟨h, b', hcurrent, hdecoded, hmirrored, hnext⟩ := exists_currentHandle hp hstrict
  have hbare := quiet_currentHandle.bare hcurrent
  have hset : h.set.width = b.core.width := by
    rw [Handle.set, hdecoded, Instruction.set_decode]
    rfl
  refine ⟨h, b'.mapCore (pipelined h.set), hdecoded, hnext, ?_, ?_⟩
  · refine ⟨(Board.SameDevices.of_bare hbare).trans (.mapCore _ _), hmirrored, ?_, rfl, ?_⟩
    · rw [regs_pipelined hbare, hset]
    · exact (Board.core_of_bare hbare (·.halted) fun _ => rfl).trans hrunning
  · intro b₂ b₃ hinstruction hadvance hidle hrunning₃
    have hexecute : executeNext b = .ok () b₃ := by
      rw [executeNext_apply, bind_of_ok hcurrent]
      exact (bind_of_ok hinstruction).trans hadvance
    have hquiet : b₃.updateInterrupts = b₃ := by
      have hidle₃ : ¬b₃.irq.armed = true := Bool.eq_false_iff.mp hidle
      rw [Board.updateInterrupts_eq, if_neg hidle₃, Board.wake, hrunning₃]
      rfl
    have hstep : step b = .ok () b₃.updateInterrupts := by
      rw [step_apply, hrunning]
      exact bind_of_ok hexecute
    rw [hstep, hquiet]

/-- What a step does to the registers alone: the board stays poised and running. -/
structure LeadsTo (b : Board) (r : Registers) (b' : Board) : Prop where
  ok : step b = .ok () b'
  devices : b.SameDevices b'
  poised : b'.Poised
  halted : b'.core.halted = false
  regs : b'.core.regs = r

/-- An instruction that changes nothing but the core, and leaves the given registers. -/
def Leaves (x : Exec Unit) (b : Board) (r : Registers) : Prop :=
  ∃ c, x b = .ok () (b.mapCore fun _ => c) ∧ c.halted = b.core.halted ∧
    c.conditionPassed = b.core.conditionPassed ∧ c.regs = r

variable {i : Instruction} {r : Registers}

/-- A jump whose target the opcode does not fix fills the pipeline at its target. -/
lemma leadsTo_of_jump (hp : b.Poised) (hrunning : b.core.halted = false)
    (hstrict : b.bus.strict = false) (hidle : b.irq.armed = false)
    (hi : .decode b.core.regs.set (b.bus.opcodeAt b.core.regs.set b.core.nextAddress) = i)
    (hw : i.writesPc = true) (hfixed : i.isFixedJump = false)
    (hexec : ∀ h b₁, h.instruction = i →
      b₁.core.regs = b.core.regs.write .pc (b.core.pc + b.core.width) →
        Leaves (instruction h) b₁ r) :
    ∃ b', LeadsTo b (r.write .pc (Word.alignDown (r.read .pc) r.set.width + r.set.width)) b' := by
  obtain ⟨h, b₁, hdecoded, -, hunderway, hstep⟩ := step_of_poised hp hrunning hstrict
  replace hdecoded := hdecoded.trans hi
  obtain ⟨c, hinstruction, hhalted, hpassed, rfl⟩ := hexec h b₁ hdecoded hunderway.regs
  have hw' : h.instruction.writesPc = true := by rw [hdecoded, hw]
  have hfixed' : h.instruction.isFixedJump = false := by rw [hdecoded, hfixed]
  obtain ⟨c', hadvance, hcurrent, hhalted', hregs⟩ :=
    exists_advance_of_jump (b := b₁.mapCore fun _ => c) hw' hfixed'
      (hpassed.trans hunderway.conditionPassed)
  have hrunning' : c'.halted = false := hhalted'.trans (hhalted.trans hunderway.halted)
  have hidle' : b₁.irq.armed = false := by rw [hunderway.devices.irq, hidle]
  refine ⟨b₁.mapCore fun _ => c', ?_⟩
  exact
    { ok := hstep _ _ hinstruction hadvance hidle' hrunning'
      devices := hunderway.devices.trans (.mapCore _ _)
      poised := ⟨hunderway.mirrored, fun id h hsome => nomatch hcurrent.symm.trans hsome⟩
      halted := hrunning'
      regs := hregs }

/-- The first instruction after the cache was emptied has no link. If it does not jump, the board
is poised for its successor. -/
lemma leadsTo_of_dead (hdead : ∀ id, b.bus.cache.get? id = none) (hrunning : b.core.halted = false)
    (hstrict : b.bus.strict = false) (hidle : b.irq.armed = false)
    (hi : .decode b.core.regs.set (b.bus.opcodeAt b.core.regs.set b.core.nextAddress) = i)
    (hw : i.writesPc = false)
    (hexec : ∀ h b₁, h.instruction = i →
      b₁.core.regs = b.core.regs.write .pc (b.core.pc + b.core.width) →
        Leaves (instruction h) b₁ r) :
    ∃ b', LeadsTo b r b' := by
  have hp : b.Poised :=
    ⟨Bus.mirrored_of_dead hdead, fun id h _ hget => nomatch (hdead id).symm.trans hget⟩
  obtain ⟨h, b₁, hdecoded, hnext, hunderway, hstep⟩ := step_of_poised hp hrunning hstrict
  replace hdecoded := hdecoded.trans hi
  obtain ⟨c, hinstruction, hhalted, -, rfl⟩ := hexec h b₁ hdecoded hunderway.regs
  let b₂ := b₁.mapCore fun _ => c
  have hdevices₂ : b.SameDevices b₂ := hunderway.devices.trans (.mapCore _ _)
  have hstrict₂ : b₂.bus.strict = false := hdevices₂.strict.trans hstrict
  obtain ⟨b₃, hfollow, hpoised⟩ := exists_followCurrent (b := b₂) hunderway.mirrored hstrict₂
  have hbare := (quiet_followCurrent none).bare hfollow
  have hdevices := hdevices₂.trans (.of_bare hbare)
  have hadvance : advance h b₂ = .ok () b₃ := by
    rw [← hfollow, ← hnext hdead]
    unfold advance
    rw [hdecoded, hw]
    rfl
  have hrunning₃ : b₃.core.halted = false :=
    (Board.core_of_bare hbare (·.halted) fun _ => rfl).trans (hhalted.trans hunderway.halted)
  have hidle₃ : b₃.irq.armed = false := by rw [hdevices.irq, hidle]
  refine ⟨b₃, ?_⟩
  exact
    { ok := hstep _ _ hinstruction hadvance hidle₃ hrunning₃
      devices := hdevices
      poised := hpoised
      halted := hrunning₃
      regs := Board.regs_of_bare hbare }

end Exec

end Armv4T
