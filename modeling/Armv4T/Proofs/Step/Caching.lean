import Mathlib
import Armv4T.Proofs.Cache.Operations
import Armv4T.Proofs.Machine.Commands
import Armv4T.Proofs.Step.Current
import Armv4T.Proofs.Step.Passage

/-!
# What a step does to the cache

A fetch searches the cache, if decodings are cached, and inserts the decoding of what is in memory
if it finds nothing (`Exec.loadHandle_cases`). Stores mark pages, and following an instruction
records its successor. So whatever a step does, the cache after it is reached from the cache before
it by operations (`Exec.caches_step`), of which only those of a fetch insert anything. What every
such operation keeps true of a cache is true of the cache of a machine along every run.
-/

namespace Armv4T

lemma Handle.decoded_decode (set : InstrSet) (opcode address : Word) :
    (decode set opcode address).Decoded := by
  rw [Decoded, set_decode]
  rfl

namespace Board

/-- What a search of the cache gives, if decodings are cached, and the cache it leaves. -/
def searched (b : Board) (address : Word) : Option (HandleId × Handle) × InstructionCache :=
  if b.core.cacheEnabled then b.bus.cache.lookup address b.core.regs.set else (none, b.bus.cache)

/-- The decoding of the opcode in memory at an address, for the current set. -/
def decoded (b : Board) (address : Word) : Handle :=
  .decode b.core.regs.set (b.bus.opcodeAt b.core.regs.set address) address

/-- The cache of the second board is reached from that of the first one. -/
def Caches (b b' : Board) : Prop := b.bus.cache.Reaches b'.bus.cache

namespace Caches

variable {b b' b'' : Board}

lemma of_bus_eq (h : b'.bus = b.bus) : Caches b b' := by
  rw [Caches, h]
  exact .refl _

lemma trans (h : Caches b b') (h' : Caches b' b'') : Caches b b'' :=
  InstructionCache.Reaches.trans h h'

end Caches

lemma reaches_searched (b : Board) (address : Word) :
    b.bus.cache.Reaches (b.searched address).2 := by
  unfold searched
  split
  · exact .operate _ (.lookup address b.core.regs.set) trivial
  · exact .refl _

end Board

namespace Exec

open Board (Caches)

variable {b : Board}

lemma insert_apply (h : Handle) (b : Board) :
    (do return (← insert h, h) : Exec (HandleId × Handle)) b =
      .ok ((b.bus.cache.insert h).1, h) (b.remember (b.bus.cache.insert h).2) := rfl

/-- A fetch gives what is found in the cache. Otherwise it inserts the decoding of what is in
memory, unless the address is out of bounds for a strict bus. -/
lemma loadHandle_cases (address : Word) (b : Board) :
    (∃ found, (b.searched address).1 = some found ∧
      loadHandle address b = .ok found (b.remember (b.searched address).2)) ∨
    (∃ fault, (b.searched address).1 = none ∧ b.bus.fault? address = some fault ∧
      loadHandle address b = .error fault (b.remember (b.searched address).2)) ∨
    ∃ journal, (b.searched address).1 = none ∧ b.bus.fault? address = none ∧
      loadHandle address b =
        .ok (((b.searched address).2.insert (b.decoded address)).1, b.decoded address)
          { b.remember ((b.searched address).2.insert (b.decoded address)).2 with journal } := by
  have miss {cache : InstructionCache}
      (hcache : b.core.cacheEnabled = false ∧ cache = b.bus.cache ∨
        b.core.cacheEnabled = true ∧ b.bus.cache.find? address b.core.regs.set = none ∧
          cache = b.bus.cache.touch address) :
      (∃ fault, b.bus.fault? address = some fault ∧
        loadHandle address b = .error fault (b.remember cache)) ∨
      ∃ journal, b.bus.fault? address = none ∧
        loadHandle address b = .ok ((cache.insert (b.decoded address)).1, b.decoded address)
          { b.remember (cache.insert (b.decoded address)).2 with journal } := by
    have hload := loadHandle_of_miss hcache
    have hsame : (b.remember cache).bus.fault? address = b.bus.fault? address := rfl
    rcases hfault : b.bus.fault? address with _ | fault
    · obtain ⟨journal, hfetch⟩ := fetch_of_noFault b.core.regs.set (hsame.trans hfault)
      rw [bind_of_ok hfetch, insert_apply] at hload
      exact .inr ⟨journal, rfl, hload⟩
    · rw [bind_of_error (fetch_of_fault (hsame.trans hfault))] at hload
      exact .inl ⟨fault, rfl, hload⟩
  unfold Board.searched
  rcases he : b.core.cacheEnabled with _ | _
  · right
    simpa using miss (.inl ⟨he, rfl⟩)
  · rw [if_pos rfl, InstructionCache.lookup]
    rcases hfind : b.bus.cache.find? address b.core.regs.set with _ | ⟨id, h⟩
    · right
      simpa using miss (.inr ⟨he, hfind, rfl⟩)
    · exact .inl ⟨_, rfl, loadHandle_of_hit he hfind⟩

/-- A fetch does not change the core. -/
lemma core_of_loadHandle {address : Word} {found : HandleId × Handle} {b' : Board}
    (h : loadHandle address b = .ok found b') : b'.core = b.core := by
  rcases loadHandle_cases address b with ⟨_, -, hload⟩ | ⟨_, -, -, hload⟩ | ⟨_, -, -, hload⟩
  all_goals
    rw [hload] at h
    cases h
  · rfl
  · rfl

/-- What is found in a genuine cache, or decoded, is the decoding of its opcode. -/
lemma decoded_of_loadHandle (hgenuine : b.bus.cache.Genuine) {address : Word} {id : HandleId}
    {h : Handle} {b' : Board} (hload : loadHandle address b = .ok (id, h) b') : h.Decoded := by
  rcases loadHandle_cases address b with ⟨found, hfound, hok⟩ | ⟨_, -, -, hfail⟩ |
    ⟨journal, -, -, hok⟩
  · rw [hok] at hload
    cases hload
    unfold Board.searched at hfound
    split at hfound
    · exact hgenuine id h ((InstructionCache.find?_eq_some_iff ..).mp hfound).2.1
    · exact nomatch hfound
  · exact nomatch hfail.symm.trans hload
  · rw [hok] at hload
    cases hload
    exact Handle.decoded_decode _ _ _

/-- In a cache with room for it, what was fetched is found under the reference that the fetch
gives. -/
lemma get?_of_loadHandle (hroomy : b.bus.cache.Roomy) {address : Word} {id : HandleId} {h : Handle}
    {b' : Board} (hload : loadHandle address b = .ok (id, h) b') :
    b'.bus.cache.get? id = some h := by
  have hsearched := (b.reaches_searched address).roomy hroomy
  rcases loadHandle_cases address b with ⟨found, hfound, hok⟩ | ⟨_, -, -, hfail⟩ |
    ⟨journal, -, -, hok⟩
  · rw [hok] at hload
    cases hload
    unfold Board.searched at hfound ⊢
    split at hfound
    · rename_i henabled
      rw [if_pos henabled]
      exact InstructionCache.get?_touch_of_find? hfound
    · exact nomatch hfound
  · exact nomatch hfail.symm.trans hload
  · rw [hok] at hload
    cases hload
    exact hsearched.get?_insert _

/-- From a genuine cache, the current instruction is the decoding of its opcode. -/
lemma decoded_of_currentHandle (hgenuine : b.bus.cache.Genuine) {h : Handle} {b' : Board}
    (hcurrent : currentHandle b = .ok h b') : h.Decoded := by
  rcases hlive : b.core.current.bind b.bus.cache.get? with _ | e
  · rw [currentHandle_of_dead hlive] at hcurrent
    obtain ⟨⟨id, e⟩, b₁, hload, hrest⟩ := exists_of_bind_ok hcurrent
    cases hrest
    exact decoded_of_loadHandle hgenuine hload
  · obtain ⟨id, hid, hget⟩ := Option.bind_eq_some_iff.mp hlive
    rw [currentHandle_of_live hid hget] at hcurrent
    cases hcurrent
    exact hgenuine id h hget

/-- The current instruction stays the current one once it has been found. -/
lemma currentHandle_again (hroomy : b.bus.cache.Roomy) {h : Handle} {b' : Board}
    (hcurrent : currentHandle b = .ok h b') : currentHandle b' = .ok h b' := by
  rcases hlive : b.core.current.bind b.bus.cache.get? with _ | e
  · rw [currentHandle_of_dead hlive] at hcurrent
    obtain ⟨⟨id, e⟩, b₁, hload, hrest⟩ := exists_of_bind_ok hcurrent
    have hget : b₁.bus.cache.get? id = some e := get?_of_loadHandle hroomy hload
    cases hrest
    exact currentHandle_of_live rfl hget
  · obtain ⟨id, hid, hget⟩ := Option.bind_eq_some_iff.mp hlive
    have hsame := currentHandle_of_live hid hget
    rw [hsame] at hcurrent
    cases hcurrent
    exact hsame

/-! ### The parts of a step -/

lemma caches_bind {α β : Type} {x : Exec α} {f : α → Exec β} (hx : Establishes Caches x)
    (hf : ∀ a, Establishes Caches (f a)) : Establishes Caches (x >>= f) :=
  .seq (R := Caches) Caches.trans hx hf

lemma caches_read {α : Type} {x : Exec α} (h : ∀ b, (x.after b).bus = b.bus) :
    Establishes Caches x := fun b => .of_bus_eq (h b)

lemma caches_loadHandle (address : Word) : Establishes Caches (loadHandle address) := by
  intro b
  have hsearched := b.reaches_searched address
  rcases loadHandle_cases address b with ⟨found, -, hload⟩ | ⟨fault, -, -, hload⟩ |
    ⟨journal, -, -, hload⟩
  · rw [after_of_ok hload]
    exact hsearched
  · rw [after_of_error hload]
    exact hsearched
  · rw [after_of_ok hload]
    exact hsearched.trans (.operate _ (.insert _) (Handle.decoded_decode _ _ _))

lemma caches_setCurrent (current : Option HandleId) : Establishes Caches (setCurrent current) :=
  caches_read fun _ => rfl

lemma caches_currentHandle : Establishes Caches currentHandle := by
  have hread {α : Type} (f : Core → α) : Establishes Caches (core f) := caches_read fun _ => rfl
  refine caches_bind (hread _) fun current => ?_
  refine caches_bind (caches_read fun _ => rfl) fun found => ?_
  cases found with
  | some h => exact caches_read fun _ => rfl
  | none =>
    refine caches_bind (hread _) fun address => ?_
    refine caches_bind (caches_loadHandle address) fun loaded => ?_
    exact caches_bind (caches_setCurrent _) fun _ => caches_read fun _ => rfl

lemma caches_link (id next : HandleId) : Establishes Caches (link id next) :=
  fun b => .operate b.bus.cache (.link id next) trivial

lemma caches_followCurrent (next : Option HandleId) : Establishes Caches (followCurrent next) := by
  have hread {α : Type} (f : Core → α) : Establishes Caches (core f) := caches_read fun _ => rfl
  refine caches_bind (hread _) fun current => ?_
  cases current with
  | none => exact caches_setCurrent none
  | some id =>
    refine caches_bind (caches_read fun _ => rfl) fun valid => .ite (caches_setCurrent next) ?_
    refine caches_bind (hread _) fun address => ?_
    refine caches_bind (caches_loadHandle address) fun loaded => ?_
    exact caches_bind (caches_link id _) fun _ => caches_setCurrent _

/-- A store marks the pages of what it writes, if it writes anything. -/
lemma reaches_store (bus : Bus) (width : StoreWidth) (address value : Word) :
    bus.cache.Reaches (bus.store width address value).cache := by
  simp only [Bus.store]
  rcases bus.writable? (width.align address) with _ | ⟨storage, offset⟩
  · exact .refl _
  · exact .operate _ (.invalidate _ _) trivial

lemma Plain.caches {free : Bool} {α : Type} {x : Exec α} (hx : Plain free x) :
    Establishes Caches x :=
  fun b => hx.keeps_bus (P := fun bus => b.bus.cache.Reaches bus.cache)
    (fun bus width address value h => h.trans (reaches_store bus width address value)) (.refl _)

lemma caches_advance (h : Handle) : Establishes Caches (advance h) := by
  have hrefill : Made .full refill := made_refill rfl
  unfold advance
  refine .ite (caches_followCurrent _) ?_
  refine caches_bind (caches_read fun _ => rfl) fun passed => ?_
  refine .ite (caches_bind (hrefill.plain id).caches fun _ => ?_) (caches_setCurrent none)
  exact .ite (caches_followCurrent _) (caches_setCurrent none)

lemma caches_executeNext : Establishes Caches executeNext := by
  have hinstruction (h : Handle) : Made .full (instruction h) :=
    made_instruction (Scope.covers_full h.instruction) (.inl rfl)
  rw [executeNext_eq]
  refine caches_bind caches_currentHandle fun h => ?_
  refine caches_bind (caches_read fun _ => rfl) fun _ => ?_
  exact caches_bind ((hinstruction h).plain id).caches fun _ => caches_advance h

/-- Whatever a step does to the cache are operations on it. -/
theorem caches_step : Establishes Caches step := by
  have hparts : step = ((core Core.halted) >>= fun halted =>
      (if !halted then executeNext else pure ()) >>= fun _ => update Board.updateInterrupts) := by
    funext b
    show step b = ((if !b.core.halted then executeNext else pure ()) >>= fun _ =>
      update Board.updateInterrupts : Exec Unit) b
    rw [step_apply]
    cases b.core.halted <;> rfl
  rw [hparts]
  refine caches_bind (caches_read fun _ => rfl) fun halted => ?_
  refine caches_bind (.ite caches_executeNext (caches_read fun _ => rfl)) fun _ => ?_
  exact fun b => .of_bus_eq b.updateInterrupts_keeps.1

end Exec

end Armv4T
