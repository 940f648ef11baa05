import Mathlib
import Armv4T.Proofs.Machine.Abreast
import Armv4T.Proofs.Machine.Snapshots

/-!
# The snapshot is the whole state

Where decodings are not cached, a machine between steps has no current decoding
(`Machine.forgotten_of_steps`). So everything that its further course depends on is in its snapshot,
in memory and in the interrupt lines: not the output of the barrel shifter, not the outcome of the
last condition test, and not the cache, into which decodings are inserted all the same. Another
machine with the same memory and the same interrupt lines takes the snapshot over and looks the same
along every run from there (`Machine.sameCourse_applySnapshot`).

After a step that fails, the current decoding is remembered, and the next step executes it unless
its page was marked in between. Two boards without cached decodings agree on it
(`Remembered.Uncached`).
-/

namespace Armv4T

open Cache (regionIndex)
open InstructionCache (InPage)

/-! ### Without cached decodings -/

namespace Remembered

/-- Decodings are not cached. The current one is the same on both sides, or it is known on neither;
where it is known, both references point into the same page. -/
structure Uncached (r r' : Remembered) : Prop where
  disabled : r.enabled = false
  disabled' : r'.enabled = false
  layout : r'.cache.layout = r.cache.layout
  roomy : r.cache.Roomy
  roomy' : r'.cache.Roomy
  current : r.current.bind r.cache.get? = none ∧ r'.current.bind r'.cache.get? = none ∨
    ∃ id id' e, r.current = some id ∧ r'.current = some id' ∧ id'.place = id.place ∧
      r.cache.get? id = some e ∧ r'.cache.get? id' = some e

/-- Marking pages does not bring a decoding to life. -/
lemma bind_get?_of_marked {c c' : InstructionCache} (h : c.Marked c') {current : Option HandleId}
    (hdead : current.bind c.get? = none) : current.bind c'.get? = none := by
  cases current with
  | none => rfl
  | some id => exact h.get?_eq_none hdead

lemma Uncached.invalidatePage {r r' : Remembered} (h : Uncached r r') (address : Word) :
    Uncached { r with cache := r.cache.invalidatePage address }
      { r' with cache := r'.cache.invalidatePage address } where
  disabled := h.disabled
  disabled' := h.disabled'
  layout := by
    rw [(r.cache.marked_invalidatePage address).layout,
      (r'.cache.marked_invalidatePage address).layout, h.layout]
  roomy := h.roomy.invalidatePage address
  roomy' := h.roomy'.invalidatePage address
  current := by
    rcases h.current with ⟨hdead, hdead'⟩ | ⟨id, id', e, hid, hid', hplace, hget, hget'⟩
    · exact .inl ⟨bind_get?_of_marked (r.cache.marked_invalidatePage address) hdead,
        bind_get?_of_marked (r'.cache.marked_invalidatePage address) hdead'⟩
    · have hregion : id'.region = id.region := (congrArg HandleId.region hplace :)
      have hpage : id'.page = id.page := (congrArg HandleId.page hplace :)
      by_cases hcell : regionIndex address = id.region ∧
          (r.cache.layout address).pageIndex address = id.page
      · have hin : InPage r.cache id address := ⟨hcell.1.symm, hcell.2.symm⟩
        have hin' : InPage r'.cache id' address := by
          refine ⟨hregion.trans hcell.1.symm, ?_⟩
          rw [h.layout]
          exact hpage.trans hcell.2.symm
        left
        show r.current.bind (r.cache.invalidatePage address).get? = none ∧
          r'.current.bind (r'.cache.invalidatePage address).get? = none
        rw [hid, hid']
        exact ⟨InstructionCache.get?_invalidatePage_of_inPage hin,
          InstructionCache.get?_invalidatePage_of_inPage hin'⟩
      · have hcell' : ¬(regionIndex address = id'.region ∧
            (r'.cache.layout address).pageIndex address = id'.page) := by
          rwa [hregion, hpage, h.layout]
        refine .inr ⟨id, id', e, hid, hid', hplace, ?_, ?_⟩
        · rw [← hget]
          exact InstructionCache.get?_congr (InstructionCache.page?_modifyPage_of_ne _ _ hcell)
        · rw [← hget']
          exact InstructionCache.get?_congr (InstructionCache.page?_modifyPage_of_ne _ _ hcell')

lemma tenable_uncached : Tenable Uncached where
  layout h := h.layout
  forget h := { h with current := .inl ⟨rfl, rfl⟩ }
  clear := by
    intro r r' h
    have hdead (c : InstructionCache) (current : Option HandleId) :
        current.bind c.clear.get? = none := by
      cases current with
      | none => rfl
      | some id => exact c.get?_clear id
    refine ⟨h.disabled, h.disabled', ?_, h.roomy.clear, h.roomy'.clear,
      .inl ⟨hdead _ _, hdead _ _⟩⟩
    rw [InstructionCache.layout_clear, InstructionCache.layout_clear, h.layout]
  invalidatePage h address := h.invalidatePage address

end Remembered

namespace Exec

open Board (Abreast)
open Remembered (Uncached)

variable {b c : Board}

/-- Without cached decodings nothing is searched for. -/
lemma searched_of_disabled (h : b.core.cacheEnabled = false) (address : Word) :
    b.searched address = (none, b.bus.cache) := by
  rw [Board.searched, h]
  rfl

/-- Without cached decodings the current one is forgotten. -/
lemma followCurrent_of_disabled (h : b.core.cacheEnabled = false) (next : Option HandleId) :
    followCurrent next b = setCurrent none b :=
  followCurrent_of_none next (by rw [h]; rfl)

/-- The next instruction is the current one, or the one in memory. -/
lemma concur_currentHandle_uncached (h : Abreast false Uncached b c) :
    Concur (fun e e' => e' = e) (Abreast false Uncached) (currentHandle b) (currentHandle c) := by
  have hremembered := h.remembered
  rcases hremembered.current with ⟨hdead, hdead'⟩ | ⟨id, id', e, hid, hid', -, hget, hget'⟩
  · have hdisabled := searched_of_disabled hremembered.disabled b.core.nextAddress
    have hdisabled' := searched_of_disabled hremembered.disabled' b.core.nextAddress
    have hnext := h.eq_of_regs Core.nextAddress fun _ => rfl
    have hsome : (c.searched b.core.nextAddress).1.isSome =
        (b.searched b.core.nextAddress).1.isSome := by
      rw [hdisabled, hdisabled']
    rcases loadHandle_cases_abreast h hsome with ⟨found, _, hfound, -⟩ | ⟨fault, hload, hload'⟩ |
      ⟨journal, journal', hload, hload'⟩
    · rw [hdisabled] at hfound
      exact nomatch hfound
    · rw [← hnext] at hload'
      rw [currentHandle_of_load_error hdead hload, currentHandle_of_load_error hdead' hload', hnext,
        hdisabled, hdisabled']
      exact .error fault (h.remembering hremembered _ _)
    · rw [← hnext] at hload'
      rw [currentHandle_of_load hdead hload, currentHandle_of_load hdead' hload', hnext, hdisabled,
        hdisabled']
      set e := b.decoded b.core.nextAddress
      have hlayout (cache : InstructionCache) : (cache.insert e).2.layout = cache.layout :=
        cache.layout_insert e
      have hplaces : c.bus.cache.place = b.bus.cache.place :=
        InstructionCache.place_eq_of_layout_eq hremembered.layout
      have hplace : (c.bus.cache.insert e).1.place = (b.bus.cache.insert e).1.place := by
        rw [InstructionCache.place_insert, InstructionCache.place_insert, hplaces]
      refine .ok ?_ (h.remembering ⟨hremembered.disabled, hremembered.disabled', ?_,
        hremembered.roomy.insert e, hremembered.roomy'.insert e, .inr ⟨_, _, e, rfl, rfl, hplace,
          hremembered.roomy.get?_insert e, hremembered.roomy'.get?_insert e⟩⟩ _ _)
      · rfl
      · rw [hlayout, hlayout]
        exact hremembered.layout
  · rw [currentHandle_of_live hid hget, currentHandle_of_live hid' hget']
    refine .ok ?_ h
    rfl

/-- Boards without cached decodings find the same instructions. -/
theorem finds_uncached : Finds Uncached fun h h' => h' = h where
  toTenable := Remembered.tenable_uncached
  point := by rintro h _ rfl; rfl
  instruction := by rintro h _ rfl; rfl
  current := concur_currentHandle_uncached
  follow := by
    rintro h _ rfl b c hbc
    rw [followCurrent_of_disabled hbc.remembered.disabled,
      followCurrent_of_disabled hbc.remembered.disabled']
    exact .ok rfl { hbc with remembered := Remembered.tenable_uncached.forget hbc.remembered }

/-! ### Between steps -/

lemma cacheEnabled_of_currentHandle {h : Handle} {b' : Board}
    (hok : currentHandle b = .ok h b') : b'.core.cacheEnabled = b.core.cacheEnabled := by
  rcases hlive : b.core.current.bind b.bus.cache.get? with _ | e
  · rw [currentHandle_of_dead hlive] at hok
    obtain ⟨⟨id, e⟩, b₁, hload, hrest⟩ := exists_of_bind_ok hok
    cases hrest
    show b₁.core.cacheEnabled = _
    rw [core_of_loadHandle hload]
  · obtain ⟨id, hid, hget⟩ := Option.bind_eq_some_iff.mp hlive
    rw [currentHandle_of_live hid hget] at hok
    cases hok
    rfl

/-- Without cached decodings nothing is remembered when an instruction is done. -/
lemma forgotten_of_advance {h : Handle} {b' : Board} (hdisabled : b.core.cacheEnabled = false)
    (hok : advance h b = .ok () b') : b'.core.cacheEnabled = false ∧ b'.core.current = none := by
  have hforget {b : Board} (hdisabled : b.core.cacheEnabled = false)
      (hok : setCurrent none b = .ok () b') :
      b'.core.cacheEnabled = false ∧ b'.core.current = none := by
    cases hok
    exact ⟨hdisabled, rfl⟩
  have hfollow {b : Board} (hdisabled : b.core.cacheEnabled = false)
      (hok : followCurrent h.next b = .ok () b') :
      b'.core.cacheEnabled = false ∧ b'.core.current = none := by
    rw [followCurrent_of_disabled hdisabled] at hok
    exact hforget hdisabled hok
  unfold advance at hok
  rcases hwrites : h.instruction.writesPc with _ | _
  · rw [hwrites] at hok
    exact hfollow hdisabled hok
  · rw [hwrites] at hok
    obtain ⟨_, _, hread, hok⟩ := exists_of_bind_ok hok
    cases hread
    rcases hpassed : b.core.conditionPassed with _ | _
    · rw [hpassed] at hok
      exact hforget hdisabled hok
    · rw [hpassed] at hok
      obtain ⟨_, b₂, hrefill, hok⟩ := exists_of_bind_ok hok
      have hplain : Plain true refill := (made_refill (s := .full) rfl).plain id
      have hkept := (hplain.kept b).cacheEnabled
      rw [after_of_ok hrefill] at hkept
      rcases hfixed : h.instruction.isFixedJump with _ | _
      · rw [hfixed] at hok
        exact hforget (hkept.trans hdisabled) hok
      · rw [hfixed] at hok
        exact hfollow (hkept.trans hdisabled) hok

lemma forgotten_of_executeNext {b' : Board} (hdisabled : b.core.cacheEnabled = false)
    (hok : executeNext b = .ok () b') : b'.core.cacheEnabled = false ∧ b'.core.current = none := by
  rw [executeNext_apply] at hok
  obtain ⟨h, b₁, hcurrent, hok⟩ := exists_of_bind_ok hok
  obtain ⟨_, _, hpipelined, hok⟩ := exists_of_bind_ok hok
  cases hpipelined
  obtain ⟨_, b₂, hinstruction, hok⟩ := exists_of_bind_ok hok
  have hmade : Made .full (instruction h) :=
    made_instruction (Scope.covers_full h.instruction) (.inl rfl)
  have hkept := ((hmade.plain id).kept (b₁.mapCore (pipelined h.set))).cacheEnabled
  rw [after_of_ok hinstruction] at hkept
  refine forgotten_of_advance (hkept.trans ?_) hok
  exact (cacheEnabled_of_currentHandle hcurrent).trans hdisabled

/-- A step that is finished leaves nothing remembered, if nothing is remembered of a halted core. -/
lemma forgotten_of_step {b' : Board} (hdisabled : b.core.cacheEnabled = false)
    (hhalted : b.core.halted = true → b.core.current = none) (hok : step b = .ok () b') :
    b'.core.cacheEnabled = false ∧ b'.core.current = none := by
  rw [step_apply] at hok
  obtain ⟨_, b₁, hrun, hupdate⟩ := exists_of_bind_ok hok
  cases hupdate
  have hforgotten : b₁.core.cacheEnabled = false ∧ b₁.core.current = none := by
    rcases hrunning : b.core.halted with _ | _
    · rw [hrunning] at hrun
      exact forgotten_of_executeNext hdisabled hrun
    · rw [hrunning] at hrun
      cases hrun
      exact ⟨hdisabled, hhalted hrunning⟩
  obtain ⟨-, henabled, hcurrent⟩ := b₁.updateInterrupts_keeps
  refine ⟨henabled.trans hforgotten.1, ?_⟩
  rcases hcurrent with hnone | ⟨hsame, -⟩
  · exact hnone
  · exact hsame.trans hforgotten.2

end Exec

namespace Machine

open Remembered (Uncached)

variable {m m₁ : Machine}

/-- A step that is finished leaves nothing remembered, with observers or without. -/
lemma forgotten_of_step (hdisabled : m.board.core.cacheEnabled = false)
    (hcurrent : m.board.core.current = none) (hok : step m = .ok () m₁) :
    m₁.board.core.cacheEnabled = false ∧ m₁.board.core.current = none := by
  have hannounced : ∃ m₀, announce m = .ok () m₀ ∧ m₀.board.core.cacheEnabled = false ∧
      (m₀.board.core.halted = true → m₀.board.core.current = none) := by
    rcases hquiet : m.board.core.halted || m.observers.isEmpty with _ | _
    · rcases hhandle : Exec.currentHandle m.board with ⟨h, b⟩ | ⟨fault, b⟩
      · refine ⟨_, announce_of_ok hquiet hhandle,
          (Exec.cacheEnabled_of_currentHandle hhandle).trans hdisabled, fun hhalted => ?_⟩
        have hsame := Board.core_of_bare (Exec.quiet_currentHandle.bare hhandle) Core.halted
          fun _ => rfl
        exact nomatch (Bool.or_eq_false_iff.mp hquiet).1.symm.trans (hsame.symm.trans hhalted)
      · exact nomatch (step_of_announce_error (announce_of_error hquiet hhandle)).symm.trans hok
    · exact ⟨m, announce_of_quiet hquiet, hdisabled, fun _ => hcurrent⟩
  obtain ⟨m₀, hannounce, hdisabled₀, hhalted₀⟩ := hannounced
  rw [step_of_announce hannounce] at hok
  rcases hrun : Exec.step m₀.board with ⟨⟨⟩, b⟩ | ⟨fault, b⟩
  · rw [hrun] at hok
    cases hok
    exact Exec.forgotten_of_step hdisabled₀ hhalted₀ hrun
  · rw [hrun] at hok
    exact nomatch hok

lemma step_of_fault?_eq_none (h : m.fault? .step = none) : step m = .ok () (m.perform .step) := by
  unfold fault? at h
  rcases hstep : step m with ⟨⟨⟩, m₁⟩ | ⟨fault, m₁⟩
  · rw [perform, after, hstep]
  · rw [hstep] at h
    cases h

/-- A number of steps, up to the first that fails. -/
def steps : ℕ → Action Unit
  | 0 => fun m => .ok () m
  | n + 1 => fun m =>
    match step m with
    | .ok _ m => steps n m
    | .error fault m => .error fault m

lemma steps_succ (n : ℕ) (h : step m = .ok () m₁) : steps (n + 1) m = steps n m₁ := by
  show (match step m with
    | .ok _ m => steps n m
    | .error fault m => .error fault m) = _
  rw [h]

/-- Without cached decodings, nothing is remembered between the steps of a run that does not fail,
and the cache keeps its room. -/
theorem forgotten_of_steps {n : ℕ} (hdisabled : m.board.core.cacheEnabled = false)
    (hcurrent : m.board.core.current = none) (hroomy : m.board.bus.cache.Roomy)
    (hok : steps n m = .ok () m₁) :
    m₁.board.core.cacheEnabled = false ∧ m₁.board.core.current = none ∧
      m₁.board.bus.cache.Roomy := by
  induction n generalizing m with
  | zero =>
    cases hok
    exact ⟨hdisabled, hcurrent, hroomy⟩
  | succ n ih =>
    rcases hstep : step m with ⟨⟨⟩, m₀⟩ | ⟨fault, m₀⟩
    · rw [steps_succ n hstep] at hok
      obtain ⟨hdisabled₀, hcurrent₀⟩ := forgotten_of_step hdisabled hcurrent hstep
      have hreceive : m.receive (.command .step) = m₀ := by
        rw [receive, perform, after, hstep]
      exact ih hdisabled₀ hcurrent₀ (hreceive ▸ roomy_receive hroomy _) hok
    · unfold steps at hok
      rw [hstep] at hok
      cases hok

/-! ### Taking over a snapshot -/

variable {start m' : Machine}

/-- A machine that takes a snapshot over is abreast with the one that it was taken of. -/
lemma exists_abreast_applySnapshot (hdisabled : m.board.core.cacheEnabled = false)
    (hcurrent : m.board.core.current = none) (hroomy : m.board.bus.cache.Roomy)
    (hdisabled' : m'.board.core.cacheEnabled = false) (hroomy' : m'.board.bus.cache.Roomy)
    (hshape : Bus.SameShape m.board.bus m'.board.bus)
    (hcontents : m'.board.bus.contents = m.board.bus.contents)
    (hirq : m'.board.irq = m.board.irq) :
    ∃ m₁, applySnapshot m.snapshot m' = .ok () m₁ ∧ m₁.board.bus.cache.Roomy ∧
      (m.observedBy []).Abreast Uncached (m₁.observedBy []) := by
  have hmemory := hshape.sameMemory hcontents
  have hrestore := m'.board.core.restore_of_wellFormed m.board.core.wellFormed_snapshot
  rw [m.board.core.toRegisters_snapshot] at hrestore
  have happly {core : Core} (h : m'.board.core.restore m.snapshot.core = .ok core) :
      applySnapshot m.snapshot m' = .ok ()
        { m'.mapBoard fun b => clearCache (b.mapCore fun _ => core) with
          totalCycles := m.totalCycles } := by
    rw [applySnapshot_eq, h]
    rfl
  have hlayout := (InstructionCache.layout_clear m'.board.bus.cache).trans hshape.layout
  have hdead : m.board.core.current.bind m.board.bus.cache.get? = none := by rw [hcurrent]; rfl
  refine ⟨_, happly hrestore, hroomy'.clear, ?_, rfl, rfl, rfl⟩
  exact
    { regs := rfl
      cycles := rfl
      halted := rfl
      passed := nofun
      memory := ⟨hmemory.wiring, hmemory.sizes, hmemory.contents⟩
      irq := hirq
      remembered :=
        ⟨hdisabled, hdisabled', hlayout, hroomy, hroomy'.clear, .inl ⟨hdead, rfl⟩⟩ }

/-- The snapshot is the whole state. Let a machine without cached decodings have been reset and have
made some steps, none of which failed. Any other machine without cached decodings, on a bus of the
same shape that holds the same bytes, and with the same interrupt lines, takes its snapshot over,
whatever is in its core and in its cache. Then the two look the same, and so they do after every
input of every run, be it steps or not, each of which they take in the same way. -/
theorem sameCourse_applySnapshot {entry : Word} {n : ℕ}
    (hdisabled : start.board.core.cacheEnabled = false) (hroomy : start.board.bus.cache.Roomy)
    (hreached : steps n (start.reset entry) = .ok () m)
    (hdisabled' : m'.board.core.cacheEnabled = false) (hroomy' : m'.board.bus.cache.Roomy)
    (hshape : Bus.SameShape m.board.bus m'.board.bus)
    (hcontents : m'.board.bus.contents = m.board.bus.contents)
    (hirq : m'.board.irq = m.board.irq) :
    ∃ m₁, applySnapshot m.snapshot m' = .ok () m₁ ∧ m.LooksLike m₁ ∧
      ∀ inputs, SameCourse LooksLike inputs m m₁ := by
  obtain ⟨henabled, hcurrent, hroomy⟩ :=
    forgotten_of_steps (m := start.reset entry) hdisabled rfl
      (roomy_receive hroomy (.reset entry)) hreached
  obtain ⟨m₁, hok, hroomy₁, h⟩ :=
    exists_abreast_applySnapshot henabled hcurrent hroomy hdisabled' hroomy' hshape hcontents hirq
  refine ⟨m₁, hok, ⟨h.looksLike.snapshot, h.looksLike.memory⟩, fun inputs => ?_⟩
  exact .of_observedBy_nil hroomy hroomy₁ (sameCourse_of_abreast Exec.finds_uncached h inputs)

/-- The machine with another core, whose shifter and last condition test have left other values, and
with one more decoding in the cache. -/
def withScratch (m : Machine) : Machine :=
  m.mapBoard fun b =>
    { core :=
        { shifterOperand := 0xAB, shifterCarry := true, conditionPassed := false,
          cacheEnabled := false }
      bus :=
        { b.bus with cache := (b.bus.cache.insert (.decode .arm 0xE3A00007 0x03000004)).2 }
      irq := b.irq }

/-- A machine that has made two steps, the second of them a branch that is not taken, has its
snapshot taken over by one with another core and another cache. -/
theorem sameCourse_applySnapshot_scratch :
    let program : List (Word × Word) := [(0x03000000, 0xE3B01001), (0x03000004, 0x0AFFFFFD)]
    let start := (handheld program).withCache false
    ∃ m, steps 2 (start.reset 0x03000000) = .ok () m ∧
      ∃ m₁, applySnapshot m.snapshot m.withScratch = .ok () m₁ ∧ m.LooksLike m₁ ∧
        ∀ inputs, SameCourse LooksLike inputs m m₁ := by
  intro program start
  have htake {start m : Machine} (hdisabled : start.board.core.cacheEnabled = false)
      (hroomy : start.board.bus.cache.Roomy)
      (hreached : steps 2 (start.reset 0x03000000) = .ok () m) :
      ∃ m₁, applySnapshot m.snapshot m.withScratch = .ok () m₁ ∧ m.LooksLike m₁ ∧
        ∀ inputs, SameCourse LooksLike inputs m m₁ := by
    obtain ⟨-, -, hroomy'⟩ := forgotten_of_steps (m := start.reset 0x03000000) hdisabled rfl
      (roomy_receive hroomy (.reset 0x03000000)) hreached
    have hlayout : m.withScratch.board.bus.cache.layout = m.board.bus.cache.layout :=
      InstructionCache.layout_insert _ _
    have hshape : Bus.SameShape m.board.bus m.withScratch.board.bus :=
      ⟨rfl, rfl, rfl, fun _ => rfl, hlayout⟩
    have hcontents : m.withScratch.board.bus.contents = m.board.bus.contents := rfl
    exact sameCourse_applySnapshot hdisabled hroomy hreached rfl (hroomy'.insert _) hshape hcontents
      rfl
  have hfirst : (start.reset 0x03000000).fault? .step = none := by decide +kernel
  have hsecond : ((start.reset 0x03000000).perform .step).fault? .step = none := by
    decide +kernel
  have hreached := (steps_succ 1 (step_of_fault?_eq_none hfirst)).trans
    (steps_succ 0 (step_of_fault?_eq_none hsecond))
  have hdisabled (m : Machine) : (m.withCache false).board.core.cacheEnabled = false := rfl
  have hroomy (m : Machine) (h : m.board.bus.cache.Roomy) :
      (m.withCache false).board.bus.cache.Roomy := h
  exact ⟨_, hreached, htake (hdisabled _) (hroomy _ (roomy_handheld program)) hreached⟩

end Machine

end Armv4T
