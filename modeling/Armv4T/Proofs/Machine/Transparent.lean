import Mathlib
import Armv4T.Proofs.Bus.Build
import Armv4T.Proofs.Machine.Commands
import Armv4T.Proofs.Step.Twin

/-!
# The decode cache is transparent

Two machines that start over from the same state, one with its decode cache and one without, look
the same after every command (`Machine.SameRun`): their snapshots, with the count of all cycles, are
equal, they have the same bytes in memory, and their steps end in the same way. On the bus of the
handheld, with any bytes in memory, this holds of every run of steps and interrupts that does not
fetch at two points with the same slot and goes on after a failed step only if the step left the
program counter where it was (`Machine.sameRun_of_noSharedSlot`).

Slots are shared by the mirrored addresses of small regions, and by the two instruction sets not at
all. Without the first condition the machines part (`Machine.not_forall_sameRun`): an entry
remembers its successor by the slot alone, where another address may have moved in.
-/

namespace Armv4T.Machine

/-- The machine with its decode cache switched on or off. -/
def withCache (m : Machine) (enabled : Bool) : Machine :=
  m.mapBoard (·.mapCore ({ · with cacheEnabled := enabled }))

/-- The fault that stops a command, if any. -/
def fault? (m : Machine) : Command → Option Fault
  | .step =>
    match step m with
    | .ok _ _ => none
    | .error fault _ => some fault
  | _ => none

/-- Two machines have the same snapshot and the same bytes in memory. -/
structure LooksLike (m m' : Machine) : Prop where
  snapshot : m'.snapshot = m.snapshot
  memory : ∀ address, m'.board.bus.peek .byte address = m.board.bus.peek .byte address

/-- Two machines look the same before the first command and after every command, and every command
ends in the same way. -/
def SameRun : List Command → Machine → Machine → Prop
  | [], m, m' => m.LooksLike m'
  | c :: cs, m, m' =>
    m.LooksLike m' ∧ m'.fault? c = m.fault? c ∧ SameRun cs (m.perform c) (m'.perform c)

/-- After a step that failed, no further step is made, unless the step left the program counter and
the set as they were. -/
def ResumesInPlace : List Command → Machine → Prop
  | [], _ => True
  | c :: cs, m =>
    (c = .step → .step ∈ cs → ∀ fault m', step m = .error fault m' →
      m'.board.core.point = m.board.core.point) ∧ ResumesInPlace cs (m.perform c)

/-- Two machines differ in what their boards remember of decodings. -/
structure Twin (m m' : Machine) : Prop where
  board : m.board.Twin m'.board
  observers : m'.observers = m.observers
  totalCycles : m'.totalCycles = m.totalCycles

variable {F : Set Point} {I : Bus → Prop} {m m' : Machine}

/-- What is remembered cannot be seen. -/
lemma Twin.looksLike (h : m.Twin m') : m.LooksLike m' := by
  have hcore := h.board.core_eq Core.snapshot fun _ => rfl
  have hbus : m.board.bus.bare = m'.board.bus.bare := (Board.bare_eq_iff.mp h.board.bare).2.1
  refine ⟨?_, fun address => ?_⟩
  · rw [snapshot, snapshot, hcore, h.totalCycles]
  · have hpeek (bus : Bus) : bus.peek .byte address = bus.bare.peek .byte address := rfl
    rw [hpeek m'.board.bus, ← hbus]
    rfl

/-! ### One step of twins -/

/-- Twins whose caches are sound and that are in step. -/
structure Paired (F : Set Point) (I : Bus → Prop) (m m' : Machine) : Prop where
  twin : m.Twin m'
  left : m.board.Sound F I
  right : m'.board.Sound F I
  synced : m.board.Synced
  synced' : m'.board.Synced

/-- Twins tell their observers of the same instruction. -/
lemma Paired.announce (hI : Bus.Upkeep F I) (h : Paired F I m m')
    (hF : m.board.core.halted = false → m.board.core.point ∈ F) :
    ∃ m₁ m₁', announce m = .ok () m₁ ∧ announce m' = .ok () m₁' ∧ Paired F I m₁ m₁' ∧
      m₁.board.core.point = m.board.core.point ∧
      m₁.board.core.halted = m.board.core.halted := by
  have hhalted := h.twin.board.core_eq Core.halted fun _ => rfl
  have hpoint := h.twin.board.point
  have hF' : m'.board.core.halted = false → m'.board.core.point ∈ F := by
    rw [← hhalted, ← hpoint]
    exact hF
  obtain ⟨m₁, m₁', hok, hok', htwin⟩ : ∃ m₁ m₁', Machine.announce m = .ok () m₁ ∧
      Machine.announce m' = .ok () m₁' ∧ m₁.Twin m₁' := by
    rcases hquiet : m.board.core.halted || m.observers.isEmpty with _ | _
    · have hrunning : m.board.core.halted = false := (Bool.or_eq_false_iff.mp hquiet).1
      obtain ⟨e, e', b, c, hcurrent, hcurrent', hboard, hsame, hopcode, -, -⟩ :=
        Exec.currentHandle_twin h.twin.board h.left h.right h.synced h.synced' (hF hrunning)
      have haddress : e'.address = e.address := congrArg Point.address hsame
      refine ⟨(m.mapBoard fun _ => b).notify (.stepStarted e.address e.opcode),
        (m'.mapBoard fun _ => c).notify (.stepStarted e.address e.opcode), ?_, ?_, hboard, ?_,
        h.twin.totalCycles⟩
      · unfold Machine.announce
        rw [hquiet, onBoard_of_ok hcurrent]
        rfl
      · unfold Machine.announce
        rw [h.twin.observers, ← hhalted, hquiet, onBoard_of_ok hcurrent', ← haddress,
          ← hopcode]
        rfl
      · show m'.observers.map _ = m.observers.map _
        rw [h.twin.observers]
    · refine ⟨m, m', ?_, ?_, h.twin⟩
      · unfold Machine.announce
        rw [hquiet]
        rfl
      · unfold Machine.announce
        rw [h.twin.observers, ← hhalted, hquiet]
        rfl
  rcases announce_spec hI h.left.tidy h.synced hF with
    ⟨m₂, hok₂, hb, hs, hpoint₂, hhalted₂⟩ | ⟨fault, m₂, hfail, -⟩
  swap
  · exact nomatch hok.symm.trans hfail
  rcases announce_spec hI h.right.tidy h.synced' hF' with
    ⟨m₂', hok₂', hb', hs', -, -⟩ | ⟨fault, m₂', hfail, -⟩
  swap
  · exact nomatch hok'.symm.trans hfail
  rw [hok] at hok₂
  rw [hok'] at hok₂'
  cases hok₂
  cases hok₂'
  have hpaired : Paired F I m₁ m₁' := ⟨htwin, hb.sound h.left, hb'.sound h.right, hs, hs'⟩
  exact ⟨m₁, m₁', hok, hok', hpaired, hpoint₂, hhalted₂⟩

/-- Twins fetch at the same points. -/
lemma Paired.fetches (hI : Bus.Upkeep F I) (h : Paired F I m m')
    (hF : m.board.core.halted = false → m.board.core.point ∈ F) : m'.fetches = m.fetches := by
  have hhalted := h.twin.board.core_eq Core.halted fun _ => rfl
  unfold Machine.fetches
  rw [← hhalted, ← h.twin.board.point]
  split
  · rfl
  · rename_i hrunning
    rw [Bool.not_eq_true] at hrunning
    obtain ⟨m₁, m₁', hok, hok', h₁, hpoint, -⟩ := h.announce hI hF
    rw [hok, hok']
    dsimp only
    have hagree := Exec.executeNext_twin h₁.twin.board h₁.left h₁.right h₁.synced h₁.synced'
      (hpoint ▸ hF hrunning)
    revert hagree
    generalize Exec.executeNext m₁.board = r
    generalize Exec.executeNext m₁'.board = r'
    intro hagree
    cases hagree with
    | ok a hb => exact congrArg (fun p => [_, p]) hb.point.symm
    | error e hb => rfl

/-- The cycles of a step are accounted for in the same way. -/
lemma Twin.account (h : m.Twin m') (before : UInt64) :
    (m.account before).Twin (m'.account before) := by
  have hcycles := h.board.core_eq Core.cycles fun _ => rfl
  refine ⟨h.board, ?_, ?_⟩
  · show m'.observers.map _ = m.observers.map _
    rw [h.observers, hcycles]
  · show m'.totalCycles + _ = m.totalCycles + _
    rw [h.totalCycles, hcycles]

/-- A step of twins ends in the same way and leaves twins. -/
theorem Paired.step (hI : Bus.Upkeep F I) (h : Paired F I m m')
    (hF : m.board.core.halted = false → m.board.core.point ∈ F) :
    (∃ m₁ m₁', step m = .ok () m₁ ∧ step m' = .ok () m₁' ∧ m₁.Twin m₁') ∨
      ∃ fault m₁ m₁', step m = .error fault m₁ ∧ step m' = .error fault m₁' ∧ m₁.Twin m₁' := by
  obtain ⟨m₁, m₁', hok, hok', h₁, hpoint, hhalted⟩ := h.announce hI hF
  have hF₁ : m₁.board.core.halted = false → m₁.board.core.point ∈ F := by
    rw [hhalted, hpoint]
    exact hF
  have hcycles := h₁.twin.board.core_eq Core.cycles fun _ => rfl
  have hagree := Exec.step_twin h₁.twin.board h₁.left h₁.right h₁.synced h₁.synced' hF₁
  have htwin {b c : Board} (hb : b.Twin c) :
      ((m₁.mapBoard fun _ => b).account m₁.board.core.cycles).Twin
        ((m₁'.mapBoard fun _ => c).account m₁'.board.core.cycles) := by
    have hmap : (m₁.mapBoard fun _ => b).Twin (m₁'.mapBoard fun _ => c) :=
      ⟨hb, h₁.twin.observers, h₁.twin.totalCycles⟩
    rw [← hcycles]
    exact hmap.account _
  unfold Machine.step
  rw [hok, hok']
  dsimp only
  rcases hrun : Exec.step m₁.board with ⟨u, b⟩ | ⟨fault, b⟩
  · rcases hrun' : Exec.step m₁'.board with ⟨u', c⟩ | ⟨fault', c⟩
    · rw [hrun, hrun'] at hagree
      cases hagree with
      | ok _ hb =>
        rw [onBoard_of_ok hrun, onBoard_of_ok hrun']
        exact .inl ⟨_, _, rfl, rfl, htwin hb⟩
    · rw [hrun, hrun'] at hagree
      exact nomatch hagree
  · rcases hrun' : Exec.step m₁'.board with ⟨u', c⟩ | ⟨fault', c⟩
    · rw [hrun, hrun'] at hagree
      exact nomatch hagree
    · rw [hrun, hrun'] at hagree
      cases hagree with
      | error _ hb =>
        rw [onBoard_of_error hrun, onBoard_of_error hrun']
        exact .inr ⟨fault, _, _, rfl, rfl, htwin hb⟩

/-- So does a step between commands: if it fails then what is remembered is still that of the
program counter, provided that this has not moved. -/
theorem Paired.perform (hI : Bus.Upkeep F I) (h : Paired F I m m') (hF : ∀ p ∈ m.fetches, p ∈ F)
    (hinj : Set.InjOn m.board.bus.cache.place F) (hinj' : Set.InjOn m'.board.bus.cache.place F) :
    m'.fault? .step = m.fault? .step ∧ (m.perform .step).Twin (m'.perform .step) ∧
      m.board.Sustained F I (m.perform .step).board ∧
      m'.board.Sustained F I (m'.perform .step).board ∧
      ((∀ fault m₁, Machine.step m = .error fault m₁ →
          m₁.board.core.point = m.board.core.point) →
        (m.perform .step).board.Synced ∧ (m'.perform .step).board.Synced) := by
  have hpoint : m.board.core.halted = false → m.board.core.point ∈ F := fun hrunning =>
    hF _ (point_mem_fetches hrunning)
  have hF' : ∀ p ∈ m'.fetches, p ∈ F := by rwa [h.fetches hI hpoint]
  have hspec := step_spec hI h.left.tidy h.synced hF hinj
  have hspec' := step_spec hI h.right.tidy h.synced' hF' hinj'
  rcases h.step hI hpoint with ⟨m₁, m₁', hstep, hstep', h₁⟩ | ⟨fault, m₁, m₁', hstep, hstep', h₁⟩
  all_goals
    have hm₁ : m.perform .step = m₁ := by rw [Machine.perform, after, hstep]
    have hm₁' : m'.perform .step = m₁' := by rw [Machine.perform, after, hstep']
    have hend : m'.fault? .step = m.fault? .step := by
      unfold fault?
      rw [hstep, hstep']
    rw [hm₁, hm₁']
    rw [hstep] at hspec
    rw [hstep'] at hspec'
  · obtain ⟨m₂, hok, hb, hs⟩ | ⟨_, _, hfail, -⟩ := hspec
    swap
    · exact nomatch hfail
    obtain ⟨m₂', hok', hb', hs'⟩ | ⟨_, _, hfail, -⟩ := hspec'
    swap
    · exact nomatch hfail
    cases hok
    cases hok'
    exact ⟨hend, h₁, hb, hb', fun _ => ⟨hs, hs'⟩⟩
  · obtain ⟨_, hok, -⟩ | ⟨fault, m₂, hfail, hb, hremembers⟩ := hspec
    · exact nomatch hok
    obtain ⟨_, hok, -⟩ | ⟨fault', m₂', hfail', hb', hremembers'⟩ := hspec'
    · exact nomatch hok
    cases hfail
    cases hfail'
    refine ⟨hend, h₁, hb, hb', fun hresume => ?_⟩
    have hsame := hresume _ _ hstep
    refine ⟨?_, ?_⟩
    · rw [Board.Synced, hsame]
      exact hremembers
    · rw [Board.Synced, ← h₁.board.point, hsame, h.twin.board.point]
      exact hremembers'

/-- What devices do to the interrupt lines leaves twins. -/
lemma Twin.perform_line (h : m.Twin m') {c : Command} (hc : c ≠ .step) :
    (m.perform c).Twin (m'.perform c) := by
  cases c with
  | step => exact absurd rfl hc
  | request line => exact ⟨h.board.request line, h.observers, h.totalCycles⟩
  | acknowledge mask => exact ⟨h.board.mapIrq (·.acknowledge mask), h.observers, h.totalCycles⟩

lemma sound_perform_line (h : m.board.Sound F I) {c : Command} (hc : c ≠ .step) :
    (m.perform c).board.Sound F I := by
  obtain ⟨hbus, -⟩ := Machine.perform_line hc m
  exact ⟨hbus ▸ h.tidy, hbus ▸ h.invariant, hbus ▸ h.coherent⟩

/-! ### Runs -/

/-- Twins with sound caches stay twins along a run without shared slots, and so they look the same.
-/
theorem Twin.sameRun (hI : Bus.Upkeep F I) {cs : List Command} (h : m.Twin m')
    (hl : m.board.Sound F I) (hr : m'.board.Sound F I)
    (hs : .step ∈ cs → m.board.Synced ∧ m'.board.Synced)
    (hF : ∀ p ∈ m.fetched cs, p ∈ F) (hinj : Set.InjOn m.board.bus.cache.place F)
    (hinj' : Set.InjOn m'.board.bus.cache.place F) (hresume : m.ResumesInPlace cs) :
    SameRun cs m m' := by
  induction cs generalizing m m' with
  | nil => exact h.looksLike
  | cons c cs ih =>
    obtain ⟨hplace, hrest⟩ := hresume
    by_cases hc : c = .step
    · subst hc
      obtain ⟨hsynced, hsynced'⟩ := hs List.mem_cons_self
      have hp : Paired F I m m' := ⟨h, hl, hr, hsynced, hsynced'⟩
      have hfetches : ∀ p ∈ m.fetches, p ∈ F := fun p hp => hF p (List.mem_append_left _ hp)
      obtain ⟨hend, h₁, hb, hb', hsynced₁⟩ := hp.perform hI hfetches hinj hinj'
      refine ⟨h.looksLike, hend, ih h₁ (hb.sound hl) (hb'.sound hr) ?_ ?_ ?_ ?_ hrest⟩
      · exact fun hmem => hsynced₁ (hplace rfl hmem)
      · exact fun p hp => hF p (List.mem_append_right _ hp)
      · rwa [hb.place]
      · rwa [hb'.place]
    · obtain ⟨hbus, -⟩ := Machine.perform_line hc m
      obtain ⟨hbus', -⟩ := Machine.perform_line hc m'
      have hend : m'.fault? c = m.fault? c := by
        cases c with
        | step => exact absurd rfl hc
        | request | acknowledge => rfl
      rw [fetched_line hc] at hF
      refine ⟨h.looksLike, hend, ih (h.perform_line hc) (sound_perform_line hl hc)
        (sound_perform_line hr hc) (fun hmem => ?_) hF (by rwa [hbus]) (by rwa [hbus']) hrest⟩
      obtain ⟨hsynced, hsynced'⟩ := hs (List.mem_cons_of_mem c hmem)
      exact ⟨synced_perform_line hc hsynced, synced_perform_line hc hsynced'⟩

/-! ### The handheld -/

/-- On the bus of the handheld, the regions that can be written do not share their storage. -/
lemma owned_handheld : Bus.handheld.Owned fun r => r.readOnly = false := by
  have hsizes : ∀ k : Fin Bus.handheld.regions.size, Bus.handheld.regions[k].readOnly = false →
      ∀ m ∈ Bus.handheld.storages[Bus.handheld.regions[k].storage]?,
        m.size = Bus.handheld.regions[k].size := by
    decide +kernel
  have honly : ∀ k : Fin Bus.handheld.regions.size, Bus.handheld.regions[k].readOnly = false →
      ∀ k' : Fin Bus.handheld.regions.size,
        Bus.handheld.regions[k'].storage = Bus.handheld.regions[k].storage → k' = k := by
    decide +kernel
  refine ⟨Bus.built_handheld.orderly, fun k r hr hwrite => ?_⟩
  obtain ⟨hk, rfl⟩ := Array.getElem?_eq_some_iff.mp hr
  refine ⟨fun m hm => hsizes ⟨k, hk⟩ hwrite m hm, fun k' r' hr' hsame => ?_⟩
  obtain ⟨hk', rfl⟩ := Array.getElem?_eq_some_iff.mp hr'
  exact congrArg Fin.val (honly ⟨k, hk⟩ hwrite ⟨k', hk'⟩ hsame)

/-- The decode cache of the handheld is transparent. Whatever is in memory, and wherever the machine
starts, it looks the same with and without the cache after every command of a run that does not
fetch at two points with the same slot, and that goes on after a failed step only in place. -/
theorem sameRun_of_noSharedSlot (m : Machine) (hbus : Bus.SameShape .handheld m.board.bus)
    (entry : Word) (cs : List Command)
    (hslots : ((m.withCache false).reset entry).NoSharedSlot cs)
    (hresume : ((m.withCache false).reset entry).ResumesInPlace cs) :
    SameRun cs ((m.withCache false).reset entry) ((m.withCache true).reset entry) := by
  let F : Set Point := { p | p ∈ ((m.withCache false).reset entry).fetched cs }
  let I := Bus.Owned fun r => r.readOnly = false
  have hI : Bus.Upkeep F I := Bus.upkeep fun _ h => h
  have hshape : Bus.SameShape .handheld ((m.withCache false).reset entry).board.bus :=
    hbus.trans (.of_bare rfl (InstructionCache.layout_clear _))
  have hstrict : Bus.handheld.strict = false := by decide +kernel
  have hsound (enabled : Bool) : ((m.withCache enabled).reset entry).board.Sound F I := by
    refine ⟨((m.withCache enabled).reset_spec entry).1, owned_handheld.sameShape hshape, ?_⟩
    intro id h hget
    exact nomatch (InstructionCache.get?_clear m.board.bus.cache id).symm.trans hget
  have htwin : ((m.withCache false).reset entry).Twin ((m.withCache true).reset entry) :=
    ⟨⟨rfl, hshape.strict.trans hstrict⟩, rfl, rfl⟩
  refine htwin.sameRun hI (hsound false) (hsound true) (fun _ => ?_) (fun _ hp => hp) hslots hslots
    hresume
  obtain ⟨-, hsynced, -⟩ := (m.withCache false).reset_spec (F := F) entry
  obtain ⟨-, hsynced', -⟩ := (m.withCache true).reset_spec (F := F) entry
  exact ⟨hsynced, hsynced'⟩

/-- What is stored in memory does not change the shape of the bus. -/
lemma sameShape_handheld (program : List (Word × Word)) :
    Bus.SameShape .handheld (handheld program).board.bus := by
  have hstores (bus : Bus) : Bus.SameShape bus
      (program.foldl (fun bus word => bus.store .word word.1 word.2) bus) := by
    induction program generalizing bus with
    | nil => exact .refl bus
    | cons word program ih =>
      exact (Bus.sameShape_store bus .word word.1 word.2).trans (ih _)
  exact hstores .handheld

/-- A loop of two instructions does not share slots, and no step of it fails. -/
theorem sameRun_of_noSharedSlot_loop :
    let m := handheld [(0x03000000, 0xE2811001), (0x03000004, 0xEAFFFFFD)]
    Bus.SameShape .handheld m.board.bus ∧
      ((m.withCache false).reset 0x03000000).NoSharedSlot [.step, .request 3, .step] ∧
      ((m.withCache false).reset 0x03000000).ResumesInPlace [.step, .request 3, .step] ∧
      SameRun [.step, .request 3, .step] ((m.withCache false).reset 0x03000000)
        ((m.withCache true).reset 0x03000000) := by
  let program : List (Word × Word) := [(0x03000000, 0xE2811001), (0x03000004, 0xEAFFFFFD)]
  let start := ((handheld program).withCache false).reset 0x03000000
  have hslots : ∀ p ∈ start.fetched [.step, .request 3, .step],
      ∀ q ∈ start.fetched [.step, .request 3, .step],
        start.board.bus.cache.place p = start.board.bus.cache.place q → p = q := by
    decide +kernel
  have hslots : start.NoSharedSlot [.step, .request 3, .step] := fun p hp q hq => hslots p hp q hq
  have hok : start.fault? .step = none := by decide +kernel
  have hresume : start.ResumesInPlace [.step, .request 3, .step] := by
    have hfirst : ∀ fault m', step start = .error fault m' →
        m'.board.core.point = start.board.core.point := by
      intro fault m' hfail
      unfold fault? at hok
      rw [hfail] at hok
      exact nomatch hok
    exact And.intro (fun _ _ => hfirst)
      (And.intro (fun h => nomatch h) (And.intro (fun _ h => nomatch h) trivial))
  have hshape := sameShape_handheld program
  exact ⟨hshape, hslots, hresume,
    sameRun_of_noSharedSlot (handheld program) hshape 0x03000000 _ hslots hresume⟩

/-- Machines that look the same along a run have the same snapshot at its end. -/
lemma SameRun.snapshot_eq {cs : List Command} (h : SameRun cs m m') :
    (cs.foldl perform m').snapshot = (cs.foldl perform m).snapshot := by
  induction cs generalizing m m' with
  | nil => exact h.snapshot
  | cons c cs ih => exact ih h.2.2

/-- A loop that passes through the input and output registers and through a mirrored copy of them.
With the cache, an instruction at the end of the registers is followed by what is in the slot of its
successor, although this is now the first instruction of the copy. -/
theorem not_forall_sameRun :
    ¬∀ (m : Machine) (entry : Word) (cs : List Command), Bus.SameShape .handheld m.board.bus →
      entry &&& 3 = 0 →
      SameRun cs ((m.withCache false).reset entry) ((m.withCache true).reset entry) := by
  let program : List (Word × Word) := [(0x040003F8, 0xE2811001), (0x040003FC, 0xE2800001),
    (0x04000000, 0xEA3FFEFD), (0x05000000, 0xEAC000FC)]
  let finish (enabled : Bool) : Machine := List.foldl perform
    (((handheld program).withCache enabled).reset 0x040003F8) (.replicate 8 .step)
  have hparted :
      (finish true).snapshot.core.registers ≠ (finish false).snapshot.core.registers := by
    decide +kernel
  intro hall
  have hshape := sameShape_handheld program
  have hentry : (0x040003F8 : Word) &&& 3 = 0 := by decide
  have hsame : (finish true).snapshot = (finish false).snapshot :=
    (hall (handheld program) 0x040003F8 (.replicate 8 .step) hshape hentry).snapshot_eq
  rw [hsame] at hparted
  exact hparted rfl

/-- Distinct slots alone do not make the cache transparent. Here a write of the status word from the
program counter fails, and is executed again with the program counter one word further on. Now it
succeeds, and with the cache its entry is linked to where execution continues, one word too far. -/
theorem not_forall_sameRun_of_noSharedSlot :
    ¬∀ (m : Machine) (entry : Word) (cs : List Command), Bus.SameShape .handheld m.board.bus →
      entry &&& 3 = 0 → ((m.withCache false).reset entry).NoSharedSlot cs →
      SameRun cs ((m.withCache false).reset entry) ((m.withCache true).reset entry) := by
  let program : List (Word × Word) :=
    [(0x03000004, 0xE121F00F), (0x03000008, 0xE3A00001), (0x0300000C, 0xEAFFFFFC)]
  let start := ((handheld program).withCache false).reset 0x03000004
  let finish (enabled : Bool) : Machine := List.foldl perform
    (((handheld program).withCache enabled).reset 0x03000004) (.replicate 5 .step)
  let points : List Point :=
    [0x03000004, 0x03000008, 0x0300000C, 0x0300000C, 0x03000004, 0x03000004, 0x03000008, 0x03000008,
      0x0300000C].map (Point.mk .arm)
  have hfetched : start.fetched (.replicate 5 .step) = points := by decide +kernel
  have hinj : ∀ p ∈ points, ∀ q ∈ points,
      start.board.bus.cache.place p = start.board.bus.cache.place q → p = q := by
    decide +kernel
  have hslots : start.NoSharedSlot (.replicate 5 .step) := by
    intro p hp q hq
    have hp : p ∈ start.fetched (.replicate 5 .step) := hp
    have hq : q ∈ start.fetched (.replicate 5 .step) := hq
    rw [hfetched] at hp hq
    exact hinj p hp q hq
  have hparted :
      (finish true).snapshot.core.registers ≠ (finish false).snapshot.core.registers := by
    decide +kernel
  intro hall
  have hshape := sameShape_handheld program
  have hentry : (0x03000004 : Word) &&& 3 = 0 := by decide
  have hsame : (finish true).snapshot = (finish false).snapshot :=
    (hall (handheld program) 0x03000004 (.replicate 5 .step) hshape hentry hslots).snapshot_eq
  rw [hsame] at hparted
  exact hparted rfl

end Armv4T.Machine
