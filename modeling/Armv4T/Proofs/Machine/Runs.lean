import Mathlib
import Armv4T.Proofs.Machine.Observers
import Armv4T.Proofs.Machine.Restore

/-!
# Runs one after the other

A run that ends at its limit can be gone on with: the next run does what a longer one would have
done (`Machine.runFrom_add`). The first step of a run is made even from a breakpoint, which makes no
difference there, since a run that ends at its limit after a step is not at a breakpoint.

Observers are told of the stop in between, and apart from that they are told the same. So the two
ways of running leave equal machines once the stops are deleted from the records of observers
(`Machine.forgetStops`), and equal machines outright if no observer keeps a record. This rests on
the observers not being asked: a change of observers that does not matter to what they are told of
steps can be made before a run or after it (`Machine.runFrom_mapObservers`).

A run ends at a breakpoint exactly where a step of it, within its limit, is the first to lead to one
(`Machine.run_eq_breakpoint_iff`).
-/

namespace Armv4T

namespace Observer

/-- The observer without the stops in its record. -/
def forgetStops : Observer → Observer
  | recorder events => recorder (events.filter (· != .stopped))
  | metrics m => metrics m
  | silent => silent

/-- The observer without its record. -/
def unrecorded : Observer → Observer
  | recorder _ => silent
  | metrics m => metrics m
  | silent => silent

/-- A change of observers that may be made before or after they are told of a step. -/
def Steady (f : Observer → Observer) : Prop :=
  ∀ (e : Event) (o : Observer), e ≠ .stopped → f (o.notify e) = (f o).notify e

lemma steady_forgetStops : Steady forgetStops := by
  intro e o he
  cases o with
  | recorder events =>
    have hkept : (e != .stopped) = true := bne_iff_ne.mpr he
    simp [forgetStops, Observer.notify, hkept]
  | metrics | silent => rfl

lemma steady_unrecorded : Steady unrecorded := by
  intro e o _
  cases o <;> rfl

/-- A stop is not kept in a record without stops. -/
lemma forgetStops_notify_stopped (o : Observer) :
    (o.notify .stopped).forgetStops = o.forgetStops := by
  cases o with
  | recorder events => simp [forgetStops, Observer.notify]
  | metrics | silent => rfl

lemma forgetStops_unrecorded (o : Observer) : o.unrecorded.forgetStops = o.unrecorded := by
  cases o <;> rfl

/-- A stop leaves nothing but a record. -/
lemma unrecorded_notify_stopped (o : Observer) :
    (o.notify .stopped).unrecorded = o.unrecorded.notify .stopped := by
  cases o <;> rfl

/-- The observers that a stop means nothing to are those that keep no record. -/
lemma notify_stopped_eq_iff (o : Observer) : o.notify .stopped = o ↔ o.unrecorded = o := by
  cases o with
  | recorder events =>
    refine iff_of_false (fun h => ?_) (fun h => nomatch h)
    have hsize := congrArg Array.size (recorder.inj h)
    rw [Array.size_push] at hsize
    omega
  | metrics | silent => exact iff_of_true rfl rfl

end Observer

namespace Machine

variable {m m₁ m' : Machine} {f : Observer → Observer}

/-! ### The observers of a run -/

/-- The machine with its observers changed. -/
def mapObservers (f : Observer → Observer) (m : Machine) : Machine :=
  m.observedBy (m.observers.map f)

lemma notify_eq_mapObservers (m : Machine) (e : Event) :
    m.notify e = m.mapObservers (Observer.notify e) := rfl

lemma mapObservers_mapObservers (f g : Observer → Observer) (m : Machine) :
    (m.mapObservers g).mapObservers f = m.mapObservers (f ∘ g) :=
  congrArg m.observedBy List.map_map

lemma mapObservers_congr {g : Observer → Observer} (h : ∀ o ∈ m.observers, f o = g o) :
    m.mapObservers f = m.mapObservers g :=
  congrArg m.observedBy (List.map_congr_left h)

lemma mapObservers_id (m : Machine) : m.mapObservers id = m :=
  congrArg m.observedBy (List.map_id _)

/-- The machine without the stops in the records of its observers. -/
def forgetStops (m : Machine) : Machine := m.mapObservers Observer.forgetStops

/-- A result with a change to its machine. -/
def onResult {α : Type} (f : Machine → Machine) :
    EStateM.Result Fault Machine α → EStateM.Result Fault Machine α
  | .ok a m => .ok a (f m)
  | .error fault m => .error fault (f m)

lemma onResult_onResult {α : Type} (f g : Machine → Machine)
    (r : EStateM.Result Fault Machine α) : onResult f (onResult g r) = onResult (f ∘ g) r := by
  cases r <;> rfl

lemma onResult_eq_ok {α : Type} {f : Machine → Machine} {r : EStateM.Result Fault Machine α} {a : α}
    (h : onResult f r = .ok a m') : ∃ m₁, r = .ok a m₁ ∧ m' = f m₁ := by
  cases r with
  | ok a' m₁ =>
    obtain ⟨rfl, rfl⟩ := EStateM.Result.ok.inj h
    exact ⟨m₁, rfl, rfl⟩
  | error fault m₁ => cases h

lemma onResult_eq_error {α : Type} {f : Machine → Machine} {r : EStateM.Result Fault Machine α}
    {fault : Fault} (h : onResult f r = .error fault m') :
    ∃ m₁, r = .error fault m₁ ∧ m' = f m₁ := by
  cases r with
  | ok a m₁ => cases h
  | error fault' m₁ =>
    obtain ⟨rfl, rfl⟩ := EStateM.Result.error.inj h
    exact ⟨m₁, rfl, rfl⟩

lemma mapObservers_notify (hf : Observer.Steady f) {e : Event} (he : e ≠ .stopped) (m : Machine) :
    (m.notify e).mapObservers f = (m.mapObservers f).notify e := by
  rw [notify_eq_mapObservers, notify_eq_mapObservers, mapObservers_mapObservers,
    mapObservers_mapObservers]
  exact mapObservers_congr fun o _ => hf e o he

lemma mapObservers_account (hf : Observer.Steady f) (before : UInt64) (m : Machine) :
    (m.account before).mapObservers f = (m.mapObservers f).account before :=
  mapObservers_notify hf (by simp) _

lemma announce_mapObservers (hf : Observer.Steady f) (m : Machine) :
    announce (m.mapObservers f) = onResult (mapObservers f) (announce m) := by
  have hsame : ((m.mapObservers f).board.core.halted || (m.mapObservers f).observers.isEmpty) =
      (m.board.core.halted || m.observers.isEmpty) :=
    congrArg (m.board.core.halted || ·) List.isEmpty_map
  rcases hquiet : m.board.core.halted || m.observers.isEmpty with _ | _
  · have hquiet' := hsame.trans hquiet
    rcases hcurrent : Exec.currentHandle m.board with ⟨h, b⟩ | ⟨fault, b⟩
    · rw [announce_of_ok hquiet hcurrent, announce_of_ok hquiet' hcurrent]
      exact congrArg _ (mapObservers_notify hf (by simp) (m.mapBoard fun _ => b)).symm
    · rw [announce_of_error hquiet hcurrent, announce_of_error hquiet' hcurrent]
      rfl
  · rw [announce_of_quiet hquiet, announce_of_quiet (hsame.trans hquiet)]
    rfl

/-- A step does not depend on what observers know. -/
lemma step_mapObservers (hf : Observer.Steady f) (m : Machine) :
    step (m.mapObservers f) = onResult (mapObservers f) (step m) := by
  have hannounce := announce_mapObservers hf m
  rcases hannounced : announce m with ⟨⟨⟩, m₁⟩ | ⟨fault, m₁⟩
  · rw [hannounced] at hannounce
    rw [step_of_announce hannounced, step_of_announce hannounce]
    have hboard : (m₁.mapObservers f).board = m₁.board := rfl
    rw [hboard]
    rcases Exec.step m₁.board with ⟨⟨⟩, b⟩ | ⟨fault, b⟩
    · exact congrArg _ (mapObservers_account hf _ (m₁.mapBoard fun _ => b)).symm
    · exact congrArg _ (mapObservers_account hf _ (m₁.mapBoard fun _ => b)).symm
  · rw [hannounced] at hannounce
    rw [step_of_announce_error hannounced, step_of_announce_error hannounce]
    rfl

/-- A run does not depend on what observers know. -/
lemma runFrom_mapObservers (hf : Observer.Steady f) (n : ℕ) (started : Bool) (m : Machine) :
    runFrom n started (m.mapObservers f) = onResult (mapObservers f) (runFrom n started m) := by
  have hat : (m.mapObservers f).atBreakpoint (m.mapObservers f).nextAddress =
      m.atBreakpoint m.nextAddress := rfl
  induction n generalizing started m with
  | zero =>
    unfold runFrom
    rw [hat]
    split <;> rfl
  | succ n ih =>
    unfold runFrom
    rw [hat]
    split
    · rfl
    · rw [step_mapObservers hf]
      rcases step m with ⟨⟨⟩, m₁⟩ | ⟨fault, m₁⟩
      · exact ih true m₁ rfl
      · rfl

/-! ### Limits -/

/-- How many steps a run may make: as many as there are words, if no limit is given. -/
def allowance (limit : Option Word) : ℕ := (limit.map UInt32.toNat).getD UInt32.size

lemma run_eq (limit : Option Word) (m : Machine) :
    run limit m = onResult (notify · .stopped) (runFrom (allowance limit) false m) := by
  unfold run allowance
  cases runFrom ((limit.map UInt32.toNat).getD UInt32.size) false m <;> rfl

lemma runFrom_succ_of_ok (n : ℕ) (h : step m = .ok () m₁) :
    runFrom (n + 1) false m = runFrom n true m₁ := by
  simp [runFrom, h]

lemma runFrom_succ_of_error (n : ℕ) {fault : Fault} (h : step m = .error fault m₁) :
    runFrom (n + 1) false m = .error fault m₁ := by
  simp [runFrom, h]

/-- Whether the first step is exempt makes no difference away from breakpoints. -/
lemma runFrom_of_not_atBreakpoint (h : m.atBreakpoint m.nextAddress = false) (n : ℕ)
    (started : Bool) : runFrom n started m = runFrom n false m := by
  cases started with
  | false => rfl
  | true => cases n <;> simp [runFrom, h]

/-- A run that ends at its limit can be gone on with as if it were started there, and a run that
ends earlier ends as early with a higher limit. -/
lemma runFrom_add (a b : ℕ) (started : Bool) (m : Machine) :
    runFrom (a + b) started m = match runFrom a started m with
      | .ok .maxStepsReached m₁ => runFrom b false m₁
      | result => result := by
  induction a generalizing started m with
  | zero =>
    rw [Nat.zero_add]
    by_cases hstop : (started && m.atBreakpoint m.nextAddress) = true
    · simp only [runFrom, hstop, if_true]
      cases b <;> simp [runFrom, hstop]
    · have hgo : runFrom b started m = runFrom b false m := by
        cases started with
        | false => rfl
        | true => exact runFrom_of_not_atBreakpoint (by simpa using hstop) b true
      rw [hgo]
      simp only [runFrom, hstop, if_false, Bool.false_eq_true]
  | succ a ih =>
    rw [Nat.succ_add]
    by_cases hstop : (started && m.atBreakpoint m.nextAddress) = true
    · simp only [runFrom, hstop, if_true]
    · simp only [runFrom, hstop, if_false, Bool.false_eq_true]
      rcases step m with ⟨⟨⟩, m₁⟩ | ⟨fault, m₁⟩
      · exact ih true m₁
      · rfl

/-! ### Breakpoints -/

lemma breakpoints_announce (h : announce m = .ok () m₁) : m₁.breakpoints = m.breakpoints := by
  rcases hquiet : m.board.core.halted || m.observers.isEmpty with _ | _
  · rcases hcurrent : Exec.currentHandle m.board with ⟨e, b⟩ | ⟨fault, b⟩
    · rw [announce_of_ok hquiet hcurrent] at h
      cases h
      rfl
    · rw [announce_of_error hquiet hcurrent] at h
      cases h
  · rw [announce_of_quiet hquiet] at h
    cases h
    rfl

/-- A step leaves the breakpoints. -/
lemma breakpoints_step (h : step m = .ok () m₁) : m₁.breakpoints = m.breakpoints := by
  rcases hannounced : announce m with ⟨⟨⟩, m₀⟩ | ⟨fault, m₀⟩
  · have hkept := breakpoints_announce hannounced
    rw [step_of_announce hannounced] at h
    rcases hrun : Exec.step m₀.board with ⟨⟨⟩, b⟩ | ⟨fault, b⟩
    · rw [hrun] at h
      cases h
      exact hkept
    · rw [hrun] at h
      cases h
  · rw [step_of_announce_error hannounced] at h
    cases h

/-- Counting from the `first` step on, the machine is at a breakpoint after `k` steps, and at none
before. -/
structure FirstBreakpoint (first : ℕ) (m : Machine) (k : ℕ) (m' : Machine) : Prop where
  le : first ≤ k
  made : steps k m = .ok () m'
  here : breakpointAt m'.nextAddress ∈ m.breakpoints
  none_before : ∀ j m₁, first ≤ j → j < k → steps j m = .ok () m₁ →
    breakpointAt m₁.nextAddress ∉ m.breakpoints

lemma atBreakpoint_iff (m : Machine) (address : Word) :
    m.atBreakpoint address = true ↔ breakpointAt address ∈ m.breakpoints :=
  List.contains_iff_mem

/-- The machine is at a breakpoint after no step, or later. -/
lemma firstBreakpoint_zero_iff {k : ℕ} : FirstBreakpoint 0 m k m' ↔
    if m.atBreakpoint m.nextAddress then k = 0 ∧ m' = m else FirstBreakpoint 1 m k m' := by
  split
  · rename_i hat
    rw [atBreakpoint_iff] at hat
    constructor
    · rintro ⟨-, hmade, -, hnone⟩
      rcases Nat.eq_zero_or_pos k with rfl | hpos
      · cases hmade
        exact ⟨rfl, rfl⟩
      · exact absurd hat (hnone 0 m le_rfl hpos rfl)
    · rintro ⟨rfl, rfl⟩
      exact ⟨le_rfl, rfl, hat, fun j _ _ hlt => nomatch hlt⟩
  · rename_i haway
    rw [atBreakpoint_iff] at haway
    constructor
    · rintro ⟨-, hmade, hhere, hnone⟩
      refine ⟨Nat.pos_of_ne_zero ?_, hmade, hhere, fun j m₁ _ => hnone j m₁ (Nat.zero_le j)⟩
      rintro rfl
      cases hmade
      exact haway hhere
    · rintro ⟨-, hmade, hhere, hnone⟩
      refine ⟨Nat.zero_le k, hmade, hhere, fun j m₁ _ hlt hj => ?_⟩
      rcases Nat.eq_zero_or_pos j with rfl | hpos
      · cases hj
        exact haway
      · exact hnone j m₁ hpos hlt hj

/-- Away from the first step, a step is made. -/
lemma firstBreakpoint_succ_iff (hstep : step m = .ok () m₁) {first k : ℕ} :
    FirstBreakpoint (first + 1) m (k + 1) m' ↔ FirstBreakpoint first m₁ k m' := by
  have hbreakpoints := breakpoints_step hstep
  constructor
  · rintro ⟨hle, hmade, hhere, hnone⟩
    rw [steps_succ k hstep] at hmade
    refine ⟨Nat.le_of_succ_le_succ hle, hmade, hbreakpoints ▸ hhere, fun j m₂ hle hlt hj => ?_⟩
    rw [hbreakpoints]
    exact hnone (j + 1) m₂ (Nat.succ_le_succ hle) (Nat.succ_lt_succ hlt)
      ((steps_succ j hstep).trans hj)
  · rintro ⟨hle, hmade, hhere, hnone⟩
    rw [hbreakpoints] at hhere hnone
    refine ⟨Nat.succ_le_succ hle, (steps_succ k hstep).trans hmade, hhere,
      fun j m₂ hle hlt hj => ?_⟩
    obtain ⟨j, rfl⟩ := Nat.exists_eq_add_of_le' (Nat.le_of_add_left_le hle)
    rw [steps_succ j hstep] at hj
    exact hnone j m₂ (Nat.le_of_succ_le_succ hle) (Nat.lt_of_succ_lt_succ hlt) hj

/-- The step that leads to the first breakpoint is a step of the run. -/
lemma exists_firstBreakpoint_succ_iff (hstep : step m = .ok () m₁) (n : ℕ) :
    (∃ k ≤ n + 1, FirstBreakpoint 1 m k m') ↔ ∃ k ≤ n, FirstBreakpoint 0 m₁ k m' := by
  constructor
  · rintro ⟨k, hle, hfirst⟩
    obtain ⟨k, rfl⟩ := Nat.exists_eq_add_of_le' hfirst.le
    exact ⟨k, Nat.le_of_succ_le_succ hle, (firstBreakpoint_succ_iff hstep).mp hfirst⟩
  · rintro ⟨k, hle, hfirst⟩
    exact ⟨k + 1, Nat.succ_le_succ hle, (firstBreakpoint_succ_iff hstep).mpr hfirst⟩

/-- A step that fails leads to no breakpoint. -/
lemma not_firstBreakpoint_of_step_error {fault : Fault} (hstep : step m = .error fault m₁)
    {k : ℕ} : ¬FirstBreakpoint 1 m k m' := by
  rintro ⟨hle, hmade, -, -⟩
  obtain ⟨k, rfl⟩ := Nat.exists_eq_add_of_le' hle
  unfold steps at hmade
  rw [hstep] at hmade
  cases hmade

lemma runFrom_of_atBreakpoint (h : m.atBreakpoint m.nextAddress = true) (n : ℕ) :
    runFrom n true m = .ok (.breakpoint m.nextAddress) m := by
  cases n <;> simp [runFrom, h]

/-- A run ends at a breakpoint exactly if one of the steps it may make is the first that leads to
one. -/
lemma runFrom_eq_breakpoint_iff (n : ℕ) (m : Machine) (pc : Word) (m' : Machine) :
    runFrom n false m = .ok (.breakpoint pc) m' ↔
      pc = m'.nextAddress ∧ ∃ k ≤ n, FirstBreakpoint 1 m k m' := by
  induction n generalizing m with
  | zero =>
    refine iff_of_false (fun h => by cases h) ?_
    rintro ⟨-, k, hzero, hfirst⟩
    have hpos := hfirst.le
    omega
  | succ n ih =>
    rcases hstep : step m with ⟨⟨⟩, m₁⟩ | ⟨fault, m₁⟩
    · rw [runFrom_succ_of_ok n hstep, exists_firstBreakpoint_succ_iff hstep]
      simp only [firstBreakpoint_zero_iff]
      by_cases hat : m₁.atBreakpoint m₁.nextAddress = true
      · rw [runFrom_of_atBreakpoint hat]
        simp only [hat, if_true]
        constructor
        · rintro ⟨⟩
          exact ⟨rfl, 0, Nat.zero_le n, rfl, rfl⟩
        · rintro ⟨rfl, _, -, -, rfl⟩
          rfl
      · rw [runFrom_of_not_atBreakpoint (Bool.eq_false_iff.mpr hat), ih]
        simp only [hat, Bool.false_eq_true, if_false]
    · rw [runFrom_succ_of_error n hstep]
      refine iff_of_false (fun h => by cases h) ?_
      rintro ⟨-, k, -, hfirst⟩
      exact not_firstBreakpoint_of_step_error hstep hfirst

/-! ### Runs that go on -/

lemma forgetStops_notify_stopped (m : Machine) :
    (m.notify .stopped).forgetStops = m.forgetStops := by
  rw [forgetStops, notify_eq_mapObservers, mapObservers_mapObservers]
  exact mapObservers_congr fun o _ => o.forgetStops_notify_stopped

/-- Without the stops in the records, a run ends as its loop does. -/
lemma forgetStops_run (limit : Option Word) (m : Machine) :
    onResult forgetStops (run limit m) = runFrom (allowance limit) false m.forgetStops := by
  have hstop : forgetStops ∘ (notify · .stopped) = forgetStops := funext forgetStops_notify_stopped
  rw [run_eq, onResult_onResult, hstop]
  exact (runFrom_mapObservers Observer.steady_forgetStops _ _ m).symm

/-- Where no observer keeps a record, a run leaves none. -/
lemma unrecorded_run (h : m.mapObservers Observer.unrecorded = m) (limit : Option Word) :
    onResult (mapObservers Observer.unrecorded) (run limit m) = run limit m := by
  have hstop : mapObservers Observer.unrecorded ∘ (notify · .stopped) =
      (notify · .stopped) ∘ mapObservers Observer.unrecorded := by
    funext m
    simp only [Function.comp_apply, notify_eq_mapObservers, mapObservers_mapObservers]
    exact mapObservers_congr fun o _ => o.unrecorded_notify_stopped
  rw [run_eq, onResult_onResult, hstop, ← onResult_onResult,
    ← runFrom_mapObservers Observer.steady_unrecorded, h]

/-- Where no observer keeps a record, there is no stop to be forgotten. -/
lemma forgetStops_run_of_unrecorded (h : m.mapObservers Observer.unrecorded = m)
    (limit : Option Word) : onResult forgetStops (run limit m) = run limit m := by
  have hforget : forgetStops ∘ mapObservers Observer.unrecorded =
      mapObservers Observer.unrecorded := by
    funext m
    rw [Function.comp_apply, forgetStops, mapObservers_mapObservers]
    exact mapObservers_congr fun o _ => o.forgetStops_unrecorded
  have hrun := unrecorded_run h limit
  rw [← hrun, onResult_onResult, hforget]

/-- Observers that a stop means nothing to keep no records. -/
lemma unrecorded_of_notify_stopped (h : ∀ o ∈ m.observers, o.notify .stopped = o) :
    m.mapObservers Observer.unrecorded = m :=
  (mapObservers_congr fun o ho => o.notify_stopped_eq_iff.mp (h o ho)).trans m.mapObservers_id

section Add

variable {a b : Word}

lemma allowance_add (hfits : a.toNat + b.toNat < 2 ^ 32) :
    allowance (some (a + b)) = a.toNat + b.toNat := by
  show (a + b).toNat = _
  rw [UInt32.toNat_add, Nat.mod_eq_of_lt hfits]

/-- The loop of a run ends with the reason of the run. -/
lemma runFrom_of_run {limit : Option Word} {reason : StopReason}
    (h : run limit m = .ok reason m') :
    ∃ m₁, runFrom (allowance limit) false m = .ok reason m₁ ∧ m' = m₁.notify .stopped :=
  onResult_eq_ok (run_eq limit m ▸ h)

/-- A run that ends at its limit is gone on with by the next one, but for the stop in between. -/
lemma forgetStops_run_add (hfits : a.toNat + b.toNat < 2 ^ 32)
    (hlimit : run (some a) m = .ok .maxStepsReached m') :
    onResult forgetStops (run (some (a + b)) m) = onResult forgetStops (run (some b) m') := by
  obtain ⟨m₁, hlimit₁, rfl⟩ := runFrom_of_run hlimit
  have hforgotten : runFrom a.toNat false m.forgetStops = .ok .maxStepsReached m₁.forgetStops := by
    rw [forgetStops, runFrom_mapObservers Observer.steady_forgetStops,
      show runFrom a.toNat false m = _ from hlimit₁]
    rfl
  rw [forgetStops_run, forgetStops_run, forgetStops_notify_stopped, allowance_add hfits,
    runFrom_add, hforgotten]
  rfl

/-- Where a stop means nothing to any observer, there is no difference. -/
lemma run_add_of_notify_stopped (hfits : a.toNat + b.toNat < 2 ^ 32)
    (hlimit : run (some a) m = .ok .maxStepsReached m')
    (hdeaf : ∀ o ∈ m.observers, o.notify .stopped = o) :
    run (some (a + b)) m = run (some b) m' := by
  have hunrecorded := unrecorded_of_notify_stopped hdeaf
  have hunrecorded' : m'.mapObservers Observer.unrecorded = m' := by
    have hkept := unrecorded_run hunrecorded (some a)
    rw [hlimit] at hkept
    exact (EStateM.Result.ok.inj hkept).2
  have hforget := forgetStops_run_add hfits hlimit
  rwa [forgetStops_run_of_unrecorded hunrecorded,
    forgetStops_run_of_unrecorded hunrecorded'] at hforget

end Add

/-- A run ends at a breakpoint exactly if one of the steps it may make is the first that leads to
one. -/
lemma run_eq_breakpoint_iff (limit : Option Word) (m : Machine) (pc : Word) (m' : Machine) :
    run limit m = .ok (.breakpoint pc) m' ↔ ∃ k ≤ allowance limit, ∃ m₁,
      FirstBreakpoint 1 m k m₁ ∧ pc = m₁.nextAddress ∧ m' = m₁.notify .stopped := by
  constructor
  · intro h
    obtain ⟨m₁, hbreak, rfl⟩ := runFrom_of_run h
    obtain ⟨hpc, k, hle, hfirst⟩ := (runFrom_eq_breakpoint_iff _ _ _ _).mp hbreak
    exact ⟨k, hle, m₁, hfirst, hpc, rfl⟩
  · rintro ⟨k, hle, m₁, hfirst, hpc, rfl⟩
    rw [run_eq, (runFrom_eq_breakpoint_iff _ _ _ _).mpr ⟨hpc, k, hle, hfirst⟩]
    rfl

/-- Runs compose, for every machine with any breakpoints, and limits that add up to a word. A run
that ends at its limit is gone on with by the next one, which gives the result of one longer run,
and leaves the same machine but for the stop in between in the records of observers; it leaves the
very same machine if the stop means nothing to them. A run that ends at a breakpoint or with a fault
ends in the same way with a higher limit. And whatever its limit, a run ends at a breakpoint exactly
where one of its steps, of which it makes at least one, is the first that leads to a breakpoint. -/
theorem run_add (m : Machine) {a b : Word} (hfits : a.toNat + b.toNat < 2 ^ 32) :
    (∀ m', run (some a) m = .ok .maxStepsReached m' →
        onResult forgetStops (run (some (a + b)) m) = onResult forgetStops (run (some b) m') ∧
          ((∀ o ∈ m.observers, o.notify .stopped = o) →
            run (some (a + b)) m = run (some b) m')) ∧
      (∀ pc m', run (some a) m = .ok (.breakpoint pc) m' →
        run (some (a + b)) m = .ok (.breakpoint pc) m') ∧
      (∀ fault m', run (some a) m = .error fault m' → run (some (a + b)) m = .error fault m') ∧
      ∀ limit pc m', run limit m = .ok (.breakpoint pc) m' ↔
        ∃ k ≤ allowance limit, ∃ m₁, FirstBreakpoint 1 m k m₁ ∧
          pc = m₁.nextAddress ∧ m' = m₁.notify .stopped := by
  have hsplit := runFrom_add a.toNat b.toNat false m
  have hlonger : run (some (a + b)) m =
      onResult (notify · .stopped) (runFrom (a.toNat + b.toNat) false m) := by
    rw [run_eq, allowance_add hfits]
  refine ⟨fun m' hlimit => ?_, fun pc m' hbreak => ?_, fun fault m' hfault => ?_,
    fun limit => run_eq_breakpoint_iff limit m⟩
  · exact ⟨forgetStops_run_add hfits hlimit, run_add_of_notify_stopped hfits hlimit⟩
  · obtain ⟨m₁, hbreak₁, rfl⟩ := runFrom_of_run hbreak
    rw [show runFrom a.toNat false m = _ from hbreak₁] at hsplit
    rw [hlonger, hsplit]
    rfl
  · rw [run_eq] at hfault
    obtain ⟨m₁, hfault₁, rfl⟩ := onResult_eq_error hfault
    rw [show runFrom a.toNat false m = _ from hfault₁] at hsplit
    rw [hlonger, hsplit]
    rfl

/-- A loop of two instructions with a breakpoint at its start. -/
def looping : Machine :=
  ((handheld [(0x03000000, 0xE3A00001), (0x03000004, 0xEAFFFFFD)]).reset 0x03000000).addBreakpoint
    0x03000000

/-- A run of one step from the breakpoint ends at its limit, and the run that goes on from there
comes round to the breakpoint, as one longer run does. -/
theorem run_add_looping :
    (1 : Word).toNat + (5 : Word).toNat < 2 ^ 32 ∧
      ∃ m', run (some 1) looping = .ok .maxStepsReached m' ∧
        run (some 6) looping = run (some 5) m' ∧
        (run (some 6)).run' looping = some (.breakpoint 0x03000000) := by
  have hfits : (1 : Word).toNat + (5 : Word).toNat < 2 ^ 32 := by decide
  have hreason : (run (some 1)).run' looping = some .maxStepsReached := by decide +kernel
  refine ⟨hfits, ?_⟩
  rcases hrun : run (some 1) looping with ⟨reason, m'⟩ | ⟨fault, m'⟩
  · rw [EStateM.run', EStateM.run, hrun] at hreason
    obtain rfl := Option.some.inj hreason
    obtain ⟨-, hsame⟩ := (run_add looping hfits).1 m' hrun
    exact ⟨m', rfl, hsame (fun o ho => nomatch ho), by decide +kernel⟩
  · rw [EStateM.run', EStateM.run, hrun] at hreason
    cases hreason

end Machine

end Armv4T
