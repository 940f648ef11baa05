import Mathlib
import Armv4T.Proofs.Machine.Commands

/-!
# The executed instruction is the one at the program counter

Before its step the core has a current instruction: the one it remembers, or the one it finds at the
program counter. The two are the same (`Machine.ExecutesAtPc`) all along a run that never fetches at
two points with the same slot, unless a step fails. The exact condition on the steps that fail
(`Machine.FailsInPlace`) is that they leave the program counter where it was, or leave nothing live
to remember: a step that fails in the instruction itself has moved the program counter on, but still
remembers the instruction that failed, and would execute it again.
-/

namespace Armv4T.Machine

/-- The current instruction, whenever one can be found, is the one at the program counter in the
current set. -/
def ExecutesAtPc (m : Machine) : Prop :=
  ∀ h b, Exec.currentHandle m.board = .ok h b →
    h.address = m.board.core.nextAddress ∧ h.set = m.board.core.regs.set

/-- If the next step fails then it leaves the program counter and the set as they were, or it leaves
no live decoding behind. -/
def FailsInPlace (m : Machine) : Prop :=
  ∀ fault m', step m = .error fault m' →
    m'.board.core.point = m.board.core.point ∨
      m'.board.core.current.bind m'.board.bus.cache.get? = none

variable {F : Set Point} {m : Machine}

lemma executesAtPc_iff (ht : m.board.bus.cache.Tidy F) : m.ExecutesAtPc ↔ m.board.Synced := by
  rw [Exec.synced_iff ht]
  refine forall_congr' fun h => forall_congr' fun b => imp_congr_right fun _ => ?_
  rw [Handle.point, Core.point, Point.mk.injEq, and_comm]

/-- What a failed step leaves is in step exactly if it has not moved on, or has forgotten. -/
lemma synced_iff_of_remembers {b : Board} {p : Point} (h : b.Remembers p) :
    b.Synced ↔ b.core.point = p ∨ b.core.current.bind b.bus.cache.get? = none := by
  constructor
  · intro hs
    rcases hlive : b.core.current.bind b.bus.cache.get? with _ | e
    · exact .inr rfl
    · obtain ⟨id, hcurrent, hget⟩ := Option.bind_eq_some_iff.mp hlive
      exact .inl ((hs id e hcurrent hget).symm.trans (h id e hcurrent hget))
  · rintro (rfl | hdead) id e hcurrent hget
    · exact h id e hcurrent hget
    · rw [hcurrent, Option.bind_some, hget] at hdead
      exact nomatch hdead

/-- Nothing is asked of a cache that need not be coherent. -/
lemma upkeep_false : Bus.Upkeep F fun _ => False where
  store _ _ _ _ h := h.elim
  congr _ _ h := h

lemma Always.head {P : Machine → Prop} {cs : List Command} (h : m.Always P cs) : P m := by
  cases cs with
  | nil => exact h
  | cons c cs => exact h.1

/-- From a machine in step on, the current instruction stays the one at the program counter exactly
as long as steps fail in place. -/
lemma always_iff_of_synced {cs : List Command} (ht : m.board.bus.cache.Tidy F)
    (hs : m.board.Synced) (hF : ∀ p ∈ m.fetched cs, p ∈ F)
    (hinj : Set.InjOn m.board.bus.cache.place F) :
    m.Always ExecutesAtPc cs ↔ m.EachStep FailsInPlace cs := by
  induction cs generalizing m with
  | nil => exact iff_of_true ((executesAtPc_iff ht).mpr hs) trivial
  | cons c cs ih =>
    have hhead : m.ExecutesAtPc := (executesAtPc_iff ht).mpr hs
    rw [Always, EachStep, and_iff_right hhead]
    by_cases hc : c = .step
    · subst hc
      have hfetch : ∀ p ∈ m.fetches, p ∈ F := fun p hp => hF p (List.mem_append_left _ hp)
      have hrest : ∀ p ∈ (m.perform .step).fetched cs, p ∈ F := fun p hp =>
        hF p (List.mem_append_right _ hp)
      rcases step_spec upkeep_false ht hs hfetch hinj with
        ⟨m', hstep, hb, hs'⟩ | ⟨fault, m', hstep, hb, hremembers⟩
      · have hm' : m.perform .step = m' := by
          rw [perform, after, hstep]
        rw [hm'] at hrest ⊢
        rw [ih (hb.tidy ht) hs' hrest (by rwa [hb.place])]
        have hnofail : m.FailsInPlace := by
          intro fault m₁ hfail
          rw [hstep] at hfail
          exact nomatch hfail
        exact (and_iff_right fun _ => hnofail).symm
      · have hm' : m.perform .step = m' := by
          rw [perform, after, hstep]
        rw [hm'] at hrest ⊢
        have hplace : m.FailsInPlace ↔ m'.board.Synced := by
          rw [synced_iff_of_remembers hremembers]
          constructor
          · exact fun h => h fault m' hstep
          · intro h fault' m₁ hfail
            rw [hstep] at hfail
            cases hfail
            exact h
        by_cases hs' : m'.board.Synced
        · rw [ih (hb.tidy ht) hs' hrest (by rwa [hb.place])]
          exact (and_iff_right fun _ => hplace.mpr hs').symm
        · refine iff_of_false (fun h => hs' ?_) fun h => hs' (hplace.mp (h.1 rfl))
          exact (executesAtPc_iff (hb.tidy ht)).mp h.head
    · obtain ⟨hbus, -⟩ := perform_line hc m
      rw [fetched_line hc] at hF
      rw [ih (by rwa [hbus]) (synced_perform_line hc hs) hF (by rwa [hbus])]
      exact (and_iff_right fun h => absurd h hc).symm

/-- The executed instruction is the one at the program counter. Along any run from a reset that does
not fetch at two points with the same slot, the current instruction is the one at the program
counter at every moment if, and only if, the steps that fail do so in place. -/
theorem always_executesAtPc_iff (m : Machine) (entry : Word) (cs : List Command)
    (h : (m.reset entry).NoSharedSlot cs) :
    (m.reset entry).Always ExecutesAtPc cs ↔ (m.reset entry).EachStep FailsInPlace cs := by
  obtain ⟨ht, hs, -⟩ := m.reset_spec entry (F := { p | p ∈ (m.reset entry).fetched cs })
  exact always_iff_of_synced ht hs (fun _ hp => hp) h

/-- Three instructions of the internal memory have slots of their own. -/
theorem always_executesAtPc_iff_counting :
    ((handheld [(0x03000000, 0xE2811001)]).reset 0x03000000).NoSharedSlot
        [.step, .request 3, .step] ∧
      (((handheld [(0x03000000, 0xE2811001)]).reset 0x03000000).Always ExecutesAtPc
          [.step, .request 3, .step] ↔
        ((handheld [(0x03000000, 0xE2811001)]).reset 0x03000000).EachStep FailsInPlace
          [.step, .request 3, .step]) := by
  let m := handheld [(0x03000000, 0xE2811001)]
  have hslots : ∀ p ∈ (m.reset 0x03000000).fetched [.step, .request 3, .step],
      ∀ q ∈ (m.reset 0x03000000).fetched [.step, .request 3, .step],
        (m.reset 0x03000000).board.bus.cache.place p =
          (m.reset 0x03000000).board.bus.cache.place q → p = q := by
    decide +kernel
  have h : (m.reset 0x03000000).NoSharedSlot [.step, .request 3, .step] :=
    fun p hp q hq => hslots p hp q hq
  exact ⟨h, always_executesAtPc_iff m 0x03000000 _ h⟩

/-- After an instruction without a meaning has failed, the program counter is at the instruction
after it, and the current instruction is still the one that failed. -/
theorem not_forall_always_executesAtPc :
    ¬∀ (m : Machine) (entry : Word) (steps : Nat), entry &&& 3 = 0 →
      (m.reset entry).Always ExecutesAtPc (.replicate steps .step) := by
  let m := handheld [(0x03000000, 0xEE000000), (0x03000004, 0xE3A00001)]
  let failed := (m.reset 0x03000000).perform .step
  have hcurrent : (match Exec.currentHandle failed.board with
      | .ok h _ => some (h.address, failed.board.core.nextAddress)
      | .error _ _ => none) = some (0x03000000, 0x03000004) := by
    decide +kernel
  intro hall
  have hat : failed.ExecutesAtPc := (hall m 0x03000000 1 (by decide)).2
  rcases hrun : Exec.currentHandle failed.board with ⟨h, b⟩ | ⟨fault, b⟩
  · rw [hrun] at hcurrent
    obtain ⟨haddress, hnext⟩ := Prod.mk.inj (Option.some.inj hcurrent)
    have heq := (hat h b hrun).1
    rw [haddress, hnext] at heq
    exact absurd heq (by decide)
  · rw [hrun] at hcurrent
    exact nomatch hcurrent

end Armv4T.Machine
