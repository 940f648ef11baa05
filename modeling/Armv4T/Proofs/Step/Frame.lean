import Mathlib
import Armv4T.Proofs.Cache.Entries
import Armv4T.Proofs.Exec.Plain

/-!
# What an instruction leaves alone

Three relations between boards that plain actions respect. Boards that differ in what is remembered
of decodings, and in the journal, give the same result and go on to differ in nothing else
(`stable_bare`). An instruction marks pages of the cache and does nothing else to it, and it keeps
the reference to the current decoding or drops it (`stable_kept`). And an invariant of the bus that
stores keep is kept by every instruction (`stable_bus`).
-/

namespace Armv4T

/-- The board without what is remembered of decodings, and without the journal, where a fetch may
be noticed. -/
def Board.bare (b : Board) : Board :=
  { core := b.core.bare, bus := b.bus.bare, irq := b.irq, journal := #[] }

namespace Board

lemma bare_eq_iff {b c : Board} :
    b.bare = c.bare ↔ b.core.bare = c.core.bare ∧ b.bus.bare = c.bus.bare ∧ b.irq = c.irq := by
  simp [bare]

/-- What an instruction that started on the first board may have done to the decodings that the
second one remembers. -/
structure Kept (free : Bool) (b₀ b : Board) : Prop where
  cache : InstructionCache.Marked b₀.bus.cache b.bus.cache
  cacheEnabled : b.core.cacheEnabled = b₀.core.cacheEnabled
  current : b.core.current = none ∨ b.core.current = b₀.core.current ∧
    (free = true ∨ b.core.pc = b₀.core.pc ∧ b.core.regs.set = b₀.core.regs.set)

lemma Kept.refl (free : Bool) (b : Board) : Kept free b b :=
  ⟨.refl _, rfl, .inr ⟨rfl, .inr ⟨rfl, rfl⟩⟩⟩

end Board

namespace Bus

/-- A store does to everything but the cache what it would do with any cache. -/
lemma bare_store (bus : Bus) (width : StoreWidth) (address value : Word) :
    (bus.store width address value).bare = (bus.bare.store width address value).bare := by
  have hwritable : bus.bare.writable? (width.align address) =
      bus.writable? (width.align address) := rfl
  simp only [store, hwritable]
  rcases bus.writable? (width.align address) with _ | ⟨storage, offset⟩ <;> rfl

/-- A store marks pages of the cache and does nothing else to it. -/
lemma marked_store (bus : Bus) (width : StoreWidth) (address value : Word) :
    InstructionCache.Marked bus.cache (bus.store width address value).cache := by
  simp only [store]
  rcases bus.writable? (width.align address) with _ | ⟨storage, offset⟩
  · exact .refl _
  · exact InstructionCache.marked_invalidate _ _ _

end Bus

variable {free : Bool}

/-- Plain actions do not see what is remembered of decodings. -/
lemma stable_bare : Stable free fun b c => b.bare = c.bare where
  core h := (Board.bare_eq_iff.mp h).1
  bus h := (Board.bare_eq_iff.mp h).2.1
  irq h := (Board.bare_eq_iff.mp h).2.2
  mapCore {f b c} hf h := by
    obtain ⟨hcore, hbus, hirq⟩ := Board.bare_eq_iff.mp h
    refine Board.bare_eq_iff.mpr ⟨?_, hbus, hirq⟩
    show (f b.core).bare = (f c.core).bare
    rw [hf.bare b.core, hf.bare c.core, hcore]
  mapIrq f {b c} h := by
    obtain ⟨hcore, hbus, hirq⟩ := Board.bare_eq_iff.mp h
    exact Board.bare_eq_iff.mpr ⟨hcore, hbus, congrArg f hirq⟩
  note n {b c} h := h
  store width address value {b c} h := by
    obtain ⟨hcore, hbus, hirq⟩ := Board.bare_eq_iff.mp h
    refine Board.bare_eq_iff.mpr ⟨hcore, ?_, hirq⟩
    show (b.bus.store width address value).bare = (c.bus.store width address value).bare
    rw [Bus.bare_store b.bus, Bus.bare_store c.bus, hbus]

/-- A plain action does to what is remembered of decodings only what an instruction may do. -/
lemma stable_kept (b₀ : Board) : Stable free fun b c => b = c ∧ Board.Kept free b₀ b where
  core h := by rw [h.1]
  bus h := by rw [h.1]
  irq h := by rw [h.1]
  mapCore {f b c} hf h := by
    obtain ⟨rfl, hcache, henabled, hcurrent⟩ := h
    refine ⟨rfl, hcache, (hf.cacheEnabled _).trans henabled, ?_⟩
    rcases hf.current b.core with hnone | ⟨hsame, hspared⟩
    · exact .inl hnone
    · refine hcurrent.imp hsame.trans fun hkept => ⟨hsame.trans hkept.1, ?_⟩
      rcases hspared with hfree | ⟨hpc, hset⟩
      · exact .inl hfree
      · exact hkept.2.imp_right fun h₀ => ⟨hpc.trans h₀.1, hset.trans h₀.2⟩
  mapIrq f {b c} h := by
    obtain ⟨rfl, hkept⟩ := h
    exact ⟨rfl, hkept.cache, hkept.cacheEnabled, hkept.current⟩
  note n {b c} h := by
    obtain ⟨rfl, hkept⟩ := h
    exact ⟨rfl, hkept.cache, hkept.cacheEnabled, hkept.current⟩
  store width address value {b c} h := by
    obtain ⟨rfl, hcache, henabled, hcurrent⟩ := h
    exact ⟨rfl, hcache.trans (Bus.marked_store _ _ _ _), henabled, hcurrent⟩

/-- What stores keep true of the bus, every plain action keeps true. -/
lemma stable_bus {P : Bus → Prop}
    (hP : ∀ bus width address value, P bus → P (bus.store width address value)) :
    Stable free fun b c => b = c ∧ P b.bus where
  core h := by rw [h.1]
  bus h := by rw [h.1]
  irq h := by rw [h.1]
  mapCore _ h := by
    obtain ⟨rfl, h⟩ := h
    exact ⟨rfl, h⟩
  mapIrq f {b c} h := by
    obtain ⟨rfl, h⟩ := h
    exact ⟨rfl, h⟩
  note n {b c} h := by
    obtain ⟨rfl, h⟩ := h
    exact ⟨rfl, h⟩
  store width address value {b c} h := by
    obtain ⟨rfl, h⟩ := h
    exact ⟨rfl, hP _ _ _ _ h⟩

/-! ### The board after an action -/

/-- The board that an action leaves behind, whether it stops with a fault or not. -/
def Exec.after {α : Type} (x : Exec α) (b : Board) : Board :=
  match x b with
  | .ok _ b => b
  | .error _ b => b

/-- The fault with which an action stops, if it does. -/
def Exec.fault? {α : Type} (x : Exec α) (b : Board) : Option Fault :=
  match x b with
  | .ok _ _ => none
  | .error e _ => some e

namespace Exec

variable {α β : Type} {x : Exec α} {f : α → Exec β} {a : α} {e : Fault} {b b' : Board}

lemma after_of_ok (h : x b = .ok a b') : x.after b = b' := by
  rw [after, h]

lemma after_of_error (h : x b = .error e b') : x.after b = b' := by
  rw [after, h]

/-- Where an action is known to finish, it gives the board that it leaves behind. -/
lemma ok_of_finishes (h : x.run' b = some a) : x b = .ok a (x.after b) := by
  rcases hx : x b with ⟨a', b'⟩ | ⟨fault, b'⟩
  · rw [EStateM.run', EStateM.run, hx] at h
    rw [Option.some.inj h, after_of_ok hx]
  · rw [EStateM.run', EStateM.run, hx] at h
    exact nomatch h

/-- Where an action is known to stop, it gives its fault and the board that it leaves behind. -/
lemma error_of_stops (h : x.fault? b = some e) : x b = .error e (x.after b) := by
  rcases hx : x b with ⟨a, b'⟩ | ⟨fault, b'⟩
  · rw [fault?, hx] at h
    exact nomatch h
  · rw [fault?, hx] at h
    rw [Option.some.inj h, after_of_error hx]

lemma after_bind_of_ok (h : x b = .ok a b') : (x >>= f).after b = (f a).after b' := by
  rw [after, after, bind_of_ok h]

lemma after_bind_of_error (h : x b = .error e b') : (x >>= f).after b = b' :=
  after_of_error (bind_of_error h)

end Exec

/-- Actions that agree leave related boards. -/
lemma Agree.after {α : Type} {S : Board → Board → Prop} {x y : Exec α} {b c : Board}
    (h : Agree S (x b) (y c)) : S (x.after b) (y.after c) := by
  unfold Exec.after
  revert h
  generalize x b = r
  generalize y c = r'
  intro h
  cases h with
  | ok a h => exact h
  | error e h => exact h

namespace Exec.Plain

variable {α : Type} {x : Exec α}

/-- A plain action keeps what it is to keep. -/
lemma kept (hx : Plain free x) (b : Board) : Board.Kept free b (x.after b) :=
  (hx.respects (stable_kept b) b b ⟨rfl, .refl free b⟩).after.2

/-- A plain action keeps what stores keep true of the bus. -/
lemma keeps_bus (hx : Plain free x) {P : Bus → Prop}
    (hP : ∀ bus width address value, P bus → P (bus.store width address value)) {b : Board}
    (hb : P b.bus) : P (x.after b).bus :=
  (hx.respects (stable_bus hP) b b ⟨rfl, hb⟩).after.2

end Exec.Plain

end Armv4T
