import Mathlib
import Armv4T.Proofs.Step.Fetch

/-!
# Quiet actions

Around an instruction a step finds decodings and remembers them. That is quiet (`Exec.Quiet`): it
changes nothing that an instruction can see, and it cannot fail unless the bus is strict.
-/

namespace Armv4T

lemma Board.strict_of_bare {b c : Board} (h : c.bare = b.bare) : c.bus.strict = b.bus.strict := by
  have hbus : c.bus.bare.strict = b.bus.bare.strict := by rw [(bare_eq_iff.mp h).2.1]
  exact hbus

/-- What depends on the core but not on its decodings is the same if an instruction sees no
difference. -/
lemma Board.core_of_bare {b c : Board} (h : c.bare = b.bare) {α : Type} (f : Core → α)
    (hf : ∀ c, f c = f c.bare) : f c.core = f b.core := by
  rw [hf c.core, hf b.core, (bare_eq_iff.mp h).1]

lemma Board.regs_of_bare {b c : Board} (h : c.bare = b.bare) : c.core.regs = b.core.regs :=
  core_of_bare h (·.regs) fun _ => rfl

lemma Bus.fault?_of_lenient {bus : Bus} (h : bus.strict = false) (address : Word) :
    bus.fault? address = none := by
  rw [fault?, h]
  rfl

namespace Exec

variable {α β : Type}

/-- An action changes at most what is remembered of decodings and the journal, whether it finishes
or not; and on a bus that is not strict it finishes. -/
structure Quiet (x : Exec α) : Prop where
  unchanged : ∀ b : Board, (x.after b).bare = b.bare
  finishes : ∀ b : Board, b.bus.strict = false → ∃ a b', x b = .ok a b'

namespace Quiet

variable {x y : Exec α}

lemma bare (hx : Quiet x) {b b' : Board} {a : α} (hok : x b = .ok a b') : b'.bare = b.bare := by
  rw [← after_of_ok hok]
  exact hx.unchanged b

lemma exists_ok (hx : Quiet x) {b : Board} (hb : b.bus.strict = false) :
    ∃ a b', x b = .ok a b' ∧ b'.bare = b.bare := by
  obtain ⟨a, b', hok⟩ := hx.finishes b hb
  exact ⟨a, b', hok, hx.bare hok⟩

/-- An action that cannot fail and changes nothing that an instruction can see. -/
lemma of_apply {g : Board → α} {f : Board → Board} (hx : ∀ b, x b = .ok (g b) (f b))
    (h : ∀ b, (f b).bare = b.bare) : Quiet x where
  unchanged b := by
    rw [after_of_ok (hx b)]
    exact h b
  finishes b _ := ⟨g b, f b, hx b⟩

lemma pure (a : α) : Quiet (Pure.pure a) := of_apply (fun _ => rfl) fun _ => rfl

lemma core (f : Core → α) : Quiet (Exec.core f) := of_apply (fun _ => rfl) fun _ => rfl

lemma bus (f : Bus → α) : Quiet (Exec.bus f) := of_apply (fun _ => rfl) fun _ => rfl

lemma note (n : Notice) : Quiet (update (·.note n)) :=
  of_apply (g := fun _ => ()) (fun _ => rfl) fun _ => rfl

lemma load (kind : LoadKind) (address : Word) : Quiet (Exec.load kind address) where
  unchanged := by
    intro b
    unfold after Exec.load
    rcases b.bus.fault? address with _ | fault
    · cases b.bus.loadNotice? address <;> rfl
    · rfl
  finishes := by
    intro b hb
    unfold Exec.load
    rw [Bus.fault?_of_lenient hb]
    exact ⟨_, _, rfl⟩

lemma bind {f : α → Exec β} (hx : Quiet x) (hf : ∀ a, Quiet (f a)) : Quiet (x >>= f) where
  unchanged := by
    intro b
    have hfirst := hx.unchanged b
    rcases hxb : x b with ⟨a, b'⟩ | ⟨fault, b'⟩
    · rw [after_of_ok hxb] at hfirst
      rw [after_bind_of_ok hxb, (hf a).unchanged b', hfirst]
    · rw [after_of_error hxb] at hfirst
      rw [after_bind_of_error hxb, hfirst]
  finishes := by
    intro b hb
    obtain ⟨a, b', hok, hbare⟩ := hx.exists_ok hb
    obtain ⟨c, b'', hok'⟩ := (hf a).finishes b' ((Board.strict_of_bare hbare).trans hb)
    exact ⟨c, b'', (bind_of_ok hok).trans hok'⟩

lemma ite {p : Prop} [Decidable p] (hx : Quiet x) (hy : Quiet y) :
    Quiet (if p then x else y) := by
  split
  · exact hx
  · exact hy

/-- One of two things done, and something after it. -/
lemma iteThen {p : Prop} [Decidable p] {k : α → Exec β} (hx : Quiet x) (hy : Quiet y)
    (hk : ∀ a, Quiet (k a)) : Quiet (if p then x >>= k else y >>= k) :=
  ite (bind hx hk) (bind hy hk)

end Quiet

lemma quiet_setCurrent (current : Option HandleId) : Quiet (setCurrent current) :=
  .of_apply (g := fun _ => ()) (f := fun b => b.mapCore ({ · with current })) (fun _ => rfl)
    fun _ => rfl

lemma quiet_lookup (address : Word) (set : InstrSet) : Quiet (lookup address set) :=
  .of_apply (g := fun b => (b.bus.cache.lookup address set).1)
    (f := fun b => b.remember (b.bus.cache.lookup address set).2) (fun _ => rfl) fun _ => rfl

lemma quiet_insert (h : Handle) : Quiet (insert h) :=
  .of_apply (g := fun b => (b.bus.cache.insert h).1)
    (f := fun b => b.remember (b.bus.cache.insert h).2) (fun _ => rfl) fun _ => rfl

lemma quiet_link (id next : HandleId) : Quiet (link id next) :=
  .of_apply (g := fun _ => ()) (f := fun b => b.remember (b.bus.cache.link id next))
    (fun _ => rfl) fun _ => rfl

lemma quiet_fetch (set : InstrSet) (address : Word) : Quiet (fetch set address) := by
  have hopcode : Quiet (fetchOpcode set address) := by
    cases set with
    | arm => exact .load _ _
    | thumb => exact .bind (.load _ _) fun _ => .pure _
  exact .bind hopcode fun opcode => .ite (.bind (.note _) fun _ => .pure _) (.pure _)

lemma quiet_loadHandle (address : Word) : Quiet (loadHandle address) := by
  refine .bind (.core _) fun found => .iteThen (quiet_lookup _ _) (.pure _) fun hit => ?_
  cases hit with
  | some found => exact .pure _
  | none => exact .bind (quiet_fetch _ _) fun h => .bind (quiet_insert h) fun _ => .pure _

/-- Finding the current instruction is quiet. -/
lemma quiet_currentHandle : Quiet currentHandle := by
  refine .bind (.core _) fun current => .bind (.bus _) fun found => ?_
  cases found with
  | some h => exact .pure _
  | none =>
    exact .bind (.core _) fun _ => .bind (quiet_loadHandle _) fun _ =>
      .bind (quiet_setCurrent _) fun _ => .pure _

/-- Looking for the successor of an instruction is quiet. -/
lemma quiet_followCurrent (next : Option HandleId) : Quiet (followCurrent next) := by
  refine .bind (.core _) fun current => ?_
  cases current with
  | none => exact quiet_setCurrent none
  | some id =>
    refine .bind (.bus _) fun valid => .ite (quiet_setCurrent next) ?_
    exact .bind (.core _) fun _ => .bind (quiet_loadHandle _) fun _ =>
      .bind (quiet_link _ _) fun _ => quiet_setCurrent _

end Exec

end Armv4T
