import Mathlib
import Armv4T.Bios
import Armv4T.Proofs.Registers.Physical

/-!
# Plain actions

An instruction is made of actions that read and change the core, read the bus, load and store, and
touch the interrupt lines. None of them looks at the decoded instructions that are kept: not at the
cache, not at the reference to the current decoding, and not at the switch that enables the cache.
An action made of such actions is called plain (`Exec.Plain`).

What is true of the primitive actions is true of the plain ones. A relation between boards that
every primitive action respects (`Stable`) is respected by every plain action
(`Exec.Plain.respects`): related boards give the same result and are related afterwards. With the
relation "equal but for the cache" this says that plain actions do not depend on the cache, and with
a relation "equal, and an invariant holds" it says that they keep the invariant.

The parameter `free` says whether the program counter and the instruction set may change. Where they
may not, they change at most together with the loss of the current decoding, as in an exception.
-/

namespace Armv4T

/-! ### What an instruction sees -/

/-- The core without what it remembers of decodings. -/
def Core.bare (c : Core) : Core := { c with current := none, cacheEnabled := true }

/-- The program counter stays when another register is written. -/
lemma Core.pc_setReg {r : Reg} (h : r ≠ .pc) (c : Core) (value : Word) :
    (c.setReg r value).pc = c.pc := by
  have hval : r.val ≠ Reg.pc.val := fun e => h (Fin.ext e)
  simp [pc, reg, setReg, Registers.read, Registers.write, Vector.getElem_set_ne _ _ hval]

/-- Testing a condition gives whether the flags pass it, and changes nothing but its record. -/
lemma Core.exists_testCondition_eq (c : Core) (cond : Condition) :
    ∃ passed, c.testCondition cond =
      (cond.passes c.regs.flags, { c with conditionPassed := passed }) := by
  unfold testCondition
  split
  · rename_i hal
    exact ⟨c.conditionPassed, by rw [hal]; rfl⟩
  · exact ⟨_, rfl⟩

/-- Whether a condition holds is what its test gives. -/
lemma Core.testCondition_passed (c : Core) (cond : Condition) :
    (c.testCondition cond).1 = cond.passes c.regs.flags := by
  obtain ⟨passed, h⟩ := c.exists_testCondition_eq cond
  rw [h]

lemma Core.testCondition_regs (c : Core) (cond : Condition) :
    (c.testCondition cond).2.regs = c.regs := by
  obtain ⟨passed, h⟩ := c.exists_testCondition_eq cond
  rw [h]

/-- The bus without its cache. -/
def Bus.bare (b : Bus) : Bus := { b with cache := .empty }

/-- A change of the core as an instruction may make it: it does not depend on what is remembered of
decodings, and it keeps that or forgets the current decoding. Unless it is free, it leaves the
program counter and the instruction set alone where it keeps the current decoding. -/
structure Core.Action (free : Bool) (f : Core → Core) : Prop where
  bare : ∀ c, (f c).bare = (f c.bare).bare
  cacheEnabled : ∀ c, (f c).cacheEnabled = c.cacheEnabled
  current : ∀ c, (f c).current = none ∨ (f c).current = c.current ∧
    (free = true ∨ (f c).pc = c.pc ∧ (f c).regs.set = c.regs.set)

/-- Two results are equal in what they give, and leave related boards. -/
inductive Agree (S : Board → Board → Prop) {α : Type} :
    EStateM.Result Fault Board α → EStateM.Result Fault Board α → Prop
  | ok (a : α) {b c : Board} (h : S b c) : Agree S (.ok a b) (.ok a c)
  | error (e : Fault) {b c : Board} (h : S b c) : Agree S (.error e b) (.error e c)

/-- A relation between boards that the primitive actions respect. -/
structure Stable (free : Bool) (S : Board → Board → Prop) : Prop where
  core : ∀ {b c}, S b c → b.core.bare = c.core.bare
  bus : ∀ {b c}, S b c → b.bus.bare = c.bus.bare
  irq : ∀ {b c}, S b c → b.irq = c.irq
  mapCore : ∀ {f b c}, Core.Action free f → S b c → S (b.mapCore f) (c.mapCore f)
  mapIrq : ∀ f {b c}, S b c → S (b.mapIrq f) (c.mapIrq f)
  note : ∀ n {b c}, S b c → S (b.note n) (c.note n)
  store : ∀ width address value {b c}, S b c →
    S (b.mapBus (·.store width address value)) (c.mapBus (·.store width address value))

namespace Stable

variable {free : Bool} {S : Board → Board → Prop}

/-- What depends on the bus but not on its cache is the same on related boards. -/
lemma bus_eq {α : Type} (h : Stable free S) {b c : Board} (hbc : S b c) (f : Bus → α)
    (hf : ∀ b, f b = f b.bare) : f b.bus = f c.bus := by
  rw [hf b.bus, hf c.bus, h.bus hbc]

/-- What depends on the core but not on its decodings is the same on related boards. -/
lemma core_eq {α : Type} (h : Stable free S) {b c : Board} (hbc : S b c) (f : Core → α)
    (hf : ∀ c, f c = f c.bare) : f b.core = f c.core := by
  rw [hf b.core, hf c.core, h.core hbc]

lemma note? (h : Stable free S) (n : Option Notice) {b c : Board} (hbc : S b c) :
    S (b.note? n) (c.note? n) := by
  cases n with
  | none => exact hbc
  | some n => exact h.note n hbc

end Stable

namespace Exec

/-- On related boards, two actions give the same result and leave related boards. -/
def Matches {α : Type} (S : Board → Board → Prop) (x y : Exec α) : Prop :=
  ∀ b c, S b c → Agree S (x b) (y c)

/-- Related boards give the same result and are related afterwards. -/
def Respects {α : Type} (S : Board → Board → Prop) (x : Exec α) : Prop := Matches S x x

/-- An action made of primitive actions. -/
inductive Plain (free : Bool) : {α : Type} → Exec α → Prop
  | pure {α : Type} (a : α) : Plain free (pure a)
  | throw {α : Type} (e : Fault) : Plain free (throw e : Exec α)
  | bind {α β : Type} {x : Exec α} {f : α → Exec β} (hx : Plain free x)
      (hf : ∀ a, Plain free (f a)) : Plain free (x >>= f)
  | core {α : Type} (f : Core → α) (h : ∀ c, f c = f c.bare) : Plain free (core f)
  | bus {α : Type} (f : Bus → α) (h : ∀ b, f b = f b.bare) : Plain free (bus f)
  | irq {α : Type} {k : InterruptLines → Exec α} (hk : ∀ l, Plain free (k l)) :
    Plain free (fun b => k b.irq b)
  | onCore {f : Core → Core} (h : Core.Action free f) : Plain free (onCore f)
  | testIrq : Plain free (update Board.testIrq)
  | note (n : Notice) : Plain free (update (·.note n))
  | load (kind : LoadKind) (address : Word) : Plain free (load kind address)
  | store (width : StoreWidth) (address value : Word) : Plain free (store width address value)

/-! ### Running actions in a row -/

section

variable {α β : Type} {x : Exec α} {f : α → Exec β} {a : α} {e : Fault} {b b' : Board}

lemma bind_of_ok (h : x b = .ok a b') : (x >>= f) b = f a b' := by
  show EStateM.bind x f b = f a b'
  rw [EStateM.bind, h]

lemma bind_of_error (h : x b = .error e b') : (x >>= f) b = .error e b' := by
  show EStateM.bind x f b = .error e b'
  rw [EStateM.bind, h]

/-- Two actions in a row finish if the first one does and then the second one. -/
lemma exists_of_bind_ok {c : β} (h : (x >>= f) b = .ok c b') :
    ∃ a b₁, x b = .ok a b₁ ∧ f a b₁ = .ok c b' := by
  rcases hx : x b with ⟨a, b₁⟩ | ⟨e, b₁⟩
  · rw [bind_of_ok hx] at h
    exact ⟨a, b₁, rfl, h⟩
  · rw [bind_of_error hx] at h
    exact nomatch h

/-- Two actions in a row stop if the first one does, or if it finishes and the second one stops. -/
lemma cases_of_bind_error (h : (x >>= f) b = .error e b') :
    x b = .error e b' ∨ ∃ a b₁, x b = .ok a b₁ ∧ f a b₁ = .error e b' := by
  rcases hx : x b with ⟨a, b₁⟩ | ⟨e', b₁⟩
  · rw [bind_of_ok hx] at h
    exact .inr ⟨a, b₁, rfl, h⟩
  · rw [bind_of_error hx] at h
    obtain ⟨rfl, rfl⟩ := EStateM.Result.error.inj h
    exact .inl rfl

end

/-! ### Plain actions respect stable relations -/

/-- Actions that agree go on to agree if what follows them matches. -/
lemma agree_bind {α β : Type} {S : Board → Board → Prop} {x y : Exec α} {f g : α → Exec β}
    {b c : Board} (hagree : Agree S (x b) (y c)) (hf : ∀ a, Matches S (f a) (g a)) :
    Agree S ((x >>= f) b) ((y >>= g) c) := by
  show Agree S (EStateM.bind x f b) (EStateM.bind y g c)
  unfold EStateM.bind
  revert hagree
  generalize x b = r
  generalize y c = r'
  intro hagree
  cases hagree with
  | ok a h => exact hf a _ _ h
  | error e h => exact .error e h

lemma matches_bind {α β : Type} {S : Board → Board → Prop} {x y : Exec α} {f g : α → Exec β}
    (hx : Matches S x y) (hf : ∀ a, Matches S (f a) (g a)) : Matches S (x >>= f) (y >>= g) :=
  fun b c h => agree_bind (hx b c h) hf

section

variable {free : Bool} {S : Board → Board → Prop}

lemma respects_load (h : Stable free S) (kind : LoadKind) (address : Word) :
    Respects S (load kind address) := by
  intro b c hbc
  have hfault := h.bus_eq hbc (·.fault? address) fun _ => rfl
  have hvalue := h.bus_eq hbc (·.load kind address) fun _ => rfl
  have hnotice := h.bus_eq hbc (·.loadNotice? address) fun _ => rfl
  unfold load
  rw [hfault, hvalue, hnotice]
  rcases c.bus.fault? address with _ | fault
  · exact .ok _ (h.note? _ hbc)
  · exact .error fault hbc

lemma respects_store (h : Stable free S) (width : StoreWidth) (address value : Word) :
    Respects S (store width address value) := by
  intro b c hbc
  have hfault := h.bus_eq hbc (·.fault? (width.align address)) fun _ => rfl
  have hnotice := h.bus_eq hbc (·.storeNotice? (width.align address)) fun _ => rfl
  unfold store
  rw [hfault, hnotice]
  rcases c.bus.fault? (width.align address) with _ | fault
  · exact .ok _ (h.note? _ (h.store width address value hbc))
  · exact .error fault hbc

/-- A plain action respects every relation that the primitive actions respect. -/
theorem Plain.respects (h : Stable free S) {α : Type} {x : Exec α} (hx : Plain free x) :
    Respects S x := by
  induction hx with
  | pure a => exact fun b c hbc => .ok a hbc
  | throw e => exact fun b c hbc => .error e hbc
  | bind _ _ ihx ihf => exact matches_bind ihx ihf
  | core f hf =>
    intro b c hbc
    show Agree S (.ok (f b.core) b) (.ok (f c.core) c)
    rw [h.core_eq hbc f hf]
    exact .ok _ hbc
  | bus f hf =>
    intro b c hbc
    show Agree S (.ok (f b.bus) b) (.ok (f c.bus) c)
    rw [h.bus_eq hbc f hf]
    exact .ok _ hbc
  | @irq _ k _ ihk =>
    intro b c hbc
    show Agree S (k b.irq b) (k c.irq c)
    rw [h.irq hbc]
    exact ihk c.irq b c hbc
  | onCore hf => exact fun b c hbc => .ok () (h.mapCore hf hbc)
  | testIrq =>
    intro b c hbc
    have hdisabled := h.core_eq hbc (·.regs.flags.i) fun _ => rfl
    have htest : Board.testIrq b = b.mapIrq (·.test c.core.regs.flags.i) := by
      rw [← hdisabled]
      rfl
    refine .ok () ?_
    rw [htest]
    exact h.mapIrq _ hbc
  | note n => exact fun b c hbc => .ok () (h.note n hbc)
  | load kind address => exact respects_load h kind address
  | store width address value => exact respects_store h width address value

end

lemma Plain.ite {free : Bool} {α : Type} {p : Prop} [Decidable p] {x y : Exec α}
    (hx : Plain free x) (hy : Plain free y) : Plain free (if p then x else y) := by
  split
  · exact hx
  · exact hy

end Exec

end Armv4T
