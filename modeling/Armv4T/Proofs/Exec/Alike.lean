import Mathlib
import Armv4T.Arm.Exec
import Armv4T.Proofs.Exec.Plain

/-!
# Boards that differ in the program counter

The two instruction sets keep the program counter at different distances and spend different
cycles. Two boards are alike (`Board.Alike`) if they are equal in everything else that a program
can see: the other registers, the flags, the mode and its hidden registers, the memory and the
interrupt lines. What only counts cycles keeps a board alike to itself (`Exec.Reads`), and an
instruction that only computes is a function of the registers (`Exec.Computes`), so that comparing
two of them is comparing two functions.
-/

namespace Armv4T

/-- Two register files are equal but for the program counter and the instruction set. -/
structure Registers.Alike (r s : Registers) : Prop where
  read : ∀ i, i ≠ .pc → r.read i = s.read i
  flags : r.flags = s.flags
  mode : r.mode = s.mode
  spsr : r.spsr = s.spsr
  banks : r.banks = s.banks
  high : r.high = s.high
  fiqHigh : r.fiqHigh = s.fiqHigh

/-- Two boards are equal but for the program counter, the instruction set, cycles, and what the core
remembers of the shifter, of conditions and of decodings. -/
structure Board.Alike (b c : Board) : Prop where
  regs : b.core.regs.Alike c.core.regs
  halted : b.core.halted = c.core.halted
  bus : b.bus = c.bus
  irq : b.irq = c.irq
  journal : b.journal = c.journal

namespace Registers

lemma read_write_self (r : Registers) (i : Reg) (value : Word) :
    (r.write i value).read i = value := by
  simp [read, write]

lemma read_write_of_ne {i j : Reg} (h : j ≠ i) (r : Registers) (value : Word) :
    (r.write i value).read j = r.read j := by
  have hval : i.val ≠ j.val := fun e => h (Fin.ext e.symm)
  simp [read, write, Vector.getElem_set_ne _ _ hval]

namespace Alike

lemma refl (r : Registers) : r.Alike r := ⟨fun _ _ => rfl, rfl, rfl, rfl, rfl, rfl, rfl⟩

variable {r s : Registers}

lemma write (h : r.Alike s) (i : Reg) (value : Word) : (r.write i value).Alike (s.write i value) := by
  refine ⟨fun j hj => ?_, h.flags, h.mode, h.spsr, h.banks, h.high, h.fiqHigh⟩
  by_cases hji : j = i
  · subst hji
    rw [read_write_self, read_write_self]
  · rw [read_write_of_ne hji, read_write_of_ne hji, h.read j hj]

lemma withFlags (h : r.Alike s) (flags : Flags) : { r with flags }.Alike { s with flags } :=
  ⟨h.read, rfl, h.mode, h.spsr, h.banks, h.high, h.fiqHigh⟩

end Alike

end Registers

namespace Board.Alike

variable {b c d : Board}

lemma refl (b : Board) : b.Alike b := ⟨.refl _, rfl, rfl, rfl, rfl⟩

lemma symm (h : b.Alike c) : c.Alike b :=
  ⟨⟨fun i hi => (h.regs.read i hi).symm, h.regs.flags.symm, h.regs.mode.symm, h.regs.spsr.symm,
    h.regs.banks.symm, h.regs.high.symm, h.regs.fiqHigh.symm⟩,
    h.halted.symm, h.bus.symm, h.irq.symm, h.journal.symm⟩

lemma trans (h : b.Alike c) (h' : c.Alike d) : b.Alike d :=
  ⟨⟨fun i hi => (h.regs.read i hi).trans (h'.regs.read i hi), h.regs.flags.trans h'.regs.flags,
    h.regs.mode.trans h'.regs.mode, h.regs.spsr.trans h'.regs.spsr,
    h.regs.banks.trans h'.regs.banks, h.regs.high.trans h'.regs.high,
    h.regs.fiqHigh.trans h'.regs.fiqHigh⟩,
    h.halted.trans h'.halted, h.bus.trans h'.bus, h.irq.trans h'.irq,
    h.journal.trans h'.journal⟩

/-- A change of the core that leaves the registers and the halt leaves the board alike. -/
lemma mapCore_self {f : Core → Core} (hregs : (f b.core).regs = b.core.regs)
    (hhalted : (f b.core).halted = b.core.halted) : (b.mapCore f).Alike b := by
  refine ⟨?_, hhalted, rfl, rfl, rfl⟩
  show (f b.core).regs.Alike b.core.regs
  rw [hregs]
  exact .refl _

/-- Two changes of the core that give alike registers and leave the halt. -/
lemma mapCore (h : b.Alike c) {f g : Core → Core} (hregs : (f b.core).regs.Alike (g c.core).regs)
    (hf : (f b.core).halted = b.core.halted) (hg : (g c.core).halted = c.core.halted) :
    (b.mapCore f).Alike (c.mapCore g) :=
  ⟨hregs, hf.trans (h.halted.trans hg.symm), h.bus, h.irq, h.journal⟩

lemma note? (h : b.Alike c) (n : Option Notice) : (b.note? n).Alike (c.note? n) := by
  cases n with
  | none => exact h
  | some n => exact ⟨h.regs, h.halted, h.bus, h.irq, congrArg (·.push n) h.journal⟩

lemma store (h : b.Alike c) (width : StoreWidth) (address value : Word) :
    (b.mapBus (·.store width address value)).Alike (c.mapBus (·.store width address value)) :=
  ⟨h.regs, h.halted, congrArg (·.store width address value) h.bus, h.irq, h.journal⟩

end Board.Alike

namespace Exec

variable {α β : Type}

/-- An action that only reads: it gives a value of the core and leaves the board alike. -/
def Reads (x : Exec α) (f : Core → α) : Prop := ∀ b, ∃ b', x b = .ok (f b.core) b' ∧ b'.Alike b

/-- An action that only computes: it changes the registers as a function of the core. -/
def Computes (x : Exec Unit) (f : Core → Registers) : Prop :=
  ∀ b, ∃ c, x b = .ok () (b.mapCore fun _ => c) ∧ c.regs = f b.core ∧ c.halted = b.core.halted

/-! ### Actions that only read -/

lemma reads_core (f : Core → α) : Reads (core f) f := fun b => ⟨b, rfl, .refl b⟩

lemma reads_reg (r : Reg) : Reads (reg r) (·.reg r) := reads_core _

lemma reads_charge (cycles : Word) : Reads (charge cycles) fun _ => () :=
  fun b => ⟨_, rfl, Board.Alike.mapCore_self (b := b) rfl rfl⟩

lemma reads_chargeBus (f : Bus → Word) : Reads (chargeBus f) fun _ => () :=
  fun b => ⟨_, rfl, Board.Alike.mapCore_self (b := b) rfl rfl⟩

lemma reads_prefetch (set : InstrSet) : Reads (prefetch set) fun _ => () :=
  fun b => ⟨_, rfl, Board.Alike.mapCore_self (b := b) rfl rfl⟩

/-! ### Putting matching actions together -/

variable {x y z : Exec α} {k k' : α → Exec β} {f g : Core → α}

/-- Reading the same value on both sides and going on with it. -/
lemma matches_reads (hx : Reads x f) (hy : Reads y g)
    (hfg : ∀ b c : Board, b.Alike c → f b.core = g c.core)
    (hk : ∀ a, Matches Board.Alike (k a) (k' a)) :
    Matches Board.Alike (x >>= k) (y >>= k') := by
  refine matches_bind (fun b c h => ?_) hk
  obtain ⟨b', hb, hb'⟩ := hx b
  obtain ⟨c', hc, hc'⟩ := hy c
  rw [hb, hc, hfg b c h]
  exact .ok _ (hb'.trans (h.trans hc'.symm))

/-- What only reads on the left may be left out. -/
lemma matches_skip_left {x : Exec Unit} {y z : Exec β} (hx : Reads x fun _ => ())
    (h : Matches Board.Alike y z) : Matches Board.Alike (x >>= fun _ => y) z := by
  intro b c hbc
  obtain ⟨b', hb, hb'⟩ := hx b
  have hskip : (x >>= fun _ => y) b = y b' := by
    show EStateM.bind x (fun _ => y) b = y b'
    rw [EStateM.bind, hb]
  rw [hskip]
  exact h b' c (hb'.trans hbc)

/-- What only reads on the right may be left out. -/
lemma matches_skip_right {x : Exec Unit} {y z : Exec β} (hx : Reads x fun _ => ())
    (h : Matches Board.Alike z y) : Matches Board.Alike z (x >>= fun _ => y) := by
  intro b c hbc
  obtain ⟨c', hc, hc'⟩ := hx c
  have hskip : (x >>= fun _ => y) c = y c' := by
    show EStateM.bind x (fun _ => y) c = y c'
    rw [EStateM.bind, hc]
  rw [hskip]
  exact h b c' (hbc.trans hc'.symm)

/-- Two actions that only read do the same. -/
lemma matches_unit {x y : Exec Unit} (hx : Reads x fun _ => ()) (hy : Reads y fun _ => ()) :
    Matches Board.Alike x y := by
  intro b c hbc
  obtain ⟨b', hb, hb'⟩ := hx b
  obtain ⟨c', hc, hc'⟩ := hy c
  rw [hb, hc]
  exact .ok () (hb'.trans (hbc.trans hc'.symm))

/-! ### Registers and memory -/

lemma matches_setReg (r : Reg) (value : Word) :
    Matches Board.Alike (setReg r value) (setReg r value) :=
  fun _ _ h => .ok () (h.mapCore (h.regs.write r value) rfl rfl)

lemma matches_load (kind : LoadKind) (address : Word) :
    Matches Board.Alike (load kind address) (load kind address) := by
  intro b c h
  unfold load
  rw [h.bus]
  rcases c.bus.fault? address with _ | fault
  · exact .ok _ (h.note? _)
  · exact .error fault h

lemma matches_store (width : StoreWidth) (address value : Word) :
    Matches Board.Alike (store width address value) (store width address value) := by
  intro b c h
  unfold store
  rw [h.bus]
  rcases c.bus.fault? (width.align address) with _ | fault
  · exact .ok _ ((h.store width address value).note? _)
  · exact .error fault h

/-! ### Actions that only compute -/

lemma matches_computes {x y : Exec Unit} {f g : Core → Registers} (hx : Computes x f)
    (hy : Computes y g) (hfg : ∀ b c : Board, b.Alike c → (f b.core).Alike (g c.core)) :
    Matches Board.Alike x y := by
  intro b c h
  obtain ⟨cb, hb, hregs, hhalted⟩ := hx b
  obtain ⟨cc, hc, hregs', hhalted'⟩ := hy c
  rw [hb, hc]
  refine .ok () (h.mapCore ?_ hhalted hhalted')
  rw [hregs, hregs']
  exact hfg b c h

end Exec

end Armv4T
