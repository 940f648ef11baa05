import Mathlib
import Armv4T.Proofs.Decode.LongCall
import Armv4T.Proofs.Exec.Transfers
import Armv4T.Proofs.Machine.Commands
import Armv4T.Proofs.Step.Mirror

/-!
# Long calls return

A Thumb call takes two instructions. The first one puts a base into LR, the second one adds the rest
of the distance to it, jumps there, and leaves the return address in LR with bit 0 set, which is the
address that a branch with exchange goes back to in Thumb state (`Exec.step_longCall`).

All addresses are even, so that rounding them down changes nothing and setting bit 0 adds one.
-/

namespace Armv4T

/-! ### Even addresses -/

namespace Word

variable {a : Word}

lemma alignDown_two (h : a.toNat % 2 = 0) : alignDown a 2 = a := by
  have htwo : (2 : Word).toNat = 2 ^ 1 := rfl
  apply UInt32.toNat_inj.mp
  rw [toNat_alignDown htwo]
  omega

lemma or_one (h : a.toNat % 2 = 0) : a ||| 1 = a + 1 := by
  have hone : (1 : Word).toNat = 1 := rfl
  have hlt := a.toNat_lt_size
  have hsize : UInt32.size = 2 ^ 32 := rfl
  have hdouble : a.toNat = 2 ^ 1 * (a.toNat / 2) := by omega
  have hor : a.toNat ||| 1 = a.toNat + 1 := by
    rw [hdouble]
    exact (Nat.two_pow_add_eq_or_of_lt (by decide) _).symm
  apply UInt32.toNat_inj.mp
  rw [UInt32.toNat_or, UInt32.toNat_add, hone, hor, Nat.mod_eq_of_lt (by omega)]

/-- Setting bit 0 of an even address is undone by rounding down. -/
lemma alignDown_or_one (h : a.toNat % 2 = 0) : alignDown (a ||| 1) 2 = a := by
  have htwo : (2 : Word).toNat = 2 ^ 1 := rfl
  have hone : (1 : Word).toNat = 1 := rfl
  have hlt := a.toNat_lt_size
  have hsize : UInt32.size = 2 ^ 32 := rfl
  apply UInt32.toNat_inj.mp
  rw [toNat_alignDown htwo, or_one h, UInt32.toNat_add, hone, Nat.mod_eq_of_lt (by omega)]
  omega

lemma bit_zero_or_one (a : Word) : (a ||| 1).bit 0 = true := by
  have hone : (1 : Word).bit 0 = true := rfl
  rw [bit_or _ _ (by decide), hone, Bool.or_true]

/-- A distance in halfwords leads from even addresses to even addresses. -/
lemma even_add (h : a.toNat % 2 = 0) (n : ℤ) :
    (a + 4 + UInt32.ofInt (2 * n)).toNat % 2 = 0 := by
  have hfour : (4 : Word).toNat = 4 := rfl
  have hn : (UInt32.ofInt (2 * n)).toNat % 2 = 0 := by
    rw [UInt32.ofInt, UInt32.toNat_ofNat']
    omega
  rw [UInt32.toNat_add, UInt32.toNat_add, hfour]
  omega

end Word

/-! ### The instructions -/

/-- A running board in Thumb state on a bus that is not strict, without an armed interrupt. -/
structure Board.RunsThumb (b : Board) : Prop where
  halted : b.core.halted = false
  set : b.core.regs.set = .thumb
  strict : b.bus.strict = false
  idle : b.irq.armed = false

namespace Exec

variable {b : Board} {r : Registers} {offset : Word}

lemma leaves_callHigh (h : b.core.regs = r) (offset address : Word) :
    Leaves (Thumb.exec (.callHigh offset) address) b (r.write .lr (r.read .pc + offset)) := by
  obtain rfl := h
  exact ⟨_, rfl, rfl, rfl, rfl⟩

lemma leaves_callLow (h : b.core.regs = r) (offset address : Word) :
    Leaves (Thumb.exec (.callLow offset) address) b
      ((r.write .pc (r.read .lr + offset)).write .lr (r.read .pc - 1)) := by
  obtain rfl := h
  exact ⟨_, rfl, rfl, rfl, rfl⟩

lemma leaves_branchExchange_lr (h : b.core.regs = r) (address : Word) :
    Leaves (Thumb.exec (.branchExchange .lr) address) b
      (({ r with set := .ofBit ((r.read .lr).bit 0) } : Registers).write .pc
        (Word.alignDown (r.read .lr) 2)) := by
  obtain rfl := h
  exact ⟨_, rfl, rfl, rfl, rfl⟩

/-- While an instruction of Thumb state executes, the program counter is four bytes past it. -/
lemma pc_add_width_of_thumb (hset : b.core.regs.set = .thumb) :
    b.core.pc + b.core.width = b.core.nextAddress + 4 := by
  have hwidth : b.core.width = 2 := by rw [Core.width, hset]; rfl
  have hfour : (4 : Word) = 2 + 2 := rfl
  rw [Core.nextAddress, hwidth, hfour, ← add_assoc, UInt32.sub_add_cancel]

lemma nextAddress_of_thumb (hset : r.set = .thumb) {target : Word}
    (h : b.core.regs = r.write .pc (target + 2)) : b.core.nextAddress = target := by
  have hwidth : (r.write .pc (target + 2)).set.width = 2 := by
    show r.set.width = 2
    rw [hset]
    rfl
  rw [nextAddress_of_regs h, Registers.read_pc_write_pc, hwidth, UInt32.add_sub_cancel]

lemma decode_of_thumb (hset : b.core.regs.set = .thumb) {i : Thumb.Instr}
    (hop : Thumb.decode (b.bus.opcodeAt .thumb b.core.nextAddress) = i) :
    .decode b.core.regs.set (b.bus.opcodeAt b.core.regs.set b.core.nextAddress) =
      Instruction.thumb i := by
  rw [hset, ← hop]
  rfl

/-- The first half of a call, right after the cache was emptied. -/
lemma leadsTo_callHigh (hb : b.RunsThumb) (hdead : ∀ id, b.bus.cache.get? id = none)
    (hop : Thumb.decode (b.bus.opcodeAt .thumb b.core.nextAddress) = .callHigh offset) :
    ∃ b', LeadsTo b ((b.core.regs.write .lr (b.core.nextAddress + 4 + offset)).write .pc
      (b.core.nextAddress + 4)) b' := by
  refine leadsTo_of_dead hdead hb.halted hb.strict hb.idle (decode_of_thumb hb.set hop) rfl ?_
  intro h b₁ hdecoded hregs
  rw [pc_add_width_of_thumb hb.set] at hregs
  have hleaves := leaves_callHigh hregs offset h.address
  rw [Registers.read_pc_write_pc, Registers.write_comm (by decide)] at hleaves
  unfold instruction
  rw [hdecoded]
  exact hleaves

/-- The second half of a call jumps to LR and its distance. -/
lemma leadsTo_callLow (hb : b.RunsThumb) (hp : b.Poised)
    (hop : Thumb.decode (b.bus.opcodeAt .thumb b.core.nextAddress) = .callLow offset) :
    ∃ b', LeadsTo b ((b.core.regs.write .lr (b.core.nextAddress + 3)).write .pc
      (Word.alignDown (b.core.reg .lr + offset) 2 + 2)) b' := by
  let r := (b.core.regs.write .lr (b.core.nextAddress + 3)).write .pc (b.core.reg .lr + offset)
  have hset : r.set.width = 2 := by
    show b.core.regs.set.width = 2
    rw [hb.set]
    rfl
  have hreturn : b.core.nextAddress + 4 - 1 = b.core.nextAddress + 3 := add_sub_assoc _ 4 1
  have hjump := leadsTo_of_jump hp hb.halted hb.strict hb.idle (decode_of_thumb hb.set hop) rfl rfl
    (r := r) fun h b₁ hdecoded hregs => by
      rw [pc_add_width_of_thumb hb.set] at hregs
      have hleaves := leaves_callLow hregs offset h.address
      rw [Registers.read_pc_write_pc, hreturn, Registers.write_write,
        Registers.write_comm (by decide), Registers.read_write_pc _ (by decide)] at hleaves
      unfold instruction
      rw [hdecoded]
      exact hleaves
  rwa [hset, Registers.read_pc_write_pc, Registers.write_write] at hjump

/-- A branch with exchange to the return address of a call. -/
lemma leadsTo_branchExchange_lr {a : Word} (hb : b.RunsThumb) (hp : b.Poised)
    (heven : a.toNat % 2 = 0) (hlr : b.core.reg .lr = a ||| 1)
    (hop : Thumb.decode (b.bus.opcodeAt .thumb b.core.nextAddress) = .branchExchange .lr) :
    ∃ b', LeadsTo b (b.core.regs.write .pc (a + 2)) b' := by
  let r := b.core.regs.write .pc a
  have hset : r.set.width = 2 := by
    show b.core.regs.set.width = 2
    rw [hb.set]
    rfl
  have hthumb : { b.core.regs with set := .ofBit true } = b.core.regs := by
    rw [InstrSet.ofBit_eq_thumb_iff.mpr rfl, ← hb.set]
  have hjump := leadsTo_of_jump hp hb.halted hb.strict hb.idle (decode_of_thumb hb.set hop) rfl rfl
    (r := r) fun h b₁ hdecoded hregs => by
      have hleaves := leaves_branchExchange_lr hregs h.address
      have hread : (b.core.regs.write .pc (b.core.pc + b.core.width)).read .lr = a ||| 1 :=
        (b.core.regs.read_write_pc (by decide) _).trans hlr
      rw [hread, Word.bit_zero_or_one, Word.alignDown_or_one heven] at hleaves
      have hregs' : (({ b.core.regs.write .pc (b.core.pc + b.core.width) with
          set := .ofBit true } : Registers).write .pc a) = r := by
        show (({ b.core.regs with set := .ofBit true } : Registers).write .pc _).write .pc a = r
        rw [hthumb, Registers.write_write]
      rw [hregs'] at hleaves
      unfold instruction
      rw [hdecoded]
      exact hleaves
  rwa [hset, Registers.read_pc_write_pc, Registers.write_write, Word.alignDown_two heven] at hjump

/-! ### The call -/

/-- Long calls return. A board in Thumb state, whose cache was emptied, executes the two halves of a
call at an even address `a`: it continues at `a + 4` and twice the distance, with the return address
in LR and nothing else changed in the register file, and from there a branch with exchange to LR
goes back to `a + 4`. -/
theorem step_longCall {b : Board} (hb : b.RunsThumb) (hdead : ∀ id, b.bus.cache.get? id = none)
    (heven : b.core.nextAddress.toNat % 2 = 0) (offset : BitVec 22)
    (hhigh : b.bus.opcodeAt .thumb b.core.nextAddress = Thumb.callHighOpcode offset)
    (hlow : b.bus.opcodeAt .thumb (b.core.nextAddress + 2) = Thumb.callLowOpcode offset) :
    let a := b.core.nextAddress
    let target := a + 4 + UInt32.ofInt (2 * offset.toInt)
    ∃ b₁ b₂, step b = .ok () b₁ ∧ step b₁ = .ok () b₂ ∧
      b₂.core.nextAddress = target ∧ b₂.core.reg .lr = (a + 4) ||| 1 ∧
      b₂.core.regs = (b.core.regs.write .lr ((a + 4) ||| 1)).write .pc (target + 2) ∧
      b.SameDevices b₂ ∧
      (Thumb.decode (b.bus.opcodeAt .thumb target) = .branchExchange .lr →
        ∃ b₃, step b₂ = .ok () b₃ ∧ b₃.core.nextAddress = a + 4 ∧ b₃.core.regs.set = .thumb ∧
          b₃.core.regs = b₂.core.regs.write .pc (a + 4 + 2)) := by
  intro a target
  have heven₄ : (a + 4).toNat % 2 = 0 := by
    have hzero := Word.even_add heven 0
    rwa [Int.mul_zero, show UInt32.ofInt 0 = 0 from rfl, add_zero] at hzero
  have hreturn : a + 2 + 3 = (a + 4) ||| 1 := by
    rw [Word.or_one heven₄, add_assoc, add_assoc]
    rfl
  -- the first half
  have hop : Thumb.decode (b.bus.opcodeAt .thumb b.core.nextAddress) =
      .callHigh (Thumb.highDistance offset) := by
    rw [hhigh, Thumb.decode_callHighOpcode]
  obtain ⟨b₁, h₁⟩ := leadsTo_callHigh hb hdead hop
  have hset₁ : b₁.core.regs.set = .thumb := by
    rw [h₁.regs]
    exact hb.set
  have hnext₁ : b₁.core.nextAddress = a + 2 := by
    refine nextAddress_of_thumb
      (r := b.core.regs.write .lr (a + 4 + Thumb.highDistance offset)) hb.set ?_
    rw [h₁.regs, add_assoc a 2 2]
    rfl
  have hb₁ : b₁.RunsThumb :=
    ⟨h₁.halted, hset₁, h₁.devices.strict.trans hb.strict, by rw [h₁.devices.irq, hb.idle]⟩
  -- the second half
  have hop₁ : Thumb.decode (b₁.bus.opcodeAt .thumb b₁.core.nextAddress) =
      .callLow (Thumb.lowDistance offset) := by
    rw [h₁.devices.opcodeAt, hnext₁, hlow, Thumb.decode_callLowOpcode]
  obtain ⟨b₂, h₂⟩ := leadsTo_callLow hb₁ h₁.poised hop₁
  have htarget : b₁.core.reg .lr + Thumb.lowDistance offset = target := by
    rw [Core.reg, h₁.regs, Registers.read_write_pc _ (by decide), Registers.read_write_self,
      add_assoc, Thumb.highDistance_add_lowDistance]
  have hregs₂ : b₂.core.regs =
      (b.core.regs.write .lr ((a + 4) ||| 1)).write .pc (target + 2) := by
    rw [h₂.regs, htarget, hnext₁, hreturn, Word.alignDown_two (Word.even_add heven _), h₁.regs,
      Registers.write_comm (by decide : Reg.pc ≠ Reg.lr), Registers.write_write,
      Registers.write_write]
  have hset₂ : b₂.core.regs.set = .thumb := by
    rw [hregs₂]
    exact hb.set
  have hnext₂ : b₂.core.nextAddress = target :=
    nextAddress_of_thumb (r := b.core.regs.write .lr _) hb.set hregs₂
  have hlr₂ : b₂.core.reg .lr = (a + 4) ||| 1 := by
    rw [Core.reg, hregs₂, Registers.read_write_pc _ (by decide), Registers.read_write_self]
  have hdevices := h₁.devices.trans h₂.devices
  refine ⟨b₁, b₂, h₁.ok, h₂.ok, hnext₂, hlr₂, hregs₂, hdevices, fun hop => ?_⟩
  -- the return
  have hb₂ : b₂.RunsThumb :=
    ⟨h₂.halted, hset₂, hdevices.strict.trans hb.strict, by rw [hdevices.irq, hb.idle]⟩
  have hop₂ : Thumb.decode (b₂.bus.opcodeAt .thumb b₂.core.nextAddress) = .branchExchange .lr := by
    rw [hdevices.opcodeAt, hnext₂, hop]
  obtain ⟨b₃, h₃⟩ := leadsTo_branchExchange_lr hb₂ h₂.poised heven₄ hlr₂ hop₂
  exact ⟨b₃, h₃.ok, nextAddress_of_thumb hset₂ h₃.regs, by rw [h₃.regs]; exact hset₂, h₃.regs⟩

/-- The handheld at the entry of a program in Thumb state. -/
def enterThumb (program : List (Word × Word)) (entry : Word) : Board :=
  ((Machine.handheld program).reset entry).board.mapCore fun c => (c.setSet .thumb).setPc entry

lemma get?_enterThumb (program : List (Word × Word)) (entry : Word) (id : HandleId) :
    (enterThumb program entry).bus.cache.get? id = none :=
  InstructionCache.get?_clear (Machine.handheld program).board.bus.cache id

/-- A board in Thumb state that executes a call to `BX lr`, eight bytes back, next. -/
def calling : Board :=
  enterThumb [(0x03000000, 0x46C04770), (0x03000004, 0xFFFCF7FF)] 0x03000004

/-- It calls and comes back. -/
theorem step_longCall_calling :
    calling.RunsThumb ∧ calling.core.nextAddress = 0x03000004 ∧
    ∃ b₁ b₂ b₃, step calling = .ok () b₁ ∧ step b₁ = .ok () b₂ ∧ step b₂ = .ok () b₃ ∧
      b₂.core.nextAddress = 0x03000000 ∧ b₂.core.reg .lr = 0x03000009 ∧
      b₃.core.nextAddress = 0x03000008 := by
  have hb : calling.RunsThumb := ⟨rfl, rfl, by decide +kernel, rfl⟩
  have hdead (id : HandleId) : calling.bus.cache.get? id = none := by
    unfold calling
    exact get?_enterThumb _ _ id
  have hhigh : calling.bus.opcodeAt .thumb calling.core.nextAddress =
      Thumb.callHighOpcode (-4) := by decide +kernel
  have hlow : calling.bus.opcodeAt .thumb (calling.core.nextAddress + 2) =
      Thumb.callLowOpcode (-4) := by decide +kernel
  have hreturn : Thumb.decode (calling.bus.opcodeAt .thumb
      (calling.core.nextAddress + 4 + UInt32.ofInt (2 * (-4 : BitVec 22).toInt))) =
        .branchExchange .lr := by decide +kernel
  obtain ⟨b₁, b₂, h₁, h₂, hnext₂, hlr, -, -, hback⟩ :=
    step_longCall hb hdead (by decide +kernel) (-4) hhigh hlow
  obtain ⟨b₃, h₃, hnext₃, -⟩ := hback hreturn
  exact ⟨hb, by decide +kernel, b₁, b₂, b₃, h₁, h₂, h₃, hnext₂.trans (by decide +kernel),
    hlr.trans (by decide +kernel), hnext₃.trans (by decide +kernel)⟩

end Exec

end Armv4T
