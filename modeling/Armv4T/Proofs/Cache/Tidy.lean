import Mathlib
import Armv4T.Proofs.Cache.Entries

/-!
# Tidy caches

An entry remembers its successor by a reference alone, and a reference does not say what it was
made for: it names a slot, and the slot may be used again for another address. What keeps the
references honest is a set of points of which no two share a slot. A cache is tidy for such a set
if every live entry was decoded at a point of the set, sits in the slot of its point, and has a
link, if it has one, to the slot of the point where execution continues after it.
-/

namespace Armv4T

namespace Instruction

/-- The distance of a branch to a fixed target. -/
def jumpOffset? : Instruction → Option Word
  | arm ⟨_, .branch _ offset⟩ => some offset
  | thumb (.branchIf _ offset) => some offset
  | thumb (.branch offset) => some offset
  | _ => none

lemma isSome_jumpOffset? (i : Instruction) : i.jumpOffset?.isSome = i.isFixedJump := by
  rcases i with ⟨_, op⟩ | i
  · cases op <;> rfl
  · cases i <;> rfl

/-- Branches to fixed targets redirect the program counter. -/
lemma jumpOffset?_eq_none {i : Instruction} (h : i.writesPc = false) : i.jumpOffset? = none := by
  rcases i with ⟨_, op⟩ | i
  · cases op <;> first | rfl | simp [writesPc, Arm.Op.writesPc] at h
  · cases i <;> first | rfl | simp [writesPc, Thumb.Instr.writesPc] at h

@[simp] lemma set_decode (set : InstrSet) (opcode : Word) : (decode set opcode).set = set := by
  cases set <;> rfl

end Instruction

namespace Handle

/-- Where execution continues after an instruction that does not redirect the program counter, and
after a branch with a fixed target that is taken. -/
def successor (h : Handle) : Point :=
  { set := h.set
    address := match h.instruction.jumpOffset? with
      | some offset => Word.alignDown (h.address + h.set.width + h.set.width + offset) h.set.width
      | none => h.address + h.set.width }

@[simp] lemma set_decode (set : InstrSet) (opcode address : Word) :
    (decode set opcode address).set = set :=
  Instruction.set_decode set opcode

@[simp] lemma point_decode (set : InstrSet) (opcode address : Word) :
    (decode set opcode address).point = ⟨set, address⟩ := by
  rw [point, set_decode]
  rfl

/-- An entry that was decoded at a point of a set and is linked, if at all, to the slot of its
successor. -/
structure Fits (h : Handle) (F : Set Point) (c : InstructionCache) : Prop where
  mem : h.point ∈ F
  decoded : h.instruction = .decode h.set h.opcode
  next : ∀ n, h.next = some n → h.successor ∈ F ∧ n.place = c.place h.successor

/-- A freshly decoded instruction has no link. -/
lemma fits_decode {F : Set Point} {set : InstrSet} {address : Word} (opcode : Word)
    (c : InstructionCache) (h : (⟨set, address⟩ : Point) ∈ F) :
    (decode set opcode address).Fits F c where
  mem := by rwa [point_decode]
  decoded := by rw [set_decode]; rfl
  next n hn := by simp [decode] at hn

end Handle

namespace InstructionCache

variable {F : Set Point} {c c' : InstructionCache}

lemma place_eq_of_layout_eq (h : c'.layout = c.layout) : c'.place = c.place := by
  funext p
  rw [place, idAt, h]
  rfl

/-- Every live entry sits in the slot of its point and fits the set. -/
structure Tidy (F : Set Point) (c : InstructionCache) : Prop where
  place : ∀ id h, c.get? id = some h → id.place = c.place h.point
  fits : ∀ id h, c.get? id = some h → h.Fits F c

/-- A cache without live entries is tidy. -/
lemma tidy_of_dead (h : ∀ id, c.get? id = none) : c.Tidy F where
  place id e he := by simp [h] at he
  fits id e he := by simp [h] at he

namespace Tidy

/-- A cache stays tidy when entries are lost. -/
lemma of_get? (h : c.Tidy F) (hlayout : c'.layout = c.layout)
    (hget : ∀ id e, c'.get? id = some e → c.get? id = some e) : c'.Tidy F where
  place id e he := by
    rw [place_eq_of_layout_eq hlayout]
    exact h.place id e (hget id e he)
  fits id e he := by
    obtain ⟨hmem, hdecoded, hnext⟩ := h.fits id e (hget id e he)
    refine ⟨hmem, hdecoded, ?_⟩
    rwa [place_eq_of_layout_eq hlayout]

lemma marked (h : c.Tidy F) (hm : Marked c c') : c'.Tidy F := h.of_get? hm.layout fun _ _ => hm.get?

lemma touch (h : c.Tidy F) (address : Word) : (c.touch address).Tidy F :=
  h.of_get? (layout_touch c address) fun _ _ => get?_of_get?_touch

/-- An insertion of an entry that fits keeps a cache tidy. -/
lemma insert (h : c.Tidy F) {e : Handle} (he : e.Fits F c) : (c.insert e).2.Tidy F where
  place id e' hget := by
    rw [place_eq_of_layout_eq (layout_insert c e)]
    rcases get?_insert hget with ⟨rfl, rfl⟩ | ⟨-, hget⟩
    · rfl
    · exact h.place id e' hget
  fits id e' hget := by
    have hfits : e'.Fits F c := by
      rcases get?_insert hget with ⟨rfl, rfl⟩ | ⟨-, hget⟩
      · exact he
      · exact h.fits id e' hget
    refine ⟨hfits.mem, hfits.decoded, ?_⟩
    rw [place_eq_of_layout_eq (layout_insert c e)]
    exact hfits.next

/-- A cache stays tidy when the slot of its successor is recorded in an entry. -/
lemma link (h : c.Tidy F) {id next : HandleId}
    (hnext : ∀ e, c.get? id = some e → e.successor ∈ F ∧ next.place = c.place e.successor) :
    (c.link id next).Tidy F where
  place id' e hget := by
    rw [place_eq_of_layout_eq (layout_link c id next)]
    rcases get?_link hget with hget | ⟨e₀, rfl, hold, rfl⟩
    · exact h.place id' e hget
    · exact h.place id' e₀ hold
  fits id' e hget := by
    have hplace := place_eq_of_layout_eq (layout_link c id next)
    rcases get?_link hget with hget | ⟨e₀, rfl, hold, rfl⟩
    · obtain ⟨hmem, hdecoded, hold⟩ := h.fits id' e hget
      refine ⟨hmem, hdecoded, ?_⟩
      rwa [hplace]
    · obtain ⟨hmem, hdecoded, -⟩ := h.fits id' e₀ hold
      refine ⟨hmem, hdecoded, ?_⟩
      rintro n ⟨rfl⟩
      rw [hplace]
      exact hnext e₀ hold

/-- A live reference to the slot of a point leads to the entry of this point, if no two points of
the set share a slot. -/
lemma point_eq (h : c.Tidy F) (hF : Set.InjOn c.place F) {id : HandleId} {e : Handle} {p : Point}
    (hget : c.get? id = some e) (hp : p ∈ F) (hplace : id.place = c.place p) : e.point = p :=
  hF (h.fits id e hget).mem hp ((h.place id e hget).symm.trans hplace)

/-- What a look-up finds was decoded at the point it was made for. -/
lemma find?_point (h : c.Tidy F) {address : Word} {set : InstrSet} {id : HandleId} {e : Handle}
    (hfind : c.find? address set = some (id, e)) : e.point = ⟨set, address⟩ := by
  obtain ⟨hplace, hget, haddress⟩ := (c.find?_eq_some_iff address set id e).mp hfind
  have hset : e.set = set :=
    congrArg HandleId.set ((h.place id e hget).symm.trans hplace)
  rw [Handle.point, hset, haddress]

end Tidy

end InstructionCache

end Armv4T
