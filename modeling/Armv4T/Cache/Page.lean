import Armv4T.Instruction

/-!
# Pages of the instruction cache

A page is never freed. A store into it marks it invalid, and before its next use it is emptied and
its generation counted up, which makes every reference into it stale.
-/

namespace Armv4T.Cache

/-- A page: the slots of both sets, empty until the first instruction of the set is inserted. -/
structure Page where
  arm : Array (Option Handle) := #[]
  thumb : Array (Option Handle) := #[]
  invalid : Bool := false
  generation : Word := 0
  deriving Repr, Inhabited

namespace Page

/-- The slots of one set. -/
def slots (p : Page) : InstrSet → Array (Option Handle)
  | .arm => p.arm
  | .thumb => p.thumb

/-- Changes the slots of one set. -/
def mapSlots (p : Page) (set : InstrSet) (f : Array (Option Handle) → Array (Option Handle)) :
    Page :=
  let ⟨arm, thumb, invalid, generation⟩ := p
  match set with
  | .arm => ⟨f arm, thumb, invalid, generation⟩
  | .thumb => ⟨arm, f thumb, invalid, generation⟩

/-- The handle in a slot. -/
def get? (p : Page) (set : InstrSet) (slot : Nat) : Option Handle := ((p.slots set)[slot]?).join

/-- An empty page of the next generation. -/
def repopulate (p : Page) : Page := { generation := p.generation + 1 }

/-- The page as it is handed out: emptied first if it was invalid. -/
def refresh (p : Page) : Page := if p.invalid then p.repopulate else p

/-- The page with a handle in a slot. The slots of a set are allocated on its first insertion. -/
def put (p : Page) (set : InstrSet) (slot count : Nat) (h : Handle) : Page :=
  p.mapSlots set fun slots =>
    let slots := if slots.isEmpty then Array.replicate count none else slots
    slots.setIfInBounds slot (some h)

/-- The page with the successor of the handle in a slot recorded, if there is one. -/
def link (p : Page) (set : InstrSet) (slot : Nat) (next : HandleId) : Page :=
  p.mapSlots set fun slots =>
    slots.modify slot fun entry => entry.map fun h => { h with next := some next }

/-- The page marked invalid. -/
def invalidate (p : Page) : Page := { p with invalid := true }

end Page

end Armv4T.Cache
