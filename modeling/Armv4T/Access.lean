import Armv4T.Word

/-!
# Kinds of data access

A load names the width of the access and how the value is extended to a word; a store names the
width alone. Words cost 32-bit bus cycles and everything smaller costs 16-bit ones.
-/

namespace Armv4T

/-- A load of a byte, halfword or word, zero-extended unless it is called signed. -/
inductive LoadKind
  | byte | signedByte | half | signedHalf | word
  deriving DecidableEq, Repr, Inhabited

/-- The width of a store. -/
inductive StoreWidth
  | byte | half | word
  deriving DecidableEq, Repr, Inhabited

namespace StoreWidth

/-- The number of bytes a store writes. -/
def bytes : StoreWidth → Word
  | byte => 1
  | half => 2
  | word => 4

/-- The address a store goes to: the given one rounded down to the width. -/
def align (w : StoreWidth) (address : Word) : Word := Word.alignDown address w.bytes

end StoreWidth

end Armv4T
