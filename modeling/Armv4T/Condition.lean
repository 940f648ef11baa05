import Armv4T.Flags

/-!
# Conditions

Every ARM instruction and every Thumb conditional branch names a condition on the flags. The code
`0b1111` means "always", like `0b1110`.
-/

namespace Armv4T

/-- The fifteen conditions, in the order of their codes. -/
inductive Condition
  | eq | ne | cs | cc | mi | pl | vs | vc | hi | ls | ge | lt | gt | le | al
  deriving DecidableEq, Repr, Inhabited

namespace Condition

/-- The condition with the given code, of which the low four bits count. -/
def ofBits (bits : Word) : Condition :=
  match (bits &&& 0xF).toNat with
  | 0 => eq
  | 1 => ne
  | 2 => cs
  | 3 => cc
  | 4 => mi
  | 5 => pl
  | 6 => vs
  | 7 => vc
  | 8 => hi
  | 9 => ls
  | 10 => ge
  | 11 => lt
  | 12 => gt
  | 13 => le
  | _ => al

/-- Whether a condition holds of the flags. -/
def passes (flags : Flags) : Condition → Bool
  | eq => flags.z
  | ne => !flags.z
  | cs => flags.c
  | cc => !flags.c
  | mi => flags.n
  | pl => !flags.n
  | vs => flags.v
  | vc => !flags.v
  | hi => flags.c && !flags.z
  | ls => !flags.c || flags.z
  | ge => flags.n == flags.v
  | lt => flags.n != flags.v
  | gt => !flags.z && flags.n == flags.v
  | le => flags.z || flags.n != flags.v
  | al => true

end Condition

end Armv4T
