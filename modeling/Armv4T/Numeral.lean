import Armv4T.Word

/-!
# Numbers as text

Messages write addresses and opcodes in hexadecimal and status fields in binary. A width counts
the digits: a number with fewer digits is filled with zeros on the left, and one with more keeps
them all.
-/

namespace Armv4T.Numeral

/-- `digits` with zeros in front, up to `width` characters. -/
def pad (width : Nat) (digits : List Char) : List Char :=
  List.replicate (width - digits.length) '0' ++ digits

/-- The digits of `n` to base 16 after `0x`, at least `width` of them. -/
def hex (width n : Nat) : String :=
  "0x" ++ String.ofList (pad width (Nat.toDigits 16 n))

/-- The digits of `n` to base 2 after `0b`, at least `width` of them. -/
def binary (width n : Nat) : String :=
  "0b" ++ String.ofList (pad width (Nat.toDigits 2 n))

/-- An address or opcode as eight hexadecimal digits. -/
def word (w : Word) : String := hex 8 w.toNat

/-- The value of a digit to base 16, in either case. -/
def hexDigit? (c : Char) : Option Nat :=
  if c.isDigit then some (c.toNat - '0'.toNat)
  else if 'a' ≤ c ∧ c ≤ 'f' then some (c.toNat - 'a'.toNat + 10)
  else if 'A' ≤ c ∧ c ≤ 'F' then some (c.toNat - 'A'.toNat + 10)
  else none

/-- The value of a digit to base `base`, at most 16. -/
def digit? (base : Nat) (c : Char) : Option Nat :=
  (hexDigit? c).filter (· < base)

/-- The number written by a non-empty run of digits to base `base`. -/
def ofDigits? (base : Nat) : List Char → Option Nat
  | [] => none
  | digits => digits.foldlM (fun n c => (digit? base c).map (n * base + ·)) 0

/-- An unsigned number, with an optional plus sign in front of its digits. -/
def unsigned? (base : Nat) : List Char → Option Nat
  | '+' :: digits => ofDigits? base digits
  | digits => ofDigits? base digits

end Armv4T.Numeral
