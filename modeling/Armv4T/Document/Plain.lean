import Armv4T.Numeral

/-!
# Plain scalars

A scalar that is written without quotes has no type of its own. Where a text is wanted it is itself,
and where nothing, a truth value or a number is wanted it has to be written like one. Digits after
a leading zero are no number.
-/

namespace Armv4T.Document.Plain

/-- Whether a scalar names the absence of a value. -/
def isNull (s : String) : Bool := ["null", "Null", "NULL", "~"].contains s

/-- The truth value that a scalar names. -/
def bool? (s : String) : Option Bool :=
  if ["true", "True", "TRUE"].contains s then some true
  else if ["false", "False", "FALSE"].contains s then some false
  else none

/-- The rest of a text after something that it starts with. -/
def after? (start cs : List Char) : Option (List Char) :=
  if start.isPrefixOf cs then some (cs.drop start.length) else none

/-- Whether a text has the digits of a number but a leading zero too many. -/
def isZeroPadded (cs : List Char) : Bool :=
  cs.length > 1 && cs.head? == some '0' && cs.all Char.isDigit

/-- A number without sign: decimal, or hexadecimal, octal or binary after two letters that say
so. -/
def magnitude? (cs : List Char) : Option Nat :=
  let based (start : List Char) (base : Nat) : Option Nat :=
    (after? start cs).bind (Numeral.ofDigits? base)
  (based ['0', 'x'] 16).or <| (based ['0', 'o'] 8).or <| (based ['0', 'b'] 2).or <|
    if isZeroPadded cs then none else Numeral.ofDigits? 10 cs

/-- The number from zero up that a scalar writes, perhaps with a plus sign. -/
def nat? (s : String) : Option Nat :=
  match s.toList with
  | '+' :: rest => magnitude? rest
  | cs => magnitude? cs

end Armv4T.Document.Plain
