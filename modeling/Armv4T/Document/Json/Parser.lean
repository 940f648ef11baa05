import Armv4T.Document.Basic

/-!
# Reading JSON

The grammar is strict: no comments, no trailing commas, no leading zeros and no control characters
in strings. It is a grammar of bytes: outside of strings everything is ASCII, and a string with
bytes that are no UTF-8, or with an escape for half of a surrogate pair, is well formed but
unreadable. A number without fraction and exponent that fits in 64 bits is whole; every other number
is a decimal.

Here a byte is the character with its number, so that `é` is a list of two characters.
-/

namespace Armv4T.Document.Json

/-- The text without the white space in front of it. -/
def skipSpace (cs : List Char) : List Char :=
  cs.dropWhile fun c => c == ' ' || c == '\n' || c == '\t' || c == '\r'

/-! ### Strings -/

/-- The number written by exactly four hexadecimal digits, and the rest. -/
def hex4? : List Char → Option (Nat × List Char)
  | a :: b :: c :: d :: rest => (Numeral.ofDigits? 16 [a, b, c, d]).map (·, rest)
  | _ => none

/-- The second number of a surrogate pair, written by an escape of its own, and the rest. -/
def lowSurrogate? : List Char → Option (Nat × List Char)
  | '\\' :: 'u' :: rest => (hex4? rest).filter fun (n, _) => 0xDC00 ≤ n ∧ n < 0xE000
  | _ => none

/-- The character of an escape `\u`, the digits coming next, if there is one. Characters outside the
first plane are written as two surrogates, and a surrogate alone is no character. -/
def unicodeEscape? (cs : List Char) : Option (Option Char × List Char) :=
  (hex4? cs).map fun (n, rest) =>
    if n < 0xD800 ∨ 0xE000 ≤ n then (some (Char.ofNat n), rest)
    else if 0xDC00 ≤ n then (none, rest)
    else
      match lowSurrogate? rest with
      | some (low, rest) =>
        (some (Char.ofNat (0x10000 + (n - 0xD800) * 0x400 + (low - 0xDC00))), rest)
      | none => (none, rest)

/-- The character of an escape, the text after the backslash coming next. -/
def escape? : List Char → Option (Option Char × List Char)
  | '"' :: rest => some (some '"', rest)
  | '\\' :: rest => some (some '\\', rest)
  | '/' :: rest => some (some '/', rest)
  | 'b' :: rest => some (some '\x08', rest)
  | 'f' :: rest => some (some '\x0c', rest)
  | 'n' :: rest => some (some '\n', rest)
  | 'r' :: rest => some (some '\r', rest)
  | 't' :: rest => some (some '\t', rest)
  | 'u' :: rest => unicodeEscape? rest
  | _ => none

/-- The bytes of a character in reverse, each as a character. -/
def reversedBytes (c : Char) : List Char :=
  (c.toString.toUTF8.toList.map fun b => Char.ofNat b.toNat).reverse

/-- The text that bytes write, if they are UTF-8. -/
def textOf? (bytes : List Char) : Option String :=
  String.fromUTF8? ⟨(bytes.map fun c => UInt8.ofNat c.toNat).toArray⟩

/-- The rest of a string after its opening quote. `acc` holds the bytes so far in reverse, or nothing
if there has been a surrogate alone. A string that is no text is read as nothing. -/
def string? (fuel : Nat) (acc : Option (List Char)) (cs : List Char) :
    Option (Option String × List Char) :=
  match fuel, cs with
  | 0, _ => none
  | _ + 1, [] => none
  | _ + 1, '"' :: rest => some (acc.bind fun bytes => textOf? bytes.reverse, rest)
  | fuel + 1, '\\' :: rest =>
    match escape? rest with
    | some (some c, rest) => string? fuel (acc.map (reversedBytes c ++ ·)) rest
    | some (none, rest) => string? fuel none rest
    | none => none
  | fuel + 1, c :: rest => if c.toNat < 0x20 then none else string? fuel (acc.map (c :: ·)) rest

/-! ### Numbers -/

/-- A run of digits and the rest. -/
def digits (cs : List Char) : List Char × List Char := cs.span Char.isDigit

/-- The exponent that a text writes after its letter, none if the text is empty. -/
def exponent? : List Char → Option (Option Int)
  | [] => some none
  | e :: rest =>
    if e == 'e' || e == 'E' then
      match rest with
      | '-' :: ds => (Numeral.ofDigits? 10 ds).map fun n => some (-(n : Int))
      | '+' :: ds => (Numeral.ofDigits? 10 ds).map fun n => some (n : Int)
      | ds => (Numeral.ofDigits? 10 ds).map fun n => some (n : Int)
    else none

/-- A number as it is written: the sign, the digits in front of the point and behind it, and the
exponent. -/
structure Number where
  negative : Bool
  whole : List Char
  fraction : Option (List Char)
  exponent : Option Int

/-- The parts of a number, its sign already read: digits without a leading zero, and perhaps a
fraction and an exponent. -/
def Number.ofChars? (negative : Bool) (cs : List Char) : Option Number := do
  let (whole, rest) := digits cs
  if whole.isEmpty ∨ (whole.head? = some '0' ∧ whole.length > 1) then none
  let (fraction, rest) : Option (List Char) × List Char := match rest with
    | '.' :: r => let (f, r) := digits r; (some f, r)
    | r => (none, r)
  if fraction = some [] then none
  return { negative, whole, fraction, exponent := ← exponent? rest }

/-- The digits of a number without its point, as a whole number. -/
def Number.mantissa (n : Number) : Nat :=
  (Numeral.ofDigits? 10 (n.whole ++ n.fraction.getD [])).getD 0

/-- Whether a number is finite in double precision. -/
def Number.isFinite (n : Number) : Bool :=
  let exponent : Int := n.exponent.getD 0 - (n.fraction.getD []).length
  let magnitude := (Nat.toDigits 10 n.mantissa).length + exponent
  if n.mantissa = 0 ∨ magnitude < 300 then true
  else if magnitude > 310 then false
  else (Float.ofScientific n.mantissa (exponent < 0) exponent.natAbs).isFinite

/-- Whether a number is whole and fits in 64 bits. A zero with a sign is not whole. -/
def Number.isWhole (n : Number) : Bool :=
  n.fraction.isNone && n.exponent.isNone &&
    if n.negative then 0 < n.mantissa && 2 * n.mantissa ≤ UInt64.size
    else n.mantissa < UInt64.size

/-- Whether a character may occur in a number. -/
def isNumberChar (c : Char) : Bool := c.isDigit || ['.', 'e', 'E', '+', '-'].contains c

/-- A number, its sign already read, and the rest of the text. -/
def number? (negative : Bool) (cs : List Char) : Option (Document × List Char) :=
  let (chars, rest) := cs.span isNumberChar
  (Number.ofChars? negative chars).map fun n =>
    if n.isWhole then (.int (if negative then -(n.mantissa : Int) else n.mantissa), rest)
    else (.decimal (String.ofList (if negative then '-' :: chars else chars)), rest)

/-! ### Values -/

/-- A literal name, its letters to follow. -/
def literal? (name : List Char) (value : Document) (cs : List Char) :
    Option (Document × List Char) :=
  if name.isPrefixOf cs then some (value, cs.drop name.length) else none

/-- A value that is no list and no table, and the rest of the text. -/
def scalar? (fuel : Nat) : List Char → Option (Document × List Char)
  | '"' :: rest =>
    (string? fuel (some []) rest).map fun (s?, rest) =>
      (match s? with
        | some s => .text s
        | none => .unreadable, rest)
  | '-' :: rest => number? true rest
  | 't' :: rest => literal? ['r', 'u', 'e'] (.bool true) rest
  | 'f' :: rest => literal? ['a', 'l', 's', 'e'] (.bool false) rest
  | 'n' :: rest => literal? ['u', 'l', 'l'] .null rest
  | rest => number? false rest

/-- The name of a field, if it is text, and what follows its colon. -/
def fieldName? (fuel : Nat) (cs : List Char) : Option (Option String × List Char) :=
  match skipSpace cs with
  | '"' :: rest =>
    match string? fuel (some []) rest with
    | some (name?, rest) =>
      match skipSpace rest with
      | ':' :: rest => some (name?, rest)
      | _ => none
    | none => none
  | _ => none

/-- A list or a table that is not closed yet, with what it holds so far in reverse. A table waits for
the value of a name. -/
inductive Frame
  | items (done : List Document)
  | fields (done : List (Option String × Document)) (name? : Option String)

/-- A moment of reading: a value is to follow, or one has been read. The frames around it come with
the innermost first. -/
inductive Reading
  | before (frames : List Frame) (rest : List Char)
  | after (value : Document) (frames : List Frame) (rest : List Char)

/-- The moment after the next value inside a table, whose name comes first. -/
def beforeField? (fuel : Nat) (done : List (Option String × Document)) (frames : List Frame)
    (rest : List Char) : Option Reading :=
  (fieldName? fuel rest).map fun (name?, rest) => .before (.fields done name? :: frames) rest

/-- The next moment, or none if the text is malformed. -/
def Reading.next? (fuel : Nat) : Reading → Option Reading
  | before frames rest =>
    match skipSpace rest with
    | '[' :: rest =>
      match skipSpace rest with
      | ']' :: rest => some (after (.list []) frames rest)
      | rest => some (before (.items [] :: frames) rest)
    | '{' :: rest =>
      match skipSpace rest with
      | '}' :: rest => some (after (.table []) frames rest)
      | rest => beforeField? fuel [] frames rest
    | rest => (scalar? fuel rest).map fun (value, rest) => after value frames rest
  | after value (.items done :: frames) rest =>
    match skipSpace rest with
    | ',' :: rest => some (before (.items (value :: done) :: frames) rest)
    | ']' :: rest => some (after (.list (value :: done).reverse) frames rest)
    | _ => none
  | after value (.fields done name? :: frames) rest =>
    match skipSpace rest with
    | ',' :: rest => beforeField? fuel ((name?, value) :: done) frames rest
    | '}' :: rest => some (after (.ofFields ((name?, value) :: done).reverse) frames rest)
    | _ => none
  | after _ [] _ => none

/-- The value that reading ends with, and the rest of the text. -/
def Reading.finish? (fuel : Nat) (reading : Reading) : Option (Document × List Char) :=
  match fuel, reading with
  | _, after value [] rest => some (value, rest)
  | 0, _ => none
  | fuel + 1, reading =>
    match reading.next? fuel with
    | some next => next.finish? fuel
    | none => none

/-- The document of bytes that hold one value and nothing else. -/
def parse? (bytes : ByteArray) : Option Document :=
  let cs := bytes.toList.map fun b => Char.ofNat b.toNat
  match (Reading.before [] cs).finish? (2 * cs.length + 2) with
  | some (value, rest) => if (skipSpace rest).isEmpty then some value else none
  | none => none

/-! ### Documents of which everything can be read -/

mutual

/-- Whether everything in a document can be read: values nest at most `depth` deep, decimals are
finite in double precision, and strings are text. -/
def isReadable (depth : Nat) : Document → Bool
  | .decimal s =>
    let (negative, cs) := match s.toList with
      | '-' :: cs => (true, cs)
      | cs => (false, cs)
    (Number.ofChars? negative cs).any (·.isFinite)
  | .list items =>
    match depth with
    | 0 => false
    | depth + 1 => areReadable depth items
  | .table fields =>
    match depth with
    | 0 => false
    | depth + 1 => fieldsAreReadable depth fields
  | .unreadable => false
  | _ => true

/-- Whether everything in a list of documents can be read. -/
def areReadable (depth : Nat) : List Document → Bool
  | [] => true
  | d :: rest => isReadable depth d && areReadable depth rest

/-- Whether everything in the fields of a table can be read. -/
def fieldsAreReadable (depth : Nat) : List (String × Document) → Bool
  | [] => true
  | (_, d) :: rest => isReadable depth d && fieldsAreReadable depth rest

end

/-- The deepest nesting of a document that is read as a whole. -/
def maxDepth : Nat := 127

/-- The document of a text that holds one value and nothing else, all of it readable. -/
def parseAll? (text : String) : Option Document :=
  (parse? text.toUTF8).filter (isReadable maxDepth)

end Armv4T.Document.Json
