import Armv4T.Document.Basic

/-!
# Positions in a YAML text

A position knows its line and its column, because indentation matters, and what follows it. Lines end
in a line feed or in one of the two Unicode separators; carriage returns and next-line characters
are turned into line feeds before anything is read.
-/

namespace Armv4T.Document.Yaml

/-- Whether a character may occur in a YAML text. -/
def isPrintable (c : Char) : Bool :=
  let n := c.toNat
  n == 0x9 || n == 0xA || n == 0xD || (0x20 ≤ n && n ≤ 0x7E) || n == 0x85 ||
  (0xA0 ≤ n && n ≤ 0xFFFD) || 0x10000 ≤ n

/-- The text with every carriage return and next-line character written as a line feed, and the two
characters of a carriage return before a line feed as one. -/
def normalizeBreaks : List Char → List Char
  | '\r' :: '\n' :: rest => '\n' :: normalizeBreaks rest
  | c :: rest => (if c == '\r' || c == '\u0085' then '\n' else c) :: normalizeBreaks rest
  | [] => []

/-- Whether a character ends a line. -/
def isBreak (c : Char) : Bool := c == '\n' || c == '\u2028' || c == '\u2029'

/-- Whether a character is a space or a tab. -/
def isBlank (c : Char) : Bool := c == ' ' || c == '\t'

/-- What follows a position, and its line and column. -/
structure Cursor where
  rest : List Char
  line : Nat := 0
  col : Nat := 0
  deriving Inhabited

namespace Cursor

/-- The position after one character. -/
def next (c : Cursor) : Cursor :=
  match c.rest with
  | [] => c
  | ch :: rest => if isBreak ch then ⟨rest, c.line + 1, 0⟩ else ⟨rest, c.line, c.col + 1⟩

/-- The position `n` characters further on the same line. -/
def skip (c : Cursor) (n : Nat) : Cursor := { c with rest := c.rest.drop n, col := c.col + n }

/-- Whether white space follows `n` characters on, or the text ends there. -/
def spaceAt (c : Cursor) (n : Nat) : Bool :=
  match c.rest[n]? with
  | none => true
  | some ch => isBlank ch || isBreak ch

/-- Whether a document marker of some character stands here. -/
def atMarkerOf (c : Cursor) (ch : Char) : Bool :=
  c.col == 0 && [ch, ch, ch].isPrefixOf c.rest && c.spaceAt 3

/-- Whether a document marker stands here. -/
def atMarker (c : Cursor) : Bool := c.atMarkerOf '-' || c.atMarkerOf '.'

/-- Skips blanks, comments and line breaks. `flow` says that the position is inside brackets, and
`keyAllowed` that a mapping key may start here; the same is told of the position that is reached. A
new line outside of brackets may start with a key, and no tab may stand in front of one. -/
def toToken (flow keyAllowed : Bool) (c : Cursor) : Cursor × Bool :=
  go c.rest c.line c.col keyAllowed false
where
  /-- Reads on from a position, inside a comment or not. A byte order mark may start a line. -/
  go (rest : List Char) (line col : Nat) (keyAllowed comment : Bool) : Cursor × Bool :=
    match rest with
    | [] => (⟨[], line, col⟩, keyAllowed)
    | ch :: r =>
      if isBreak ch then go r (line + 1) 0 (keyAllowed || !flow) false
      else if comment || (ch == '\uFEFF' && col == 0) || ch == ' ' ||
          (ch == '\t' && (flow || !keyAllowed)) then go r line (col + 1) keyAllowed comment
      else if ch == '#' then go r line (col + 1) keyAllowed true
      else (⟨ch :: r, line, col⟩, keyAllowed)

end Cursor

end Armv4T.Document.Yaml
