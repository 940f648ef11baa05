import Armv4T.Document.Yaml.Scalar
import Armv4T.Document.Yaml.Token

/-!
# From text to tokens

A mapping key is known by the colon behind it. So a place where a key may start is kept in mind, and
once the colon comes, the token of the key, and perhaps that of a block mapping, are put in front of
what has been read since. A key without a mark of its own stands on one line and is no longer than
1024 characters.

Anchors, aliases, tags, block scalars and directives are not read: no token starts with their
characters.
-/

namespace Armv4T.Document.Yaml

/-- A place where a mapping key may have started: how many tokens come before it, and its line and
column. A key is `required` where nothing but a key can stand, in the column of a block mapping. -/
structure KeyStart where
  before : Nat
  line : Nat
  col : Nat
  required : Bool

/-- The state of reading tokens. The tokens come with the last one first, and with their number. The
columns of the open block collections and the key starts outside of the open brackets come with the
innermost first. -/
structure Lexer where
  cursor : Cursor
  tokens : List Token := []
  count : Nat := 0
  columns : List Nat := []
  key? : Option KeyStart := none
  outerKeys : List (Option KeyStart) := []
  keyAllowed : Bool := true

namespace Lexer

/-- Whether the position is inside of brackets. -/
def inFlow (l : Lexer) : Bool := !l.outerKeys.isEmpty

/-- The smallest column of what belongs to the innermost block collection. -/
def indent (l : Lexer) : Nat :=
  match l.columns with
  | [] => 0
  | col :: _ => col + 1

/-- Adds a token. -/
def emit (l : Lexer) (t : Token) : Lexer :=
  { l with tokens := t :: l.tokens, count := l.count + 1 }

/-- Adds a token that is written with `n` characters, and says whether a key may follow. -/
def emitMark (l : Lexer) (t : Token) (n : Nat) (keyAllowed : Bool) : Lexer :=
  { l.emit t with cursor := l.cursor.skip n, keyAllowed }

/-- Puts a token behind the first `n` ones. -/
def insertAfter (l : Lexer) (n : Nat) (t : Token) : Lexer :=
  let later := l.count - n
  { l with
    tokens := l.tokens.take later ++ t :: l.tokens.drop later
    count := l.count + 1 }

/-! ### Block collections -/

/-- Ends the block collections whose columns satisfy a condition, from the innermost one on.
Indentation does not matter in brackets. -/
def closeBlocksWhile (l : Lexer) (isEnded : Nat → Bool) : Lexer :=
  if l.inFlow then l
  else
    let ended := l.columns.takeWhile isEnded
    { ended.foldl (fun l _ => l.emit .blockEnd) l with columns := l.columns.drop ended.length }

/-- Ends the block collections that a token in column `col` does not belong to. -/
def closeBlocks (l : Lexer) (col : Nat) : Lexer := l.closeBlocksWhile (col < ·)

/-- Ends all block collections. -/
def closeAllBlocks (l : Lexer) : Lexer := l.closeBlocksWhile fun _ => true

/-- Starts a block collection in column `col` behind the first `n` tokens, unless there is one in the
column already. -/
def openBlock (l : Lexer) (kind : Collection) (col n : Nat) : Lexer :=
  if l.inFlow || col < l.indent then l
  else { l.insertAfter n (.blockStart kind) with columns := col :: l.columns }

/-- Starts a block collection here, unless there is one in this column already. -/
def openBlockHere (l : Lexer) (kind : Collection) : Lexer :=
  l.openBlock kind l.cursor.col l.count

/-! ### Keys without a mark of their own -/

/-- Whether it is too late for the colon of a key. -/
def isLate (c : Cursor) (k : KeyStart) : Bool := k.line != c.line || k.col + 1024 < c.col

/-- Forgets a key start for which it is too late. A required key must not be forgotten. -/
def dropLate? (c : Cursor) : Option KeyStart → Option (Option KeyStart)
  | some k => if isLate c k then if k.required then none else some none else some (some k)
  | none => some none

/-- Forgets all key starts for which it is too late. -/
def dropLateKeys? (l : Lexer) : Option Lexer := do
  let key? ← dropLate? l.cursor l.key?
  let outerKeys ← l.outerKeys.mapM (dropLate? l.cursor)
  return { l with key?, outerKeys }

/-- Forgets the key start at this level of brackets, which must not be required. -/
def dropKey? (l : Lexer) : Option Lexer :=
  if l.key?.any (·.required) then none else some { l with key? := none }

/-- Keeps in mind that a key may start here, where one is allowed. -/
def noteKey? (l : Lexer) : Option Lexer :=
  if l.keyAllowed then do
    let l ← l.dropKey?
    let required := !l.inFlow && l.columns.head? == some l.cursor.col
    return { l with key? := some ⟨l.count, l.cursor.line, l.cursor.col, required⟩ }
  else some l

/-! ### Tokens by the characters that they start with -/

/-- Reads a document marker. -/
def marker? (l : Lexer) (t : Token) : Option Lexer :=
  l.closeAllBlocks.dropKey?.map fun l => l.emitMark t 3 false

/-- Reads an opening bracket. -/
def openFlow? (l : Lexer) (kind : Collection) : Option Lexer :=
  l.noteKey?.map fun l =>
    { l with outerKeys := l.key? :: l.outerKeys, key? := none }.emitMark (.flowStart kind) 1 true

/-- Reads a closing bracket, whether or not one is open. -/
def closeFlow? (l : Lexer) (kind : Collection) : Option Lexer :=
  l.dropKey?.map fun l =>
    let l := match l.outerKeys with
      | [] => l
      | key? :: outerKeys => { l with key?, outerKeys }
    l.emitMark (.flowEnd kind) 1 false

/-- Reads the comma between two items or fields. -/
def comma? (l : Lexer) : Option Lexer := l.dropKey?.map fun l => l.emitMark .comma 1 true

/-- Reads the dash of a block sequence. Outside of brackets it stands where a key may start. -/
def dash? (l : Lexer) : Option Lexer :=
  if l.inFlow || l.keyAllowed then
    (l.openBlockHere .sequence).dropKey?.map fun l => l.emitMark .dash 1 true
  else none

/-- Reads the question mark in front of a key, under the same condition. -/
def mark? (l : Lexer) : Option Lexer :=
  if l.inFlow || l.keyAllowed then
    (l.openBlockHere .mapping).dropKey?.map fun l => l.emitMark .key 1 (!l.inFlow)
  else none

/-- Reads the colon in front of a value. It belongs to the key kept in mind, or else to a key with a
mark of its own. -/
def colon? (l : Lexer) : Option Lexer :=
  match l.key? with
  | some k =>
    let l := (l.insertAfter k.before .key).openBlock .mapping k.col k.before
    some ({ l with key? := none }.emitMark .value 1 false)
  | none =>
    if l.inFlow || l.keyAllowed then
      some ((l.openBlockHere .mapping).emitMark .value 1 (!l.inFlow))
    else none

/-- Reads a quoted scalar. -/
def quoted? (fuel : Nat) (l : Lexer) : Option Lexer := do
  let l ← l.noteKey?
  let (s, cursor) ← Yaml.quoted? fuel l.cursor
  return { l with cursor, keyAllowed := false }.emit (.quoted s)

/-- Reads a plain scalar. A key may follow it on a new line. -/
def plain? (fuel : Nat) (l : Lexer) : Option Lexer := do
  let l ← l.noteKey?
  let (s, broken, cursor) ← Yaml.plain? fuel l.inFlow l.indent l.cursor
  return { l with cursor, keyAllowed := broken }.emit (.plain s)

/-- Reads the token that starts with a character. -/
def token? (fuel : Nat) (l : Lexer) (c : Char) : Option Lexer :=
  let spaced := l.cursor.spaceAt 1
  if l.cursor.atMarkerOf '-' then l.marker? .documentStart
  else if l.cursor.atMarkerOf '.' then l.marker? .documentEnd
  else if c == '[' then l.openFlow? .sequence
  else if c == '{' then l.openFlow? .mapping
  else if c == ']' then l.closeFlow? .sequence
  else if c == '}' then l.closeFlow? .mapping
  else if c == ',' then l.comma?
  else if c == '-' && spaced then l.dash?
  else if c == '?' && (l.inFlow || spaced) then l.mark?
  else if c == ':' && (l.inFlow || spaced) then l.colon?
  else if c == '\'' || c == '"' then l.quoted? fuel
  else if plainStarts l.inFlow l.cursor then l.plain? fuel
  else none

/-- Reads all tokens. -/
def run? (fuel : Nat) (l : Lexer) : Option (List Token) :=
  match fuel with
  | 0 => none
  | fuel + 1 =>
    let (cursor, keyAllowed) := l.cursor.toToken l.inFlow l.keyAllowed
    match { l with cursor, keyAllowed }.dropLateKeys? with
    | none => none
    | some l =>
      match cursor.rest with
      | [] => l.closeAllBlocks.dropKey?.map fun l => l.tokens.reverse
      | c :: _ =>
        match (l.closeBlocks cursor.col).token? (fuel + 1) c with
        | some l => l.run? fuel
        | none => none

end Lexer

/-- The tokens of a text. -/
def Token.ofText? (text : String) : Option (List Token) :=
  let chars := text.toList
  if chars.all isPrintable then
    Lexer.run? (chars.length + 1) { cursor := { rest := normalizeBreaks chars } }
  else none

end Armv4T.Document.Yaml
