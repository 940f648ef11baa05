import Armv4T.Document.Basic
import Armv4T.Numeral

/-!
# Writing JSON

Documents are written on one line without spaces, or indented by two spaces for each level. Strings
escape quotes, backslashes and control characters and nothing else.
-/

namespace Armv4T.Document.Json

/-- A character inside a string. -/
def escapeChar (c : Char) : String :=
  if c == '"' then "\\\""
  else if c == '\\' then "\\\\"
  else if c == '\n' then "\\n"
  else if c == '\r' then "\\r"
  else if c == '\t' then "\\t"
  else if c == '\x08' then "\\b"
  else if c == '\x0c' then "\\f"
  else if c.toNat < 0x20 then
    "\\u" ++ String.ofList (Numeral.pad 4 (Nat.toDigits 16 c.toNat))
  else c.toString

/-- Appends a string with its quotes. -/
def appendQuoted (out s : String) : String :=
  s.foldl (fun out c => out ++ escapeChar c) (out.push '"') |>.push '"'

mutual

/-- Appends a document on one line. -/
def append (out : String) : Document → String
  | .null => out ++ "null"
  | .plain s => appendQuoted out s
  | .bool b => out ++ if b then "true" else "false"
  | .int n => out ++ toString n
  | .decimal s => out ++ s
  | .text s => appendQuoted out s
  | .list items => (appendItems (out.push '[') items).push ']'
  | .sequence items => (appendItems (out.push '[') items).push ']'
  | .table fields => (appendFields (out.push '\x7b') fields).push '\x7d'
  | .unreadable => out ++ "null"

/-- Appends the items of a list, separated by commas. -/
def appendItems (out : String) : List Document → String
  | [] => out
  | [d] => append out d
  | d :: e :: rest => appendItems ((append out d).push ',') (e :: rest)

/-- Appends the fields of a table, separated by commas. -/
def appendFields (out : String) : List (String × Document) → String
  | [] => out
  | [(k, d)] => append ((appendQuoted out k).push ':') d
  | (k, d) :: e :: rest =>
    appendFields ((append ((appendQuoted out k).push ':') d).push ',') (e :: rest)

end

/-- A document on one line. -/
def compact (d : Document) : String := append "" d

/-- A new line at an indentation level. -/
def newline (level : Nat) : String := "\n" ++ String.ofList (List.replicate (2 * level) ' ')

mutual

/-- A document on indented lines, its first line at the given level. -/
def pretty (level : Nat) : Document → String
  | .list [] => "[]"
  | .list items => "[" ++ prettyItems (level + 1) items ++ newline level ++ "]"
  | .table [] => "\x7b\x7d"
  | .table fields => "\x7b" ++ prettyFields (level + 1) fields ++ newline level ++ "\x7d"
  | d => compact d

/-- The items of a list, one a line. -/
def prettyItems (level : Nat) : List Document → String
  | [] => ""
  | [d] => newline level ++ pretty level d
  | d :: e :: rest => newline level ++ pretty level d ++ "," ++ prettyItems level (e :: rest)

/-- The fields of a table, one a line. -/
def prettyFields (level : Nat) : List (String × Document) → String
  | [] => ""
  | [(k, d)] => newline level ++ appendQuoted "" k ++ ": " ++ pretty level d
  | (k, d) :: e :: rest =>
    newline level ++ appendQuoted "" k ++ ": " ++ pretty level d ++ "," ++
      prettyFields level (e :: rest)

end

end Armv4T.Document.Json
