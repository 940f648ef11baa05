import Armv4T.Text.Hidden

/-!
# Quoted text

Names of files are shown between double quotes. Double quotes, backslashes and the common control
characters have escapes of their own, and every other character that would not show by itself is
written as its code point.
-/

namespace Armv4T.Text

/-- A character inside quotes. -/
def quoteChar (c : Char) : String :=
  if c == '\x00' then "\\0"
  else if c == '\t' then "\\t"
  else if c == '\r' then "\\r"
  else if c == '\n' then "\\n"
  else if c == '\\' || c == '"' then "\\" ++ c.toString
  else if isHidden c then
    "\\u\x7b" ++ String.ofList (Nat.toDigits 16 c.toNat) ++ "\x7d"
  else c.toString

/-- A text in quotes. -/
def quote (s : String) : String := "\"" ++ String.join (s.toList.map quoteChar) ++ "\""

end Armv4T.Text
