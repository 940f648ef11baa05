import Armv4T.Document.Yaml.Cursor

/-!
# Scalars

A scalar may run over several lines. The blanks around a line break do not count, a single line feed
is a space, and of several the first does not count. What ends a plain scalar depends on whether it
stands in brackets and, outside of them, on how far its lines are indented.
-/

namespace Armv4T.Document.Yaml

/-! ### White space inside scalars -/

/-- The white space between two words of a scalar: the blanks in front of the first line break, in
reverse, and the line breaks. -/
structure Gap where
  blanks : List Char := []
  breaks : List Char := []

namespace Gap

/-- The text that white space stands for, in reverse. -/
def folded (g : Gap) : List Char :=
  match g.breaks with
  | [] => g.blanks
  | ['\n'] => [' ']
  | '\n' :: more => more.reverse
  | breaks => breaks.reverse

/-- Reads white space. `broken` says that a line break has come before, and `isBarred` which columns
no tab may stand in after a line break. -/
def read? (isBarred : Nat → Bool) (broken : Bool) (c : Cursor) : Option (Gap × Cursor) :=
  go c.rest c.line c.col broken [] []
where
  /-- Reads on with the blanks and the line breaks so far, both in reverse. -/
  go (rest : List Char) (line col : Nat) (broken : Bool) (blanks breaks : List Char) :
      Option (Gap × Cursor) :=
    match rest with
    | [] => some (⟨blanks, breaks.reverse⟩, ⟨[], line, col⟩)
    | ch :: r =>
      if isBreak ch then go r (line + 1) 0 true blanks (ch :: breaks)
      else if !isBlank ch then some (⟨blanks, breaks.reverse⟩, ⟨ch :: r, line, col⟩)
      else if !broken then go r line (col + 1) broken (ch :: blanks) breaks
      else if ch == '\t' && isBarred col then none
      else go r line (col + 1) broken blanks breaks

end Gap

/-! ### Plain scalars -/

/-- Whether a character is a bracket or a comma. -/
def isFlowIndicator (c : Char) : Bool := [',', '[', ']', '{', '}'].contains c

/-- Whether a plain scalar may start here. -/
def plainStarts (flow : Bool) (c : Cursor) : Bool :=
  match c.rest with
  | [] => false
  | ch :: _ =>
    if ch == '-' then !c.spaceAt 1
    else if ch == '?' || ch == ':' then !flow && !c.spaceAt 1
    else !(isFlowIndicator ch || isBlank ch || isBreak ch ||
      ['#', '&', '*', '!', '|', '>', '\'', '"', '%', '@', '\x60'].contains ch)

/-- A word of a plain scalar in reverse, and the position behind it. A colon ends it if white space
follows, and brackets and commas end it inside of brackets, where a colon must not stand directly in
front of one. -/
def word? (flow : Bool) (acc rest : List Char) (line col : Nat) : Option (List Char × Cursor) :=
  match rest with
  | [] => some (acc, ⟨[], line, col⟩)
  | ch :: r =>
    let here : Cursor := ⟨ch :: r, line, col⟩
    if isBlank ch || isBreak ch then some (acc, here)
    else if ch == ':' && flow && r.head?.any (fun d => isFlowIndicator d || d == '?') then none
    else if (ch == ':' && here.spaceAt 1) || (flow && isFlowIndicator ch) then some (acc, here)
    else word? flow (ch :: acc) r line (col + 1)

/-- The words of a plain scalar. `acc` is the text so far in reverse and `gap` the white space after
it; outside of brackets all lines are indented by `indent` at least. Gives the text in reverse, the
white space behind the scalar and the position behind that. -/
def plainWords? (fuel : Nat) (flow : Bool) (indent : Nat) (acc : List Char) (gap : Gap)
    (c : Cursor) : Option (List Char × Gap × Cursor) :=
  match fuel with
  | 0 => none
  | fuel + 1 =>
    if c.atMarker || c.rest.head? == some '#' then some (acc, gap, c)
    else
      match word? flow [] c.rest c.line c.col with
      | none => none
      | some ([], next) => some (acc, gap, next)
      | some (word, next) =>
        let acc := word ++ (gap.folded ++ acc)
        match Gap.read? (· < indent) false next with
        | none => none
        | some (gap, next) =>
          if !flow && next.col < indent then some (acc, gap, next)
          else plainWords? fuel flow indent acc gap next

/-- A plain scalar, whether a line break has come after it, and the position of what follows. -/
def plain? (fuel : Nat) (flow : Bool) (indent : Nat) (c : Cursor) :
    Option (String × Bool × Cursor) :=
  (plainWords? fuel flow indent [] {} c).map fun (acc, gap, next) =>
    (String.ofList acc.reverse, !gap.breaks.isEmpty, next)

/-! ### Quoted scalars -/

/-- The code points of the escapes of one letter. -/
def simpleEscapes : List (Char × Nat) :=
  [('0', 0), ('a', 7), ('b', 8), ('t', 9), ('\t', 9), ('n', 10), ('v', 11), ('f', 12), ('r', 13),
   ('e', 27), (' ', 32), ('"', 34), ('/', 47), ('\\', 92), ('N', 0x85), ('_', 0xA0), ('L', 0x2028),
   ('P', 0x2029)]

/-- The number of hexadecimal digits of the other escapes. -/
def escapeDigits : List (Char × Nat) := [('x', 2), ('u', 4), ('U', 8)]

/-- The character of an escape and the number of characters it takes after the backslash. -/
def escape? : List Char → Option (Char × Nat)
  | [] => none
  | c :: rest =>
    match simpleEscapes.lookup c, escapeDigits.lookup c with
    | some n, _ => some (Char.ofNat n, 1)
    | none, some count =>
      if rest.length < count then none
      else
        (Numeral.ofDigits? 16 (rest.take count)).bind fun n =>
          if n.isValidChar then some (Char.ofNat n, count + 1) else none
    | none, none => none

/-- The rest of a quoted scalar after its opening quote. `acc` is the text so far in reverse. A quote
is written twice between single quotes; between double quotes a backslash starts an escape, and one
at the end of a line joins it to the next. -/
def quotedRest? (fuel : Nat) (quote : Char) (acc : List Char) (c : Cursor) :
    Option (String × Cursor) :=
  match fuel with
  | 0 => none
  | fuel + 1 =>
    if c.atMarker then none
    else
      match c.rest with
      | [] => none
      | ch :: rest =>
        if isBlank ch || isBreak ch then
          match Gap.read? (fun _ => false) false c with
          | some (gap, next) => quotedRest? fuel quote (gap.folded ++ acc) next
          | none => none
        else if ch == quote then
          if quote == '\'' && rest.head? == some '\'' then
            quotedRest? fuel quote ('\'' :: acc) (c.skip 2)
          else some (String.ofList acc.reverse, c.skip 1)
        else if ch == '\\' && quote == '"' then
          if rest.head?.any isBreak then
            match Gap.read? (fun _ => false) true c.next.next with
            | some (gap, next) => quotedRest? fuel quote (gap.breaks.reverse ++ acc) next
            | none => none
          else
            match escape? rest with
            | some (e, n) => quotedRest? fuel quote (e :: acc) (c.skip (n + 1))
            | none => none
        else quotedRest? fuel quote (ch :: acc) (c.skip 1)

/-- A quoted scalar, its opening quote standing here. -/
def quoted? (fuel : Nat) (c : Cursor) : Option (String × Cursor) :=
  match c.rest with
  | quote :: _ => quotedRest? fuel quote [] (c.skip 1)
  | [] => none

end Armv4T.Document.Yaml
