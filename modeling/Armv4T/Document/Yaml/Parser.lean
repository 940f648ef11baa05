import Armv4T.Document.Yaml.Token.Lexer

/-!
# Reading YAML

A document is built from tokens: block and flow collections, and plain, single-quoted and
double-quoted scalars. Keys may be values of any kind, but only a mapping whose keys are all scalars
is a table of which fields can be read. A text holds at most one document.
-/

namespace Armv4T.Document.Yaml

/-- What is read when a value is left out. -/
def nothing : Document := .plain ""

/-- The name that a key gives to a field. -/
def nameOf? : Document → Option String
  | .plain s => some s
  | .text s => some s
  | _ => none

/-- The table of a mapping, its keys and values in reverse. -/
def tableOf (entries : List (Document × Document)) : Document :=
  .ofFields (entries.reverse.map fun (key, value) => (nameOf? key, value))

/-- Whether tokens go on with a value between brackets: not with the end of an item or field. -/
def hasFlowValue (kind : Collection) : List Token → Bool
  | .comma :: _ => false
  | .flowEnd k :: _ => k != kind
  | _ => true

/-- Whether tokens go on with a key or value of a block mapping that is not left out. -/
def hasBlockValue : List Token → Bool
  | .key :: _ => false
  | .value :: _ => false
  | .blockEnd :: _ => false
  | _ => true

mutual

/-- A node. Outside of brackets it may be a `block` collection, and as a value of a mapping a
sequence of dashes without indentation of its own, which is `flush` with the keys. -/
def node? (fuel : Nat) (block flush : Bool) (ts : List Token) : Option (Document × List Token) :=
  match fuel with
  | 0 => none
  | fuel + 1 =>
    match ts with
    | .plain s :: ts => some (.plain s, ts)
    | .quoted s :: ts => some (.text s, ts)
    | .flowStart .sequence :: ts => flowItems? fuel [] true ts
    | .flowStart .mapping :: ts => flowEntries? fuel [] true ts
    | .blockStart .sequence :: ts => if block then blockItems? fuel [] ts else none
    | .blockStart .mapping :: ts => if block then blockEntries? fuel [] ts else none
    | .dash :: _ => if flush then flushItems? fuel [] ts else none
    | _ => none

/-- The items of a flow sequence, those so far in reverse. An item may be a mapping with one key and
no braces. -/
def flowItems? (fuel : Nat) (done : List Document) (first : Bool) (ts : List Token) :
    Option (Document × List Token) :=
  match fuel with
  | 0 => none
  | fuel + 1 =>
    match first, ts with
    | _, .flowEnd .sequence :: ts => some (.sequence done.reverse, ts)
    | true, ts => flowItem? fuel done ts
    | false, .comma :: .flowEnd .sequence :: ts => some (.sequence done.reverse, ts)
    | false, .comma :: ts => flowItem? fuel done ts
    | false, _ => none

/-- An item of a flow sequence and those after it. A key that is left out takes the token after its
mark with it. -/
def flowItem? (fuel : Nat) (done : List Document) (ts : List Token) :
    Option (Document × List Token) :=
  match fuel with
  | 0 => none
  | fuel + 1 =>
    match ts with
    | .key :: ts =>
      let key? := if hasFlowValue .sequence ts && ts.head? != some .value then
          node? fuel false false ts
        else some (nothing, ts.drop 1)
      match key? with
      | none => none
      | some (key, ts) =>
        match flowValue? fuel .sequence ts with
        | none => none
        | some (value, ts) => flowItems? fuel (tableOf [(key, value)] :: done) false ts
    | ts =>
      match node? fuel false false ts with
      | some (item, ts) => flowItems? fuel (item :: done) false ts
      | none => none

/-- The entries of a flow mapping, those so far in reverse. A key without a value needs no mark. -/
def flowEntries? (fuel : Nat) (done : List (Document × Document)) (first : Bool)
    (ts : List Token) : Option (Document × List Token) :=
  match fuel with
  | 0 => none
  | fuel + 1 =>
    match first, ts with
    | _, .flowEnd .mapping :: ts => some (tableOf done, ts)
    | true, ts => flowEntry? fuel done ts
    | false, .comma :: .flowEnd .mapping :: ts => some (tableOf done, ts)
    | false, .comma :: ts => flowEntry? fuel done ts
    | false, _ => none

/-- An entry of a flow mapping and those after it. -/
def flowEntry? (fuel : Nat) (done : List (Document × Document)) (ts : List Token) :
    Option (Document × List Token) :=
  match fuel with
  | 0 => none
  | fuel + 1 =>
    match ts with
    | .key :: ts =>
      let key? := if hasFlowValue .mapping ts && ts.head? != some .value then
          node? fuel false false ts
        else some (nothing, ts)
      match key? with
      | none => none
      | some (key, ts) =>
        match flowValue? fuel .mapping ts with
        | none => none
        | some (value, ts) => flowEntries? fuel ((key, value) :: done) false ts
    | ts =>
      match node? fuel false false ts with
      | some (key, ts) => flowEntries? fuel ((key, nothing) :: done) false ts
      | none => none

/-- The value after a key in brackets of some kind, which may be left out with or without its
colon. -/
def flowValue? (fuel : Nat) (kind : Collection) (ts : List Token) :
    Option (Document × List Token) :=
  match fuel with
  | 0 => none
  | fuel + 1 =>
    match ts with
    | .value :: ts => if hasFlowValue kind ts then node? fuel false false ts else some (nothing, ts)
    | ts => some (nothing, ts)

/-- The items of a block sequence, those so far in reverse. -/
def blockItems? (fuel : Nat) (done : List Document) (ts : List Token) :
    Option (Document × List Token) :=
  match fuel with
  | 0 => none
  | fuel + 1 =>
    match ts with
    | .blockEnd :: ts => some (.sequence done.reverse, ts)
    | .dash :: ts =>
      let item? := match ts with
        | .dash :: _ => some (nothing, ts)
        | .blockEnd :: _ => some (nothing, ts)
        | _ => node? fuel true false ts
      match item? with
      | some (item, ts) => blockItems? fuel (item :: done) ts
      | none => none
    | _ => none

/-- The items of a sequence whose dashes stand in the column of the keys around it, those so far in
reverse. Anything but a dash ends it. -/
def flushItems? (fuel : Nat) (done : List Document) (ts : List Token) :
    Option (Document × List Token) :=
  match fuel with
  | 0 => none
  | fuel + 1 =>
    match ts with
    | .dash :: ts =>
      let item? := if hasBlockValue ts && ts.head? != some .dash then node? fuel true false ts
        else some (nothing, ts)
      match item? with
      | some (item, ts) => flushItems? fuel (item :: done) ts
      | none => none
    | ts => some (.sequence done.reverse, ts)

/-- The entries of a block mapping, those so far in reverse. A key and its value may be left out. -/
def blockEntries? (fuel : Nat) (done : List (Document × Document)) (ts : List Token) :
    Option (Document × List Token) :=
  match fuel with
  | 0 => none
  | fuel + 1 =>
    match ts with
    | .blockEnd :: ts => some (tableOf done, ts)
    | .key :: ts =>
      match if hasBlockValue ts then node? fuel true true ts else some (nothing, ts) with
      | none => none
      | some (key, .value :: ts) =>
        match if hasBlockValue ts then node? fuel true true ts else some (nothing, ts) with
        | some (value, ts) => blockEntries? fuel ((key, value) :: done) ts
        | none => none
      | some (key, ts) => blockEntries? fuel ((key, nothing) :: done) ts
    | _ => none

end

/-- The document that tokens write. It may be left out, and nothing may follow it but marks of its
end. -/
def ofTokens? (ts : List Token) : Option Document :=
  let fuel := 3 * ts.length + 3
  let content? := match ts with
    | [] => some (nothing, [])
    | .documentStart :: ts =>
      match ts with
      | [] => some (nothing, [])
      | .documentEnd :: _ => some (nothing, ts)
      | _ => node? fuel true false ts
    | ts => node? fuel true false ts
  match content? with
  | some (d, ts) => if ts.all (· == .documentEnd) then some d else none
  | none => none

/-- The document of a text that holds at most one. -/
def parse? (text : String) : Option Document := (Token.ofText? text).bind ofTokens?

end Armv4T.Document.Yaml
