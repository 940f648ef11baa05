import Armv4T.Document.Plain

/-!
# Structured documents

Memory maps and snapshots are written as JSON or YAML. Both are read into one kind of tree, and
records are read off the tree by functions that say what is missing or of the wrong kind by giving
nothing. What no reader asks for does not matter: it only has to be well formed.
-/

namespace Armv4T

/-- A parsed document. Fields keep their order, and names may repeat.

A `plain` scalar is written without quotes and without a type, and an empty one is a value that is
left out. The items of a `list` may also be the fields of a record in order, those of a `sequence`
may not: JSON writes lists and YAML writes sequences. Something `unreadable` is well formed but has
no value: a string that is not Unicode text, or a table whose names are not all scalars. -/
inductive Document
  | null
  | bool (value : Bool)
  | int (value : Int)
  | decimal (text : String)
  | text (value : String)
  | plain (text : String)
  | list (items : List Document)
  | sequence (items : List Document)
  | table (fields : List (String × Document))
  | unreadable
  deriving Repr, Inhabited

namespace Document

/-- A truth value. -/
def bool? : Document → Option Bool
  | bool b => some b
  | plain s => Plain.bool? s
  | _ => none

/-- A text. -/
def text? : Document → Option String
  | text s => some s
  | plain s => some s
  | _ => none

/-- A whole number from zero up to a bound, the bound excluded. -/
def natBelow? (bound : Nat) : Document → Option Nat
  | int n => if 0 ≤ n ∧ n.toNat < bound then some n.toNat else none
  | plain s => (Plain.nat? s).filter (· < bound)
  | _ => none

/-- A 32-bit word. -/
def word? (d : Document) : Option Word := (d.natBelow? UInt32.size).map UInt32.ofNat

/-- A 64-bit count. -/
def count? (d : Document) : Option UInt64 := (d.natBelow? UInt64.size).map UInt64.ofNat

/-- A list with all its items read. A value that is left out is an empty list. -/
def listOf? {α : Type} (read : Document → Option α) : Document → Option (List α)
  | list items => items.mapM read
  | sequence items => items.mapM read
  | plain s => if s.isEmpty then some [] else none
  | _ => none

/-- Whether a document says that there is no value. -/
def isAbsent : Document → Bool
  | null => true
  | plain s => s.isEmpty || Plain.isNull s
  | _ => false

/-- A value that may be absent. -/
def optional? {α : Type} (read : Document → Option α) (d : Document) : Option (Option α) :=
  if d.isAbsent then some none else (read d).map some

/-- The fields of a record by name, each at most once; other names do not matter. A value that is
left out is a record without fields. -/
def record? (names : List String) : Document → Option (List (String × Document))
  | table fields =>
    let known := fields.filter fun f => names.contains f.1
    if (known.map (·.1)).Nodup then some known else none
  | list items => if items.length ≤ names.length then some (names.zip items) else none
  | plain s => if s.isEmpty then some [] else none
  | _ => none

/-- A field that has to be there. -/
def field? {α : Type} (record : List (String × Document)) (name : String)
    (read : Document → Option α) : Option α :=
  (record.lookup name).bind read

/-- A field that has a default. -/
def fieldD? {α : Type} (record : List (String × Document)) (name : String) (default : α)
    (read : Document → Option α) : Option α :=
  match record.lookup name with
  | some d => read d
  | none => some default

/-- A name from a list of choices. The name alone and a record of the name with nothing in it mean
the same. -/
def choice? {α : Type} (choices : List (String × α)) : Document → Option α
  | text name => choices.lookup name
  | table [(name, null)] => choices.lookup name
  | _ => none

/-- The table of fields that have been read, if all their names could be. -/
def ofFields (fields : List (Option String × Document)) : Document :=
  match fields.mapM fun (name?, d) => name?.map (·, d) with
  | some fields => table fields
  | none => unreadable

/-- A document for a word. -/
def ofWord (w : Word) : Document := int w.toNat

/-- A document for a count. -/
def ofCount (n : UInt64) : Document := int n.toNat

/-- A document for a value that may be absent. -/
def ofOption {α : Type} (f : α → Document) : Option α → Document
  | some a => f a
  | none => null

end Document

end Armv4T
