/-!
# Tokens

The pieces that a YAML text is made of once indentation has been turned into brackets.
-/

namespace Armv4T.Document.Yaml

/-- The two kinds of collections. -/
inductive Collection
  | sequence
  | mapping
  deriving DecidableEq, Repr

/-- A piece of a YAML text. Block collections start and end where the indentation says so, and `key`
stands in front of every mapping key, also where the text does not mark it. -/
inductive Token
  | documentStart
  | documentEnd
  | blockStart (kind : Collection)
  | blockEnd
  | flowStart (kind : Collection)
  | flowEnd (kind : Collection)
  | comma
  | dash
  | key
  | value
  | plain (text : String)
  | quoted (text : String)
  deriving DecidableEq, Repr

end Armv4T.Document.Yaml
