/-!
# Paths

A path is a text of components between slashes. Empty components and single dots count for nothing,
except for a dot at the start of a relative path.
-/

namespace Armv4T.Path

/-- The texts between slashes. -/
def segments (path : List Char) : List (List Char) :=
  match path with
  | [] => [[]]
  | '/' :: rest => [] :: segments rest
  | c :: rest =>
    match segments rest with
    | [] => [[c]]
    | s :: more => (c :: s) :: more

/-- The path of the given segments. -/
def ofSegments (s : List (List Char)) : String :=
  "/".intercalate (s.map String.ofList)

/-- Removes the segments at the end that count for nothing. `rooted` says that a slash stands in
front of them. -/
def trimEnd (rooted : Bool) (s : List (List Char)) : List (List Char) :=
  let rec go : List (List Char) → List (List Char)
    | [] => []
    | [['.']] => if rooted then [] else [['.']]
    | [] :: rest => go rest
    | ['.'] :: rest => go rest
    | s => s
  (go s.reverse).reverse

/-- The path without its last component. The root and the empty path have none. -/
def parent? (path : String) : Option String :=
  match path.toList with
  | '/' :: body =>
    match (trimEnd true (segments body)).reverse with
    | [] => none
    | _ :: rest => some ("/" ++ ofSegments (trimEnd true rest.reverse))
  | body =>
    match (trimEnd false (segments body)).reverse with
    | [] => none
    | _ :: rest => some (ofSegments (trimEnd false rest.reverse))

/-- Whether a path starts at the root. -/
def isAbsolute (path : String) : Bool := path.toList.head? == some '/'

/-- The components of a path that count for anything but staying where one is, dots included. -/
def components (path : String) : List String :=
  ((segments path.toList).filter (!·.isEmpty)).map String.ofList

/-- Whether a path ends in a slash and so means a directory. -/
def endsInSlash (path : String) : Bool := path.toList.getLast? == some '/'

end Armv4T.Path
