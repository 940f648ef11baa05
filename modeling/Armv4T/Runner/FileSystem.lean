import Armv4T.Runner.Path

/-!
# File systems

What the runner needs of a file system, and a file system that is a value: a tree of directories
and files with a working directory.
-/

namespace Armv4T

/-- A reason for which an operation on files fails. -/
inductive FileError
  | notFound
  | alreadyExists
  | notDirectory
  | isDirectory
  | nameTooLong
  | nameWithNul
  | notText
  | other (message : String)
  deriving DecidableEq, Repr

namespace FileError

/-- The text that reports an error. -/
def message : FileError → String
  | notFound => "No such file or directory (os error 2)"
  | alreadyExists => "File exists (os error 17)"
  | notDirectory => "Not a directory (os error 20)"
  | isDirectory => "Is a directory (os error 21)"
  | nameTooLong => "File name too long (os error 36)"
  | nameWithNul => "file name contained an unexpected NUL byte"
  | notText => "stream did not contain valid UTF-8"
  | other message => message

end FileError

/-- The operations on files, as actions of `m`. `realPath` gives the absolute path of something that
exists, and `write` creates a file or replaces what is in it. -/
structure FileSystem (m : Type → Type) where
  realPath : String → m (Except FileError String)
  read : String → m (Except FileError ByteArray)
  isDir : String → m Bool
  createDir : String → m (Except FileError Unit)
  write : String → String → m (Except FileError Unit)

namespace FileSystem

variable {m : Type → Type} [Monad m]

/-- Creates a directory and the missing ones above it, `depth` at most. The empty path is the
working directory, which exists. -/
def createDirsUpTo (fs : FileSystem m) (path : String) : Nat → m (Except FileError Unit)
  | 0 => return .error (.other "failed to create whole tree")
  | depth + 1 => do
    if path.isEmpty then return .ok ()
    match ← fs.createDir path with
    | .ok _ => return .ok ()
    | .error .notFound =>
      match Path.parent? path with
      | none => return .error (.other "failed to create whole tree")
      | some parent =>
        match ← fs.createDirsUpTo parent depth with
        | .error e => return .error e
        | .ok _ =>
          match ← fs.createDir path with
          | .ok _ => return .ok ()
          | .error e => return if ← fs.isDir path then .ok () else .error e
    | .error e => return if ← fs.isDir path then .ok () else .error e

/-- Creates a directory and the missing ones above it. -/
def createDirs (fs : FileSystem m) (path : String) : m (Except FileError Unit) :=
  fs.createDirsUpTo path (path.length + 1)

/-- Reads a file as text. -/
def readText (fs : FileSystem m) (path : String) : m (Except FileError String) := do
  match ← fs.read path with
  | .error e => return .error e
  | .ok bytes =>
    match String.fromUTF8? bytes with
    | some s => return .ok s
    | none => return .error .notText

end FileSystem

/-! ### A file system as a value -/

/-- What a name in a directory stands for. -/
inductive FileNode
  | file (bytes : ByteArray)
  | directory

/-- The nodes of a tree by the names that lead to them from the root, and the working directory. The
root, the working directory and what is above it are directories in any case. -/
structure FileTree where
  workingDir : List String
  nodes : List (List String × FileNode) := []

namespace FileTree

/-- The node at a place. -/
def node? (t : FileTree) (place : List String) : Option FileNode :=
  if place.isPrefixOf t.workingDir then some .directory else t.nodes.lookup place

/-- The longest name in a directory, in bytes. -/
def maxNameLength : Nat := 255

/-- The place that a component leads to from another place, which has to be a directory. -/
def enter (t : FileTree) (place : List String) (component : String) :
    Except FileError (List String) :=
  match t.node? place with
  | none => .error .notFound
  | some (.file _) => .error .notDirectory
  | some .directory =>
    if component == "." then .ok place
    else if component == ".." then .ok place.dropLast
    else if component.utf8ByteSize > maxNameLength then .error .nameTooLong
    else .ok (place ++ [component])

/-- The place that components lead to from the root or the working directory. Whether there is
something at the place is not asked. -/
def place? (t : FileTree) (path : String) (components : List String) :
    Except FileError (List String) :=
  if path.contains '\x00' then .error .nameWithNul
  else if path.isEmpty then .error .notFound
  else components.foldlM t.enter (if Path.isAbsolute path then [] else t.workingDir)

/-- The place and the node of a path. A slash at the end asks for a directory. -/
def find (t : FileTree) (path : String) : Except FileError (List String × FileNode) := do
  let components := Path.components path ++ if Path.endsInSlash path then ["."] else []
  let place ← t.place? path components
  match t.node? place with
  | some node => return (place, node)
  | none => throw .notFound

/-- The absolute path of a place. -/
def absolute (place : List String) : String := "/" ++ "/".intercalate place

/-- The tree with a node at a place. -/
def put (t : FileTree) (place : List String) (node : FileNode) : FileTree :=
  { t with nodes := (place, node) :: t.nodes.filter (·.1 != place) }

/-- The content of a file. -/
def read (t : FileTree) (path : String) : Except FileError ByteArray := do
  match ← t.find path with
  | (_, .file bytes) => return bytes
  | (_, .directory) => throw .isDirectory

/-- The place above a path, which has to be a directory, and the place of the path. -/
def placeForCreation (t : FileTree) (path : String) : Except FileError (List String) :=
  t.place? path (Path.components path)

/-- The tree with one more directory. -/
def createDir (t : FileTree) (path : String) : Except FileError FileTree := do
  let place ← t.placeForCreation path
  match t.node? place with
  | some _ => throw .alreadyExists
  | none => return t.put place .directory

/-- The tree with a file written. A path that ends in a slash can only mean a directory, whether or
not there is one. -/
def write (t : FileTree) (path : String) (content : String) : Except FileError FileTree := do
  let place ← t.placeForCreation path
  if Path.endsInSlash path then throw .isDirectory
  match t.node? place with
  | some .directory => throw .isDirectory
  | _ => return t.put place (.file content.toUTF8)

/-- An operation that changes the tree, if it succeeds. -/
def change (f : FileTree → Except FileError FileTree) :
    StateM FileTree (Except FileError Unit) := do
  match f (← get) with
  | .ok t =>
    set t
    return .ok ()
  | .error e => return .error e

/-- The tree as a file system. -/
def fileSystem : FileSystem (StateM FileTree) where
  realPath path := return ((← get).find path).map fun (place, _) => absolute place
  read path := return (← get).read path
  isDir path := return match (← get).find path with
    | .ok (_, .directory) => true
    | _ => false
  createDir path := change (·.createDir path)
  write path content := change (·.write path content)

end FileTree

end Armv4T
