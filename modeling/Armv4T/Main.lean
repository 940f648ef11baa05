import Armv4T.Runner.Run

/-!
# The program

The runner on the file system of the computer: the report goes to the standard output as a line of
JSON, and messages go to the standard error output.
-/

namespace Armv4T

/-- The error that the operating system reports. Its code may come with the sign reversed. -/
def FileError.ofSystem : IO.Error → FileError
  | .noFileOrDirectory .. => .notFound
  | .alreadyExists .. => .alreadyExists
  | .inappropriateType _ code _ => if code = 21 ∨ 0 - code = 21 then .isDirectory else .notDirectory
  | e => .other (toString e)

/-- The result of an action on files. -/
def attempt {α : Type} (action : IO α) : IO (Except FileError α) := do
  match ← action.toBaseIO with
  | .ok a => return .ok a
  | .error e => return .error (.ofSystem e)

/-- The file system of the computer. -/
def systemFiles : FileSystem IO where
  realPath path := attempt do return (← IO.FS.realPath path).toString
  read path := attempt (IO.FS.readBinFile path)
  isDir path := do
    match ← (IO.FS.realPath path).toBaseIO with
    | .ok place => place.isDir
    | .error _ => return false
  createDir path := attempt (IO.FS.createDir path)
  write path content := attempt (IO.FS.writeFile path content)

end Armv4T

open Armv4T in
/-- Obeys the command line. -/
def main (args : List String) : IO UInt32 := do
  let outcome ← Runner.main systemFiles args
  if let some report := outcome.report then IO.println (Document.Json.compact report)
  for error in outcome.errors do IO.eprintln s!"ERROR {error}"
  return outcome.code.toUInt32
