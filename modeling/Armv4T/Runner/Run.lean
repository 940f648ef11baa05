import Armv4T.Document.Json.Parser
import Armv4T.Document.Json.Printer
import Armv4T.Runner.Args
import Armv4T.Runner.FileSystem
import Armv4T.Runner.Report
import Armv4T.Text.Quoted

/-!
# Running from the command line

A run builds a machine from files, lets it make a number of steps, and then writes a snapshot and a
report. It is an action of whatever monad the file system works in, and its outcome says what is to
be shown to the user.
-/

namespace Armv4T.Runner

/-- What a run gives back to the user: the exit code, the error messages in order, and the report if
it was asked for. -/
structure Outcome where
  code : UInt8
  errors : List String := []
  report : Option Document := none
  deriving Inhabited

/-- The exit code of a run that went well. -/
def successCode : UInt8 := 0

/-- The exit code of a command that cannot be obeyed. -/
def configCode : UInt8 := 2

/-- The exit code of a run that a fault stopped. -/
def faultCode : UInt8 := 3

/-! ### Simulation -/

/-- Runs at most `n` more steps after `finished` ones. A breakpoint stops the run ahead of every
step but the first. -/
def simulateFrom (n finished : Nat) (m : Machine) : RunResult × Machine :=
  match n with
  | 0 => (⟨.maxSteps, finished, none⟩, m)
  | n + 1 =>
    if finished > 0 && m.atBreakpoint m.nextAddress then (⟨.breakpoint, finished, none⟩, m)
    else
      match Machine.step m with
      | .ok _ m => simulateFrom n (finished + 1) m
      | .error fault m => (⟨.ofFault fault, finished, some fault.message⟩, m)

/-- Runs at most `maxSteps` steps between telling the observers of the start and of the end. -/
def simulate (maxSteps : Nat) (m : Machine) : RunResult × Machine :=
  let (result, m) := simulateFrom maxSteps 0 (m.notify .started)
  (result, m.notify .stopped)

/-- The messages about the end of a run: one if a fault stopped it. -/
def resultErrors (r : RunResult) : List String :=
  match r.message with
  | some message => [s!"Simulation error at step {r.steps}: {message}"]
  | none => []

/-! ### Building a machine -/

variable {m : Type → Type} [Monad m] (fs : FileSystem m)

/-- The absolute path of a file, or the path as it is if there is no such file. -/
def absolutePath (path : String) : m String := do
  match ← fs.realPath path with
  | .ok absolute => return absolute
  | .error _ => return path

/-- The absolute path of a file that may not be asked for. -/
def absolutePath? (path : Option String) : m (Option String) :=
  match path with
  | some path => do return some (← absolutePath fs path)
  | none => pure none

/-- Text with what it is about in front. -/
def inContext (context cause : String) : String := context ++ ": " ++ cause

/-- The bus of a memory map in a file, or that of the handheld. -/
def mapBus (path : Option String) : ExceptT String m Bus := do
  match path with
  | none => return .handheld
  | some path =>
    match ← fs.readText path with
    | .error e => throw (inContext s!"Failed to read memory map at {Text.quote path}" e.message)
    | .ok text =>
      match (MemoryMap.ofYaml text).bind Bus.ofMap with
      | .ok bus => return bus
      | .error e => throw e.message

/-- Copies a file into memory. -/
def loadFile (bus : Bus) (path : String) (address : Word) (unread unloaded : String) :
    ExceptT String m Bus := do
  match ← fs.read path with
  | .error e => throw (inContext unread e.message)
  | .ok bytes =>
    match bus.imageFault? address with
    | some fault => throw (inContext unloaded fault.message)
    | none => return bus.loadImage address bytes

/-- Builds the machine of a configuration: its memory map, the BIOS and the image. -/
def buildMachine (config : RunConfig) : ExceptT String m Machine := do
  let bus ← mapBus fs config.map
  let bus := { bus with strict := config.strict }
  let bus ← match config.bios with
    | none => pure bus
    | some path =>
      let name := Text.quote path
      loadFile fs bus path 0 s!"Failed to read BIOS {name}"
        s!"BIOS {name} does not fit at address 0"
  let name := Text.quote config.image
  let bus ← loadFile fs bus config.image config.loadAddress s!"Failed to read image {name}"
    s!"Image {name} cannot be loaded at {Numeral.word config.loadAddress}"
  return { board :=
    { core := { cacheEnabled := config.decodeCache }
      bus
      irq := { services := config.services } } }

/-! ### Running and reporting -/

/-- Writes the snapshot of a run, and gives the messages about what went wrong. -/
def writeSnapshot (path : String) (machine : Machine) (config : RunConfig) (result : RunResult) :
    m (List String) := do
  if let some parent := Path.parent? path then
    if let .error e ← fs.createDirs parent then
      return [inContext s!"Failed to create snapshot parent dir {Text.quote parent}" e.message]
  let file : SnapshotFile :=
    { schemaVersion := SnapshotFile.currentVersion
      status := result.stop.status
      steps := UInt64.ofNat result.steps
      stop := result.stop
      message := result.message
      config
      machine := machine.snapshot }
  match ← fs.write path (Document.Json.pretty 0 file.toDocument) with
  | .ok _ => return []
  | .error e => return [inContext s!"Failed to create snapshot {Text.quote path}" e.message]

/-- Runs a machine and writes what the run leaves behind. -/
def runAndReport (machine : Machine) (config : RunConfig) (maxSteps : UInt64)
    (breakpoints : List Word) (snapshot : Option String) (json : Bool) : m Outcome := do
  let machine := breakpoints.foldl Machine.addBreakpoint
    { machine with observers := machine.observers ++ [.metrics {}] }
  let (result, machine) := simulate maxSteps.toNat machine
  let metrics := (machine.observers.findSome? Observer.metrics?).getD {}
  let snapshotErrors ← match snapshot with
    | some path => writeSnapshot fs path machine config result
    | none => pure []
  return { code := if result.stop.isError then faultCode else successCode
           errors := resultErrors result ++ snapshotErrors
           report := if json then some (report machine metrics result) else none }

/-- The outcome of a command that cannot be obeyed. -/
def refused (message : String) : Outcome := { code := configCode, errors := [message] }

/-- Runs an image. -/
def runImage (o : RunOptions) (json : Bool) : m Outcome := do
  match o.image with
  | none => return refused "Missing required --image argument"
  | some image =>
    let config : RunConfig :=
      { image := ← absolutePath fs image
        loadAddress := o.loadAddress
        entry := o.entry.getD o.loadAddress
        bios := ← absolutePath? fs o.bios
        map := ← absolutePath? fs o.map
        services := o.services
        strict := o.strict
        decodeCache := o.decodeCache
        maxSteps := o.maxSteps }
    match ← (buildMachine fs config).run with
    | .error message => return refused message
    | .ok machine =>
      runAndReport fs (machine.reset config.entry) config o.maxSteps o.breakpoints o.snapshot json

/-- Reads a snapshot file. A directory can be opened but there is nothing to read in it. -/
def readSnapshot (path : String) : ExceptT String m SnapshotFile := do
  let unparsed := s!"Failed to parse snapshot {Text.quote path}"
  match ← fs.read path with
  | .error .isDirectory => throw unparsed
  | .error e => throw (inContext s!"Failed to open snapshot {Text.quote path}" e.message)
  | .ok bytes =>
    match (Document.Json.parse? bytes).bind SnapshotFile.ofDocument? with
    | none => throw unparsed
    | some file =>
      if file.schemaVersion != SnapshotFile.currentVersion then
        throw (s!"Unsupported snapshot_schema_version '{file.schemaVersion}'. " ++
          s!"Supported versions: '{SnapshotFile.currentVersion}'")
      return file

/-- Continues a saved run. Memory is not saved, so the images are loaded again. -/
def resume (o : ResumeOptions) (json : Bool) : m Outcome := do
  match ← (readSnapshot fs o.snapshot).run with
  | .error message => return refused message
  | .ok file =>
    match ← (buildMachine fs file.config).run with
    | .error message => return refused (inContext "Failed to reconstruct machine" message)
    | .ok machine =>
      match Machine.applySnapshot file.machine machine with
      | .error fault _ => return refused (inContext "Failed to apply snapshot" fault.message)
      | .ok _ machine =>
        runAndReport fs machine file.config (o.maxSteps.getD file.config.maxSteps) o.breakpoints
          o.save json

/-- Obeys a command line. -/
def main (args : List String) : m Outcome :=
  match Args.parse args with
  | .error .help => pure { code := successCode }
  | .error .usage => pure { code := configCode }
  | .ok (.run o, json) => runImage fs o json
  | .ok (.resume o, json) => resume fs o json

end Armv4T.Runner
