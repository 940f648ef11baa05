import Armv4T.Numeral
import Armv4T.Text.Blank
import Armv4T.Word

/-!
# The command line

Arguments are read from left to right, and the first one that is wrong or that asks for help
decides. An option is given by its long name or its letter; letters may be run together, and a
value follows in the same argument or the next one. A value in the next argument is looked at once
another option comes, so that it cannot be wrong before a command that asks for help. Options other
than breakpoints are given once. The commands `machine load` continue a saved run and have options
of their own; two flags may be given anywhere.
-/

namespace Armv4T

/-! ### Values of options -/

namespace Args

/-- An address: hexadecimal after `0x`, decimal otherwise. White space around it does not count. -/
def address? (s : String) : Option Word :=
  let n? := match Text.trim s.toList with
    | '0' :: 'x' :: digits => Numeral.unsigned? 16 digits
    | '0' :: 'X' :: digits => Numeral.unsigned? 16 digits
    | digits => Numeral.unsigned? 10 digits
  n?.bind fun n => if n < UInt32.size then some (UInt32.ofNat n) else none

/-- A number of steps. -/
def steps? (s : String) : Option UInt64 :=
  (Numeral.unsigned? 10 s.toList).bind fun n =>
    if n < UInt64.size then some (UInt64.ofNat n) else none

/-- What an option takes. -/
inductive Kind
  | flag
  | path
  | address
  | addresses
  | steps
  deriving DecidableEq, Repr

/-- Whether a text is a value of a kind. -/
def Kind.accepts : Kind → String → Bool
  | flag, _ => false
  | path, s => !s.isEmpty
  | address, s => (address? s).isSome
  | addresses, s => (address? s).isSome
  | steps, s => (steps? s).isSome

/-! ### Commands and their options -/

/-- An option with its long name and its letter. -/
structure Spec where
  long : String
  letter : Option Char := none
  kind : Kind
  deriving Repr

/-- Where on the command line an argument stands: before any command, after `machine`, or after
`machine load`. -/
inductive Level
  | top
  | machine
  | load
  deriving DecidableEq, Repr

/-- The flags that may be given at every level. -/
def globalSpecs : List Spec :=
  [{ long := "trace", letter := some 't', kind := .flag }, { long := "json", kind := .flag }]

/-- The options of a level. -/
def Level.specs : Level → List Spec
  | top =>
    [{ long := "image", letter := some 'i', kind := .path },
     { long := "load-addr", kind := .address },
     { long := "entry", kind := .address },
     { long := "bios", kind := .path },
     { long := "map", letter := some 'm', kind := .path },
     { long := "hle-bios", kind := .flag },
     { long := "strict", kind := .flag },
     { long := "no-decode-cache", kind := .flag },
     { long := "snapshot", kind := .path },
     { long := "breakpoint", kind := .addresses },
     { long := "max-steps", kind := .steps }] ++ globalSpecs
  | machine => globalSpecs
  | load =>
    [{ long := "snapshot", letter := some 's', kind := .path },
     { long := "max-steps", kind := .steps },
     { long := "breakpoint", kind := .addresses },
     { long := "save", kind := .path }] ++ globalSpecs

/-- The level that a command leads to. -/
def Level.command? : Level → String → Option Level
  | top, "machine" => some machine
  | machine, "load" => some load
  | _, _ => none

/-- Whether a level has commands, among them one that shows help. -/
def Level.hasCommands : Level → Bool
  | top | machine => true
  | load => false

/-- Why the command line is not obeyed: it asks for help or the version, or it is wrong. -/
inductive Refusal
  | help
  | usage
  deriving DecidableEq, Repr

/-- An option that was given. -/
structure Given where
  level : Level
  long : String
  value : String
  deriving DecidableEq, Repr

/-- The options given so far, with one more. An option of a level that takes a single value or none
is given once. -/
def give (given : List Given) (level : Level) (spec : Spec) (value : String) :
    Except Refusal (List Given) :=
  if spec.kind ≠ .addresses ∧ given.any (fun g => g.level == level && g.long == spec.long) then
    .error .usage
  else if spec.kind ≠ .flag ∧ !spec.kind.accepts value then .error .usage
  else .ok (given ++ [⟨level, spec.long, value⟩])

/-- The options given so far at some level, and the one with a value in an argument of its own that
came last, if nothing has come after it. That one is not looked at before something else does. -/
structure Progress where
  given : List Given
  waiting : Option (Spec × String) := none

namespace Progress

/-- The options given so far with the one that waits. -/
def settle (p : Progress) (level : Level) : Except Refusal (List Given) :=
  match p.waiting with
  | some (spec, value) => give p.given level spec value
  | none => .ok p.given

/-- One more option, whose value stands in the same argument. -/
def give (p : Progress) (level : Level) (spec : Spec) (value : String) :
    Except Refusal Progress := do
  return { given := ← Args.give (← p.settle level) level spec value }

end Progress

/-- Whether an argument can be the value of the option before it. -/
def isValue (arg : String) : Bool := arg == "-" || arg.toList.head? != some '-'

/-- An option that takes its value from the following arguments, and the arguments left. -/
def giveNext (p : Progress) (level : Level) (spec : Spec) (rest : List String) :
    Except Refusal (Progress × List String) :=
  match rest with
  | value :: rest => do
    if !isValue value then throw .usage
    return ({ given := ← p.settle level, waiting := some (spec, value) }, rest)
  | [] => .error .usage

/-- Reads a long option, whose value may follow an equals sign. -/
def readLong (p : Progress) (level : Level) (body : List Char) (rest : List String) :
    Except Refusal (Progress × List String) := do
  let name := String.ofList (body.takeWhile (· != '='))
  let value? := match body.dropWhile (· != '=') with
    | _ :: value => some (String.ofList value)
    | [] => none
  if name == "help" || (name == "version" && level == .top) then
    discard (p.settle level)
    throw (if value?.isSome then .usage else .help)
  let some spec := level.specs.find? (·.long == name) | throw .usage
  match spec.kind, value? with
  | .flag, some _ => throw .usage
  | .flag, none => return (← p.give level spec "", rest)
  | _, some value => return (← p.give level spec value, rest)
  | _, none => giveNext p level spec rest

/-- Reads letters that are run together. The value of the last one may follow at once. -/
def readLetters (p : Progress) (level : Level) (rest : List String) :
    List Char → Except Refusal (Progress × List String)
  | [] => .ok (p, rest)
  | c :: more => do
    if c == 'h' || (c == 'V' && level == .top) then
      discard (p.settle level)
      throw .help
    let some spec := level.specs.find? (·.letter == some c) | throw .usage
    if spec.kind = .flag then readLetters (← p.give level spec "") level rest more
    else
      match more with
      | [] => giveNext p level spec rest
      | '=' :: value => return (← p.give level spec (String.ofList value), rest)
      | value => return (← p.give level spec (String.ofList value), rest)

/-- What the help command answers: help, if the words after it name a command. -/
def helpFor (level : Level) : List String → Refusal
  | [] => .help
  | word :: rest =>
    match level.command? word with
    | some level => helpFor level rest
    | none => if word == "help" && level.hasCommands && rest.isEmpty then .help else .usage

/-- Reads all arguments from a level on, at most `fuel` of them. The option that waits when a command
comes is looked at after the arguments of the command. -/
def readAll (fuel : Nat) (p : Progress) (level : Level) (args : List String) :
    Except Refusal (List Given × Level) :=
  match fuel, args with
  | _, [] => (p.settle level).map (·, level)
  | 0, _ => .error .usage
  | fuel + 1, arg :: rest =>
    match arg.toList with
    | ['-', '-'] => if rest.isEmpty then (p.settle level).map (·, level) else .error .usage
    | '-' :: '-' :: body => do
      let (p, rest) ← readLong p level body rest
      readAll fuel p level rest
    | '-' :: c :: letters => do
      let (p, rest) ← readLetters p level rest (c :: letters)
      readAll fuel p level rest
    | _ =>
      match level.command? arg with
      | some inner => do
        let (given, last) ← readAll fuel { given := p.given } inner rest
        return (← { p with given }.settle level, last)
      | none => if arg == "help" && level.hasCommands then .error (helpFor level rest)
        else .error .usage

/-- The value of an option of a level. -/
def value? (given : List Given) (level : Level) (long : String) : Option String :=
  (given.find? fun g => g.level == level && g.long == long).map (·.value)

/-- All breakpoints of a level. -/
def breakpoints (given : List Given) (level : Level) : List Word :=
  (given.filter fun g => g.level == level && g.long == "breakpoint").filterMap
    fun g => address? g.value

/-- Whether a flag was given at any level. -/
def hasFlag (given : List Given) (long : String) : Bool := given.any (·.long == long)

end Args

/-! ### What the command line asks for -/

/-- A run from an image. -/
structure RunOptions where
  image : Option String
  loadAddress : Word
  entry : Option Word
  bios : Option String
  map : Option String
  services : Bool
  strict : Bool
  decodeCache : Bool
  snapshot : Option String
  breakpoints : List Word
  maxSteps : UInt64
  deriving Repr

/-- A run continued from a snapshot. -/
structure ResumeOptions where
  snapshot : String
  maxSteps : Option UInt64
  breakpoints : List Word
  save : Option String
  deriving Repr

/-- A command. -/
inductive Command
  | run (options : RunOptions)
  | resume (options : ResumeOptions)
  deriving Repr

namespace Args

/-- Where an image is loaded if the command line does not say. -/
def defaultLoadAddress : Word := 0x08000000

/-- How many steps are made if the command line does not say. -/
def defaultMaxSteps : UInt64 := 20000

/-- The options of a run from an image. -/
def runOptions (given : List Given) : RunOptions :=
  let text := value? given .top
  { image := text "image"
    loadAddress := ((text "load-addr").bind address?).getD defaultLoadAddress
    entry := (text "entry").bind address?
    bios := text "bios"
    map := text "map"
    services := hasFlag given "hle-bios"
    strict := hasFlag given "strict"
    decodeCache := !hasFlag given "no-decode-cache"
    snapshot := text "snapshot"
    breakpoints := breakpoints given .top
    maxSteps := ((text "max-steps").bind steps?).getD defaultMaxSteps }

/-- The command that the arguments give, and whether its report is printed as JSON. -/
def parse (args : List String) : Except Refusal (Command × Bool) := do
  let (given, level) ← readAll args.length { given := [] } .top args
  let json := hasFlag given "json"
  match level with
  | .top => return (.run (runOptions given), json)
  | .machine => throw .usage
  | .load =>
    let some snapshot := value? given .load "snapshot" | throw .usage
    return (.resume
      { snapshot
        maxSteps := (value? given .load "max-steps").bind steps?
        breakpoints := breakpoints given .load
        save := value? given .load "save" }, json)

end Args

end Armv4T
