import Chip8.Config
import Chip8.Numeral.Unsigned

/-! Arguments of the two programs. Arguments are taken from left to right; what stands behind `--` and
what no option claims is the path of the program to execute. Unknown arguments are found before
missing ones, and those before values that cannot be read. -/
namespace Chip8.CommandLine

/-- The runner without a screen, and the one that plays in a terminal. -/
inductive Program where
  | headless
  | interactive
deriving DecidableEq, Repr

inductive OptionName where
  | steps
  | hz
  | timers
  | seed
deriving DecidableEq, Repr

namespace OptionName

def long : OptionName → String
  | steps => "steps"
  | hz => "hz"
  | timers => "timers"
  | seed => "seed"

def short? : OptionName → Option Char
  | steps => some 's'
  | _ => none

/-- The option as messages show it. -/
def shown (name : OptionName) : String :=
  "--" ++ name.long ++ " <" ++ name.long ++ ">"

end OptionName

namespace Program

def options : Program → List OptionName
  | headless => [.steps, .hz, .timers, .seed]
  | interactive => [.hz, .timers, .seed]

/-- The value of an option that is not given, or given without one. -/
def fallback? : Program → OptionName → Option String
  | headless, .steps => some "1000"
  | headless, .hz => some "0"
  | headless, .timers => some "per-step"
  | interactive, .hz => some "700"
  | interactive, .timers => some "decoupled"
  | _, _ => none

end Program

/-- Why the value of an option cannot be read. -/
inductive BadValue where
  | number (error : Numeral.UnsignedError)
  | mode (error : UnknownMode)
deriving DecidableEq, Repr

def BadValue.message : BadValue → String
  | number error => error.message
  | mode error => error.message

inductive UsageError where
  | unexpected (argument : String)
  | missingPath
  | missingValue (name : OptionName)
  | invalidValue (name : OptionName) (reason : BadValue)
  | repeated (name : OptionName)
deriving DecidableEq, Repr

def UsageError.message : UsageError → String
  | unexpected argument =>
    "Found argument '" ++ argument ++ "' which wasn't expected, or isn't valid in this context"
  | missingPath => "The following required arguments were not provided:"
  | missingValue name =>
    "The argument '" ++ name.shown ++ "' requires a value but none was supplied"
  | invalidValue name reason => "Invalid value for '" ++ name.shown ++ "': " ++ reason.message
  | repeated name =>
    "The argument '" ++ name.shown
      ++ "' was provided more than once, but cannot be used multiple times"

/-- Why the arguments do not lead to a run. -/
inductive Halt where
  | usage (error : UsageError)
  | version
  | help
deriving DecidableEq, Repr

/-- What the arguments taken so far say. -/
structure Scan where
  path : Option String := none
  /-- Every time that an option was named. -/
  named : List OptionName := []
  /-- The values of options in the order of the arguments. -/
  values : List (OptionName × String) := []
  /-- The option that takes the next argument as its value. -/
  pending : Option OptionName := none
  /-- Nothing but paths comes behind `--`. -/
  plain : Bool := false

namespace Scan

def positional (scan : Scan) (argument : String) : Except Halt Scan :=
  match scan.path with
  | none => .ok { scan with path := some argument }
  | some _ => .error (.usage (.unexpected argument))

/-- Notes an option. Equals signs in front of its value do not belong to the value. -/
def note (scan : Scan) (option : OptionName) : Option (List Char) → Scan
  | some value =>
    { scan with
      named := scan.named ++ [option]
      values := scan.values ++ [(option, String.ofList (value.dropWhile (· == '=')))]
      pending := none }
  | none => { scan with named := scan.named ++ [option], pending := some option }

/-- An argument with a long name; all dashes in front of it are dropped. -/
def long (scan : Scan) (program : Program) (text : List Char) : Except Halt Scan :=
  let text := text.dropWhile (· == '-')
  let word := String.ofList (text.takeWhile (· != '='))
  let value := if text.contains '=' then some (text.dropWhile (· != '=')) else none
  match program.options.find? fun option => option.long == word with
  | some option => .ok (scan.note option value)
  | none =>
    if word == "help" then .error .help
    else if word == "version" then .error .version
    else .error (.usage (.unexpected ("--" ++ word)))

/-- An argument with a short name; what follows the letter is its value. -/
def short (scan : Scan) (program : Program) (letter : Char) (rest : List Char) : Except Halt Scan :=
  match program.options.find? fun option => option.short? == some letter with
  | some option => .ok (scan.note option (if rest.isEmpty then none else some rest))
  | none =>
    if letter == 'h' then .error .help
    else if letter == 'V' then .error .version
    else .error (.usage (.unexpected (String.ofList ['-', letter])))

/-- Takes one argument. An argument with a dash and more is never the value of an option. -/
def take (program : Program) (scan : Scan) (argument : String) : Except Halt Scan :=
  if scan.plain then scan.positional argument
  else
    match argument.toList with
    | ['-', '-'] => .ok { scan with plain := true }
    | '-' :: '-' :: text => scan.long program text
    | '-' :: letter :: rest => scan.short program letter rest
    | _ =>
      match scan.pending with
      | some option =>
        .ok { scan with values := scan.values ++ [(option, argument)], pending := none }
      | none => scan.positional argument

/-- The values of an option, or else what stands in for them. -/
def valuesOf (scan : Scan) (program : Program) (option : OptionName) : List String :=
  match scan.values.filterMap fun (other, value) => if other = option then some value else none with
  | [] => (program.fallback? option).toList
  | given => given

/-- Reads the value of an option. -/
def read (scan : Scan) (program : Program) (option : OptionName) (parse : String → Except BadValue α) :
    Except UsageError (Option α) := do
  let given := scan.valuesOf program option
  if option ∈ scan.named ∧ given.isEmpty then throw (.missingValue option)
  let parsed ← given.mapM fun text => (parse text).mapError (.invalidValue option)
  if 1 < scan.named.count option then throw (.repeated option)
  return parsed.head?

end Scan

/-- What a program is told to do. -/
structure Options where
  path : String
  /-- The number of steps before the screen is printed. -/
  steps : Nat
  /-- Steps a second, or zero for no pause. -/
  hz : Nat
  config : Config

/-- A number of at most 64 bits. -/
def number (text : String) : Except BadValue Nat :=
  (Numeral.readUnsigned UInt64.size text.toList).mapError .number

def mode (text : String) : Except BadValue TimerMode :=
  (TimerMode.ofName text).mapError .mode

/-- The options of arguments that have all been taken. -/
def Scan.finish (program : Program) (scan : Scan) : Except UsageError Options := do
  let some path := scan.path | throw .missingPath
  if let some option := scan.pending then
    if (scan.valuesOf program option).isEmpty then throw (.missingValue option)
  let steps ← scan.read program .steps number
  let hz ← scan.read program .hz number
  let timers ← scan.read program .timers mode
  let seed ← scan.read program .seed number
  return {
    path
    steps := steps.getD 0
    hz := hz.getD 0
    config := { timerMode := timers.getD .perStep, seed := seed.map UInt64.ofNat } }

def options (program : Program) (arguments : List String) : Except Halt Options := do
  let scan ← arguments.foldlM (Scan.take program) {}
  (scan.finish program).mapError .usage

end Chip8.CommandLine
