import Chip8.CommandLine
import Chip8.Files
import Chip8.Machine

/-! From arguments to a machine with its program in memory. Whatever stands in the way ends the
program with an exit code and a report, before the first step. -/
namespace Chip8.CommandLine

/-- How a program ends and what it has written. -/
structure Exit where
  code : UInt32
  out : String := ""
  err : String := ""
deriving DecidableEq, Repr

/-- Why a run does not begin although its options are in order. -/
inductive Failure where
  | unreadable (error : ReadError)
  | refused (error : LoadError)
deriving DecidableEq, Repr

/-- An error in the words of the system. -/
def systemError (code : Nat) (kind message : String) : String :=
  "Os \x7b code: " ++ Numeral.decimal code ++ ", kind: " ++ kind ++ ", message: \"" ++ message
    ++ "\" \x7d"

def readReport : ReadError → String
  | .notFound => systemError 2 "NotFound" "No such file or directory"
  | .permissionDenied => systemError 13 "PermissionDenied" "Permission denied"
  | .notDirectory => systemError 20 "NotADirectory" "Not a directory"
  | .isDirectory => systemError 21 "IsADirectory" "Is a directory"
  | .nameTooLong => systemError 36 "InvalidFilename" "File name too long"
  | .other message => systemError 0 "Other" message

def Failure.report : Failure → String
  | unreadable error => readReport error
  | refused (.tooLarge size max) =>
    "RomTooLarge \x7b size: " ++ Numeral.decimal size ++ ", max: " ++ Numeral.decimal max ++ " \x7d"
  | refused .empty => "EmptyProgram"

def Failure.exit (failure : Failure) : Exit :=
  { code := 1, err := "Error: " ++ failure.report ++ "\n" }

def banner : String :=
  "chip8-vm 0.1.0\n"

def Halt.exit : Halt → Exit
  | usage error =>
    { code := 1, err := "error: " ++ error.message ++ "\n\nFor more information try --help\n" }
  | version => { code := 0, out := banner }
  | help => { code := 0, out := banner ++ "\nUSAGE:\n    chip8-vm [OPTIONS] <input>\n" }

/-- A machine with the program of the options in memory. -/
def Options.boot (options : Options) (own : Key) (content : Except ReadError (List UInt8)) :
    Except Failure Machine :=
  match content with
  | .error error => .error (.unreadable error)
  | .ok program =>
    let loaded := (Machine.ofConfig options.config own).load program
    match loaded.answer with
    | .error error => .error (.refused error)
    | .ok () => .ok loaded.state

/-- All that a program does before its first step, for a way to read files. -/
def prepare (program : Program) (own : Key) (file : String → Except ReadError (List UInt8))
    (arguments : List String) : Except Exit (Options × Machine) :=
  match options program arguments with
  | .error halt => .error halt.exit
  | .ok options =>
    match options.boot own (file options.path) with
    | .error failure => .error failure.exit
    | .ok machine => .ok (options, machine)

end Chip8.CommandLine
