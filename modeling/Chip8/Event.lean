import Chip8.Fault
import Chip8.Instruction.Mnemonic

/-! What the machine tells about its work. Events are values: the entries of a host's log and the
faults handed to its listener are read off them, in the order in which they happened. -/
namespace Chip8

inductive Event where
  | resetting
  | loaded (size : Nat)
  | executing (pc : Address) (instruction : Instruction)
  | awaitingKey (x : Register)
  | keyArrived (key : UInt8) (x : Register)
  /-- A key number that the keypad does not have. -/
  | keyIgnored (key : Nat)
  | faulted (fault : Fault)
  /-- A fault was handed to the listener of this name. -/
  | delivered (listener : String) (fault : Fault)
deriving DecidableEq, Repr

/-- The weight of a log entry. -/
inductive Level where
  | trace
  | debug
  | warn
deriving DecidableEq, Repr

def Level.name : Level → String
  | trace => "TRACE"
  | debug => "DEBUG"
  | warn => "WARN"

namespace Event

/-- The log entry of an event. Deliveries are not logged. -/
def entry? : Event → Option (Level × String)
  | resetting => some (.debug, "Resetting emulator")
  | loaded size => some (.debug, "Loaded " ++ Numeral.decimal size ++ " byte program")
  | executing pc instruction =>
    some (.trace, Numeral.markedHex 3 pc.toNat ++ ": " ++ instruction.mnemonic)
  | awaitingKey x => some (.debug, "Waiting for key into " ++ Instruction.registerText x)
  | keyArrived key x =>
    some (.debug, "Key " ++ Numeral.upperHex key.toNat ++ " resolves wait into "
      ++ Instruction.registerText x)
  | keyIgnored key => some (.debug, "Ignoring key " ++ Numeral.decimal key ++ " outside the keypad")
  | faulted fault => some (.warn, fault.message)
  | delivered _ _ => none

/-- The lines of a log, each a level and a message. -/
def log (events : List Event) : List String :=
  events.filterMap fun event => event.entry?.map fun (level, message) => level.name ++ " " ++ message

/-- The faults raised, in order. -/
def faults (events : List Event) : List Fault :=
  events.filterMap fun
    | faulted fault => some fault
    | _ => none

/-- The faults handed over, in order, each with its listener. -/
def deliveries (events : List Event) : List (String × Fault) :=
  events.filterMap fun
    | delivered listener fault => some (listener, fault)
    | _ => none

end Event

/-- What an operation leaves behind: the state after it, its answer, and the events on the way. -/
structure Outcome (σ α : Type) where
  state : σ
  answer : α
  events : List Event := []

end Chip8
