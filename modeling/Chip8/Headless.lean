import Chip8.CommandLine.Boot

/-! A run without a screen: boot, step as often as the options say, and print the last frame. The
clock enters only as the answer whether a tick of the timers is due after a step. -/
namespace Chip8.Headless

open CommandLine

/-- A step, a tick if one is due and the host drives the timers, and a look at the new picture. -/
def turn (due : Bool) (m : Machine) : Machine :=
  let stepped := m.step.state
  let ticked := if due ∧ m.config.timerMode = .decoupled then stepped.tick else stepped
  ticked.consumeRedraw.state

/-- As many turns as the number says; `due` answers for each turn by its number. -/
def turns (due : Nat → Bool) (m : Machine) (n : Nat) : Machine :=
  n.fold (fun k _ m => turn (due k) m) m

/-- The last frame of a run, as text. -/
def play (due : Nat → Bool) (steps : Nat) (m : Machine) : String :=
  (turns due m.start steps).stop.frame.text

/-- The whole program, for a way to read files. -/
def perform (due : Nat → Bool) (own : Key) (file : String → Except ReadError (List UInt8))
    (arguments : List String) : Exit :=
  match prepare .headless own file arguments with
  | .error exit => exit
  | .ok (options, machine) => { code := 0, out := play due options.steps machine }

end Chip8.Headless
