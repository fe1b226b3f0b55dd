import Chip8.Config
import Chip8.Console

/-! A console with its settings, its tally of faults and its listener. A host steps it at its own pace
and feeds it keys and timer ticks in between; nothing here ever waits. -/
namespace Chip8

structure Machine where
  console : Console
  config : Config
  faults : FaultLog
  /-- Who is told of faults, by name. -/
  listener : Option String
  running : Bool
deriving DecidableEq

namespace Machine

/-- A new machine. Its own key serves only when the settings have no seed. -/
def ofConfig (config : Config) (own : Key) : Machine where
  console := .initial (config.seed.elim (.ofKey own) .ofSeed)
  config
  faults := {}
  listener := none
  running := false

/-- Puts every part back to power-on. With a seed the random bytes start again; the listener stays. -/
def reset (m : Machine) : Outcome Machine Unit :=
  let processor := m.console.processor.reset
  let console : Console :=
    { processor := m.config.seed.elim processor processor.reseed
      memory := .initial
      display := m.console.display.clear
      keypad := .initial }
  { state := { m with console, faults := {}, running := false }
    answer := ()
    events := [.resetting] }

/-- Resets, then puts a program into memory. A refused program leaves the machine freshly reset. -/
def load (m : Machine) (program : List UInt8) : Outcome Machine (Except LoadError Unit) :=
  let fresh := m.reset
  let loaded := fresh.state.console.memory.load program
  { state := { fresh.state with console := { fresh.state.console with memory := loaded.state } }
    answer := loaded.answer
    events := fresh.events ++ if loaded.answer.isOk then [.loaded program.length] else [] }

def tick (m : Machine) : Machine :=
  { m with console := { m.console with processor := m.console.processor.tick } }

/-- Counts a fault and tells the listener. -/
def note (m : Machine) (fault : Fault) : Outcome Machine Unit :=
  { state := { m with faults := m.faults.record fault }
    answer := ()
    events := .faulted fault :: (m.listener.map (.delivered · fault)).toList }

/-- One cycle of the console with its fault noted. -/
def advance (m : Machine) : Outcome Machine Unit :=
  let done := m.console.cycle
  let after := { m with console := done.state }
  match done.answer with
  | none => { state := after, answer := (), events := done.events }
  | some fault =>
    let noted := after.note fault
    { noted with events := done.events ++ noted.events }

/-- One step: a cycle unless a key is awaited, then the timers if they follow the steps. -/
def step (m : Machine) : Outcome Machine Unit :=
  let done := if m.console.processor.isWaiting then { state := m, answer := () } else m.advance
  match m.config.timerMode with
  | .perStep => { done with state := done.state.tick }
  | .decoupled => done

/-- Puts a key down. A fresh press is offered to the processor. -/
def press (m : Machine) (key : Nat) : Outcome Machine Unit :=
  let pressed := m.console.keypad.change key true
  let console := { m.console with keypad := pressed.state }
  if pressed.answer then
    let offered := console.processor.offerKey (UInt8.ofNat key)
    { state := { m with console := { console with processor := offered.state } }
      answer := ()
      events := pressed.events ++ offered.events }
  else { state := { m with console }, answer := (), events := pressed.events }

/-- Lets a key go. -/
def release (m : Machine) (key : Nat) : Outcome Machine Unit :=
  let released := m.console.keypad.change key false
  { state := { m with console := { m.console with keypad := released.state } }
    answer := ()
    events := released.events }

/-- Starts the random bytes again from a seed, which later resets use too. -/
def reseed (m : Machine) (seed : UInt64) : Machine :=
  { m with
    config := m.config.withSeed seed
    console := { m.console with processor := m.console.processor.reseed seed } }

def start (m : Machine) : Machine :=
  { m with running := true }

def stop (m : Machine) : Machine :=
  { m with running := false }

/-- Takes the mark of a new picture back and tells whether it was there. -/
def consumeRedraw (m : Machine) : Outcome Machine Bool :=
  let (display, pending) := m.console.display.consumeRedraw
  { state := { m with console := { m.console with display } }, answer := pending }

/-- Names the listener, in place of an earlier one. -/
def listen (m : Machine) (name : String) : Machine :=
  { m with listener := some name }

def isPressed (m : Machine) (key : Nat) : Bool :=
  m.console.keypad.isHeld key

/-- A host should sound its buzzer while this holds. -/
def soundActive (m : Machine) : Bool :=
  0 < m.console.processor.sound

def frame (m : Machine) : Frame :=
  m.console.display.screen.frame

end Machine

end Chip8
