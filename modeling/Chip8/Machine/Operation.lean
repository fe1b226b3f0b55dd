import Chip8.Machine

/-! What a host can do to a machine, as data. A run applies a list of operations and collects their
answers and events in order. -/
namespace Chip8

inductive Operation where
  | load (program : List UInt8)
  | reset
  | step
  | tick
  | press (key : Nat)
  | release (key : Nat)
  | reseed (seed : UInt64)
  | start
  | stop
  | consumeRedraw
  | listen (name : String)
deriving DecidableEq, Repr

/-- What an operation tells its host. -/
inductive Answer where
  | done
  | loaded (result : Except LoadError Unit)
  /-- Whether a new picture was pending. -/
  | redraw (pending : Bool)

namespace Machine

def apply (m : Machine) : Operation → Outcome Machine Answer
  | .load program =>
    let loaded := m.load program
    { loaded with answer := .loaded loaded.answer }
  | .reset => { m.reset with answer := .done }
  | .step => { m.step with answer := .done }
  | .tick => { state := m.tick, answer := .done }
  | .press key => { m.press key with answer := .done }
  | .release key => { m.release key with answer := .done }
  | .reseed seed => { state := m.reseed seed, answer := .done }
  | .start => { state := m.start, answer := .done }
  | .stop => { state := m.stop, answer := .done }
  | .consumeRedraw =>
    let consumed := m.consumeRedraw
    { consumed with answer := .redraw consumed.answer }
  | .listen name => { state := m.listen name, answer := .done }

def run (m : Machine) : List Operation → Outcome Machine (List Answer)
  | [] => { state := m, answer := [] }
  | operation :: rest =>
    let first := m.apply operation
    let later := first.state.run rest
    { state := later.state
      answer := first.answer :: later.answer
      events := first.events ++ later.events }

end Machine

end Chip8
