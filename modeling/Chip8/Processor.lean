import Chip8.Event
import Chip8.Memory
import Chip8.Processor.CallStack
import Chip8.Processor.Registers
import Chip8.Random

/-! The state of the processor. Its program counter moves by two around the ring, jumps go to even
addresses, and the two timers stop at zero. -/
namespace Chip8

/-- Whether the processor executes or waits for a key. -/
inductive KeyWait where
  | running
  /-- No key has gone down yet; it is meant for the register. -/
  | waiting (x : Register)
  /-- A key went down; the next cycle takes it. -/
  | received (x : Register) (key : UInt8)
deriving DecidableEq, Repr

structure Processor where
  registers : Registers
  index : Address
  pc : Address
  stack : CallStack
  delay : UInt8
  sound : UInt8
  wait : KeyWait
  random : RandomSource
deriving DecidableEq

namespace Processor

/-- The processor at power-on, with a source of random bytes. -/
def initial (random : RandomSource) : Processor where
  registers := .initial
  index := 0
  pc := Memory.programStart
  stack := .empty
  delay := 0
  sound := 0
  wait := .running
  random

/-- Back to power-on; the random source goes on where it is. -/
def reset (p : Processor) : Processor :=
  initial p.random

def reseed (p : Processor) (seed : UInt64) : Processor :=
  { p with random := .ofSeed seed }

/-- An address taken around the ring. -/
def wrap (a : Address) : Address :=
  a % 4096

/-- Moves past one instruction. -/
def skip (p : Processor) : Processor :=
  { p with pc := wrap (p.pc + 2) }

def skipIf (p : Processor) (condition : Bool) : Processor :=
  if condition then p.skip else p

/-- Goes to the even address at or just below a target. -/
def jump (p : Processor) (target : Address) : Processor :=
  { p with pc := wrap target / 2 * 2 }

def get (p : Processor) (x : Register) : UInt8 :=
  p.registers.get x

def set (p : Processor) (x : Register) (value : UInt8) : Processor :=
  { p with registers := p.registers.set x value }

def setFlagged (p : Processor) (x : Register) (value flag : UInt8) : Processor :=
  { p with registers := p.registers.setFlagged x value flag }

/-- Takes one from a timer, down to zero. -/
def countDown (timer : UInt8) : UInt8 :=
  if timer = 0 then 0 else timer - 1

def tick (p : Processor) : Processor :=
  { p with delay := countDown p.delay, sound := countDown p.sound }

def isWaiting (p : Processor) : Bool :=
  match p.wait with
  | .waiting _ => true
  | _ => false

/-- Offers a key that has just gone down. The answer tells whether the processor waited for it. -/
def offerKey (p : Processor) (key : UInt8) : Outcome Processor Bool :=
  match p.wait with
  | .waiting x =>
    { state := { p with wait := .received x key }, answer := true, events := [.keyArrived key x] }
  | _ => { state := p, answer := false }

end Processor

end Chip8
