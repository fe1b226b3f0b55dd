import Chip8.Headless

/-! The program that runs without a screen. It reads the file, keeps the time, and writes what the
library says. -/
namespace Chip8.Host

open CommandLine

/-- The system's reason as a value. -/
def readError : IO.Error → ReadError
  | .noFileOrDirectory _ _ _ => .notFound
  | .permissionDenied _ _ _ => .permissionDenied
  | .inappropriateType _ 21 _ => .isDirectory
  | .inappropriateType _ _ _ => .notDirectory
  | .invalidArgument _ _ _ => .nameTooLong
  | other => .other (toString other)

def readFile (path : String) : IO (Except ReadError (List UInt8)) := do
  try
    return .ok (← IO.FS.readBinFile path).toList
  catch error =>
    return .error (readError error)

/-- Eight words of the system's own random bytes. -/
def ownKey : IO Key := do
  let bytes ← IO.getRandomBytes 32
  return Vector.ofFn fun word =>
    (List.range 4).foldl (fun sum k => sum * 256 + (bytes[word.val * 4 + k]?.getD 0).toUInt32) 0

/-- The nanoseconds between two ticks of the timers. -/
def tickPeriod : Nat := 16666000

/-- Watches the clock until it shows a time, for so many looks at most. -/
def watch (time : Nat) : Nat → BaseIO Unit
  | 0 => return
  | looks + 1 => do
    if (← IO.monoNanosNow) < time then watch time looks

/-- Waits for so many nanoseconds. The system sleeps by the millisecond, and the rest is watched out;
no look takes less than a nanosecond, so there are looks enough. -/
def pause (nanoseconds : Nat) : BaseIO Unit := do
  let begun ← IO.monoNanosNow
  IO.sleep (nanoseconds / 1000000).toUInt32
  watch (begun + nanoseconds) (nanoseconds % 1000000)

/-- Turns in real time, with an even share of a second for each; `nextTick` is the time of the next
tick. -/
def turns (hz : Nat) (m : Machine) (nextTick : Nat) : Nat → IO Machine
  | 0 => return m
  | n + 1 => do
    let due := nextTick ≤ (← IO.monoNanosNow)
    let m := Headless.turn due m
    if 0 < hz then pause (1000000000 / hz)
    turns hz m (if due then nextTick + tickPeriod else nextTick) n

def finish (exit : Exit) : IO UInt32 := do
  IO.print exit.out
  IO.eprint exit.err
  return exit.code

end Chip8.Host

open Chip8 in
def main (arguments : List String) : IO UInt32 := do
  match CommandLine.options .headless arguments with
  | .error halt => Host.finish halt.exit
  | .ok options =>
    match options.boot (← Host.ownKey) (← Host.readFile options.path) with
    | .error failure => Host.finish failure.exit
    | .ok machine =>
      let start ← IO.monoNanosNow
      let m ← Host.turns options.hz machine.start (start + Host.tickPeriod) options.steps
      Host.finish { code := 0, out := m.stop.frame.text }
