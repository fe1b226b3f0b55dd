/-! Settings of a machine: how its timers are driven, and the seed of its random bytes. -/
namespace Chip8

/-- Who counts the timers down. -/
inductive TimerMode where
  /-- Every step does. -/
  | perStep
  /-- The host does, sixty times a second. -/
  | decoupled
deriving DecidableEq, Repr

/-- A name that no mode has, in lower case. -/
structure UnknownMode where
  name : String
deriving DecidableEq, Repr

def UnknownMode.message (error : UnknownMode) : String :=
  "unknown timer mode '" ++ error.name ++ "', expected per-step or decoupled"

/-- The mode of a name in upper or lower case. -/
def TimerMode.ofName (name : String) : Except UnknownMode TimerMode :=
  let lower := name.toLower
  if lower ∈ ["per-step", "perstep", "step"] then .ok perStep
  else if lower ∈ ["decoupled", "60hz"] then .ok decoupled
  else .error ⟨lower⟩

structure Config where
  timerMode : TimerMode := .perStep
  /-- Without a seed every machine has random bytes of its own. -/
  seed : Option UInt64 := none
deriving DecidableEq, Repr

namespace Config

def withSeed (config : Config) (seed : UInt64) : Config :=
  { config with seed := some seed }

def withTimerMode (config : Config) (timerMode : TimerMode) : Config :=
  { config with timerMode }

end Config

end Chip8
