import Chip8.Instruction
import Chip8.Numeral
import Chip8.Opcode

/-! Faults of execution and their tally. A fault never stops the machine: its instruction is skipped,
and `FaultLog` keeps one counter for each kind, which stops at the greatest 32-bit number. -/
namespace Chip8

/-- Why an instruction was skipped, with its own address. -/
inductive Fault where
  | stackOverflow (pc : Address)
  | stackUnderflow (pc : Address)
  | unknownOpcode (pc : Address) (opcode : Opcode)
deriving DecidableEq, Repr

def Fault.message : Fault → String
  | stackOverflow pc => "stack overflow at " ++ Numeral.markedHex 3 pc.toNat
  | stackUnderflow pc => "stack underflow at " ++ Numeral.markedHex 3 pc.toNat
  | unknownOpcode pc opcode =>
    "unknown opcode " ++ Numeral.markedHex 4 opcode.toNat ++ " at " ++ Numeral.markedHex 3 pc.toNat

/-- The faults since the last reset. -/
structure FaultLog where
  overflows : UInt32 := 0
  underflows : UInt32 := 0
  unknown : UInt32 := 0
  last : Option Fault := none
deriving DecidableEq, Repr

namespace FaultLog

/-- The greatest count. -/
def limit : Nat := 4294967295

/-- A sum that stops at the greatest count. -/
def plus (a b : UInt32) : UInt32 :=
  UInt32.ofNat (min (a.toNat + b.toNat) limit)

theorem toNat_plus (a b : UInt32) : (plus a b).toNat = min (a.toNat + b.toNat) limit := by
  have bound : min (a.toNat + b.toNat) limit < 4294967296 := by simp only [limit]; omega
  simpa [plus] using bound

def record (log : FaultLog) (fault : Fault) : FaultLog :=
  match fault with
  | .stackOverflow _ => { log with overflows := plus log.overflows 1, last := some fault }
  | .stackUnderflow _ => { log with underflows := plus log.underflows 1, last := some fault }
  | .unknownOpcode _ _ => { log with unknown := plus log.unknown 1, last := some fault }

def total (log : FaultLog) : UInt32 :=
  plus (plus log.overflows log.underflows) log.unknown

def isEmpty (log : FaultLog) : Bool :=
  log.last.isNone

end FaultLog

end Chip8
