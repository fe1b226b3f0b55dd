import Chip8.Numeral

/-! Why a program is refused. A refused program leaves nothing of itself in memory. -/
namespace Chip8

inductive LoadError where
  /-- The program is longer than the memory behind its start. -/
  | tooLarge (size max : Nat)
  | empty
deriving DecidableEq, Repr

namespace LoadError

def message : LoadError → String
  | tooLarge size max =>
    "program is too large (" ++ Numeral.decimal size ++ " bytes), max size is "
      ++ Numeral.decimal max ++ " bytes"
  | empty => "program is empty"

end LoadError

end Chip8
