/-! Reading unsigned decimal text below a limit. The digits are taken from left to right, and at each
character a wrong one is found before an overflow. -/
namespace Chip8.Numeral

inductive UnsignedError where
  | empty
  | badDigit
  | overflow
deriving DecidableEq, Repr

def UnsignedError.message : UnsignedError → String
  | empty => "cannot parse integer from empty string"
  | badDigit => "invalid digit found in string"
  | overflow => "number too large to fit in target type"

/-- Goes on reading with the number read so far. -/
def readDigits (limit n : Nat) : List Char → Except UnsignedError Nat
  | [] => .ok n
  | c :: rest =>
    if c.isDigit then
      let grown := n * 10 + (c.toNat - '0'.toNat)
      if grown < limit then readDigits limit grown rest else .error .overflow
    else .error .badDigit

/-- Reads a number below `limit`. One plus sign may stand in front of the digits. -/
def readUnsigned (limit : Nat) : List Char → Except UnsignedError Nat
  | [] => .error .empty
  | ['+'] => .error .badDigit
  | '+' :: digits => readDigits limit 0 digits
  | digits => readDigits limit 0 digits

end Chip8.Numeral
