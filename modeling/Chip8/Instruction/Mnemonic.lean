import Chip8.Instruction
import Chip8.Numeral

/-! Assembler text. Registers are a `V` and an upper-case number, constants and addresses marked
hexadecimal with at least two and three digits, and the height of a sprite is decimal. -/
namespace Chip8.Instruction

def registerText (x : Register) : String :=
  "V" ++ Numeral.upperHex x.toNat

def constantText (n : UInt8) : String :=
  Numeral.markedHex 2 n.toNat

def addressText (a : Address) : String :=
  Numeral.markedHex 3 a.toNat

def registersText (x y : Register) : String :=
  registerText x ++ ", " ++ registerText y

/-- The assembler text of an instruction. -/
def mnemonic : Instruction → String
  | machineRoutine a => "SYS " ++ addressText a
  | clearScreen => "CLS"
  | returnFromCall => "RET"
  | jump a => "JP " ++ addressText a
  | call a => "CALL " ++ addressText a
  | skipIfConst x n => "SE " ++ registerText x ++ ", " ++ constantText n
  | skipUnlessConst x n => "SNE " ++ registerText x ++ ", " ++ constantText n
  | skipIfEqual x y => "SE " ++ registersText x y
  | setConst x n => "LD " ++ registerText x ++ ", " ++ constantText n
  | addConst x n => "ADD " ++ registerText x ++ ", " ++ constantText n
  | copy x y => "LD " ++ registersText x y
  | bitOr x y => "OR " ++ registersText x y
  | bitAnd x y => "AND " ++ registersText x y
  | bitXor x y => "XOR " ++ registersText x y
  | add x y => "ADD " ++ registersText x y
  | subtract x y => "SUB " ++ registersText x y
  | shiftRight x => "SHR " ++ registerText x
  | subtractFrom x y => "SUBN " ++ registersText x y
  | shiftLeft x => "SHL " ++ registerText x
  | skipUnlessEqual x y => "SNE " ++ registersText x y
  | setIndex a => "LD I, " ++ addressText a
  | jumpOffset a => "JP V0, " ++ addressText a
  | random x n => "RND " ++ registerText x ++ ", " ++ constantText n
  | draw x y height => "DRW " ++ registersText x y ++ ", " ++ Numeral.decimal height.toNat
  | skipIfKey x => "SKP " ++ registerText x
  | skipUnlessKey x => "SKNP " ++ registerText x
  | readDelay x => "LD " ++ registerText x ++ ", DT"
  | awaitKey x => "LD " ++ registerText x ++ ", K"
  | setDelay x => "LD DT, " ++ registerText x
  | setSound x => "LD ST, " ++ registerText x
  | addIndex x => "ADD I, " ++ registerText x
  | pointAtGlyph x => "LD F, " ++ registerText x
  | storeDecimal x => "LD B, " ++ registerText x
  | storeRegisters x => "LD [I], " ++ registerText x
  | loadRegisters x => "LD " ++ registerText x ++ ", [I]"

end Chip8.Instruction
