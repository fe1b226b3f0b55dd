/-! The instruction set: thirty-five instructions over registers, constants and addresses. Operands
keep the full width of their words; `Instruction.InRange` says which values an opcode can hold. -/
namespace Chip8

/-- A place in memory or an opcode's address operand. -/
abbrev Address := UInt16

/-- The number of a register. -/
abbrev Register := UInt8

/-- One instruction of the console. -/
inductive Instruction where
  /-- A call into the host's own machine code, which has no effect here. -/
  | machineRoutine (address : Address)
  | clearScreen
  | returnFromCall
  | jump (address : Address)
  | call (address : Address)
  | skipIfConst (x : Register) (n : UInt8)
  | skipUnlessConst (x : Register) (n : UInt8)
  | skipIfEqual (x y : Register)
  | setConst (x : Register) (n : UInt8)
  /-- Adds a constant without touching the flag register. -/
  | addConst (x : Register) (n : UInt8)
  | copy (x y : Register)
  | bitOr (x y : Register)
  | bitAnd (x y : Register)
  | bitXor (x y : Register)
  | add (x y : Register)
  | subtract (x y : Register)
  | shiftRight (x : Register)
  /-- Leaves the second register less the first in the first. -/
  | subtractFrom (x y : Register)
  | shiftLeft (x : Register)
  | skipUnlessEqual (x y : Register)
  | setIndex (address : Address)
  /-- Jumps as far behind the address as the first register says. -/
  | jumpOffset (address : Address)
  | random (x : Register) (mask : UInt8)
  | draw (x y : Register) (height : UInt8)
  | skipIfKey (x : Register)
  | skipUnlessKey (x : Register)
  | readDelay (x : Register)
  | awaitKey (x : Register)
  | setDelay (x : Register)
  | setSound (x : Register)
  | addIndex (x : Register)
  /-- Points the index register at the glyph of a hexadecimal digit. -/
  | pointAtGlyph (x : Register)
  /-- Stores the three decimal digits of a register. -/
  | storeDecimal (x : Register)
  /-- Stores the registers up to and including `x`. -/
  | storeRegisters (x : Register)
  /-- Loads the registers up to and including `x`. -/
  | loadRegisters (x : Register)
deriving DecidableEq, Repr

end Chip8
