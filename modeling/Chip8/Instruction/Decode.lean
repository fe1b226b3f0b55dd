import Chip8.Opcode

/-! Decoding chooses by the family digit and then, where a family has several members, by the last
digit or the last byte. `Instruction.encode` writes each instruction's own opcode, with a zero in
the digit that the shifts ignore. -/
namespace Chip8.Instruction

/-- The members of family 8, which differ in the last digit. -/
def arithmetic? (o : Opcode) : Option Instruction :=
  match o.nibble.toNat with
  | 0x0 => some (copy o.x o.y)
  | 0x1 => some (bitOr o.x o.y)
  | 0x2 => some (bitAnd o.x o.y)
  | 0x3 => some (bitXor o.x o.y)
  | 0x4 => some (add o.x o.y)
  | 0x5 => some (subtract o.x o.y)
  | 0x6 => some (shiftRight o.x)
  | 0x7 => some (subtractFrom o.x o.y)
  | 0xE => some (shiftLeft o.x)
  | _ => none

/-- The members of family F, which differ in the last byte. -/
def device? (o : Opcode) : Option Instruction :=
  match o.byte.toNat with
  | 0x07 => some (readDelay o.x)
  | 0x0A => some (awaitKey o.x)
  | 0x15 => some (setDelay o.x)
  | 0x18 => some (setSound o.x)
  | 0x1E => some (addIndex o.x)
  | 0x29 => some (pointAtGlyph o.x)
  | 0x33 => some (storeDecimal o.x)
  | 0x55 => some (storeRegisters o.x)
  | 0x65 => some (loadRegisters o.x)
  | _ => none

/-- The instruction of an opcode, if the opcode belongs to the instruction set. Family 0 holds two
instructions of its own and reads every other word as a machine routine. -/
def decode? (o : Opcode) : Option Instruction :=
  match o.family with
  | 0x0 =>
    if o = 0x00E0 then some clearScreen
    else if o = 0x00EE then some returnFromCall
    else some (machineRoutine o.address)
  | 0x1 => some (jump o.address)
  | 0x2 => some (call o.address)
  | 0x3 => some (skipIfConst o.x o.byte)
  | 0x4 => some (skipUnlessConst o.x o.byte)
  | 0x5 => if o.nibble = 0 then some (skipIfEqual o.x o.y) else none
  | 0x6 => some (setConst o.x o.byte)
  | 0x7 => some (addConst o.x o.byte)
  | 0x8 => arithmetic? o
  | 0x9 => if o.nibble = 0 then some (skipUnlessEqual o.x o.y) else none
  | 0xA => some (setIndex o.address)
  | 0xB => some (jumpOffset o.address)
  | 0xC => some (random o.x o.byte)
  | 0xD => some (draw o.x o.y o.nibble)
  | 0xE =>
    if o.byte = 0x9E then some (skipIfKey o.x)
    else if o.byte = 0xA1 then some (skipUnlessKey o.x)
    else none
  | 0xF => device? o
  | _ => none

/-- The instruction of two bytes, the first one high. -/
def ofBytes? (high low : UInt8) : Option Instruction :=
  decode? (Opcode.ofBytes high low)

/-- A family digit over an address. -/
def overAddress (family : Nat) (a : Address) : Opcode :=
  UInt16.ofNat (family * 4096 + a.toNat)

/-- A family digit over a register and a last byte. -/
def overByte (family : Nat) (x : Register) (last : Nat) : Opcode :=
  UInt16.ofNat (family * 4096 + x.toNat * 256 + last)

/-- A family digit over two registers and a last digit. -/
def overDigits (family : Nat) (x y : Register) (last : Nat) : Opcode :=
  UInt16.ofNat (family * 4096 + x.toNat * 256 + y.toNat * 16 + last)

/-- The operands that an opcode can hold. The two words of family 0 that have a meaning of their own
are no machine routines. -/
def InRange : Instruction → Prop
  | machineRoutine a => a.toNat < 4096 ∧ a ≠ 0x0E0 ∧ a ≠ 0x0EE
  | clearScreen | returnFromCall => True
  | jump a | call a | setIndex a | jumpOffset a => a.toNat < 4096
  | skipIfConst x _ | skipUnlessConst x _ | setConst x _ | addConst x _ | random x _ => x.toNat < 16
  | skipIfEqual x y | skipUnlessEqual x y | copy x y | bitOr x y | bitAnd x y | bitXor x y
  | add x y | subtract x y | subtractFrom x y => x.toNat < 16 ∧ y.toNat < 16
  | draw x y height => x.toNat < 16 ∧ y.toNat < 16 ∧ height.toNat < 16
  | shiftRight x | shiftLeft x | skipIfKey x | skipUnlessKey x | readDelay x | awaitKey x
  | setDelay x | setSound x | addIndex x | pointAtGlyph x | storeDecimal x | storeRegisters x
  | loadRegisters x => x.toNat < 16

/-- The opcode that stands for an instruction. It is meant for operands in range. -/
def encode : Instruction → Opcode
  | machineRoutine a => overAddress 0x0 a
  | clearScreen => 0x00E0
  | returnFromCall => 0x00EE
  | jump a => overAddress 0x1 a
  | call a => overAddress 0x2 a
  | skipIfConst x n => overByte 0x3 x n.toNat
  | skipUnlessConst x n => overByte 0x4 x n.toNat
  | skipIfEqual x y => overDigits 0x5 x y 0x0
  | setConst x n => overByte 0x6 x n.toNat
  | addConst x n => overByte 0x7 x n.toNat
  | copy x y => overDigits 0x8 x y 0x0
  | bitOr x y => overDigits 0x8 x y 0x1
  | bitAnd x y => overDigits 0x8 x y 0x2
  | bitXor x y => overDigits 0x8 x y 0x3
  | add x y => overDigits 0x8 x y 0x4
  | subtract x y => overDigits 0x8 x y 0x5
  | shiftRight x => overDigits 0x8 x 0 0x6
  | subtractFrom x y => overDigits 0x8 x y 0x7
  | shiftLeft x => overDigits 0x8 x 0 0xE
  | skipUnlessEqual x y => overDigits 0x9 x y 0x0
  | setIndex a => overAddress 0xA a
  | jumpOffset a => overAddress 0xB a
  | random x n => overByte 0xC x n.toNat
  | draw x y height => overDigits 0xD x y height.toNat
  | skipIfKey x => overByte 0xE x 0x9E
  | skipUnlessKey x => overByte 0xE x 0xA1
  | readDelay x => overByte 0xF x 0x07
  | awaitKey x => overByte 0xF x 0x0A
  | setDelay x => overByte 0xF x 0x15
  | setSound x => overByte 0xF x 0x18
  | addIndex x => overByte 0xF x 0x1E
  | pointAtGlyph x => overByte 0xF x 0x29
  | storeDecimal x => overByte 0xF x 0x33
  | storeRegisters x => overByte 0xF x 0x55
  | loadRegisters x => overByte 0xF x 0x65

end Chip8.Instruction
