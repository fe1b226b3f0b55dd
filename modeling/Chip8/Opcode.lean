import Chip8.Instruction

/-! Opcodes are 16-bit words. Their fields are runs of hexadecimal digits, read here by division so
that every field is a statement about numbers. -/
namespace Chip8

/-- An instruction word as memory holds it, high byte first. -/
abbrev Opcode := UInt16

namespace Opcode

/-- The word of two bytes, the first one high. -/
def ofBytes (high low : UInt8) : Opcode :=
  UInt16.ofNat (high.toNat * 256 + low.toNat)

theorem toNat_ofBytes (high low : UInt8) : (ofBytes high low).toNat = 256 * high.toNat + low.toNat := by
  have boundHigh := high.toNat_lt
  have boundLow := low.toNat_lt
  simp only [ofBytes, UInt16.toNat_ofNat']
  omega

/-- The first digit, which names the family of the instruction. -/
def family (o : Opcode) : Nat :=
  o.toNat / 4096

/-- The second digit as a register. -/
def x (o : Opcode) : Register :=
  UInt8.ofNat (o.toNat / 256 % 16)

/-- The third digit as a register. -/
def y (o : Opcode) : Register :=
  UInt8.ofNat (o.toNat / 16 % 16)

/-- The last digit. -/
def nibble (o : Opcode) : UInt8 :=
  UInt8.ofNat (o.toNat % 16)

/-- The last two digits. -/
def byte (o : Opcode) : UInt8 :=
  UInt8.ofNat (o.toNat % 256)

/-- The last three digits. -/
def address (o : Opcode) : Address :=
  UInt16.ofNat (o.toNat % 4096)

/-- All four digits, first one first. -/
def digits (o : Opcode) : List Nat :=
  [o.family, o.x.toNat, o.y.toNat, o.nibble.toNat]

end Opcode

end Chip8
