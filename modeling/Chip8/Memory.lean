import Chip8.Event
import Chip8.LoadError
import Chip8.Opcode

/-! A ring of 4096 bytes. Addresses are 16-bit words of which the low twelve bits count, so every
access is in bounds; glyphs of the hexadecimal digits lie below the programs. -/
namespace Chip8

structure Memory where
  bytes : Vector UInt8 4096
deriving DecidableEq

namespace Memory

def programStart : Address := 0x200

/-- The greatest length of a program. -/
def capacity : Nat := 3584

def fontStart : Address := 0x050

/-- The rows of a glyph. -/
def glyphHeight : UInt16 := 5

/-- The glyphs of the sixteen digits, five rows each. -/
def font : List UInt8 :=
  [0xF0, 0x90, 0x90, 0x90, 0xF0,
   0x20, 0x60, 0x20, 0x20, 0x70,
   0xF0, 0x10, 0xF0, 0x80, 0xF0,
   0xF0, 0x10, 0xF0, 0x10, 0xF0,
   0x90, 0x90, 0xF0, 0x10, 0x10,
   0xF0, 0x80, 0xF0, 0x10, 0xF0,
   0xF0, 0x80, 0xF0, 0x90, 0xF0,
   0xF0, 0x10, 0x20, 0x40, 0x40,
   0xF0, 0x90, 0xF0, 0x90, 0xF0,
   0xF0, 0x90, 0xF0, 0x10, 0xF0,
   0xF0, 0x90, 0xF0, 0x90, 0x90,
   0xE0, 0x90, 0xE0, 0x90, 0xE0,
   0xF0, 0x80, 0x80, 0x80, 0xF0,
   0xE0, 0x90, 0x90, 0x90, 0xE0,
   0xF0, 0x80, 0xF0, 0x80, 0xF0,
   0xF0, 0x80, 0xF0, 0x80, 0x80]

/-- The place of an address in the ring. -/
def slot (a : Address) : Fin 4096 :=
  Fin.ofNat 4096 a.toNat

def read (memory : Memory) (a : Address) : UInt8 :=
  memory.bytes[slot a]

def write (memory : Memory) (a : Address) (byte : UInt8) : Memory :=
  ⟨memory.bytes.set (slot a) byte⟩

theorem read_write (memory : Memory) (a query : Address) (byte : UInt8) :
    (memory.write a byte).read query = if slot a = slot query then byte else memory.read query := by
  simp [read, write, Vector.getElem_set, Fin.ext_iff]

/-- The opcode at an address, high byte first. -/
def readWord (memory : Memory) (a : Address) : Opcode :=
  Opcode.ofBytes (memory.read a) (memory.read (a + 1))

/-- `n` bytes from an address on, around the ring as often as needed. -/
def readBytes (memory : Memory) (a : Address) (n : Nat) : List UInt8 :=
  (List.range n).map fun k => memory.read (a + UInt16.ofNat k)

@[simp] theorem length_readBytes (memory : Memory) (a : Address) (n : Nat) :
    (memory.readBytes a n).length = n := by
  simp [readBytes]

/-- Writes bytes from an address on, first byte first. -/
def writeBytes (memory : Memory) (a : Address) : List UInt8 → Memory
  | [] => memory
  | byte :: rest => (memory.write a byte).writeBytes (a + 1) rest

/-- Power-on memory: the font and zeros. -/
def initial : Memory :=
  writeBytes ⟨Vector.replicate 4096 0⟩ fontStart font

/-- Copies a program to its start, or refuses it and leaves every byte alone. -/
def load (memory : Memory) (program : List UInt8) : Outcome Memory (Except LoadError Unit) :=
  if program.isEmpty then { state := memory, answer := .error .empty }
  else if capacity < program.length then
    { state := memory, answer := .error (.tooLarge program.length capacity) }
  else { state := memory.writeBytes programStart program, answer := .ok () }

end Memory

end Chip8
