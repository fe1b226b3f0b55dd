import Chip8.Instruction

/-! Sixteen byte registers. A register number counts modulo sixteen, which decoded instructions never
need; the last register takes the flags. -/
namespace Chip8

structure Registers where
  values : Vector UInt8 16
deriving DecidableEq

namespace Registers

/-- The register that takes carries, borrows, shifted bits and collisions. -/
def flag : Register := 0xF

def initial : Registers :=
  ⟨Vector.replicate 16 0⟩

/-- The place of a register among the sixteen. -/
def place (x : Register) : Fin 16 :=
  ⟨x.toNat % 16, Nat.mod_lt x.toNat (by decide)⟩

def get (registers : Registers) (x : Register) : UInt8 :=
  registers.values[place x]

def set (registers : Registers) (x : Register) (value : UInt8) : Registers :=
  ⟨registers.values.set (place x) value⟩

theorem get_set (registers : Registers) (x query : Register) (value : UInt8) :
    (registers.set x value).get query =
      if x.toNat % 16 = query.toNat % 16 then value else registers.get query := by
  simp [get, set, place, Vector.getElem_set]

theorem get_set_of_ne (registers : Registers) {x y : Register} (value : UInt8)
    (lowX : x.toNat < 16) (lowY : y.toNat < 16) (other : y ≠ x) :
    (registers.set x value).get y = registers.get y := by
  rw [get_set, if_neg]
  intro same
  exact other (UInt8.toNat_inj.mp (by omega))

/-- Sets a register and then the flag, which wins where both are one. -/
def setFlagged (registers : Registers) (x : Register) (value flagValue : UInt8) : Registers :=
  (registers.set x value).set flag flagValue

/-- The registers up to and including `x`, first one first. -/
def upTo (registers : Registers) (x : Register) : List UInt8 :=
  registers.values.toList.take (x.toNat + 1)

/-- Puts bytes into the registers from the first one on. -/
def fill (registers : Registers) (bytes : List UInt8) : Registers :=
  ⟨Vector.ofFn fun k => bytes[k.val]?.getD (registers.values.get k)⟩

end Registers

end Chip8
