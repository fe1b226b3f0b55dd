/-! A sprite is a list of rows, each a byte whose highest bit is the leftmost cell. Drawing it strikes
one cell for each set bit, row by row and from left to right. -/
namespace Chip8

abbrev Sprite := List UInt8

namespace Sprite

/-- The offsets of the set bits of a row, from left to right. -/
def columns (row : UInt8) : List Nat :=
  (List.range 8).filter fun dx => row.toNat.testBit (7 - dx)

/-- The cells struck by a sprite whose top left corner is at `x`, `y`, in drawing order. The
coordinates are not yet taken around the screen. -/
def cells (x y : Nat) (sprite : Sprite) : List (Nat × Nat) :=
  (sprite.zipIdx y).flatMap fun (row, y) => (columns row).map fun dx => (x + dx, y)

@[simp] theorem cells_nil (x y : Nat) : cells x y [] = [] := rfl

@[simp] theorem cells_cons (x y : Nat) (row : UInt8) (rest : Sprite) :
    cells x y (row :: rest) = (columns row).map (fun dx => (x + dx, y)) ++ cells x (y + 1) rest := by
  simp [cells]

end Sprite

end Chip8
