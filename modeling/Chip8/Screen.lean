import Chip8.Sprite

/-! The grid of 64 by 32 cells. Coordinates of any size are taken around both edges. Drawing flips
the struck cells one after the other and collides when it meets a lit one. -/
namespace Chip8

structure Screen where
  rows : Vector (Vector Bool 64) 32
deriving DecidableEq

namespace Screen

def width : Nat := 64

def height : Nat := 32

def blank : Screen :=
  ⟨Vector.replicate 32 (Vector.replicate 64 false)⟩

def lit (screen : Screen) (x y : Nat) : Bool :=
  screen.rows[Fin.ofNat 32 y][Fin.ofNat 64 x]

def flip (screen : Screen) (x y : Nat) : Screen :=
  let row := screen.rows[Fin.ofNat 32 y]
  ⟨screen.rows.set (Fin.ofNat 32 y) (row.set (Fin.ofNat 64 x) (!row[Fin.ofNat 64 x]))⟩

theorem lit_flip (screen : Screen) (x y px py : Nat) :
    (screen.flip x y).lit px py =
      (screen.lit px py ^^ decide (x % 64 = px % 64 ∧ y % 32 = py % 32)) := by
  simp only [lit, flip, Fin.ofNat, Fin.getElem_fin, Vector.getElem_set]
  by_cases row : y % 32 = py % 32 <;> by_cases column : x % 64 = px % 64 <;> simp [row, column]

/-- Flips one cell and notes whether it was lit. -/
def strike (drawn : Screen × Bool) (cell : Nat × Nat) : Screen × Bool :=
  (drawn.1.flip cell.1 cell.2, drawn.2 || drawn.1.lit cell.1 cell.2)

/-- Draws a sprite; the answer tells of a collision. -/
def draw (screen : Screen) (x y : Nat) (sprite : Sprite) : Screen × Bool :=
  (Sprite.cells x y sprite).foldl strike (screen, false)

end Screen

end Chip8
