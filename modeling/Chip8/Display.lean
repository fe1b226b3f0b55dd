import Chip8.Frame

/-! The screen with the mark that a host has not seen its present picture. Clearing raises the mark,
and so does a sprite with a set bit; only the host takes it back. -/
namespace Chip8

structure Display where
  screen : Screen
  needsRedraw : Bool
deriving DecidableEq

namespace Display

def initial : Display :=
  ⟨Screen.blank, false⟩

def clear (_ : Display) : Display :=
  ⟨Screen.blank, true⟩

/-- Draws a sprite; the answer tells of a collision. -/
def draw (display : Display) (x y : Nat) (sprite : Sprite) : Display × Bool :=
  let drawn := display.screen.draw x y sprite
  (⟨drawn.1, display.needsRedraw || !(Sprite.cells x y sprite).isEmpty⟩, drawn.2)

/-- Takes the mark back and tells whether it was there. -/
def consumeRedraw (display : Display) : Display × Bool :=
  ({ display with needsRedraw := false }, display.needsRedraw)

end Display

end Chip8
