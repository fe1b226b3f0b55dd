import Chip8.Screen

/-! Pictures of the screen for a host. A frame lists the brightness of every cell, row after row from
the top left, and has a text with one line for each row. -/
namespace Chip8

/-- A still picture: zero for a dark cell and one for a lit one. -/
structure Frame where
  pixels : Array UInt8
deriving DecidableEq

/-- The present picture of the screen. -/
def Screen.frame (screen : Screen) : Frame :=
  ⟨screen.rows.toArray.flatMap fun row => row.toArray.map fun lit => if lit then 1 else 0⟩

namespace Frame

def isOn (frame : Frame) (x y : Nat) : Bool :=
  frame.pixels[y % Screen.height * Screen.width + x % Screen.width]? == some 1

/-- The lines of the picture, top line first. -/
def rows (frame : Frame) : List (List UInt8) :=
  (List.range Screen.height).map fun y =>
    (frame.pixels.extract (y * Screen.width) ((y + 1) * Screen.width)).toList

/-- The number of lit cells. -/
def count (frame : Frame) : Nat :=
  frame.pixels.count 1

def symbol (pixel : UInt8) : Char :=
  if pixel = 1 then '#' else '.'

/-- Every line as text, each with a line end. -/
def text (frame : Frame) : String :=
  String.ofList (frame.rows.flatMap fun row => row.map symbol ++ ['\n'])

end Frame

end Chip8
