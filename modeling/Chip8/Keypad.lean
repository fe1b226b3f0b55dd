import Chip8.Event

/-! Sixteen keys, each held or not. A key number is a natural number and never reduced: numbers from
sixteen on belong to no key. -/
namespace Chip8

structure Keypad where
  held : Vector Bool 16
deriving DecidableEq

namespace Keypad

def initial : Keypad :=
  ⟨Vector.replicate 16 false⟩

def isHeld (keypad : Keypad) (key : Nat) : Bool :=
  keypad.held[key]?.getD false

/-- Puts a key down or lets it go. The answer is true for a fresh press: a key of the keypad that goes
down and was up before. -/
def change (keypad : Keypad) (key : Nat) (down : Bool) : Outcome Keypad Bool :=
  if h : key < 16 then
    { state := ⟨keypad.held.set key down⟩, answer := down && !keypad.held[key] }
  else
    { state := keypad, answer := false, events := [.keyIgnored key] }

theorem isHeld_change (keypad : Keypad) (key query : Nat) (down : Bool) :
    (keypad.change key down).state.isHeld query =
      if key = query ∧ key < 16 then down else keypad.isHeld query := by
  unfold change
  split
  · rename_i bound
    by_cases same : key = query
    · subst same
      simp [isHeld, bound]
    · simp [isHeld, same]
  · rename_i outside
    simp [outside]

end Keypad

end Chip8
