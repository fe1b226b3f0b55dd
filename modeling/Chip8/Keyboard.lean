/-! A typewriter keyboard in place of the keypad. Its characters name keys by a fixed layout, and
since it tells of presses only, a key counts as held until a timeout has passed without a repeat. -/
namespace Chip8

namespace Keyboard

/-- The characters of keypad keys 0 to 15. -/
def layout : List Char :=
  ['x', '1', '2', '3', 'q', 'w', 'e', 'a', 's', 'd', 'z', 'c', '4', 'r', 'f', 'v']

/-- The keypad key of a character in upper or lower case. -/
def key? (c : Char) : Option Nat :=
  layout.idxOf? c.toLower

end Keyboard

/-- The keys that are held, each with the time of its last press. -/
structure KeyHolds where
  timeout : Nat
  since : Vector (Option Nat) 16
deriving DecidableEq

namespace KeyHolds

def initial (timeout : Nat) : KeyHolds :=
  ⟨timeout, Vector.replicate 16 none⟩

/-- Notes a press or a repeat of a key; numbers from sixteen on are nobody's. -/
def press (holds : KeyHolds) (key now : Nat) : KeyHolds :=
  { holds with since := holds.since.setIfInBounds key (some now) }

/-- Whether a hold that began at the noted time has run out. -/
def isOver (timeout now : Nat) : Option Nat → Bool
  | some start => timeout ≤ now - start
  | none => false

/-- The keys whose hold has run out, lowest first. They are forgotten. -/
def expire (holds : KeyHolds) (now : Nat) : KeyHolds × List Nat :=
  let ended := isOver holds.timeout now
  ({ holds with since := holds.since.map fun start => if ended start then none else start },
    (List.finRange 16).filterMap fun key => if ended (holds.since.get key) then some key.val else none)

end KeyHolds

end Chip8
