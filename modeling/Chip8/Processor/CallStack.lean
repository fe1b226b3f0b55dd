import Chip8.Instruction

/-! Return addresses in sixteen slots, of which those below the depth are live. A popped slot keeps
its address until it is written again. -/
namespace Chip8

structure CallStack where
  slots : Vector Address 16
  depth : Nat
deriving DecidableEq

namespace CallStack

def empty : CallStack :=
  ⟨Vector.replicate 16 0, 0⟩

/-- The live addresses, the latest first. -/
def live (stack : CallStack) : List Address :=
  (stack.slots.toList.take stack.depth).reverse

/-- Refuses a seventeenth address. -/
def push? (stack : CallStack) (a : Address) : Option CallStack :=
  if h : stack.depth < 16 then some ⟨stack.slots.set stack.depth a, stack.depth + 1⟩ else none

/-- The latest address and the stack without it. -/
def pop? (stack : CallStack) : Option (Address × CallStack) :=
  match stack.depth with
  | 0 => none
  | depth + 1 => stack.slots[depth]?.map fun a => (a, { stack with depth })

/-- A successful push puts its address in front of the live ones. -/
theorem live_push? {stack pushed : CallStack} {a : Address} (done : stack.push? a = some pushed) :
    pushed.live = a :: stack.live := by
  unfold push? at done
  split at done
  · rename_i room
    cases done
    simp [live, Vector.toList_set, List.take_add_one, List.take_set_of_le, room]
  · contradiction

/-- A successful pop takes the first live address away. -/
theorem live_pop? {stack popped : CallStack} {a : Address} (done : stack.pop? = some (a, popped)) :
    stack.live = a :: popped.live := by
  unfold pop? at done
  split at done
  · contradiction
  · rename_i depth deep
    obtain ⟨top, found, same⟩ := Option.map_eq_some_iff.mp done
    cases same
    simp [live, deep, List.take_add_one, found]

end CallStack

end Chip8
