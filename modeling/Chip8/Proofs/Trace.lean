import Chip8.Proofs.Effects
import Chip8.Proofs.Run

/-! What a run executes and which faults it raises, read off the processor and not off what the machine
tells about its work. Only steps execute, each at most one instruction. -/
namespace Chip8.Machine

def executed? (m : Machine) : Operation → Option Instruction
  | .step => m.console.pending?
  | _ => none

/-- The fault with which the processor answers an operation. -/
def fault? (m : Machine) : Operation → Option Fault
  | .step => m.console.cycle.answer
  | _ => none

def executed (m : Machine) : List Operation → List Instruction
  | [] => []
  | op :: rest => (m.executed? op).toList ++ (m.apply op).state.executed rest

def raised (m : Machine) : List Operation → List Fault
  | [] => []
  | op :: rest => (m.fault? op).toList ++ (m.apply op).state.raised rest

variable {m : Machine} {op : Operation}

theorem executed?_host (host : op ≠ .step) : m.executed? op = none := by
  cases op with
  | step => contradiction
  | _ => rfl

theorem fault?_host (host : op ≠ .step) : m.fault? op = none := by
  cases op with
  | step => contradiction
  | _ => rfl

theorem executed_append (m : Machine) (first second : List Operation) :
    m.executed (first ++ second) = m.executed first ++ (m.run first).state.executed second := by
  induction first generalizing m with
  | nil => rfl
  | cons op rest ih => simp only [List.cons_append, executed, ih, List.append_assoc, run]

theorem raised_append (m : Machine) (first second : List Operation) :
    m.raised (first ++ second) = m.raised first ++ (m.run first).state.raised second := by
  induction first generalizing m with
  | nil => rfl
  | cons op rest ih => simp only [List.cons_append, raised, ih, List.append_assoc, run]

end Chip8.Machine
