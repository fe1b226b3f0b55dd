import Chip8.Proofs.Soundness

/-! Calls and returns over whole runs. The live return addresses follow a list of at most sixteen,
which a call makes longer and a return shorter. What lies beneath an address stays there, so the
return that brings the depth back goes behind the call that raised it. -/
namespace Chip8

namespace CallStack
variable {stack : CallStack}

theorem length_live (bound : stack.depth ≤ 16) : stack.live.length = stack.depth := by
  simp only [live, List.length_reverse, List.length_take, Vector.length_toList]
  omega

theorem push?_isSome (room : stack.depth < 16) (a : Address) :
    ∃ pushed, stack.push? a = some pushed := by
  simp only [push?, dif_pos room]
  exact ⟨_, rfl⟩

theorem push?_full (full : 16 ≤ stack.depth) (a : Address) : stack.push? a = none := by
  simp only [push?, dif_neg (Nat.not_lt.mpr full)]

theorem pop?_isSome (bound : stack.depth ≤ 16) (deep : 0 < stack.depth) :
    ∃ a popped, stack.pop? = some (a, popped) := by
  obtain ⟨slots, depth⟩ := stack
  cases depth with
  | zero => contradiction
  | succ depth =>
    have inside : depth < 16 := bound
    simp only [pop?, Vector.getElem?_eq_getElem inside, Option.map_some]
    exact ⟨_, _, rfl⟩

theorem pop?_empty (flat : stack.depth = 0) : stack.pop? = none := by
  simp only [pop?, flat]

end CallStack

/-- The list of return addresses after an instruction, the latest first; `next` is the address behind
it. A seventeenth call and a return without a call leave the list as it is. -/
def Instruction.onCalls (next : Address) (calls : List Address) : Instruction → List Address
  | call _ => if calls.length < 16 then next :: calls else calls
  | returnFromCall => calls.tail
  | _ => calls

theorem Instruction.onCalls_call (next : Address) (calls : List Address) (target : Address) :
    (call target).onCalls next calls = if calls.length < 16 then next :: calls else calls :=
  rfl

theorem Instruction.onCalls_return (next : Address) (calls : List Address) :
    returnFromCall.onCalls next calls = calls.tail :=
  rfl

namespace Console
variable {c : Console}

theorem stack_skipIf (p : Processor) (condition : Bool) : (p.skipIf condition).stack = p.stack := by
  cases condition <;> rfl

/-- Whether an instruction is executed or refused, the live addresses follow the list. -/
theorem live_execute (pc : Address) (i : Instruction) (bound : c.processor.stack.depth ≤ 16) :
    (match c.execute pc i with
      | .ok after => after.processor.stack.live
      | .error _ => c.processor.stack.live) =
    i.onCalls c.processor.pc c.processor.stack.live := by
  cases i with
  | call a =>
    rw [Instruction.onCalls_call, CallStack.length_live bound]
    simp only [execute]
    by_cases room : c.processor.stack.depth < 16
    · obtain ⟨pushed, done⟩ := CallStack.push?_isSome room c.processor.pc
      rw [done, if_pos room]
      exact CallStack.live_push? done
    · rw [CallStack.push?_full (Nat.le_of_not_lt room), if_neg room]
  | returnFromCall =>
    rw [Instruction.onCalls_return]
    simp only [execute]
    rcases Nat.eq_zero_or_pos c.processor.stack.depth with flat | deep
    · rw [CallStack.pop?_empty flat]
      have none : c.processor.stack.live = [] := by simp only [CallStack.live, flat]; rfl
      rw [none]
      rfl
    · obtain ⟨a, popped, done⟩ := CallStack.pop?_isSome bound deep
      rw [done, CallStack.live_pop? done]
      rfl
  | skipIfConst | skipUnlessConst | skipIfEqual | skipUnlessEqual | skipIfKey | skipUnlessKey =>
    exact congrArg CallStack.live (stack_skipIf _ _)
  | _ => rfl

theorem live_cycle (bound : c.processor.stack.depth ≤ 16) :
    c.cycle.state.processor.stack.live =
      c.pending?.elim c.processor.stack.live
        (Instruction.onCalls c.fetched.processor.pc c.processor.stack.live) := by
  cases pending : c.pending? with
  | none =>
    rw [state_cycle_idle pending]
    rfl
  | some i =>
    have followed := live_execute (c := c.fetched) c.processor.pc i bound
    rw [cycle_pending pending]
    cases executed : c.fetched.execute c.processor.pc i with
    | ok after => rwa [executed] at followed
    | error fault => rwa [executed] at followed

theorem cycle_call {a : Address} (bound : c.processor.stack.depth ≤ 16)
    (pending : c.pending? = some (.call a)) :
    (c.cycle.answer = none ↔ c.processor.stack.live.length < 16) ∧
      (c.processor.stack.live.length < 16 →
        c.cycle.state.processor.pc = (c.processor.jump a).pc) := by
  rw [cycle_pending pending, CallStack.length_live bound]
  simp only [execute]
  by_cases room : c.processor.stack.depth < 16
  · obtain ⟨pushed, done⟩ := CallStack.push?_isSome room c.fetched.processor.pc
    have pushes : c.fetched.processor.stack.push? c.fetched.processor.pc = some pushed := done
    simp only [pushes]
    exact ⟨⟨fun _ => room, fun _ => trivial⟩, fun _ => rfl⟩
  · have refused : c.fetched.processor.stack.push? c.fetched.processor.pc = none :=
      CallStack.push?_full (Nat.le_of_not_lt room) _
    simp [refused, room]

theorem cycle_return (bound : c.processor.stack.depth ≤ 16)
    (pending : c.pending? = some .returnFromCall) :
    (c.cycle.answer = none ↔ c.processor.stack.live ≠ []) ∧
      ∀ a rest, c.processor.stack.live = a :: rest → c.cycle.state.processor.pc = a := by
  rw [cycle_pending pending]
  simp only [execute]
  rcases Nat.eq_zero_or_pos c.processor.stack.depth with flat | deep
  · have refused : c.fetched.processor.stack.pop? = none := CallStack.pop?_empty flat
    have empty : c.processor.stack.live = [] := by
      apply List.eq_nil_of_length_eq_zero
      rw [CallStack.length_live bound, flat]
    simp [refused, empty]
  · obtain ⟨top, popped, done⟩ := CallStack.pop?_isSome bound deep
    have pops : c.fetched.processor.stack.pop? = some (top, popped) := done
    simp only [pops, CallStack.live_pop? done]
    refine ⟨by simp, ?_⟩
    intro a rest same
    exact (List.cons.inj same).1

end Console

namespace Machine

/-- The return addresses that are live, the latest first. -/
def calls (m : Machine) : List Address :=
  m.console.processor.stack.live

/-- The list of return addresses after an operation. -/
def onCalls (m : Machine) (calls : List Address) : Operation → List Address
  | .load _ | .reset => []
  | .step => m.console.pending?.elim calls (Instruction.onCalls m.console.fetched.processor.pc calls)
  | _ => calls

/-- The list of return addresses after a run. -/
def callsAfter (m : Machine) (calls : List Address) : List Operation → List Address
  | [] => calls
  | op :: rest => callsAfter (m.apply op).state (m.onCalls calls op) rest

variable {m : Machine}

theorem calls_apply (sound : m.console.Sound) (op : Operation) :
    (m.apply op).state.calls = m.onCalls m.calls op := by
  rw [state_apply]
  cases op with
  | step =>
    rw [calls, after, Processor.elapse_stack]
    exact Console.live_cycle sound.aligned.stack.depth
  | _ => rfl

theorem calls_run (sound : m.console.Sound) (ops : List Operation) :
    (m.run ops).state.calls = m.callsAfter m.calls ops := by
  induction ops generalizing m with
  | nil => rfl
  | cons op rest ih =>
    have first := calls_apply sound op
    have later := ih (sound_apply op sound)
    rw [first] at later
    exact later

theorem length_calls (sound : m.console.Sound) :
    m.calls.length = m.console.processor.stack.depth :=
  CallStack.length_live sound.aligned.stack.depth

/-- An address stays where it is, under the ones above it, until a step returns to it. -/
theorem beneath_apply {above below : List Address} {a : Address} {op : Operation}
    (sound : m.console.Sound) (keeps : op.KeepsProgram) (found : m.calls = above ++ a :: below) :
    (∃ higher, (m.apply op).state.calls = higher ++ a :: below) ∨
      (op = .step ∧ (m.apply op).state.calls = below ∧
        (m.apply op).state.console.processor.pc = a) := by
  have followed := calls_apply sound op
  rw [found] at followed
  cases op with
  | load | reset => exact keeps.elim
  | tick | press | release | reseed | start | stop | consumeRedraw | listen =>
    exact .inl ⟨above, followed⟩
  | step =>
    rw [onCalls] at followed
    cases pending : m.console.pending? with
    | none =>
      rw [pending] at followed
      exact .inl ⟨above, followed⟩
    | some i =>
      rw [pending, Option.elim_some] at followed
      cases i with
      | call target =>
        rw [Instruction.onCalls_call] at followed
        split at followed
        · exact .inl ⟨m.console.fetched.processor.pc :: above, followed⟩
        · exact .inl ⟨above, followed⟩
      | returnFromCall =>
        cases above with
        | nil =>
          refine .inr ⟨rfl, followed, ?_⟩
          rw [state_apply, after, Processor.elapse_pc]
          exact (Console.cycle_return sound.aligned.stack.depth pending).2 a below found
        | cons top above => exact .inl ⟨above, followed⟩
      | _ => exact .inl ⟨above, followed⟩

/-- A run that stays above an address keeps it in the list, and the operation that ends the run
there is the step that returns to it. -/
theorem beneath_run {above below : List Address} {a : Address} {ops : List Operation}
    {last : Operation} (sound : m.console.Sound) (keeps : ∀ op ∈ ops ++ [last], op.KeepsProgram)
    (found : m.calls = above ++ a :: below)
    (deeper : ∀ n ≤ ops.length,
      below.length < (m.run (ops.take n)).state.console.processor.stack.depth)
    (back : (m.run (ops ++ [last])).state.console.processor.stack.depth = below.length) :
    last = .step ∧ (m.run (ops ++ [last])).state.calls = below ∧
      (m.run (ops ++ [last])).state.console.processor.pc = a := by
  induction ops generalizing m above with
  | nil =>
    rcases beneath_apply sound (keeps last (by simp)) found with ⟨higher, kept⟩ | returned
    · have length := length_calls (sound_apply last sound)
      have same : (m.apply last).state.console.processor.stack.depth = below.length := back
      rw [kept, same, List.length_append, List.length_cons] at length
      omega
    · exact returned
  | cons op rest ih =>
    have soundFirst := sound_apply op sound
    obtain ⟨keepsFirst, keepsRest⟩ := List.forall_mem_cons.mp keeps
    rcases beneath_apply sound keepsFirst found with ⟨higher, kept⟩ | ⟨-, gone, -⟩
    · have deeperRest : ∀ n ≤ rest.length, below.length <
          ((m.apply op).state.run (rest.take n)).state.console.processor.stack.depth := by
        intro n inside
        exact deeper (n + 1) (Nat.succ_le_succ inside)
      exact ih soundFirst keepsRest kept deeperRest back
    · have first := deeper 1 (by simp)
      have length := length_calls soundFirst
      rw [gone] at length
      have same : below.length < (m.apply op).state.console.processor.stack.depth := first
      omega

/-- A `2NNN` with room for its return address. -/
theorem call_step (sound : m.console.Sound) (running : m.console.processor.wait = .running)
    (room : m.console.processor.stack.depth < 16)
    (family : (m.console.memory.readWord m.console.processor.pc).toNat / 4096 = 2) :
    m.step.state.calls = m.console.processor.skip.pc :: m.calls ∧
      m.step.state.console.processor.pc.toNat =
        (m.console.memory.readWord m.console.processor.pc).toNat % 4096 / 2 * 2 := by
  have pending := Console.pending?_eq_some.mpr ⟨running, Instruction.decode?_call family⟩
  have short : m.calls.length < 16 := (length_calls sound).symm ▸ room
  constructor
  · have followed := calls_apply sound .step
    rw [onCalls, pending, Option.elim_some, Instruction.onCalls_call, if_pos short] at followed
    exact followed
  · rw [state_step, after, Processor.elapse_pc,
      (Console.cycle_call sound.aligned.stack.depth pending).2 short, Processor.toNat_pc_jump,
      Opcode.toNat_address, Nat.mod_mod]

/-- Calls and returns match. Over every run the live addresses follow the list, and a call or a
return succeeds if and only if the list has room or an address. After a call with room, whatever is
executed above it, the first operation that brings the depth back is a step, and it goes behind
the call. -/
theorem calls_match_returns (reachable : m.Reachable) :
    (∀ ops, (m.run ops).state.calls = m.callsAfter m.calls ops) ∧
    (m.calls.length = m.console.processor.stack.depth ∧ m.calls.length ≤ 16) ∧
    (∀ target, m.console.pending? = some (.call target) →
      (m.console.cycle.answer = none ↔ m.calls.length < 16)) ∧
    (m.console.pending? = some .returnFromCall →
      (m.console.cycle.answer = none ↔ m.calls ≠ [])) ∧
    let depth := m.console.processor.stack.depth
    let opcode := m.console.memory.readWord m.console.processor.pc
    let called := m.step.state
    (m.console.processor.wait = .running → depth < 16 → opcode.toNat / 4096 = 2 →
      called.console.processor.stack.depth = depth + 1 ∧
      called.console.processor.pc.toNat = opcode.toNat % 4096 / 2 * 2 ∧
      ∀ ops last, (∀ op ∈ ops ++ [last], op.KeepsProgram) →
        (∀ n ≤ ops.length,
          depth < (called.run (ops.take n)).state.console.processor.stack.depth) →
        (called.run (ops ++ [last])).state.console.processor.stack.depth = depth →
        last = .step ∧
          (called.run (ops ++ [last])).state.console.processor.pc.toNat =
            (m.console.processor.pc.toNat + 2) % 4096) := by
  have sound := reachable.sound
  have bound := sound.aligned.stack.depth
  have length := length_calls sound
  refine ⟨calls_run sound, ⟨length, length.symm ▸ bound⟩, ?_, ?_, ?_⟩
  · intro target pending
    exact (Console.cycle_call bound pending).1
  · intro pending
    exact (Console.cycle_return bound pending).1
  intro depth opcode called running room family
  obtain ⟨pushed, pc⟩ := call_step sound running room family
  have calledSound : called.console.Sound := sound_apply .step sound
  refine ⟨?_, pc, ?_⟩
  · rw [← length_calls calledSound, pushed, List.length_cons, length]
  · intro ops last keeps deeper back
    have same : depth = m.calls.length := length.symm
    rw [same] at deeper back
    have found : called.calls = [] ++ m.console.processor.skip.pc :: m.calls := pushed
    obtain ⟨step, -, behind⟩ := beneath_run calledSound keeps found deeper back
    exact ⟨step, by rw [behind, Processor.toNat_pc_skip]⟩

/-- A nested call, a tick and a key in between do not keep the outer return from its call. -/
theorem outer_return_matches :
    ((booted [0x22, 0x06, 0, 0, 0, 0, 0x22, 0x0A, 0, 0xEE, 0, 0xEE]).step.state.run
      ([.tick, .step, .press 5, .step] ++ [.step])).state.console.processor.pc.toNat = 0x202 :=
  ((calls_match_returns
      (reachable_booted [0x22, 0x06, 0, 0, 0, 0, 0x22, 0x0A, 0, 0xEE, 0, 0xEE])).2.2.2.2
    (by decide +kernel) (by decide +kernel) (by decide +kernel)).2.2 [.tick, .step, .press 5, .step]
    .step (by decide) (by decide +kernel) (by decide +kernel) |>.2.trans (by decide +kernel)

end Machine

end Chip8
