import Chip8.Proofs.Faults
import Chip8.Proofs.Interleaving

/-! What a program can notice. The timers reach it through `FX07` alone, and keys and random bytes
through four more instructions. Without these, two machines that hold the same program at the same
point stay together, whatever their hosts do in between. -/
namespace Chip8

namespace Instruction

def readsTimer : Instruction → Bool
  | readDelay _ => true
  | _ => false

/-- Timers, keys and random bytes all come from outside the program. -/
def readsHost : Instruction → Bool
  | readDelay _ | random _ _ | skipIfKey _ | skipUnlessKey _ | awaitKey _ => true
  | _ => false

end Instruction

/-! ### Without the timers -/

namespace Processor

/-- The processor without its timers. -/
def untimed (p : Processor) : Processor :=
  { p with delay := 0, sound := 0 }

theorem untimed_elapse (p : Processor) (mode : TimerMode) : (p.elapse mode).untimed = p.untimed := by
  cases mode <;> rfl

theorem untimed_skipIf (p : Processor) (condition : Bool) :
    (p.untimed.skipIf condition).untimed = (p.skipIf condition).untimed := by
  cases condition <;> rfl

end Processor

namespace Console

def untimed (c : Console) : Console :=
  { c with processor := c.processor.untimed }

variable (c : Console)

theorem execute_untimed (pc : Address) {i : Instruction} (blind : i.readsTimer = false) :
    (c.untimed.execute pc i).map untimed = (c.execute pc i).map untimed := by
  cases i with
  | readDelay x => contradiction
  | returnFromCall =>
    have same : c.untimed.processor.stack = c.processor.stack := rfl
    simp only [execute, same]
    cases c.processor.stack.pop? <;> rfl
  | call a =>
    have same : c.untimed.processor.stack.push? c.untimed.processor.pc =
      c.processor.stack.push? c.processor.pc := rfl
    simp only [execute, same]
    cases c.processor.stack.push? c.processor.pc <;> rfl
  | skipIfConst | skipUnlessConst | skipIfEqual | skipUnlessEqual | skipIfKey | skipUnlessKey =>
    exact congrArg (fun processor => Except.ok { c with processor }) (c.processor.untimed_skipIf _)
  | _ => rfl

variable {c}

theorem cycle_untimed (avoids : ∀ i ∈ c.pending?, i.readsTimer = false) :
    c.untimed.cycle.state.untimed = c.cycle.state.untimed ∧
      c.untimed.cycle.answer = c.cycle.answer := by
  have executes (i : Instruction) (pending : c.pending? = some i) :
      Matched (fun first second => first.untimed = second.untimed)
        (c.fetched.execute c.processor.pc i) (c.untimed.fetched.execute c.processor.pc i) :=
    .of_map (c.fetched.execute_untimed _ (avoids i pending)).symm
  obtain ⟨state, answer, -⟩ := cycle_matched executes rfl rfl rfl rfl rfl fun _ _ _ => rfl
  exact ⟨state.symm, answer⟩

end Console

namespace Machine

/-- What a machine has apart from its timers and their mode. -/
def untimed (m : Machine) : Machine :=
  { m with console := m.console.untimed, config := m.config.withTimerMode .perStep }

variable {m n : Machine}

theorem untimed_step (m : Machine) : m.step.state.untimed =
    { m.untimed with
      console := m.console.cycle.state.untimed
      faults := m.console.cycle.answer.elim m.faults m.faults.record } := by
  simp only [state_step, after, untimed, Console.untimed, Processor.untimed_elapse]

theorem untimed_apply (op : Operation) (avoids : ∀ i ∈ m.executed? op, i.readsTimer = false) :
    (m.untimed.apply op).state.untimed = (m.apply op).state.untimed := by
  cases op with
  | step =>
    obtain ⟨state, answer⟩ := Console.cycle_untimed avoids
    have same : m.untimed.console = m.console.untimed := rfl
    rw [state_apply_step, state_apply_step, untimed_step, untimed_step, same, state, answer]
    rfl
  | _ =>
    rw [state_apply, state_apply]
    rfl

theorem executed?_untimed (m : Machine) (op : Operation) :
    m.untimed.executed? op = m.executed? op := by
  cases op <;> rfl

theorem fault?_untimed {op : Operation} (avoids : ∀ i ∈ m.executed? op, i.readsTimer = false) :
    m.untimed.fault? op = m.fault? op := by
  by_cases host : op = .step
  · subst host
    exact (Console.cycle_untimed avoids).2
  · rw [fault?_host host, fault?_host host]

theorem executed?_of_untimed (same : m.untimed = n.untimed) (op : Operation) :
    n.executed? op = m.executed? op := by
  rw [← executed?_untimed, ← same, executed?_untimed]

theorem bisimilar_untimed : Bisimilar (fun m n => m.untimed = n.untimed) (fun _ => True)
    (fun op => op ≠ .tick) Instruction.readsTimer where
  steps := rfl
  left := by
    intro m n op same _ silent
    obtain rfl : op = .tick := by simpa using silent
    exact same
  right := by
    intro m n op same _ silent
    obtain rfl : op = .tick := by simpa using silent
    exact same
  both := by
    intro m n op same _ avoids
    have other : ∀ i ∈ n.executed? op, i.readsTimer = false := by
      rwa [executed?_of_untimed same]
    calc (m.apply op).state.untimed
        = (m.untimed.apply op).state.untimed := (untimed_apply op avoids).symm
      _ = (n.untimed.apply op).state.untimed := by rw [same]
      _ = (n.apply op).state.untimed := untimed_apply op other
  executed := by
    intro m n op same
    exact executed?_of_untimed same op
  fault := by
    intro m n op same avoids
    have other : ∀ i ∈ n.executed? op, i.readsTimer = false := by
      rwa [executed?_of_untimed same]
    rw [← fault?_untimed other, ← same, fault?_untimed avoids]

end Machine

/-! ### What the program holds -/

namespace CallStack
variable {stack other third pushed popped : CallStack} {a : Address}

/-- Two stacks with the same live addresses; the dead ones may differ. -/
structure Alike (stack other : CallStack) : Prop where
  depth : other.depth = stack.depth
  live : other.live = stack.live

theorem Alike.symm (alike : stack.Alike other) : other.Alike stack :=
  ⟨alike.depth.symm, alike.live.symm⟩

theorem Alike.trans (first : stack.Alike other) (second : other.Alike third) : stack.Alike third :=
  ⟨second.depth.trans first.depth, second.live.trans first.live⟩

theorem depth_push? (done : stack.push? a = some pushed) :
    stack.depth < 16 ∧ pushed.depth = stack.depth + 1 := by
  unfold push? at done
  split at done
  · rename_i room
    cases done
    exact ⟨room, rfl⟩
  · contradiction

theorem depth_pop? (done : stack.pop? = some (a, popped)) : stack.depth = popped.depth + 1 := by
  unfold pop? at done
  split at done
  · contradiction
  · rename_i depth deep
    obtain ⟨top, -, same⟩ := Option.map_eq_some_iff.mp done
    cases same
    exact deep

theorem Alike.push? (alike : stack.Alike other) (done : stack.push? a = some pushed) :
    ∃ otherPushed, other.push? a = some otherPushed ∧ pushed.Alike otherPushed := by
  obtain ⟨room, depth⟩ := depth_push? done
  obtain ⟨otherPushed, otherDone⟩ := push?_isSome (alike.depth.symm ▸ room) a
  refine ⟨otherPushed, otherDone, ?_, ?_⟩
  · rw [(depth_push? otherDone).2, alike.depth, depth]
  · rw [live_push? otherDone, live_push? done, alike.live]

theorem Alike.pop? (alike : stack.Alike other) (bound : stack.depth ≤ 16)
    (done : stack.pop? = some (a, popped)) :
    ∃ otherPopped, other.pop? = some (a, otherPopped) ∧ popped.Alike otherPopped := by
  have depth := depth_pop? done
  have otherBound : other.depth ≤ 16 := alike.depth.symm ▸ bound
  have deep : 0 < other.depth := by
    rw [alike.depth, depth]
    omega
  obtain ⟨top, otherPopped, otherDone⟩ := pop?_isSome otherBound deep
  have live := alike.live
  rw [live_pop? otherDone, live_pop? done] at live
  obtain ⟨rfl, liveRest⟩ := List.cons.inj live
  have otherDepth := depth_pop? otherDone
  refine ⟨otherPopped, otherDone, ?_, liveRest⟩
  rw [alike.depth] at otherDepth
  omega

end CallStack

namespace Console

/-- Two consoles that hold the same program at the same point. They may differ in the timers, the
keypad, the random bytes, the mark of a new picture, and the dead addresses of their stacks. -/
structure Alike (c d : Console) : Prop where
  registers : d.processor.registers = c.processor.registers
  index : d.processor.index = c.processor.index
  pc : d.processor.pc = c.processor.pc
  stack : c.processor.stack.Alike d.processor.stack
  memory : d.memory = c.memory
  screen : d.display.screen = c.display.screen

variable {c d e after : Console} {pc : Address} {i : Instruction}

theorem Alike.symm (alike : c.Alike d) : d.Alike c where
  registers := alike.registers.symm
  index := alike.index.symm
  pc := alike.pc.symm
  stack := alike.stack.symm
  memory := alike.memory.symm
  screen := alike.screen.symm

theorem Alike.trans (first : c.Alike d) (second : d.Alike e) : c.Alike e where
  registers := second.registers.trans first.registers
  index := second.index.trans first.index
  pc := second.pc.trans first.pc
  stack := first.stack.trans second.stack
  memory := second.memory.trans first.memory
  screen := second.screen.trans first.screen

theorem Alike.elapse (alike : c.Alike d) (mode other : TimerMode) :
    Alike { c with processor := c.processor.elapse mode }
      { d with processor := d.processor.elapse other } where
  registers := by simpa using alike.registers
  index := by simpa using alike.index
  pc := by simpa using alike.pc
  stack := by simpa using alike.stack
  memory := alike.memory
  screen := alike.screen

theorem Alike.skipIf (alike : c.Alike d) (condition : Bool) :
    Alike { c with processor := c.processor.skipIf condition }
      { d with processor := d.processor.skipIf condition } := by
  cases condition with
  | false => exact alike
  | true =>
    have pc : d.processor.skip.pc = c.processor.skip.pc := by
      rw [Processor.skip, alike.pc]
      rfl
    exact ⟨alike.registers, alike.index, pc, alike.stack, alike.memory, alike.screen⟩

theorem Alike.execute (alike : c.Alike d) (bound : c.processor.stack.depth ≤ 16)
    (blind : i.readsHost = false) (executed : c.execute pc i = .ok after) :
    ∃ other, d.execute pc i = .ok other ∧ after.Alike other := by
  have skips := alike.skipIf
  obtain ⟨⟨registers, index, here, stack, delay, sound, wait, random⟩, memory, ⟨screen, mark⟩, pad⟩ := c
  obtain ⟨⟨_, _, _, otherStack, otherDelay, otherSound, otherWait, otherRandom⟩, _, ⟨_, otherMark⟩,
    otherPad⟩ := d
  obtain ⟨rfl, rfl, rfl, calls, rfl, rfl⟩ := alike
  dsimp only at calls bound
  cases i with
  | readDelay | random | skipIfKey | skipUnlessKey | awaitKey => contradiction
  | returnFromCall =>
    simp only [Console.execute] at executed ⊢
    split at executed
    · rename_i a popped done
      obtain rfl := Except.ok.inj executed
      obtain ⟨otherPopped, otherDone, same⟩ := calls.pop? bound done
      rw [otherDone]
      exact ⟨_, rfl, ⟨rfl, rfl, rfl, same, rfl, rfl⟩⟩
    · contradiction
  | call a =>
    simp only [Console.execute] at executed ⊢
    split at executed
    · rename_i pushed done
      obtain rfl := Except.ok.inj executed
      obtain ⟨otherPushed, otherDone, same⟩ := calls.push? done
      rw [otherDone]
      exact ⟨_, rfl, ⟨rfl, rfl, rfl, same, rfl, rfl⟩⟩
    · contradiction
  | skipIfConst | skipUnlessConst | skipIfEqual | skipUnlessEqual =>
    obtain rfl := Except.ok.inj executed
    exact ⟨_, rfl, skips _⟩
  | _ =>
    obtain rfl := Except.ok.inj executed
    exact ⟨_, rfl, ⟨rfl, rfl, rfl, calls, rfl, rfl⟩⟩

theorem Alike.execute_error {fault : Fault} (alike : c.Alike d)
    (bound : c.processor.stack.depth ≤ 16) (failed : c.execute pc i = .error fault) :
    d.execute pc i = .error fault := by
  have otherBound : d.processor.stack.depth ≤ 16 := alike.stack.depth.symm ▸ bound
  rw [execute_eq_error] at failed ⊢
  rw [CallStack.pop?_eq_none otherBound, alike.stack.depth, ← CallStack.pop?_eq_none bound]
  rcases failed with returns | ⟨a, call, full, cause⟩
  · exact .inl returns
  · refine .inr ⟨a, call, ?_, cause⟩
    rwa [CallStack.push?_eq_none otherBound, alike.stack.depth, ← CallStack.push?_eq_none bound]

theorem Alike.fetched (alike : c.Alike d) : c.fetched.Alike d.fetched where
  registers := alike.registers
  index := alike.index
  pc := by simp only [Console.fetched, Processor.skip, alike.pc]
  stack := alike.stack
  memory := alike.memory
  screen := alike.screen

/-- An instruction that reads nothing from outside does not begin to wait. -/
theorem wait_execute_of_blind (blind : i.readsHost = false) (executed : c.execute pc i = .ok after) :
    after.processor.wait = c.processor.wait := by
  rcases wait_execute executed with kept | ⟨x, rfl, -⟩
  · exact kept
  · contradiction

/-- Two running consoles that hold the same program at the same point. -/
structure Together (c d : Console) : Prop where
  alike : c.Alike d
  sound : c.Sound
  running : c.processor.wait = .running
  otherRunning : d.processor.wait = .running

theorem Together.pending? (together : c.Together d) : d.pending? = c.pending? := by
  simp only [Console.pending?, together.running, together.otherRunning, together.alike.memory,
    together.alike.pc]

theorem Together.cycle (together : c.Together d)
    (avoids : ∀ i ∈ c.pending?, i.readsHost = false) :
    c.cycle.state.Alike d.cycle.state ∧ d.cycle.answer = c.cycle.answer ∧
      c.cycle.state.processor.wait = .running ∧ d.cycle.state.processor.wait = .running := by
  obtain ⟨alike, sound, running, otherRunning⟩ := together
  have fetches := alike.fetched
  have bound := sound.aligned.stack.depth
  have executes (i : Instruction) (pending : c.pending? = some i) :
      Matched (fun first second => first.Alike second ∧
          first.processor.wait = .running ∧ second.processor.wait = .running)
        (c.fetched.execute c.processor.pc i) (d.fetched.execute c.processor.pc i) := by
    have blind := avoids i pending
    cases executed : c.fetched.execute c.processor.pc i with
    | error fault =>
      rw [fetches.execute_error bound executed]
      exact .error fault
    | ok after =>
      obtain ⟨other, otherExecuted, later⟩ := fetches.execute bound blind executed
      rw [otherExecuted]
      exact .ok ⟨later, (wait_execute_of_blind blind executed).trans running,
        (wait_execute_of_blind blind otherExecuted).trans otherRunning⟩
  obtain ⟨⟨state, runs⟩, answer, -⟩ := cycle_matched executes (otherRunning.trans running.symm)
    alike.pc alike.memory ⟨alike, running, otherRunning⟩ ⟨fetches, running, otherRunning⟩
    fun x key received => by
      rw [running] at received
      contradiction
  exact ⟨state, answer, runs⟩

end Console

namespace Machine
variable {m n : Machine} {op : Operation}

theorem together_step (together : m.console.Together n.console)
    (avoids : ∀ i ∈ m.executed? .step, i.readsHost = false) :
    m.step.state.console.Together n.step.state.console := by
  obtain ⟨alike, -, running, otherRunning⟩ := together.cycle avoids
  have sound : m.step.state.console.Sound := sound_apply .step together.sound
  refine ⟨?_, sound, ?_, ?_⟩
  · rw [state_step, state_step]
    exact alike.elapse _ _
  · rw [state_step]
    exact (Processor.elapse_wait _ _).trans running
  · rw [state_step]
    exact (Processor.elapse_wait _ _).trans otherRunning

/-- A host operation moves nothing that a running program holds. -/
theorem alike_host (keeps : op.KeepsProgram) (host : op ≠ .step) :
    m.console.Alike (m.apply op).state.console := by
  have suspended : Suspended m [op] (m.apply op).state := suspended_host keeps host
  have stack : m.console.processor.stack.Alike (m.apply op).state.console.processor.stack :=
    ⟨congrArg CallStack.depth suspended.stack, congrArg CallStack.live suspended.stack⟩
  exact ⟨suspended.registers, suspended.index, suspended.pc, stack, suspended.memory,
    suspended.screen⟩

theorem running_host (keeps : op.KeepsProgram) (host : op ≠ .step)
    (running : m.console.processor.wait = .running) :
    (m.apply op).state.console.processor.wait = .running := by
  rw [wait_host keeps host, running]
  cases m.freshKey? op <;> rfl

theorem bisimilar_together : Bisimilar (fun m n => m.console.Together n.console)
    Operation.KeepsProgram (· == .step) Instruction.readsHost where
  steps := rfl
  left := by
    intro m n op together keeps silent
    have host : op ≠ .step := by simpa using silent
    exact ⟨(alike_host keeps host).symm.trans together.alike, sound_apply op together.sound,
      running_host keeps host together.running, together.otherRunning⟩
  right := by
    intro m n op together keeps silent
    have host : op ≠ .step := by simpa using silent
    exact ⟨together.alike.trans (alike_host keeps host), together.sound, together.running,
      running_host keeps host together.otherRunning⟩
  both := by
    intro m n op together visible avoids
    obtain rfl : op = .step := by simpa using visible
    exact together_step together avoids
  executed := by
    intro m n op together
    by_cases host : op = .step
    · subst host
      exact together.pending?
    · rw [executed?_host host, executed?_host host]
  fault := by
    intro m n op together avoids
    by_cases host : op = .step
    · subst host
      exact (together.cycle avoids).2.1
    · rw [fault?_host host, fault?_host host]

theorem untimed_ofConfig (seed : UInt64) (mode other : TimerMode) (own otherOwn : Key) :
    (ofConfig ⟨mode, some seed⟩ own).untimed = (ofConfig ⟨other, some seed⟩ otherOwn).untimed :=
  rfl

theorem frame_of_untimed (same : m.untimed = n.untimed) : m.frame = n.frame := by
  have framed : m.untimed.frame = n.untimed.frame := by rw [same]
  exact framed

/-- Machines alike but for the timers and their mode stay so through the same operations with ticks put
in anywhere, unless one reads a timer; so a seeded program's pictures depend on neither. Running
machines that hold the same program at the same point stay together step by step, whatever their
hosts do in between, unless one reads what comes from outside. -/
theorem program_reads_by_instruction {m n : Machine} (reachable : m.Reachable) :
    (∀ first second, m.untimed = n.untimed →
      first.filter (· ≠ .tick) = second.filter (· ≠ .tick) →
      (∀ i ∈ m.executed first, i.readsTimer = false) →
      (m.run first).state.untimed = (n.run second).state.untimed ∧
        n.executed second = m.executed first ∧ n.raised second = m.raised first) ∧
    (∀ seed mode other own otherOwn program first second,
      let new := ofConfig ⟨mode, some seed⟩ own
      let otherNew := ofConfig ⟨other, some seed⟩ otherOwn
      first.filter (· ≠ .tick) = second.filter (· ≠ .tick) →
      (∀ i ∈ new.executed (.load program :: first), i.readsTimer = false) →
      (new.run (.load program :: first)).state.frame =
        (otherNew.run (.load program :: second)).state.frame) ∧
    ∀ first second, m.console.Alike n.console →
      m.console.processor.wait = .running → n.console.processor.wait = .running →
      (∀ op ∈ first ++ second, op.KeepsProgram) → first.count .step = second.count .step →
      (∀ i ∈ m.executed first, i.readsHost = false) →
      ((m.run first).state.console.Alike (n.run second).state.console ∧
        (m.run first).state.console.processor.wait = .running ∧
        (n.run second).state.console.processor.wait = .running) ∧
      n.executed second = m.executed first ∧ n.raised second = m.raised first := by
  refine ⟨?_, ?_, ?_⟩
  · intro first second same common avoids
    exact run_related bisimilar_untimed same (fun _ _ => trivial) common avoids
  · intro seed mode other own otherOwn program first second new otherNew common avoids
    have same : new.untimed = otherNew.untimed := untimed_ofConfig seed mode other own otherOwn
    have loads : (Operation.load program :: first).filter (· ≠ .tick) =
        (Operation.load program :: second).filter (· ≠ .tick) := by
      rw [List.filter_cons_of_pos rfl, List.filter_cons_of_pos rfl, common]
    exact frame_of_untimed (run_related bisimilar_untimed same (fun _ _ => trivial) loads avoids).1
  · intro first second alike running otherRunning keeps steps avoids
    have together : m.console.Together n.console := ⟨alike, reachable.sound, running, otherRunning⟩
    have common : first.filter (· == .step) = second.filter (· == .step) := by
      rw [List.filter_beq, List.filter_beq, steps]
    obtain ⟨later, traces⟩ := run_related bisimilar_together together keeps common avoids
    exact ⟨⟨later.alike, later.running, later.otherRunning⟩, traces⟩

/-- A glyph is drawn alike under other timers, keys, seeds and listeners. -/
theorem glyph_drawn_alike :
    let program := [0x60, 0x05, 0xF0, 0x29, 0xD0, 0x05]
    let retimed := ((ofConfig ⟨.decoupled, some 0⟩ (Vector.replicate 8 1)).run
      [.load program, .tick]).state
    let stranger := ((ofConfig ⟨.decoupled, none⟩ (Vector.replicate 8 1)).run
      [.listen "host", .load program, .press 3]).state
    let steps := [.step, .tick, .press 7, .step, .step]
    ((booted program).run steps).state.untimed =
      (retimed.run [.tick, .step, .press 7, .tick, .step, .tick, .step]).state.untimed ∧
    ((booted program).run steps).state.console.Alike
      (stranger.run [.step, .reseed 4, .step, .release 3, .tick, .step]).state.console := by
  intro program retimed stranger steps
  have reachable : (booted program).Reachable := reachable_booted program
  have untimed : (booted program).untimed = retimed.untimed := rfl
  have alike : (booted program).console.Alike stranger.console :=
    ⟨rfl, rfl, rfl, ⟨rfl, rfl⟩, rfl, rfl⟩
  have avoids : ∀ i ∈ (booted program).executed steps, i.readsTimer = false ∧ i.readsHost = false := by
    decide +kernel
  constructor
  · exact ((program_reads_by_instruction reachable).1 steps _ untimed (by decide)
      fun i member => (avoids i member).1).1
  · exact ((program_reads_by_instruction reachable).2.2 steps _ alike rfl rfl (by decide)
      (by decide) fun i member => (avoids i member).2).1.1

end Machine

end Chip8
