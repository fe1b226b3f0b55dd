import Chip8.Machine.Operation
import Chip8.Proofs.Decoding

/-! What the operations do to a machine. A cycle of the console ends in one of five ways, and a step is
a cycle with its fault noted and, where the timers follow the steps, one tick. A press reaches the
processor only as a fresh key, and a load differs from a reset in the memory alone. -/
namespace Chip8

/-- The wait after a key has gone down. -/
def KeyWait.offer (key : UInt8) : KeyWait → KeyWait
  | waiting x => received x key
  | other => other

theorem Keypad.answer_change (keypad : Keypad) (key : Nat) (down : Bool) :
    (keypad.change key down).answer = (down && (decide (key < 16) && !keypad.isHeld key)) := by
  unfold change
  split
  · rename_i bound
    simp [isHeld, bound]
  · rename_i outside
    simp [outside]

namespace Processor

theorem state_offerKey (p : Processor) (key : UInt8) :
    (p.offerKey key).state = { p with wait := p.wait.offer key } := by
  cases p with
  | mk registers index pc stack delay sound wait random => cases wait <;> rfl

/-- The processor after the timers' share of a step. -/
def elapse (p : Processor) : TimerMode → Processor
  | .perStep => p.tick
  | .decoupled => p

variable (p : Processor) (mode : TimerMode)

@[simp] theorem elapse_registers : (p.elapse mode).registers = p.registers := by cases mode <;> rfl

@[simp] theorem elapse_index : (p.elapse mode).index = p.index := by cases mode <;> rfl

@[simp] theorem elapse_pc : (p.elapse mode).pc = p.pc := by cases mode <;> rfl

@[simp] theorem elapse_stack : (p.elapse mode).stack = p.stack := by cases mode <;> rfl

@[simp] theorem elapse_wait : (p.elapse mode).wait = p.wait := by cases mode <;> rfl

@[simp] theorem elapse_random : (p.elapse mode).random = p.random := by cases mode <;> rfl

theorem skipIf_eq (condition : Bool) :
    p.skipIf condition = { p with pc := (p.skipIf condition).pc } := by
  cases condition <;> rfl

theorem toNat_wrap (a : Address) : (wrap a).toNat = a.toNat % 4096 := by
  simp only [wrap, UInt16.toNat_mod, UInt16.reduceToNat]

theorem toNat_pc_skip : p.skip.pc.toNat = (p.pc.toNat + 2) % 4096 := by
  simp only [skip, toNat_wrap, UInt16.toNat_add, UInt16.reduceToNat]
  omega

theorem toNat_pc_jump (target : Address) :
    (p.jump target).pc.toNat = target.toNat % 4096 / 2 * 2 := by
  simp only [jump, UInt16.toNat_mul, UInt16.toNat_div, toNat_wrap, UInt16.reduceToNat]
  omega

end Processor

namespace Console

/-- The console with the program counter past its opcode. -/
def fetched (c : Console) : Console :=
  { c with processor := c.processor.skip }

/-- The console with a key in its register and the program counter past `FX0A`. -/
def taken (c : Console) (x : Register) (key : UInt8) : Console :=
  { c with processor := { c.processor.set x key with wait := .running }.skip }

/-- The word at the program counter. -/
def opcode (c : Console) : Opcode :=
  c.memory.readWord c.processor.pc

/-- The instruction that the next cycle executes. There is none while a key is awaited or taken, and
none for an opcode outside the instruction set. -/
def pending? (c : Console) : Option Instruction :=
  match c.processor.wait with
  | .running => Instruction.decode? (c.memory.readWord c.processor.pc)
  | _ => none

/-- The five ways in which a cycle ends. -/
inductive Cycles (c : Console) : Outcome Console (Option Fault) → Prop where
  | waits (x : Register) : c.processor.wait = .waiting x → Cycles c ⟨c, none, []⟩
  | takes (x : Register) (key : UInt8) : c.processor.wait = .received x key →
      Cycles c ⟨c.taken x key, none, []⟩
  | unknown : c.processor.wait = .running →
      Instruction.decode? (c.memory.readWord c.processor.pc) = none →
      Cycles c ⟨c.fetched, some (.unknownOpcode c.processor.pc
        (c.memory.readWord c.processor.pc)), []⟩
  | fails (i : Instruction) (fault : Fault) : c.pending? = some i →
      c.fetched.execute c.processor.pc i = .error fault →
      Cycles c ⟨c.fetched, some fault, announce c.processor.pc i⟩
  | executes (i : Instruction) (after : Console) : c.pending? = some i →
      c.fetched.execute c.processor.pc i = .ok after →
      Cycles c ⟨after, none, announce c.processor.pc i⟩

theorem pending?_eq_some {c : Console} {i : Instruction} : c.pending? = some i ↔
    c.processor.wait = .running ∧
      Instruction.decode? (c.memory.readWord c.processor.pc) = some i := by
  unfold pending?
  cases c.processor.wait <;> simp

/-- Whatever is executed has been decoded, so its operands are those of an opcode. -/
theorem inRange_of_pending {c : Console} {i : Instruction} (pending : c.pending? = some i) :
    i.InRange :=
  (Instruction.reads_of_decode? (pending?_eq_some.mp pending).2).1

theorem cycle_pending {c : Console} {i : Instruction} (pending : c.pending? = some i) : c.cycle =
    match c.fetched.execute c.processor.pc i with
    | .ok after => ⟨after, none, announce c.processor.pc i⟩
    | .error fault => ⟨c.fetched, some fault, announce c.processor.pc i⟩ := by
  obtain ⟨running, decoded⟩ := pending?_eq_some.mp pending
  simp only [cycle, running, decoded]
  rfl

theorem cycle_unknown {c : Console} (running : c.processor.wait = .running)
    (undecoded : Instruction.decode? (c.memory.readWord c.processor.pc) = none) : c.cycle =
      ⟨c.fetched, some (.unknownOpcode c.processor.pc (c.memory.readWord c.processor.pc)), []⟩ := by
  simp only [cycle, running, undecoded, fetched]

theorem cycles (c : Console) : c.Cycles c.cycle := by
  cases waiting : c.processor.wait with
  | waiting x =>
    have ended : c.cycle = ⟨c, none, []⟩ := by simp only [cycle, waiting]
    exact ended ▸ .waits x waiting
  | received x key =>
    have ended : c.cycle = ⟨c.taken x key, none, []⟩ := by simp only [cycle, waiting, taken]
    exact ended ▸ .takes x key waiting
  | running =>
    cases decoded : Instruction.decode? (c.memory.readWord c.processor.pc) with
    | none => exact cycle_unknown waiting decoded ▸ .unknown waiting decoded
    | some i =>
      have pending := pending?_eq_some.mpr ⟨waiting, decoded⟩
      cases executed : c.fetched.execute c.processor.pc i with
      | error fault =>
        have ended : c.cycle = ⟨c.fetched, some fault, announce c.processor.pc i⟩ := by
          rw [cycle_pending pending, executed]
        exact ended ▸ .fails i fault pending executed
      | ok after =>
        have ended : c.cycle = ⟨after, none, announce c.processor.pc i⟩ := by
          rw [cycle_pending pending, executed]
        exact ended ▸ .executes i after pending executed

/-- Two instructions end alike: with the same fault, or with consoles that are related. -/
inductive Matched (R : Console → Console → Prop) :
    Except Fault Console → Except Fault Console → Prop where
  | ok {after other : Console} : R after other → Matched R (.ok after) (.ok other)
  | error (fault : Fault) : Matched R (.error fault) (.error fault)

theorem Matched.of_map {mask : Console → Console} {first second : Except Fault Console}
    (same : first.map mask = second.map mask) :
    Matched (fun c d => mask c = mask d) first second := by
  cases first with
  | ok after =>
    cases second with
    | ok other => exact .ok (Except.ok.inj same)
    | error => contradiction
  | error fault =>
    cases second with
    | ok => contradiction
    | error other =>
      obtain rfl := Except.error.inj same
      exact .error fault

/-- Consoles that stand before the same opcode in the same wait go through their cycles side by side, as
long as the instruction does. -/
theorem cycle_matched {R : Console → Console → Prop} {c d : Console}
    (executed : ∀ i, c.pending? = some i →
      Matched R (c.fetched.execute c.processor.pc i) (d.fetched.execute c.processor.pc i))
    (wait : d.processor.wait = c.processor.wait) (pc : d.processor.pc = c.processor.pc)
    (memory : d.memory = c.memory) (related : R c d) (fetched : R c.fetched d.fetched)
    (taken : ∀ x key, c.processor.wait = .received x key → R (c.taken x key) (d.taken x key)) :
    R c.cycle.state d.cycle.state ∧ d.cycle.answer = c.cycle.answer ∧
      d.cycle.events = c.cycle.events := by
  have opcode : d.memory.readWord d.processor.pc = c.memory.readWord c.processor.pc := by
    rw [memory, pc]
  have alike : d.pending? = c.pending? := by rw [pending?, pending?, wait, opcode]
  have cycled := c.cycles
  generalize ended : c.cycle = done at cycled
  cases cycled with
  | waits x waiting =>
    have other : d.cycle = ⟨d, none, []⟩ := by simp only [cycle, wait, waiting]
    rw [other]
    exact ⟨related, rfl, rfl⟩
  | takes x key received =>
    have other : d.cycle = ⟨d.taken x key, none, []⟩ := by
      simp only [cycle, wait, received, Console.taken]
    rw [other]
    exact ⟨taken x key received, rfl, rfl⟩
  | unknown running undecoded =>
    have otherUndecoded := undecoded
    rw [← opcode] at otherUndecoded
    rw [cycle_unknown (wait.trans running) otherUndecoded, opcode, pc]
    exact ⟨fetched, rfl, rfl⟩
  | fails i _ pending | executes i _ pending =>
    have matched := executed i pending
    rw [← ended, cycle_pending pending, cycle_pending (alike.trans pending), pc]
    generalize c.fetched.execute c.processor.pc i = first at matched
    generalize d.fetched.execute c.processor.pc i = second at matched
    cases matched with
    | ok later => exact ⟨later, rfl, rfl⟩
    | error => exact ⟨fetched, rfl, rfl⟩

/-- A cycle without an instruction can move the program counter and take a key, and nothing else. -/
theorem state_cycle_idle {c : Console} (idle : c.pending? = none) : c.cycle.state =
    { c with
      processor :=
        { c.processor with
          registers := c.cycle.state.processor.registers
          pc := c.cycle.state.processor.pc
          wait := c.cycle.state.processor.wait } } := by
  generalize ended : c.cycle = done
  cases ended ▸ c.cycles with
  | waits | takes | unknown => rfl
  | fails i fault pending | executes i after pending =>
    rw [idle] at pending
    contradiction

/-- The timers, the random source and the wait have instructions of their own, which touch one of them
each; no other instruction touches any. -/
theorem execute_devices {c after : Console} {pc : Address} {i : Instruction}
    (executed : c.execute pc i = .ok after) :
    after.processor.delay = (match i with
      | .setDelay x => c.processor.get x
      | _ => c.processor.delay) ∧
    after.processor.sound = (match i with
      | .setSound x => c.processor.get x
      | _ => c.processor.sound) ∧
    after.processor.random = (match i with
      | .random _ _ => c.processor.random.next.2
      | _ => c.processor.random) ∧
    after.processor.wait = (match i with
      | .awaitKey x => .waiting x
      | _ => c.processor.wait) := by
  cases i with
  | returnFromCall | call =>
    simp only [execute] at executed
    split at executed
    · obtain rfl := Except.ok.inj executed
      exact ⟨rfl, rfl, rfl, rfl⟩
    · contradiction
  | skipIfConst | skipUnlessConst | skipIfEqual | skipUnlessEqual | skipIfKey | skipUnlessKey =>
    simp only [execute] at executed
    rw [Processor.skipIf_eq] at executed
    obtain rfl := Except.ok.inj executed
    exact ⟨rfl, rfl, rfl, rfl⟩
  | _ =>
    obtain rfl := Except.ok.inj executed
    exact ⟨rfl, rfl, rfl, rfl⟩

/-- A cycle touches the timers and the random source through the instruction that it executes. -/
theorem cycle_devices (c : Console) :
    c.cycle.state.processor.delay = (match c.pending? with
      | some (.setDelay x) => c.processor.get x
      | _ => c.processor.delay) ∧
    c.cycle.state.processor.sound = (match c.pending? with
      | some (.setSound x) => c.processor.get x
      | _ => c.processor.sound) ∧
    c.cycle.state.processor.random = (match c.pending? with
      | some (.random _ _) => c.processor.random.next.2
      | _ => c.processor.random) := by
  cases pending : c.pending? with
  | none =>
    rw [state_cycle_idle pending]
    exact ⟨rfl, rfl, rfl⟩
  | some i =>
    rw [cycle_pending pending]
    cases executed : c.fetched.execute c.processor.pc i with
    | ok after =>
      obtain ⟨delay, sound, random, -⟩ := execute_devices executed
      cases i <;> exact ⟨delay, sound, random⟩
    | error fault =>
      cases i with
      | returnFromCall | call => exact ⟨rfl, rfl, rfl⟩
      | _ => contradiction

end Console

namespace Machine

variable (m : Machine)

/-- Whether a press of the key puts down a key that was up. -/
def isFresh (key : Nat) : Bool :=
  decide (key < 16) && !m.isPressed key

/-- The machine at power-on with this memory, a new picture pending. Its settings, its listener and,
without a seed, its random source are those of before. -/
def restarted (memory : Memory) : Machine where
  console :=
    { processor := .initial (m.config.seed.elim m.console.processor.random .ofSeed)
      memory
      display := ⟨Screen.blank, true⟩
      keypad := .initial }
  config := m.config
  faults := {}
  listener := m.listener
  running := false

/-- The machine after an operation, part by part. -/
def after : Operation → Machine
  | .load program => m.restarted (Memory.initial.load program).state
  | .reset => m.restarted .initial
  | .step =>
    { m with
      console :=
        { m.console.cycle.state with
          processor := m.console.cycle.state.processor.elapse m.config.timerMode }
      faults := m.console.cycle.answer.elim m.faults m.faults.record }
  | .tick => m.tick
  | .press key =>
    { m with
      console :=
        { m.console with
          keypad := (m.console.keypad.change key true).state
          processor :=
            { m.console.processor with
              wait := if m.isFresh key then m.console.processor.wait.offer (UInt8.ofNat key)
                else m.console.processor.wait } } }
  | .release key =>
    { m with
      console := { m.console with keypad := (m.console.keypad.change key false).state } }
  | .reseed seed => m.reseed seed
  | .start => m.start
  | .stop => m.stop
  | .consumeRedraw =>
    { m with
      console := { m.console with display := { m.console.display with needsRedraw := false } } }
  | .listen name => m.listen name

theorem advance_eq : m.advance =
    { state :=
        { m with
          console := m.console.cycle.state
          faults := m.console.cycle.answer.elim m.faults m.faults.record }
      answer := ()
      events := m.console.cycle.events ++ m.console.cycle.answer.elim [] fun fault =>
        .faulted fault :: (m.listener.map (.delivered · fault)).toList } := by
  unfold advance
  generalize m.console.cycle = done
  obtain ⟨after, answer, events⟩ := done
  cases answer with
  | none => simp only [Option.elim_none, List.append_nil]
  | some fault => rfl

/-- A step looks whether a key is awaited, and a cycle does so again: the first look changes nothing. -/
theorem guarded_advance :
    (if m.console.processor.isWaiting then { state := m, answer := () } else m.advance) =
      m.advance := by
  split
  · rename_i isWaiting
    cases waiting : m.console.processor.wait with
    | waiting x =>
      have ended : m.console.cycle = ⟨m.console, none, []⟩ := by
        simp only [Console.cycle, waiting]
      rw [advance_eq, ended]
      rfl
    | running | received x key => simp [Processor.isWaiting, waiting] at isWaiting
  · rfl

theorem step_eq : m.step =
    { state := m.after .step
      answer := ()
      events := m.console.cycle.events ++ m.console.cycle.answer.elim [] fun fault =>
        .faulted fault :: (m.listener.map (.delivered · fault)).toList } := by
  unfold step
  rw [guarded_advance, advance_eq, after]
  cases m.config.timerMode <;> rfl

theorem state_step : m.step.state = m.after .step := by
  rw [step_eq]

theorem state_press (key : Nat) : (m.press key).state = m.after (.press key) := by
  have fresh : (m.console.keypad.change key true).answer = m.isFresh key := by
    rw [Keypad.answer_change, Bool.true_and]
    rfl
  unfold press after
  simp only [fresh]
  split
  · simp only [Processor.state_offerKey]
  · rfl

theorem state_reset : m.reset.state = m.restarted .initial := by
  unfold reset restarted
  cases m.config.seed <;> rfl

/-- Loading meets the memory of a reset, whatever was in it before. -/
theorem load_eq (program : List UInt8) : m.load program =
    { state := m.restarted (Memory.initial.load program).state
      answer := (Memory.initial.load program).answer
      events := .resetting ::
        if (Memory.initial.load program).answer.isOk then [.loaded program.length] else [] } := by
  rw [load, state_reset]
  rfl

theorem state_load (program : List UInt8) :
    (m.load program).state = m.restarted (Memory.initial.load program).state := by
  rw [load_eq]

theorem answer_load (program : List UInt8) :
    (m.load program).answer = (Memory.initial.load program).answer :=
  rfl

@[simp] theorem state_apply_step : (m.apply .step).state = m.step.state := rfl

theorem state_apply (op : Operation) : (m.apply op).state = m.after op := by
  cases op with
  | load program => exact m.state_load program
  | reset => exact m.state_reset
  | step => exact m.state_step
  | press key => exact m.state_press key
  | tick | release | reseed | start | stop | consumeRedraw | listen => rfl

end Machine

end Chip8
