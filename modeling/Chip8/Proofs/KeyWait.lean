import Chip8.Proofs.Soundness

/-! Waiting for a key under any interleaving of steps and host operations. Until a fresh press nothing
that the program can see moves; the first fresh press settles the key, whatever is pressed or let
go after it; and the next step puts the key into its register and goes on behind `FX0A`. -/
namespace Chip8

namespace Processor
variable (p : Processor)

theorem toNat_countDown (timer : UInt8) : (countDown timer).toNat = timer.toNat - 1 := by
  unfold countDown
  split
  · rename_i stopped
    subst stopped
    rfl
  · rename_i runs
    have one : 1 ≤ timer := by
      have positive : timer.toNat ≠ 0 := fun zero => runs (UInt8.toNat_inj.mp zero)
      exact UInt8.le_iff_toNat_le.mpr (Nat.one_le_iff_ne_zero.mpr positive)
    rw [UInt8.toNat_sub_of_le _ _ one]
    rfl

theorem toNat_delay_elapse (mode : TimerMode) :
    (p.elapse mode).delay.toNat = p.delay.toNat - Operation.step.countdown mode := by
  cases mode with
  | perStep => exact toNat_countDown p.delay
  | decoupled => rfl

theorem toNat_sound_elapse (mode : TimerMode) :
    (p.elapse mode).sound.toNat = p.sound.toNat - Operation.step.countdown mode := by
  cases mode with
  | perStep => exact toNat_countDown p.sound
  | decoupled => rfl

end Processor

namespace Machine

/-- What operations leave in place during a wait and at its end, and what they do to the timers and
to the random source. -/
structure Kept (m : Machine) (ops : List Operation) (after : Machine) : Prop where
  index : after.console.processor.index = m.console.processor.index
  stack : after.console.processor.stack = m.console.processor.stack
  memory : after.console.memory = m.console.memory
  screen : after.console.display.screen = m.console.display.screen
  faults : after.faults = m.faults
  mode : after.config.timerMode = m.config.timerMode
  delay : after.console.processor.delay.toNat =
    m.console.processor.delay.toNat - Operation.countdowns m.config.timerMode ops
  sound : after.console.processor.sound.toNat =
    m.console.processor.sound.toNat - Operation.countdowns m.config.timerMode ops
  random : after.console.processor.random =
    (Operation.lastSeed? ops).elim m.console.processor.random .ofSeed

/-- A wait that goes on leaves the program counter and the registers in place too. -/
structure Suspended (m : Machine) (ops : List Operation) (after : Machine) : Prop
    extends Kept m ops after where
  pc : after.console.processor.pc = m.console.processor.pc
  registers : after.console.processor.registers = m.console.processor.registers

/-- The key that an operation puts down, if the key was up. -/
def freshKey? (m : Machine) : Operation → Option Nat
  | .press key => if m.isFresh key then some key else none
  | _ => none

/-- No operation puts a fresh key down when its turn comes. -/
def NoFreshPress (m : Machine) : List Operation → Prop
  | [] => True
  | op :: rest => m.freshKey? op = none ∧ NoFreshPress (m.apply op).state rest

instance decidableNoFreshPress (m : Machine) : DecidablePred m.NoFreshPress
  | [] => isTrue trivial
  | op :: rest =>
    have := decidableNoFreshPress (m.apply op).state rest
    inferInstanceAs (Decidable (_ ∧ _))

def withMemory (m : Machine) (memory : Memory) : Machine :=
  { m with console := { m.console with memory } }

/-- The step that takes a key. It stores the key and moves on behind `FX0A`; it tells of no
instruction and no fault, and would do the same over any other memory. -/
structure Delivers (m : Machine) (ops : List Operation) (x : Register) (key : Nat)
    (held : Machine) : Prop where
  kept : Kept m (ops ++ [.step]) held.step.state
  stored : (held.step.state.console.processor.get x).toNat = key
  others : ∀ y : Register, y.toNat < 16 → y ≠ x →
    held.step.state.console.processor.get y = m.console.processor.get y
  pc : held.step.state.console.processor.pc.toNat = (m.console.processor.pc.toNat + 2) % 4096
  resumed : held.step.state.console.processor.wait = .running
  silent : held.step.events = []
  blind : ∀ memory, (held.withMemory memory).step =
    { held.step with state := held.step.state.withMemory memory }

variable {m middle after : Machine} {ops rest : List Operation} {x : Register}

theorem Kept.trans (first : Kept m ops middle) (second : Kept middle rest after) :
    Kept m (ops ++ rest) after where
  index := second.index.trans first.index
  stack := second.stack.trans first.stack
  memory := second.memory.trans first.memory
  screen := second.screen.trans first.screen
  faults := second.faults.trans first.faults
  mode := second.mode.trans first.mode
  delay := by rw [second.delay, first.delay, first.mode, Operation.countdowns_append, Nat.sub_sub]
  sound := by rw [second.sound, first.sound, first.mode, Operation.countdowns_append, Nat.sub_sub]
  random := by
    rw [second.random, first.random, Operation.lastSeed?_append]
    cases Operation.lastSeed? rest <;> rfl

theorem Suspended.trans (first : Suspended m ops middle) (second : Suspended middle rest after) :
    Suspended m (ops ++ rest) after where
  toKept := first.toKept.trans second.toKept
  pc := second.pc.trans first.pc
  registers := second.registers.trans first.registers

theorem Suspended.refl (m : Machine) : Suspended m [] m := by
  constructor
  · constructor <;> rfl
  · rfl
  · rfl

/-- Apart from steps no operation that keeps the program moves it, whether it waits or not. -/
theorem suspended_host {op : Operation} (keeps : op.KeepsProgram) (host : op ≠ .step) :
    Suspended m [op] (m.apply op).state := by
  rw [state_apply]
  cases op with
  | load | reset => exact keeps.elim
  | step => exact (host rfl).elim
  | tick =>
    have delay := Processor.toNat_countDown m.console.processor.delay
    have sound := Processor.toNat_countDown m.console.processor.sound
    exact ⟨⟨rfl, rfl, rfl, rfl, rfl, rfl, delay, sound, rfl⟩, rfl, rfl⟩
  | press | release | reseed | start | stop | consumeRedraw | listen =>
    exact ⟨⟨rfl, rfl, rfl, rfl, rfl, rfl, rfl, rfl, rfl⟩, rfl, rfl⟩

theorem state_step_waiting (waiting : m.console.processor.wait = .waiting x) :
    m.step.state =
      { m with
        console :=
          { m.console with processor := m.console.processor.elapse m.config.timerMode } } := by
  have still : m.console.cycle = ⟨m.console, none, []⟩ := by simp only [Console.cycle, waiting]
  rw [state_step, after, still]
  rfl

theorem suspended_step (waiting : m.console.processor.wait = .waiting x) :
    Suspended m [.step] m.step.state := by
  have delay := m.console.processor.toNat_delay_elapse m.config.timerMode
  have sound := m.console.processor.toNat_sound_elapse m.config.timerMode
  rw [state_step_waiting waiting]
  rw [← Operation.countdowns_singleton] at delay sound
  exact ⟨⟨Processor.elapse_index _ _, Processor.elapse_stack _ _, rfl, rfl, rfl, rfl, delay, sound,
    Processor.elapse_random _ _⟩, Processor.elapse_pc _ _, Processor.elapse_registers _ _⟩

/-- Apart from steps only a fresh press touches the wait. -/
theorem wait_host {op : Operation} (keeps : op.KeepsProgram) (host : op ≠ .step) :
    (m.apply op).state.console.processor.wait =
      (m.freshKey? op).elim m.console.processor.wait fun key =>
        m.console.processor.wait.offer (UInt8.ofNat key) := by
  rw [state_apply]
  cases op with
  | load | reset => exact keeps.elim
  | step => exact (host rfl).elim
  | press key =>
    simp only [after, freshKey?]
    split <;> rfl
  | tick | release | reseed | start | stop | consumeRedraw | listen => rfl

/-- One operation without a fresh press leaves a wait as it is. -/
theorem waiting_apply {op : Operation} (keeps : op.KeepsProgram) (stale : m.freshKey? op = none)
    (waiting : m.console.processor.wait = .waiting x) :
    (m.apply op).state.console.processor.wait = .waiting x ∧
      Suspended m [op] (m.apply op).state := by
  by_cases host : op = .step
  · subst host
    refine ⟨?_, suspended_step waiting⟩
    rw [state_apply_step, state_step_waiting waiting, Processor.elapse_wait]
    exact waiting
  · refine ⟨?_, suspended_host keeps host⟩
    rw [wait_host keeps host, stale]
    exact waiting

theorem waiting_run (keeps : ∀ op ∈ ops, op.KeepsProgram) (stale : m.NoFreshPress ops)
    (waiting : m.console.processor.wait = .waiting x) :
    (m.run ops).state.console.processor.wait = .waiting x ∧ Suspended m ops (m.run ops).state := by
  induction ops generalizing m with
  | nil => exact ⟨waiting, .refl m⟩
  | cons op rest ih =>
    obtain ⟨keepsFirst, keepsRest⟩ := List.forall_mem_cons.mp keeps
    obtain ⟨still, first⟩ := waiting_apply keepsFirst stale.1 waiting
    obtain ⟨stillLater, later⟩ := ih keepsRest stale.2 still
    exact ⟨stillLater, first.trans later⟩

/-- A key that has arrived stays until the next step, whatever else goes down or up. -/
theorem received_run {key : UInt8} (keeps : ∀ op ∈ ops, op.KeepsProgram) (host : .step ∉ ops)
    (received : m.console.processor.wait = .received x key) :
    (m.run ops).state.console.processor.wait = .received x key ∧
      Suspended m ops (m.run ops).state := by
  induction ops generalizing m with
  | nil => exact ⟨received, .refl m⟩
  | cons op rest ih =>
    obtain ⟨keepsFirst, keepsRest⟩ := List.forall_mem_cons.mp keeps
    obtain ⟨notFirst, hostRest⟩ := List.ne_and_not_mem_of_not_mem_cons host
    have hostFirst : op ≠ .step := notFirst.symm
    have still : (m.apply op).state.console.processor.wait = .received x key := by
      rw [wait_host keepsFirst hostFirst, received]
      cases m.freshKey? op <;> rfl
    obtain ⟨stillLater, later⟩ := ih keepsRest hostRest still
    exact ⟨stillLater, (suspended_host keepsFirst hostFirst).trans later⟩

theorem step_received {key : UInt8} (received : m.console.processor.wait = .received x key) :
    m.step =
      { state :=
          { m with
            console :=
              { m.console with
                processor := (m.console.taken x key).processor.elapse m.config.timerMode } }
        answer := ()
        events := [] } := by
  have took : m.console.cycle = ⟨m.console.taken x key, none, []⟩ := by
    simp only [Console.cycle, received, Console.taken]
  rw [step_eq, after, took]
  rfl

theorem kept_step_received {key : UInt8} (received : m.console.processor.wait = .received x key) :
    Kept m [.step] m.step.state := by
  have delay := (m.console.taken x key).processor.toNat_delay_elapse m.config.timerMode
  have sound := (m.console.taken x key).processor.toNat_sound_elapse m.config.timerMode
  rw [step_received received]
  rw [← Operation.countdowns_singleton] at delay sound
  exact ⟨Processor.elapse_index _ _, Processor.elapse_stack _ _, rfl, rfl, rfl, rfl, delay, sound,
    Processor.elapse_random _ _⟩

theorem delivers_received {key : Nat} {held : Machine} (bound : x.toNat < 16) (inside : key < 16)
    (suspended : Suspended m ops held)
    (received : held.console.processor.wait = .received x (UInt8.ofNat key)) :
    Delivers m ops x key held := by
  have registers : held.step.state.console.processor.registers =
      m.console.processor.registers.set x (UInt8.ofNat key) := by
    rw [step_received received, ← suspended.registers]
    exact Processor.elapse_registers _ _
  have pc : held.step.state.console.processor.pc = m.console.processor.skip.pc := by
    rw [step_received received, Processor.skip, ← suspended.pc]
    exact Processor.elapse_pc _ _
  constructor
  case kept => exact suspended.toKept.trans (kept_step_received received)
  case stored =>
    rw [Processor.get, registers, Registers.get_set, if_pos rfl, UInt8.toNat_ofNat']
    omega
  case others =>
    intro y low other
    have apart : x.toNat % 16 ≠ y.toNat % 16 := by
      intro same
      exact other (UInt8.toNat_inj.mp (by omega))
    rw [Processor.get, registers, Registers.get_set, if_neg apart]
    rfl
  case pc => rw [pc, Processor.toNat_pc_skip]
  case resumed =>
    rw [step_received received]
    exact Processor.elapse_wait _ _
  case silent => rw [step_received received]
  case blind =>
    intro memory
    have same : (held.withMemory memory).console.processor.wait = .received x (UInt8.ofNat key) :=
      received
    rw [step_received received, step_received same]
    rfl

/-- The whole wait, from a machine that has begun it. Without a fresh press it goes on; the first
fresh press decides it for its key and against every later one; the next step ends it. -/
theorem key_wait_protocol (reachable : m.Reachable)
    (waiting : m.console.processor.wait = .waiting x) :
    (∀ ops, (∀ op ∈ ops, op.KeepsProgram) → m.NoFreshPress ops →
      (m.run ops).state.console.processor.wait = .waiting x ∧
        Suspended m ops (m.run ops).state) ∧
    ∀ before key between, (∀ op ∈ before ++ between, op.KeepsProgram) → m.NoFreshPress before →
      (m.run before).state.isFresh key = true → .step ∉ between →
      let ops := before ++ .press key :: between
      let held := (m.run ops).state
      (held.console.processor.wait = .received x (UInt8.ofNat key) ∧ Suspended m ops held) ∧
        Delivers m ops x key held := by
  constructor
  · intro ops keeps stale
    exact waiting_run keeps stale waiting
  intro before key between keeps stale fresh host
  obtain ⟨keepsBefore, keepsBetween⟩ := List.forall_mem_append.mp keeps
  obtain ⟨still, first⟩ := waiting_run keepsBefore stale waiting
  have keepsPress : (Operation.press key).KeepsProgram := trivial
  have settled : ((m.run before).state.apply (.press key)).state.console.processor.wait =
      .received x (UInt8.ofNat key) := by
    rw [wait_host keepsPress nofun, freshKey?, if_pos fresh, still]
    rfl
  obtain ⟨received, later⟩ := received_run keepsBetween host settled
  have pressed : Suspended (m.run before).state [.press key]
      ((m.run before).state.apply (.press key)).state := suspended_host keepsPress nofun
  have whole := first.trans (pressed.trans later)
  have justified := reachable.sound.justified
  rw [waiting] at justified
  have inside : key < 16 := by
    simp only [isFresh, Bool.and_eq_true, decide_eq_true_eq] at fresh
    exact fresh.1
  dsimp only
  rw [state_run_append]
  exact ⟨⟨received, whole⟩, delivers_received justified.1 inside whole received⟩

/-- Let go, pressed again and overtaken by another key before the next step, the first key counts. -/
theorem first_key_counts :
    ((((booted [0xF3, 0x0A]).run [.step]).state.run
      ([.step, .tick, .press 16] ++ .press 0xB :: [.release 0xB, .press 4, .press 0xB])).state.step
        |>.state.console.processor.get 3).toNat = 0xB :=
  ((key_wait_protocol ((reachable_booted [0xF3, 0x0A]).run [.step]) (by decide +kernel)).2
    [.step, .tick, .press 16] 0xB [.release 0xB, .press 4, .press 0xB] (by decide)
    (by decide +kernel) (by decide +kernel) (by decide)).2.stored

end Machine

end Chip8
