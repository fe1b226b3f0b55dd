import Chip8.Proofs.Timers

/-! Ticks, presses and releases around a step. Whether such an event comes before a step or after it
makes no difference, unless the step looks at what the event changes: at a timer, at the very key,
or at any key that goes down. Where it does look, the order can be told. -/
namespace Chip8

namespace Instruction

/-- `FX07`, `FX15` and `FX18`. -/
def touchesTimer : Instruction → Bool
  | readDelay _ | setDelay _ | setSound _ => true
  | _ => false

/-- The register whose key `EX9E` and `EXA1` look for. -/
def asks? : Instruction → Option Register
  | skipIfKey x | skipUnlessKey x => some x
  | _ => none

end Instruction

namespace Processor

/-- The processor with both timers changed in one way. -/
def timed (p : Processor) (time : UInt8 → UInt8) : Processor :=
  { p with delay := time p.delay, sound := time p.sound }

variable (p : Processor) (time : UInt8 → UInt8)

theorem timed_skipIf (condition : Bool) :
    (p.timed time).skipIf condition = (p.skipIf condition).timed time := by
  cases condition <;> rfl

theorem timed_elapse {time : UInt8 → UInt8}
    (paced : ∀ timer, countDown (time timer) = time (countDown timer))
    (mode : TimerMode) : (p.timed time).elapse mode = (p.elapse mode).timed time := by
  cases mode with
  | perStep => simp only [elapse, tick, timed, paced]
  | decoupled => rfl

end Processor

namespace Console

/-- The console with both timers changed in one way and with another keypad. -/
def touched (c : Console) (time : UInt8 → UInt8) (keypad : Keypad) : Console :=
  { c with processor := c.processor.timed time, keypad }

variable {c : Console} {i : Instruction} {time : UInt8 → UInt8} {keypad : Keypad}

/-- An instruction that looks neither at the timers nor at a key that differs does the same. -/
theorem execute_touched (pc : Address) (timeless : i.touchesTimer = true → time = id)
    (unasked : ∀ x ∈ i.asks?, keypad.isHeld (c.processor.get x).toNat =
      c.keypad.isHeld (c.processor.get x).toNat) :
    (c.touched time keypad).execute pc i = (c.execute pc i).map (·.touched time keypad) := by
  have skips (condition : Bool) :=
    congrArg (fun processor => Except.ok (ε := Fault) { c with processor, keypad })
      (Processor.timed_skipIf c.processor time condition)
  cases i with
  | readDelay | setDelay | setSound =>
    obtain rfl := timeless rfl
    rfl
  | skipIfKey x | skipUnlessKey x =>
    have same : (c.touched time keypad).keypad.isHeld
        ((c.touched time keypad).processor.get x).toNat =
          c.keypad.isHeld (c.processor.get x).toNat := unasked x rfl
    simp only [execute, same]
    exact skips _
  | skipIfConst | skipUnlessConst | skipIfEqual | skipUnlessEqual => exact skips _
  | returnFromCall =>
    have same : (c.touched time keypad).processor.stack = c.processor.stack := rfl
    simp only [execute, same]
    cases c.processor.stack.pop? <;> rfl
  | call a =>
    have same : (c.touched time keypad).processor.stack.push?
        (c.touched time keypad).processor.pc = c.processor.stack.push? c.processor.pc := rfl
    simp only [execute, same]
    cases c.processor.stack.push? c.processor.pc <;> rfl
  | _ => rfl

theorem cycle_touched (timeless : ∀ i ∈ c.pending?, i.touchesTimer = true → time = id)
    (unasked : ∀ i ∈ c.pending?, ∀ x ∈ i.asks?, keypad.isHeld (c.processor.get x).toNat =
      c.keypad.isHeld (c.processor.get x).toNat) :
    (c.touched time keypad).cycle = { c.cycle with state := c.cycle.state.touched time keypad } := by
  have executes (i : Instruction) (pending : c.pending? = some i) :
      Matched (fun first second => second = first.touched time keypad)
        (c.fetched.execute c.processor.pc i)
        ((c.touched time keypad).fetched.execute c.processor.pc i) := by
    have executed : (c.touched time keypad).fetched.execute c.processor.pc i =
        (c.fetched.execute c.processor.pc i).map (·.touched time keypad) :=
      execute_touched (c := c.fetched) c.processor.pc (timeless i pending) (unasked i pending)
    rw [executed]
    cases c.fetched.execute c.processor.pc i with
    | ok after => exact .ok rfl
    | error fault => exact .error fault
  obtain ⟨state, answer, events⟩ := cycle_matched executes rfl rfl rfl rfl rfl fun _ _ _ => rfl
  calc (c.touched time keypad).cycle
      = ⟨c.cycle.state.touched time keypad, c.cycle.answer, c.cycle.events⟩ := by
        rw [← state, ← answer, ← events]
    _ = { c.cycle with state := c.cycle.state.touched time keypad } := rfl

/-- No cycle puts a key down or lets one go. -/
theorem keypad_cycle (c : Console) : c.cycle.state.keypad = c.keypad := by
  -- A console touched with its own keypad is itself, and the cycle hands that keypad on.
  have same : c.cycle = { c.cycle with state := c.cycle.state.touched id c.keypad } :=
    cycle_touched (fun _ _ _ => rfl) fun _ _ _ _ => rfl
  rw [same]
  rfl

end Console

namespace Keypad

theorem lt_of_isHeld {keypad : Keypad} {key : Nat} (held : keypad.isHeld key = true) : key < 16 := by
  rcases Nat.lt_or_ge key 16 with inside | outside
  · exact inside
  · rw [isHeld, Vector.getElem?_eq_none outside] at held
    contradiction

/-- A key that is up already or down already stays so, and no other number belongs to a key. -/
theorem change_eq_self {keypad : Keypad} {key : Nat} {down : Bool}
    (settled : key < 16 → keypad.isHeld key = down) : (keypad.change key down).state = keypad := by
  unfold change
  split
  · rename_i bound
    have same : keypad.held[key] = down := by
      rw [← settled bound, isHeld, Vector.getElem?_eq_getElem bound, Option.getD_some]
    simp only [← same, Vector.set_getElem_self]
  · rfl

end Keypad

theorem KeyWait.offer_of_not_waiting {wait : KeyWait} (idle : ∀ x, wait ≠ .waiting x) (key : UInt8) :
    wait.offer key = wait := by
  cases wait with
  | waiting x => exact absurd rfl (idle x)
  | running | received => rfl

namespace Machine

/-- An operation before a step and after it: the same machine is left, and the step tells the same. -/
structure Commutes (m : Machine) (op : Operation) : Prop where
  state : (m.apply op).state.step.state = (m.step.state.apply op).state
  told : (m.apply op).state.step.events = m.step.events

/-- The next step is a skip that looks for the key. -/
def AsksFor (m : Machine) (key : Nat) : Prop :=
  ∃ i x, m.console.pending? = some i ∧ i.asks? = some x ∧ (m.console.processor.get x).toNat = key

/-- A key is awaited already, or will be after the next step. -/
def Awaits (m : Machine) : Prop :=
  ∃ x, m.console.processor.wait = .waiting x ∨ m.console.pending? = some (.awaitKey x)

def touched (m : Machine) (time : UInt8 → UInt8) (keypad : Keypad) : Machine :=
  { m with console := m.console.touched time keypad }

variable {m : Machine} {op : Operation} {key : Nat} {time : UInt8 → UInt8} {keypad : Keypad}

theorem step_touched (paced : ∀ timer, Processor.countDown (time timer) = time (Processor.countDown timer))
    (timeless : ∀ i ∈ m.console.pending?, i.touchesTimer = true → time = id)
    (unasked : ∀ i ∈ m.console.pending?, ∀ x ∈ i.asks?,
      keypad.isHeld (m.console.processor.get x).toNat =
        m.console.keypad.isHeld (m.console.processor.get x).toNat) :
    (m.touched time keypad).step = { m.step with state := m.step.state.touched time keypad } := by
  have cycled : (m.touched time keypad).console.cycle =
      { m.console.cycle with state := m.console.cycle.state.touched time keypad } :=
    Console.cycle_touched timeless unasked
  rw [step_eq, step_eq, after, after, cycled]
  simp only [Console.touched, touched, Processor.timed_elapse _ paced]

theorem keypad_step (m : Machine) : m.step.state.console.keypad = m.console.keypad := by
  rw [state_step]
  exact m.console.keypad_cycle

theorem state_tick (m : Machine) : (m.apply .tick).state =
    m.touched Processor.countDown m.console.keypad :=
  rfl

theorem state_release (m : Machine) (key : Nat) : (m.apply (.release key)).state =
    m.touched id (m.console.keypad.change key false).state :=
  rfl

/-- Where no key is awaited, a press reaches the keypad alone. -/
theorem state_press_idle (idle : ∀ x, m.console.processor.wait ≠ .waiting x) (key : Nat) :
    (m.apply (.press key)).state = m.touched id (m.console.keypad.change key true).state := by
  rw [state_apply, after, KeyWait.offer_of_not_waiting idle, ite_self]
  rfl

/-- A step leaves a wait behind only where one was or where it executes `FX0A`. -/
theorem wait_step_of_not_awaits (unawaited : ¬ m.Awaits) :
    m.step.state.console.processor.wait = .running := by
  rw [state_step, after, Processor.elapse_wait]
  generalize ended : m.console.cycle = done
  cases ended ▸ m.console.cycles with
  | waits x waiting => exact absurd ⟨x, .inl waiting⟩ unawaited
  | takes => rfl
  | unknown running => exact running
  | fails i fault pending => exact (Console.pending?_eq_some.mp pending).1
  | executes i after pending executed =>
    rcases Console.wait_execute executed with kept | ⟨x, rfl, -⟩
    · exact kept.trans (Console.pending?_eq_some.mp pending).1
    · exact absurd ⟨x, .inr pending⟩ unawaited

theorem isHeld_of_not_asksFor (unasked : ¬ m.AsksFor key) (down : Bool) :
    ∀ i ∈ m.console.pending?, ∀ x ∈ i.asks?,
      (m.console.keypad.change key down).state.isHeld (m.console.processor.get x).toNat =
        m.console.keypad.isHeld (m.console.processor.get x).toNat := by
  intro i pending x asks
  have other : ¬ (key = (m.console.processor.get x).toNat ∧ key < 16) := by
    rintro ⟨same, -⟩
    exact unasked ⟨i, x, pending, asks, same.symm⟩
  rw [Keypad.isHeld_change, if_neg other]

theorem commutes_tick (untimed : ∀ i ∈ m.console.pending?, i.touchesTimer = false) :
    m.Commutes .tick := by
  have stepped : (m.touched Processor.countDown m.console.keypad).step =
      { m.step with state := m.step.state.touched Processor.countDown m.console.keypad } := by
    apply step_touched
    · intro timer
      rfl
    · intro i pending touches
      rw [untimed i pending] at touches
      contradiction
    · intro i _ x _
      rfl
  constructor
  · rw [state_tick, state_tick, stepped, keypad_step]
  · rw [state_tick, stepped]

theorem step_change (unasked : ¬ m.AsksFor key) (down : Bool) :
    (m.touched id (m.console.keypad.change key down).state).step =
      { m.step with state := m.step.state.touched id (m.console.keypad.change key down).state } := by
  apply step_touched
  · intro timer
    rfl
  · intro i _ _
    rfl
  · exact isHeld_of_not_asksFor unasked down

theorem commutes_release (unasked : ¬ m.AsksFor key) : m.Commutes (.release key) := by
  have stepped := step_change unasked false
  constructor
  · rw [state_release, state_release, stepped, keypad_step]
  · rw [state_release, stepped]

theorem commutes_press (unawaited : ¬ m.Awaits) (unasked : ¬ m.AsksFor key) :
    m.Commutes (.press key) := by
  have idle : ∀ x, m.console.processor.wait ≠ .waiting x := by
    intro x waiting
    exact unawaited ⟨x, .inl waiting⟩
  have idleLater : ∀ x, m.step.state.console.processor.wait ≠ .waiting x := by
    intro x
    rw [wait_step_of_not_awaits unawaited]
    exact nofun
  have stepped := step_change unasked true
  constructor
  · rw [state_press_idle idle, state_press_idle idleLater, stepped, keypad_step]
  · rw [state_press_idle idle, stepped]

/-- An operation that leaves a machine and its successor as they are commutes with the step. -/
theorem Commutes.of_idle (before : (m.apply op).state = m) (later : (m.step.state.apply op).state =
    m.step.state) : m.Commutes op := by
  constructor
  · rw [before, later]
  · rw [before]

theorem state_release_up (up : m.isPressed key = false) : (m.apply (.release key)).state = m := by
  rw [state_release, Keypad.change_eq_self fun _ => up]
  rfl

theorem commutes_release_up (up : m.isPressed key = false) : m.Commutes (.release key) := by
  have upLater : m.step.state.isPressed key = false := by
    rw [isPressed, keypad_step]
    exact up
  exact .of_idle (state_release_up up) (state_release_up upLater)

/-- A press of a key that is down, or of a number that is no key's, does nothing at all. -/
theorem state_press_stale (stale : m.isFresh key = false) : (m.apply (.press key)).state = m := by
  have settled : key < 16 → m.console.keypad.isHeld key = true := by
    intro bound
    simpa [isFresh, isPressed, bound] using stale
  rw [state_apply, after, stale, if_neg Bool.false_ne_true, Keypad.change_eq_self settled]

theorem isFresh_step (m : Machine) (key : Nat) : m.step.state.isFresh key = m.isFresh key := by
  rw [isFresh, isFresh, isPressed, isPressed, keypad_step]

theorem commutes_press_stale (stale : m.isFresh key = false) : m.Commutes (.press key) :=
  .of_idle (state_press_stale stale) (state_press_stale ((m.isFresh_step key).trans stale))

/-! ### Where the order can be told -/

theorem pc_skipIf_inj {p : Processor} {first second : Bool}
    (same : (p.skip.skipIf first).pc = (p.skip.skipIf second).pc) : first = second := by
  have place := congrArg UInt16.toNat same
  cases first <;> cases second <;>
    simp only [Processor.skipIf, Processor.toNat_pc_skip, if_true, Bool.false_eq_true, if_false]
      at place ⊢ <;> omega

/-- A skip that looks for a key goes by what the keypad says of it. -/
theorem pc_step_asking {i : Instruction} {x : Register} (pending : m.console.pending? = some i)
    (asks : i.asks? = some x) (keypad : Keypad) :
    (m.touched id keypad).step.state.console.processor.pc =
      (m.console.processor.skip.skipIf
        (keypad.isHeld (m.console.processor.get x).toNat == decide (i = .skipIfKey x))).pc := by
  have same : (m.touched id keypad).console.pending? = some i := pending
  rw [state_step, after, Processor.elapse_pc, Console.cycle_pending same]
  cases i with
  | skipIfKey y | skipUnlessKey y =>
    obtain rfl := Option.some.inj asks
    simp only [Console.execute, decide_true, reduceCtorEq, decide_false, beq_true, beq_false]
    rfl
  | _ => contradiction

/-- Two keypads that differ in the key looked for lead to different places. -/
theorem isHeld_of_pc_step (asked : m.AsksFor key) (other : Keypad)
    (same : (m.touched id keypad).step.state.console.processor.pc =
      (m.touched id other).step.state.console.processor.pc) :
    keypad.isHeld key = other.isHeld key := by
  obtain ⟨i, x, pending, asks, rfl⟩ := asked
  rw [pc_step_asking pending asks, pc_step_asking pending asks] at same
  have agree := pc_skipIf_inj same
  revert agree
  cases keypad.isHeld _ <;> cases other.isHeld _ <;> cases decide (i = .skipIfKey x) <;> decide

theorem not_commutes_release (held : m.isPressed key = true) (asked : m.AsksFor key) :
    ¬ m.Commutes (.release key) := by
  intro commutes
  have same := congrArg (fun after : Machine => after.console.processor.pc) commutes.state
  have agree := isHeld_of_pc_step asked m.console.keypad same
  rw [Keypad.isHeld_change, if_pos ⟨rfl, Keypad.lt_of_isHeld held⟩] at agree
  exact absurd (agree.trans held) Bool.false_ne_true

theorem not_commutes_press_asked (fresh : m.isFresh key = true) (asked : m.AsksFor key) :
    ¬ m.Commutes (.press key) := by
  intro commutes
  simp only [isFresh, Bool.and_eq_true, decide_eq_true_eq, Bool.not_eq_true'] at fresh
  have idle : ∀ x, m.console.processor.wait ≠ .waiting x := by
    intro x waiting
    obtain ⟨i, y, pending, -⟩ := asked
    rw [(Console.pending?_eq_some.mp pending).1] at waiting
    contradiction
  have same := congrArg (fun after : Machine => after.console.processor.pc) commutes.state
  rw [state_press_idle idle, state_apply] at same
  have agree := isHeld_of_pc_step asked m.console.keypad same
  rw [Keypad.isHeld_change, if_pos ⟨rfl, fresh.1⟩] at agree
  exact Bool.false_ne_true (fresh.2.symm.trans agree.symm)

theorem wait_press_fresh {x : Register} (fresh : m.isFresh key = true)
    (waiting : m.console.processor.wait = .waiting x) :
    (m.apply (.press key)).state.console.processor.wait = .received x (UInt8.ofNat key) := by
  have keeps : (Operation.press key).KeepsProgram := trivial
  rw [wait_host keeps nofun, freshKey?, if_pos fresh, waiting]
  rfl

theorem wait_step_awaitKey {x : Register} (pending : m.console.pending? = some (.awaitKey x)) :
    m.step.state.console.processor.wait = .waiting x := by
  rw [state_step, after, Processor.elapse_wait, Console.cycle_pending pending]
  rfl

theorem not_commutes_press_awaited (fresh : m.isFresh key = true) (awaited : m.Awaits) :
    ¬ m.Commutes (.press key) := by
  intro commutes
  have same := congrArg (fun after : Machine => after.console.processor.wait) commutes.state
  have freshLater : m.step.state.isFresh key = true := (m.isFresh_step key).trans fresh
  obtain ⟨x, waiting | pending⟩ := awaited
  -- The wait goes on already: the step takes a key pressed before it, and only that one.
  · have still : m.step.state.console.processor.wait = .waiting x := by
      rw [state_step_waiting waiting]
      exact (Processor.elapse_wait _ _).trans waiting
    have taken : (m.apply (.press key)).state.step.state.console.processor.wait = .running := by
      rw [step_received (wait_press_fresh fresh waiting)]
      exact Processor.elapse_wait _ _
    rw [taken, wait_press_fresh freshLater still] at same
    contradiction
  -- The step begins the wait: a key pressed before it is lost, one pressed after it is taken.
  · have idle : ∀ x, m.console.processor.wait ≠ .waiting x := by
      rw [(Console.pending?_eq_some.mp pending).1]
      exact fun _ => nofun
    have begun : (m.apply (.press key)).state.step.state.console.processor.wait = .waiting x := by
      rw [state_press_idle idle]
      exact wait_step_awaitKey pending
    rw [begun, wait_press_fresh freshLater (wait_step_awaitKey pending)] at same
    contradiction

theorem not_commutes_tick_read {x : Register} (pending : m.console.pending? = some (.readDelay x))
    (runs : 0 < m.console.processor.delay.toNat) : ¬ m.Commutes .tick := by
  intro commutes
  have same := congrArg (fun after : Machine => (after.console.processor.get x).toNat) commutes.state
  have early : (m.apply .tick).state.step.state.console.processor.get x =
      Processor.countDown m.console.processor.delay := get_step_readDelay (m := m.tick) pending
  have late : (m.step.state.apply .tick).state.console.processor.get x =
      m.console.processor.delay := get_step_readDelay pending
  rw [early, late, Processor.toNat_countDown] at same
  omega

theorem not_commutes_tick_set {i : Instruction} {t : Timer} {x : Register}
    (pending : m.console.pending? = some i) (sets : i.sets? t = some x)
    (runs : Operation.step.countdown m.config.timerMode < (m.console.processor.get x).toNat) :
    ¬ m.Commutes .tick := by
  intro commutes
  have same := congrArg (fun after : Machine => (after.console.processor.timer t).toNat) commutes.state
  have early := m.tick.toNat_timer_step t
  have ticked : m.tick.console.pending? = some i := pending
  rw [ticked, Option.bind_some, sets] at early
  have late : ((m.step.state.apply .tick).state.console.processor.timer t).toNat =
      (m.step.state.console.processor.timer t).toNat - 1 := toNat_timer_apply trivial nofun
  rw [toNat_timer_step, pending, Option.bind_some, sets] at late
  have bound : (m.console.processor.get x).toNat - Operation.step.countdown m.config.timerMode =
      (m.console.processor.get x).toNat - Operation.step.countdown m.config.timerMode - 1 :=
    early.symm.trans (same.trans late)
  omega

/-- A tick, a release and a press each commute with a step unless the step looks at what they change:
a tick unless the step executes `FX07`, `FX15` or `FX18`; a release unless it is a skip on that key;
a press unless it is a skip on that key, or a key is awaited before or after it. These exceptions
are no wider than they have to be. -/
theorem events_commute_unless_observed (m : Machine) :
    ((∀ i ∈ m.console.pending?, i.touchesTimer = false) → m.Commutes .tick) ∧
    (∀ key, m.Commutes (.release key) ↔ ¬ (m.isPressed key = true ∧ m.AsksFor key)) ∧
    (∀ key, m.Commutes (.press key) ↔ ¬ (m.isFresh key = true ∧ (m.Awaits ∨ m.AsksFor key))) ∧
    (∀ x, m.console.pending? = some (.readDelay x) → 0 < m.console.processor.delay.toNat →
      ¬ m.Commutes .tick) ∧
    ∀ i t x, m.console.pending? = some i → i.sets? t = some x →
      Operation.step.countdown m.config.timerMode < (m.console.processor.get x).toNat →
      ¬ m.Commutes .tick := by
  refine ⟨commutes_tick, ?_, ?_, ?_, ?_⟩
  · intro key
    constructor
    · intro commutes observed
      exact not_commutes_release observed.1 observed.2 commutes
    · intro unobserved
      by_cases held : m.isPressed key = true
      · exact commutes_release fun asked => unobserved ⟨held, asked⟩
      · exact commutes_release_up (Bool.eq_false_iff.mpr held)
  · intro key
    constructor
    · rintro commutes ⟨fresh, awaited | asked⟩
      · exact not_commutes_press_awaited fresh awaited commutes
      · exact not_commutes_press_asked fresh asked commutes
    · intro unobserved
      by_cases fresh : m.isFresh key = true
      · exact commutes_press (fun awaited => unobserved ⟨fresh, .inl awaited⟩)
          fun asked => unobserved ⟨fresh, .inr asked⟩
      · exact commutes_press_stale (Bool.eq_false_iff.mpr fresh)
  · intro x pending runs
    exact not_commutes_tick_read pending runs
  · intro i t x pending sets runs
    exact not_commutes_tick_set pending sets runs

/-- Before `FX0A` a press is lost as a held key, and after it the same press ends the wait. A tick, the
release of a key that is up and a number that is no key's make no difference there. -/
theorem press_around_await :
    let m := booted [0xF3, 0x0A]
    m.Commutes .tick ∧ m.Commutes (.release 4) ∧ m.Commutes (.press 16) ∧ ¬ m.Commutes (.press 4) := by
  intro m
  have ⟨pending, up, fresh⟩ : m.console.pending? = some (.awaitKey 3) ∧ m.isPressed 4 = false ∧
      m.isFresh 4 = true := by decide +kernel
  obtain ⟨tick, release, press, -⟩ := events_commute_unless_observed m
  refine ⟨?_, ?_, ?_, ?_⟩
  · apply tick
    rw [pending]
    rintro i ⟨⟩
    rfl
  · apply (release 4).mpr
    rintro ⟨held, -⟩
    rw [up] at held
    contradiction
  · apply (press 16).mpr
    rintro ⟨stale, -⟩
    contradiction
  · intro commutes
    exact (press 4).mp commutes ⟨fresh, .inl ⟨3, .inr pending⟩⟩

end Machine

end Chip8
