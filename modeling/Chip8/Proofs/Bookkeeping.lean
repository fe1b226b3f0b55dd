import Chip8.Main
import Chip8.Proofs.Arguments
import Chip8.Proofs.Interleaving
import Chip8.Proofs.Restart

/-! What a host does for itself. Starting, stopping, taking the mark of a new picture and naming a listener
are not seen by the machine at work: with or without them it answers, logs and leaves the same. So a
run without a screen, which does most of these, prints the picture of the bare steps. -/
namespace Chip8

namespace Operation

/-- Operations by which a host keeps its own books. -/
def isBookkeeping : Operation → Bool
  | start | stop | consumeRedraw | listen _ => true
  | _ => false

/-- The operations without the bookkeeping. -/
def erased (ops : List Operation) : List Operation :=
  ops.filter fun op => !op.isBookkeeping

end Operation

namespace Console

/-- The console without the mark of a new picture. -/
def unmarked (c : Console) : Console :=
  { c with display := { c.display with needsRedraw := false } }

variable (c : Console)

/-- No instruction looks at the mark, not even those that raise it. -/
theorem execute_unmarked (pc : Address) (i : Instruction) :
    (c.execute pc i).map unmarked = (c.unmarked.execute pc i).map unmarked := by
  have same : c.unmarked.processor = c.processor := rfl
  cases i with
  | returnFromCall =>
    simp only [execute, same]
    cases c.processor.stack.pop? <;> rfl
  | call a =>
    simp only [execute, same]
    cases c.processor.stack.push? c.processor.pc <;> rfl
  | _ => rfl

theorem cycle_unmarked : c.cycle.state.unmarked = c.unmarked.cycle.state.unmarked ∧
    c.unmarked.cycle.answer = c.cycle.answer ∧ c.unmarked.cycle.events = c.cycle.events := by
  have executes (i : Instruction) (_ : c.pending? = some i) :
      Matched (fun first second => first.unmarked = second.unmarked)
        (c.fetched.execute c.processor.pc i) (c.unmarked.fetched.execute c.processor.pc i) :=
    .of_map (c.fetched.execute_unmarked _ i)
  exact cycle_matched executes rfl rfl rfl rfl rfl fun _ _ _ => rfl

end Console

namespace Machine

/-- The machine without what its host keeps: the mark of a new picture, the listener, and whether it
is running. -/
def bare (m : Machine) : Machine where
  console :=
    { processor := m.console.processor
      memory := m.console.memory
      display := ⟨m.console.display.screen, false⟩
      keypad := m.console.keypad }
  config := m.config
  faults := m.faults
  listener := none
  running := false

variable {m n : Machine} {op : Operation}

theorem bare_step (m : Machine) : m.step.state.bare = m.bare.step.state.bare := by
  obtain ⟨state, answer, -⟩ := m.console.cycle_unmarked
  calc m.step.state.bare
      = { m.bare with
          console :=
            { m.console.cycle.state.unmarked with
              processor := m.console.cycle.state.unmarked.processor.elapse m.config.timerMode }
          faults := m.console.cycle.answer.elim m.faults m.faults.record } := by
        rw [state_step]
        rfl
    _ = m.bare.step.state.bare := by
        rw [state, ← answer, state_step]
        rfl

theorem bare_apply (m : Machine) (op : Operation) :
    (m.apply op).state.bare = (m.bare.apply op).state.bare := by
  cases op with
  | step => exact m.bare_step
  | _ =>
    rw [state_apply, state_apply]
    rfl

theorem bare_of_bookkeeping (book : op.isBookkeeping = true) : (m.apply op).state.bare = m.bare := by
  cases op with
  | start | stop | consumeRedraw | listen => rfl
  | load | reset | step | tick | press | release | reseed => contradiction

theorem answer_bare (work : op.isBookkeeping = false) :
    (m.apply op).answer = (m.bare.apply op).answer := by
  cases op with
  | load program => exact congrArg Answer.loaded (answer_load_eq _ _ program)
  | reset | step | tick | press | release | reseed => rfl
  | start | stop | consumeRedraw | listen => contradiction

/-- The log has no deliveries in it, so the listener does not matter to it. -/
theorem log_step (m : Machine) : Event.log m.step.events = Event.log m.bare.step.events := by
  obtain ⟨-, answer, events⟩ := m.console.cycle_unmarked
  have bareCycle : m.bare.console.cycle = m.console.unmarked.cycle := rfl
  rw [step_eq, step_eq, bareCycle, answer, events, Event.log, Event.log, List.filterMap_append,
    List.filterMap_append]
  cases m.console.cycle.answer with
  | none => rfl
  | some fault => cases m.listener <;> simp [bare, Event.entry?]

theorem log_bare (m : Machine) (op : Operation) :
    Event.log (m.apply op).events = Event.log (m.bare.apply op).events := by
  cases op with
  | step => exact m.log_step
  | load program =>
    simp only [apply, load_eq]
  | press key =>
    have same : m.bare.console.keypad = m.console.keypad := rfl
    simp only [apply, press, same]
    cases (m.console.keypad.change key true).answer <;> rfl
  | reset | tick | release | reseed | start | stop | consumeRedraw | listen => rfl

theorem bisimilar_bare : Bisimilar (fun m n => m.bare = n.bare) (fun _ => True)
    (fun op => !op.isBookkeeping) (fun _ => false) where
  steps := rfl
  left := by
    intro m n op same _ silent
    exact (bare_of_bookkeeping (by simpa using silent)).trans same
  right := by
    intro m n op same _ silent
    exact same.trans (bare_of_bookkeeping (by simpa using silent)).symm
  both := by
    intro m n op same _ _
    rw [bare_apply m, bare_apply n, same]
  executed := by
    intro m n op same
    have executes (m : Machine) : m.executed? op = m.bare.executed? op := by cases op <;> rfl
    rw [executes m, executes n, same]
  fault := by
    intro m n op same _
    have faulted (m : Machine) : m.fault? op = m.bare.fault? op := by
      cases op with
      | step => exact m.console.cycle_unmarked.2.1.symm
      | _ => rfl
    rw [faulted m, faulted n, same]

/-- Machines alike but for what their hosts keep stay so, with the bookkeeping or without it. -/
theorem bare_run_erased (same : m.bare = n.bare) (ops : List Operation) :
    (m.run ops).state.bare = (n.run (Operation.erased ops)).state.bare := by
  have visible : ops.filter (fun op => !op.isBookkeeping) =
      (Operation.erased ops).filter fun op => !op.isBookkeeping := by
    rw [Operation.erased, List.filter_filter]
    simp only [Bool.and_self]
  exact (run_related bisimilar_bare same (fun _ _ => trivial) visible fun _ _ => rfl).1

/-- An operation does the same work on both machines: it answers and logs the same, and what it leaves
differs at most in what hosts keep. -/
structure SameWork (m n : Machine) (op : Operation) : Prop where
  state : (m.apply op).state.bare = (n.apply op).state.bare
  answer : (m.apply op).answer = (n.apply op).answer
  log : Event.log (m.apply op).events = Event.log (n.apply op).events

theorem sameWork_of_bare (same : m.bare = n.bare) (work : op.isBookkeeping = false) :
    SameWork m n op where
  state := by rw [bare_apply m, bare_apply n, same]
  answer := by rw [answer_bare work, answer_bare (m := n) work, same]
  log := by rw [log_bare m, log_bare n, same]

/-- With a seed a machine has no use for a key of its own. -/
theorem ofConfig_seeded {config : Config} (seeded : config.seed.isSome) (own other : Key) :
    ofConfig config own = ofConfig config other := by
  obtain ⟨seed, found⟩ := Option.isSome_iff_exists.mp seeded
  rw [ofConfig, ofConfig, found]
  rfl

end Machine

/-! ### The run without a screen -/

namespace Headless
open CommandLine
variable {m : Machine}

theorem turns_succ (due : Nat → Bool) (m : Machine) (n : Nat) :
    turns due m (n + 1) = turns (fun k => due (k + 1)) (turn (due 0) m) n := by
  have last (due : Nat → Bool) (m : Machine) (n : Nat) :
      turns due m (n + 1) = turn (due n) (turns due m n) := Nat.fold_succ ..
  induction n with
  | zero => rfl
  | succ n ih => rw [last, ih, last]

/-- Where the timers follow the steps no tick is ever due. -/
theorem turn_eq_run (perStep : m.config.timerMode = .perStep) (due : Bool) :
    turn due m = (m.run [.step, .consumeRedraw]).state := by
  have never : ¬ (due = true ∧ m.config.timerMode = .decoupled) := by
    rw [perStep]
    nofun
  rw [turn, if_neg never]
  rfl

theorem turns_eq_run (perStep : m.config.timerMode = .perStep) (due : Nat → Bool) (n : Nat) :
    turns due m n = (m.run (List.replicate n [.step, .consumeRedraw]).flatten).state := by
  induction n generalizing m due with
  | zero => rfl
  | succ n ih =>
    have kept : (m.run [.step, .consumeRedraw]).state.config.timerMode = .perStep := by
      rw [Machine.config_run]
      exact perStep
    rw [turns_succ, turn_eq_run perStep, ih kept, List.replicate_succ, List.flatten_cons,
      Machine.state_run_append]

theorem frame_turns (perStep : m.config.timerMode = .perStep) (due : Nat → Bool) (n : Nat) :
    (turns due m.start n).stop.frame = (m.run (List.replicate n .step)).state.frame := by
  have erases : Operation.erased (List.replicate n [.step, .consumeRedraw]).flatten =
      List.replicate n .step := by
    induction n with
    | zero => rfl
    | succ n ih => exact congrArg (Operation.step :: ·) ih
  have started : m.start.bare = m.bare := rfl
  have same := Machine.bare_run_erased started (List.replicate n [.step, .consumeRedraw]).flatten
  rw [erases, ← turns_eq_run (m := m.start) perStep due] at same
  calc (turns due m.start n).stop.frame
      = (turns due m.start n).bare.frame := rfl
    _ = (m.run (List.replicate n .step)).state.bare.frame := by rw [same]
    _ = (m.run (List.replicate n .step)).state.frame := rfl

section Accepted
variable {arguments : List String} {options : Options} {program : List UInt8} {own : Key}
  {file : String → Except ReadError (List UInt8)}
  (accepted : CommandLine.options .headless arguments = .ok options)
  (present : file options.path = .ok program)
include accepted present

theorem perform_of_loaded
    (loaded : ((Machine.ofConfig options.config own).load program).answer = .ok ())
    (due : Nat → Bool) : perform due own file arguments = {
      code := 0
      out := play due options.steps ((Machine.ofConfig options.config own).load program).state } := by
  simp only [perform, prepare, accepted, present, Options.boot, loaded]

theorem perform_of_refused {error : LoadError}
    (refused : ((Machine.ofConfig options.config own).load program).answer = .error error)
    (due : Nat → Bool) : perform due own file arguments = (Failure.refused error).exit := by
  simp only [perform, prepare, accepted, present, Options.boot, refused]

end Accepted

end Headless

namespace Host

/-- The loop in real time never fails, and it takes the turns of some clock. -/
theorem turns_eq (hz : Nat) (m : Machine) (nextTick n : Nat) (world) : ∃ due later,
    turns hz m nextTick n world = .ok (Headless.turns due m n) later := by
  induction n generalizing m nextTick world with
  | zero => exact ⟨fun _ => false, world, rfl⟩
  | succ n ih =>
    have first : ∃ due next between, turns hz m nextTick (n + 1) world =
        turns hz (Headless.turn due m) next n between := by
      rw [turns]
      by_cases paced : 0 < hz
      · simp only [if_pos paced]
        exact ⟨_, _, _, rfl⟩
      · simp only [if_neg paced]
        exact ⟨_, _, _, rfl⟩
    obtain ⟨now, next, between, begun⟩ := first
    obtain ⟨due, later, ended⟩ := ih (Headless.turn now m) next between
    refine ⟨fun k => k.casesOn now due, later, ?_⟩
    rw [begun, ended, Headless.turns_succ]
    rfl

/-- At every pace the run ends with the picture of the bare steps. -/
theorem frame_turns {m : Machine} (perStep : m.config.timerMode = .perStep)
    (hz nextTick n : Nat) (world) : ∃ ended later,
    turns hz m.start nextTick n world = .ok ended later ∧
      ended.stop.frame = (m.run (List.replicate n .step)).state.frame := by
  obtain ⟨due, later, ended⟩ := turns_eq hz m.start nextTick n world
  exact ⟨_, later, ended, Headless.frame_turns perStep due n⟩

end Host

namespace Machine
open CommandLine

/-- With a seed, a host may keep its books as it likes: each operation between them does the work that it
does without them. A run without a screen therefore prints the picture of as many bare steps, at
any pace and on any clock, and a program that is refused gets no picture. Every path that is not an
option and all numbers of 64 bits can be asked for. -/
theorem bookkeeping_is_erasable (own other : Key) :
    (∀ (config : Config) (before after : List Operation) (op : Operation),
      config.seed.isSome → op.isBookkeeping = false →
      Operation.erased (before ++ op :: after) =
        Operation.erased before ++ op :: Operation.erased after ∧
      SameWork ((ofConfig config own).run before).state
        ((ofConfig config other).run (Operation.erased before)).state op) ∧
    (∀ (due : Nat → Bool) (file : String → Except ReadError (List UInt8)) (arguments : List String)
      (options : Options) (program : List UInt8),
      CommandLine.options .headless arguments = .ok options →
      options.config.seed.isSome → options.config.timerMode = .perStep →
      file options.path = .ok program →
      let printed := Headless.perform due own file arguments
      let fresh := ofConfig options.config other
      let picture :=
        (fresh.run (.load program :: List.replicate options.steps .step)).state.frame.text
      ((fresh.load program).answer = .ok () → printed = { code := 0, out := picture }) ∧
      ∀ error, (fresh.load program).answer = .error error →
        printed = (Failure.refused error).exit ∧ printed.out = "") ∧
    ∀ (path : String) (steps hz seed : UInt64), path.toList.head? ≠ some '-' →
      CommandLine.options .headless
          (path :: written [(.steps, steps.toNat), (.hz, hz.toNat), (.seed, seed.toNat)]) =
        .ok { path, steps := steps.toNat, hz := hz.toNat, config := { seed := some seed } } := by
  refine ⟨?_, ?_, fun path steps hz seed undashed => options_written undashed steps hz seed⟩
  · intro config before after op seeded work
    constructor
    · simp [Operation.erased, work]
    · rw [ofConfig_seeded seeded own other]
      exact sameWork_of_bare (bare_run_erased rfl before) work
  · intro due file arguments options program accepted seeded perStep present printed fresh picture
    have same : ofConfig options.config own = fresh := ofConfig_seeded seeded own other
    have kept : (fresh.load program).state.config.timerMode = .perStep := by
      rw [state_load]
      exact perStep
    have shown : Headless.play due options.steps (fresh.load program).state = picture := by
      rw [Headless.play, Headless.frame_turns kept]
      rfl
    constructor
    · intro loaded
      calc printed
          = { code := 0, out := Headless.play due options.steps (fresh.load program).state } := by
            rw [← same] at loaded ⊢
            exact Headless.perform_of_loaded accepted present loaded due
        _ = { code := 0, out := picture } := congrArg (Exit.mk 0 · "") shown
    · intro error refused
      rw [← same] at refused
      have report : printed = (Failure.refused error).exit :=
        Headless.perform_of_refused accepted present refused due
      exact ⟨report, congrArg Exit.out report⟩

/-- A program that draws a digit, stepped thrice sixty times a second, and a file with nothing in it. -/
theorem digit_printed_at_sixty_hertz :
    let own : Key := Vector.replicate 8 0
    let other : Key := Vector.replicate 8 1
    let config : Config := { seed := some 7 }
    let program : List UInt8 := [0xD0, 0x05]
    let arguments := "rom" :: written [(.steps, 3), (.hz, 60), (.seed, 7)]
    let fresh := ofConfig config other
    Operation.step.isBookkeeping = false ∧
    arguments = ["rom", "--steps", "3", "--hz", "60", "--seed", "7"] ∧
    CommandLine.options .headless arguments = .ok ⟨"rom", 3, 60, config⟩ ∧
    (fresh.load program).answer = .ok () ∧
    SameWork
      ((ofConfig config own).run [.load program, .start, .listen "host", .step, .consumeRedraw]).state
      (fresh.run [.load program, .step]).state .step ∧
    Headless.perform (fun _ => true) own (fun _ => .ok program) arguments =
      { code := 0, out := (fresh.run [.load program, .step, .step, .step]).state.frame.text } ∧
    (Headless.perform (fun _ => true) own (fun _ => .ok []) arguments).out = "" := by
  intro own other config program arguments fresh
  obtain ⟨erasable, printed, accepts⟩ := bookkeeping_is_erasable own other
  have spelled : "rom" :: written [(.steps, 3), (.hz, 60), (.seed, 7)] =
      ["rom", "--steps", "3", "--hz", "60", "--seed", "7"] := by decide +kernel
  have accepted : CommandLine.options .headless arguments = .ok ⟨"rom", 3, 60, config⟩ :=
    accepts "rom" 3 60 7 (by decide)
  have loaded : (fresh.load program).answer = .ok () := fresh.answer_load program
  have refused : (fresh.load []).answer = .error .empty := fresh.answer_load []
  refine ⟨rfl, spelled, accepted, loaded, ?_, ?_, ?_⟩
  · exact (erasable config [.load program, .start, .listen "host", .step, .consumeRedraw] [] .step
      rfl rfl).2
  · exact (printed (fun _ => true) (fun _ => .ok program) arguments _ program accepted rfl rfl
      rfl).1 loaded
  · exact ((printed (fun _ => true) (fun _ => .ok []) arguments _ [] accepted rfl rfl rfl).2 _
      refused).2

end Machine

end Chip8
