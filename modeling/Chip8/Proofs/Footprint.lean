import Chip8.Proofs.Commuting
import Chip8.Proofs.RandomBytes
import Chip8.Proofs.Redraw
import Chip8.Proofs.Ring

/-! What a step may touch. Every instruction has a footprint: the bytes that it stores, the registers that
it sets, and whether it touches the index register, the stack or the display. A step changes nothing
outside the footprint of what it executes, so a byte that differs after a run was stored on the way. -/
namespace Chip8

namespace Instruction

/-- How many bytes are stored from the index register on: three by `FX33`, one for each register up to
`VX` by `FX55`. -/
def stored : Instruction → Nat
  | storeDecimal _ => 3
  | storeRegisters x => x.toNat + 1
  | _ => 0

/-- The registers that an instruction may set. -/
def Targets (y : Register) : Instruction → Prop
  | setConst x _ | addConst x _ | copy x _ | bitOr x _ | bitAnd x _ | bitXor x _ | random x _
  | readDelay x => y = x
  | add x _ | subtract x _ | shiftRight x | subtractFrom x _ | shiftLeft x =>
    y = x ∨ y = Registers.flag
  | draw _ _ _ => y = Registers.flag
  | loadRegisters x => y.toNat ≤ x.toNat
  | _ => False

/-- `ANNN`, `FX1E` and `FX29`. -/
def TouchesIndex : Instruction → Prop
  | setIndex _ | addIndex _ | pointAtGlyph _ => True
  | _ => False

/-- `2NNN` and `00EE`. -/
def TouchesStack : Instruction → Prop
  | call _ | returnFromCall => True
  | _ => False

/-- `00E0` and `DXYN`. -/
def TouchesDisplay : Instruction → Prop
  | clearScreen | draw _ _ _ => True
  | _ => False

end Instruction

namespace Registers
variable (registers : Registers) {x y : Register}

theorem get_set_or (value : UInt8) (lowX : x.toNat < 16) (lowY : y.toNat < 16) :
    (registers.set x value).get y = registers.get y ∨ y = x := by
  by_cases same : y = x
  · exact .inr same
  · exact .inl (registers.get_set_of_ne value lowX lowY same)

theorem get_setFlagged_or (value flagValue : UInt8) (lowX : x.toNat < 16) (lowY : y.toNat < 16) :
    (registers.setFlagged x value flagValue).get y = registers.get y ∨ y = x ∨ y = flag := by
  have lowFlag : flag.toNat < 16 := by decide
  rcases (registers.set x value).get_set_or flagValue lowFlag lowY with kept | isFlag
  · rw [setFlagged, kept]
    exact (registers.get_set_or value lowX lowY).imp_right .inl
  · exact .inr (.inr isFlag)

theorem get_fill_or (bytes : List UInt8) (lowY : y.toNat < 16) :
    (registers.fill bytes).get y = registers.get y ∨ y.toNat < bytes.length := by
  by_cases filled : y.toNat < bytes.length
  · exact .inr filled
  · left
    have same : (place y).val = y.toNat := Nat.mod_eq_of_lt lowY
    have none : bytes[(place y).val]? = none := by
      rw [same]
      exact List.getElem?_eq_none (Nat.le_of_not_lt filled)
    rw [get, fill, Fin.getElem_fin, Vector.getElem_ofFn, none]
    rfl

end Registers

namespace Console
variable {c after : Console} {pc : Address} {i : Instruction}

/-- What an executed instruction leaves of the processor. -/
structure Spares (c : Console) (i : Instruction) (after : Console) : Prop where
  registers : ∀ y : Register, y.toNat < 16 →
    after.processor.get y = c.processor.get y ∨ i.Targets y
  index : after.processor.index = c.processor.index ∨ i.TouchesIndex
  stack : after.processor.stack = c.processor.stack ∨ i.TouchesStack

theorem spares_execute (inRange : i.InRange) (executed : c.execute pc i = .ok after) :
    c.Spares i after := by
  cases i with
  | returnFromCall | call =>
    simp only [execute] at executed
    split at executed
    · obtain rfl := Except.ok.inj executed
      exact ⟨fun _ _ => .inl rfl, .inl rfl, .inr trivial⟩
    · contradiction
  | skipIfConst | skipUnlessConst | skipIfEqual | skipUnlessEqual | skipIfKey | skipUnlessKey =>
    simp only [execute] at executed
    rw [Processor.skipIf_eq] at executed
    obtain rfl := Except.ok.inj executed
    exact ⟨fun _ _ => .inl rfl, .inl rfl, .inl rfl⟩
  | setConst | addConst | random | readDelay =>
    obtain rfl := Except.ok.inj executed
    exact ⟨fun _ low => Registers.get_set_or _ _ inRange low, .inl rfl, .inl rfl⟩
  | copy | bitOr | bitAnd | bitXor =>
    obtain rfl := Except.ok.inj executed
    exact ⟨fun _ low => Registers.get_set_or _ _ inRange.1 low, .inl rfl, .inl rfl⟩
  | add | subtract | subtractFrom =>
    obtain rfl := Except.ok.inj executed
    exact ⟨fun _ low => Registers.get_setFlagged_or _ _ _ inRange.1 low, .inl rfl, .inl rfl⟩
  | shiftRight | shiftLeft =>
    obtain rfl := Except.ok.inj executed
    exact ⟨fun _ low => Registers.get_setFlagged_or _ _ _ inRange low, .inl rfl, .inl rfl⟩
  | draw =>
    obtain rfl := Except.ok.inj executed
    exact ⟨fun _ low => Registers.get_set_or _ _ (by decide) low, .inl rfl, .inl rfl⟩
  | loadRegisters x =>
    obtain rfl := Except.ok.inj executed
    refine ⟨?_, .inl rfl, .inl rfl⟩
    intro y low
    apply (Registers.get_fill_or _ _ low).imp_right
    intro filled
    rw [Memory.length_readBytes] at filled
    exact Nat.le_of_lt_succ filled
  | setIndex | addIndex | pointAtGlyph =>
    obtain rfl := Except.ok.inj executed
    exact ⟨fun _ _ => .inl rfl, .inr trivial, .inl rfl⟩
  | _ =>
    obtain rfl := Except.ok.inj executed
    exact ⟨fun _ _ => .inl rfl, .inl rfl, .inl rfl⟩

/-- The bytes that an instruction stores. -/
def bytesStored (c : Console) : Instruction → List UInt8
  | .storeDecimal x =>
    let n := c.processor.get x
    [n / 100, n / 10 % 10, n % 10]
  | .storeRegisters x => c.processor.registers.upTo x
  | _ => []

theorem length_bytesStored (inRange : i.InRange) : (c.bytesStored i).length = i.stored := by
  cases i with
  | storeRegisters x =>
    have low : x.toNat < 16 := inRange
    simp only [bytesStored, Registers.upTo, List.length_take, Vector.length_toList,
      Instruction.stored]
    omega
  | _ => rfl

theorem length_bytes_of_pending (pending : c.pending? = some i) :
    (c.bytesStored i).length = i.stored := by
  exact length_bytesStored (inRange_of_pending pending)

theorem memory_execute (executed : c.execute pc i = .ok after) :
    after.memory = c.memory.writeBytes c.processor.index (c.bytesStored i) := by
  cases i with
  | returnFromCall | call =>
    simp only [execute] at executed
    split at executed
    · obtain rfl := Except.ok.inj executed
      rfl
    · contradiction
  | _ =>
    obtain rfl := Except.ok.inj executed
    rfl

theorem bytesStored_of_error {fault : Fault} (failed : c.execute pc i = .error fault) :
    c.bytesStored i = [] := by
  cases i with
  | storeDecimal | storeRegisters => contradiction
  | _ => rfl

theorem memory_cycle (c : Console) : c.cycle.state.memory =
    c.memory.writeBytes c.processor.index (c.pending?.elim [] c.bytesStored) := by
  cases pending : c.pending? with
  | none =>
    rw [state_cycle_idle pending]
    rfl
  | some i =>
    have skipped : c.fetched.bytesStored i = c.bytesStored i := rfl
    rw [cycle_pending pending, Option.elim_some, ← skipped]
    cases executed : c.fetched.execute c.processor.pc i with
    | ok after => exact memory_execute (c := c.fetched) executed
    | error fault =>
      rw [bytesStored_of_error executed]
      rfl

/-- What a cycle leaves of the processor. Apart from instructions only the taking of a key sets a
register or the wait. -/
structure Confined (c : Console) (done : Outcome Console (Option Fault)) : Prop where
  registers : ∀ y : Register, y.toNat < 16 →
    done.state.processor.get y = c.processor.get y ∨
      (∃ i ∈ c.pending?, i.Targets y) ∨ ∃ key, c.processor.wait = .received y key
  index : done.state.processor.index = c.processor.index ∨ ∃ i ∈ c.pending?, i.TouchesIndex
  stack : done.state.processor.stack = c.processor.stack ∨
    done.answer = none ∧ ∃ i ∈ c.pending?, i.TouchesStack
  wait : done.state.processor.wait = c.processor.wait ∨
    (∃ x, c.pending? = some (.awaitKey x)) ∨ ∃ x key, c.processor.wait = .received x key

theorem Sound.confined (sound : c.Sound) : c.Confined c.cycle := by
  generalize ended : c.cycle = done
  cases ended ▸ c.cycles with
  | waits | unknown | fails => exact ⟨fun _ _ => .inl rfl, .inl rfl, .inl rfl, .inl rfl⟩
  | takes x key received =>
    have justified := sound.justified
    rw [received] at justified
    refine ⟨?_, .inl rfl, .inl rfl, .inr (.inr ⟨x, key, received⟩)⟩
    intro y low
    rcases c.processor.registers.get_set_or key justified.1.1 low with kept | rfl
    · exact .inl kept
    · exact .inr (.inr ⟨key, received⟩)
  | executes i after pending executed =>
    have spares := spares_execute (inRange_of_pending pending) executed
    constructor
    case registers =>
      intro y low
      exact (spares.registers y low).imp_right fun targets => .inl ⟨i, pending, targets⟩
    case index => exact spares.index.imp_right fun touches => ⟨i, pending, touches⟩
    case stack => exact spares.stack.imp_right fun touches => ⟨rfl, i, pending, touches⟩
    case wait =>
      rcases wait_execute executed with kept | ⟨x, rfl, -⟩
      · exact .inl kept
      · exact .inr (.inl ⟨x, pending⟩)

theorem display_cycle_or (c : Console) :
    c.cycle.state.display = c.display ∨ ∃ i ∈ c.pending?, i.TouchesDisplay := by
  rw [display_cycle]
  cases pending : c.pending? with
  | none => exact .inl rfl
  | some i =>
    cases i with
    | clearScreen | draw => exact .inr ⟨_, rfl, trivial⟩
    | _ => exact .inl rfl

theorem random_cycle_or (c : Console) : c.cycle.state.processor.random = c.processor.random ∨
    ∃ i ∈ c.pending?, i.drawsByte = true := by
  rw [c.cycle_devices.2.2]
  cases pending : c.pending? with
  | none => exact .inl rfl
  | some i =>
    cases i with
    | random => exact .inr ⟨_, rfl, rfl⟩
    | _ => exact .inl rfl

end Console

namespace Machine

/-- The next step stores a byte at the address. -/
def Stores (m : Machine) (a : Address) : Prop :=
  ∃ i ∈ m.console.pending?, ∃ k < i.stored,
    a.toNat % 4096 = (m.console.processor.index.toNat + k) % 4096

/-- A machine that a step leaves behind, and the only causes of a difference in each of its parts. -/
structure Confined (m after : Machine) : Prop where
  bytes : ∀ a, after.console.memory.read a ≠ m.console.memory.read a → m.Stores a
  memory : after.console.memory ≠ m.console.memory → ∃ i ∈ m.console.pending?, 0 < i.stored
  display : after.console.display ≠ m.console.display → ∃ i ∈ m.console.pending?, i.TouchesDisplay
  registers : ∀ y : Register, y.toNat < 16 →
    after.console.processor.get y ≠ m.console.processor.get y →
      (∃ i ∈ m.console.pending?, i.Targets y) ∨ ∃ key, m.console.processor.wait = .received y key
  index : after.console.processor.index ≠ m.console.processor.index →
    ∃ i ∈ m.console.pending?, i.TouchesIndex
  stack : after.console.processor.stack ≠ m.console.processor.stack →
    m.fault? .step = none ∧ ∃ i ∈ m.console.pending?, i.TouchesStack
  random : after.console.processor.random ≠ m.console.processor.random →
    ∃ i ∈ m.console.pending?, i.drawsByte = true
  wait : after.console.processor.wait ≠ m.console.processor.wait →
    (∃ x, m.console.pending? = some (.awaitKey x)) ∨
      ∃ x key, m.console.processor.wait = .received x key
  timer : ∀ t, (after.console.processor.timer t).toNat ≠
      (m.console.processor.timer t).toNat - Operation.step.countdown m.config.timerMode →
    ∃ i ∈ m.console.pending?, ∃ x, i.sets? t = some x
  faults : after.faults ≠ m.faults → ∃ fault, m.fault? .step = some fault
  keypad : after.console.keypad = m.console.keypad
  config : after.config = m.config
  running : after.running = m.running
  listener : after.listener = m.listener

variable {m : Machine}

theorem bytes_step {a : Address}
    (changed : m.step.state.console.memory.read a ≠ m.console.memory.read a) : m.Stores a := by
  rw [state_step, after, Console.memory_cycle] at changed
  cases pending : m.console.pending? with
  | none =>
    rw [pending] at changed
    exact absurd rfl changed
  | some i =>
    refine ⟨i, pending, ?_⟩
    -- A byte outside the range would read as before.
    apply Classical.byContradiction
    intro outside
    apply changed
    rw [pending, Option.elim_some]
    apply Memory.read_writeBytes_of_missed
    rw [Console.length_bytes_of_pending pending]
    intro k inside same
    exact outside ⟨k, inside, same⟩

theorem memory_step (changed : m.step.state.console.memory ≠ m.console.memory) :
    ∃ i ∈ m.console.pending?, 0 < i.stored := by
  rw [state_step, after, Console.memory_cycle] at changed
  cases pending : m.console.pending? with
  | none =>
    rw [pending] at changed
    exact absurd rfl changed
  | some i =>
    refine ⟨i, rfl, Nat.pos_of_ne_zero ?_⟩
    intro nothing
    apply changed
    have none := (Console.length_bytes_of_pending pending).trans nothing
    rw [pending, Option.elim_some, List.eq_nil_of_length_eq_zero none]
    rfl

theorem timer_step {t : Timer} (changed : (m.step.state.console.processor.timer t).toNat ≠
      (m.console.processor.timer t).toNat - Operation.step.countdown m.config.timerMode) :
    ∃ i ∈ m.console.pending?, ∃ x, i.sets? t = some x := by
  rw [toNat_timer_step] at changed
  cases set : m.console.pending?.bind (·.sets? t) with
  | none =>
    rw [set] at changed
    exact absurd rfl changed
  | some x =>
    obtain ⟨i, pending, sets⟩ := Option.bind_eq_some_iff.mp set
    exact ⟨i, pending, x, sets⟩

theorem faults_step (changed : m.step.state.faults ≠ m.faults) :
    ∃ fault, m.fault? .step = some fault := by
  cases raised : m.fault? .step with
  | some fault => exact ⟨fault, rfl⟩
  | none =>
    have answered : m.console.cycle.answer = none := raised
    rw [state_step, after, answered] at changed
    exact absurd rfl changed

/-- The frame of a step, part by part. -/
theorem confined_step (sound : m.console.Sound) : Confined m m.step.state := by
  have confined := sound.confined
  constructor
  case bytes => exact fun _ => bytes_step
  case memory => exact memory_step
  case display =>
    rw [state_step]
    exact m.console.display_cycle_or.resolve_left
  case registers =>
    intro y low
    rw [state_step, after, Processor.get, Processor.elapse_registers]
    exact (confined.registers y low).resolve_left
  case index =>
    rw [state_step, after, Processor.elapse_index]
    exact confined.index.resolve_left
  case stack =>
    rw [state_step, after, Processor.elapse_stack]
    exact confined.stack.resolve_left
  case random =>
    rw [state_step, after, Processor.elapse_random]
    exact m.console.random_cycle_or.resolve_left
  case wait =>
    rw [state_step, after, Processor.elapse_wait]
    exact confined.wait.resolve_left
  case timer => exact fun _ => timer_step
  case faults => exact faults_step
  case keypad => exact keypad_step m
  case config | running | listener => rw [state_step, after]

/-- The first operation after which a byte differs is a step that stores it. -/
theorem stored_of_changed {ops : List Operation} {a : Address}
    (keeps : ∀ op ∈ ops, op.KeepsProgram)
    (changed : (m.run ops).state.console.memory.read a ≠ m.console.memory.read a) :
    ∃ before rest, ops = before ++ .step :: rest ∧ (m.run before).state.Stores a := by
  induction ops generalizing m with
  | nil => exact absurd rfl changed
  | cons op rest ih =>
    obtain ⟨keepsFirst, keepsRest⟩ := List.forall_mem_cons.mp keeps
    by_cases same : (m.apply op).state.console.memory.read a = m.console.memory.read a
    · rw [← same] at changed
      obtain ⟨before, later, rfl, stores⟩ := ih keepsRest changed
      exact ⟨op :: before, later, rfl, stores⟩
    · by_cases host : op = .step
      · subst host
        exact ⟨[], rest, rfl, bytes_step same⟩
      · exact absurd (congrArg (·.read a) (suspended_host keepsFirst host).memory) same

/-- A step changes nothing outside the footprint of the instruction that it executes, and a run without a
restart no byte that none of its steps stores. -/
theorem step_stays_in_footprint (reachable : m.Reachable) :
    Confined m m.step.state ∧
    ∀ ops a, (∀ op ∈ ops, op.KeepsProgram) →
      (m.run ops).state.console.memory.read a ≠ m.console.memory.read a →
      ∃ before rest, ops = before ++ .step :: rest ∧ (m.run before).state.Stores a := by
  refine ⟨confined_step reachable.sound, ?_⟩
  intro ops a keeps changed
  exact stored_of_changed keeps changed

/-- The digits of 255 reach over the top of the memory, so the first byte differs after a run; one of its
steps stored there. -/
theorem wrapped_digit_was_stored :
    let m := booted [0x60, 0xFF, 0xAF, 0xFE, 0xF0, 0x33]
    let ops := [.step, .tick, .step, .press 3, .step]
    (m.run ops).state.console.memory.read 0 ≠ m.console.memory.read 0 ∧
      ∃ before rest, ops = before ++ .step :: rest ∧ (m.run before).state.Stores 0 := by
  intro m ops
  have changed : (m.run ops).state.console.memory.read 0 ≠ m.console.memory.read 0 := by
    decide +kernel
  have reachable : m.Reachable := reachable_booted _
  have keeps : ∀ op ∈ ops, op.KeepsProgram := by decide
  exact ⟨changed, (step_stays_in_footprint reachable).2 ops 0 keeps changed⟩

end Machine

end Chip8
