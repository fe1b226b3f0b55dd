import Mathlib.Algebra.Group.Nat.Defs
import Chip8.Proofs.Calls
import Chip8.Proofs.KeyWait
import Chip8.Proofs.Trace

/-! Faults of a step. A step raises a fault exactly for an opcode outside the instruction set, a
return without a call and a seventeenth call; it then counts the fault, goes on behind the opcode
and leaves all else in place. -/
namespace Chip8

inductive Fault.Kind where
  | overflow
  | underflow
  | unknown
deriving DecidableEq, Repr

def Fault.kind : Fault → Kind
  | stackOverflow _ => .overflow
  | stackUnderflow _ => .underflow
  | unknownOpcode _ _ => .unknown

namespace FaultLog

def count (log : FaultLog) : Fault.Kind → UInt32
  | .overflow => log.overflows
  | .underflow => log.underflows
  | .unknown => log.unknown

/-- The counters go as far as their 32 bits. -/
theorem limit_eq : limit = 2 ^ 32 - 1 := rfl

theorem toNat_count_record (log : FaultLog) (fault : Fault) (kind : Fault.Kind) :
    ((log.record fault).count kind).toNat =
      if fault.kind = kind then min ((log.count kind).toNat + 1) (2 ^ 32 - 1)
      else (log.count kind).toNat := by
  rw [← limit_eq]
  cases fault <;> cases kind <;> first | exact toNat_plus _ 1 | rfl

theorem last_record (log : FaultLog) (fault : Fault) : (log.record fault).last = some fault := by
  cases fault <;> rfl

end FaultLog

namespace CallStack
variable {stack : CallStack}

theorem push?_eq_none (bound : stack.depth ≤ 16) (a : Address) :
    stack.push? a = none ↔ stack.depth = 16 := by
  rcases Nat.lt_or_eq_of_le bound with room | full
  · obtain ⟨pushed, done⟩ := push?_isSome room a
    simp [done, Nat.ne_of_lt room]
  · simp [full, push?_full (Nat.le_of_eq full.symm) a]

theorem pop?_eq_none (bound : stack.depth ≤ 16) : stack.pop? = none ↔ stack.depth = 0 := by
  rcases Nat.eq_zero_or_pos stack.depth with flat | deep
  · simp [flat, pop?_empty flat]
  · obtain ⟨a, popped, done⟩ := pop?_isSome bound deep
    simp [done, Nat.ne_of_gt deep]

end CallStack

namespace Instruction
variable {o : Opcode}

theorem decode?_eq_return : decode? o = some returnFromCall ↔ o = 0x00EE := by
  constructor
  · intro decoded
    exact ((reads_of_decode? decoded).2.2 id).symm
  · rintro rfl
    rfl

theorem family_of_call {a : Address} (decoded : decode? o = some (call a)) : o.toNat / 4096 = 2 := by
  obtain ⟨inRange, -, encoded⟩ := reads_of_decode? decoded
  simp only [InRange] at inRange
  have value := congrArg UInt16.toNat (encoded id)
  simp only [encode, overAddress, UInt16.toNat_ofNat'] at value
  omega

end Instruction

namespace Console
variable {c : Console}

/-- The fault that the opcode at the program counter calls for, with the opcode's own address. -/
inductive Faulty (c : Console) : Fault → Prop where
  | unknown : Instruction.decode? (c.memory.readWord c.processor.pc) = none →
      Faulty c (.unknownOpcode c.processor.pc (c.memory.readWord c.processor.pc))
  | underflow : c.memory.readWord c.processor.pc = 0x00EE → c.processor.stack.depth = 0 →
      Faulty c (.stackUnderflow c.processor.pc)
  | overflow : (c.memory.readWord c.processor.pc).toNat / 4096 = 2 → c.processor.stack.depth = 16 →
      Faulty c (.stackOverflow c.processor.pc)

/-- Only a return without a call and a seventeenth call are refused. -/
theorem execute_eq_error {pc : Address} {i : Instruction} {fault : Fault} :
    c.execute pc i = .error fault ↔
      (i = .returnFromCall ∧ c.processor.stack.pop? = none ∧ fault = .stackUnderflow pc) ∨
      ∃ a, i = .call a ∧ c.processor.stack.push? c.processor.pc = none ∧
        fault = .stackOverflow pc := by
  cases i with
  | returnFromCall =>
    simp only [execute]
    cases c.processor.stack.pop? <;> simp [eq_comm]
  | call a =>
    simp only [execute]
    cases c.processor.stack.push? c.processor.pc <;> simp [eq_comm]
  | _ => simp [execute]

theorem faulty_of_error {i : Instruction} {fault : Fault} (bound : c.processor.stack.depth ≤ 16)
    (pending : c.pending? = some i) (failed : c.fetched.execute c.processor.pc i = .error fault) :
    c.Faulty fault := by
  obtain ⟨-, decoded⟩ := pending?_eq_some.mp pending
  rcases execute_eq_error.mp failed with ⟨rfl, refused, rfl⟩ | ⟨a, rfl, refused, rfl⟩
  · exact .underflow (Instruction.decode?_eq_return.mp decoded)
      ((CallStack.pop?_eq_none bound).mp refused)
  · exact .overflow (Instruction.family_of_call decoded)
      ((CallStack.push?_eq_none bound _).mp refused)

theorem answer_of_error {i : Instruction} {fault : Fault} (pending : c.pending? = some i)
    (failed : c.fetched.execute c.processor.pc i = .error fault) :
    c.cycle = ⟨c.fetched, some fault, announce c.processor.pc i⟩ := by
  rw [cycle_pending pending, failed]

theorem answer_of_faulty {fault : Fault} (bound : c.processor.stack.depth ≤ 16)
    (running : c.processor.wait = .running) (faulty : c.Faulty fault) :
    c.cycle.answer = some fault := by
  cases faulty with
  | unknown undecoded => rw [cycle_unknown running undecoded]
  | underflow opcode flat =>
    have pending : c.pending? = some .returnFromCall :=
      pending?_eq_some.mpr ⟨running, Instruction.decode?_eq_return.mpr opcode⟩
    have refused := (CallStack.pop?_eq_none bound).mpr flat
    rw [answer_of_error pending (execute_eq_error.mpr (.inl ⟨rfl, refused, rfl⟩))]
  | overflow family full =>
    have pending := pending?_eq_some.mpr ⟨running, Instruction.decode?_call family⟩
    have refused := (CallStack.push?_eq_none bound c.fetched.processor.pc).mpr full
    rw [answer_of_error pending (execute_eq_error.mpr (.inr ⟨_, rfl, refused, rfl⟩))]

theorem answer_eq_some {fault : Fault} (bound : c.processor.stack.depth ≤ 16)
    (running : c.processor.wait = .running) : c.cycle.answer = some fault ↔ c.Faulty fault := by
  refine ⟨?_, answer_of_faulty bound running⟩
  -- A cycle that answers with a fault ended in one of two of its five ways.
  generalize ended : c.cycle = done
  intro answered
  cases ended ▸ c.cycles with
  | waits | takes | executes => contradiction
  | unknown _ undecoded =>
    cases answered
    exact .unknown undecoded
  | fails i fault pending failed =>
    cases answered
    exact faulty_of_error bound pending failed

/-- Whatever the fault, the program counter alone has moved. -/
theorem state_of_answer {fault : Fault} (answered : c.cycle.answer = some fault) :
    c.cycle.state = c.fetched := by
  revert answered
  generalize ended : c.cycle = done
  intro answered
  cases ended ▸ c.cycles with
  | waits | takes | executes => contradiction
  | unknown | fails => rfl

theorem answer_of_waiting (waits : c.processor.wait ≠ .running) : c.cycle.answer = none := by
  generalize ended : c.cycle = done
  cases ended ▸ c.cycles with
  | waits | takes | executes => rfl
  | unknown running => contradiction
  | fails i fault pending =>
    exact absurd (pending?_eq_some.mp pending).1 waits

end Console

namespace Machine

/-- A machine behind an opcode that raised a fault. -/
structure Skipped (m : Machine) (fault : Fault) (after : Machine) : Prop where
  pc : after.console.processor.pc.toNat = (m.console.processor.pc.toNat + 2) % 4096
  counted : ∀ kind, (after.faults.count kind).toNat =
    if fault.kind = kind then min ((m.faults.count kind).toNat + 1) (2 ^ 32 - 1)
    else (m.faults.count kind).toNat
  last : after.faults.last = some fault
  delay : after.console.processor.delay.toNat =
    m.console.processor.delay.toNat - Operation.step.countdown m.config.timerMode
  sound : after.console.processor.sound.toNat =
    m.console.processor.sound.toNat - Operation.step.countdown m.config.timerMode
  rest : after =
    { m with
      console :=
        { m.console with
          processor :=
            { m.console.processor with
              pc := after.console.processor.pc
              delay := after.console.processor.delay
              sound := after.console.processor.sound } }
      faults := after.faults }

variable {m : Machine}

theorem state_step_fault {fault : Fault} (raised : m.fault? .step = some fault) : m.step.state =
    { m with
      console :=
        { m.console with processor := m.console.processor.skip.elapse m.config.timerMode }
      faults := m.faults.record fault } := by
  have answered : m.console.cycle.answer = some fault := raised
  rw [state_step, after, Console.state_of_answer answered, answered]
  rfl

theorem skipped_of_fault {fault : Fault} (raised : m.fault? .step = some fault) :
    Skipped m fault m.step.state := by
  rw [state_step_fault raised]
  constructor
  case pc =>
    dsimp only
    rw [Processor.elapse_pc, Processor.toNat_pc_skip]
  case counted => exact FaultLog.toNat_count_record m.faults fault
  case last => exact FaultLog.last_record m.faults fault
  case delay => exact m.console.processor.skip.toNat_delay_elapse m.config.timerMode
  case sound => exact m.console.processor.skip.toNat_sound_elapse m.config.timerMode
  case rest => cases m.config.timerMode <;> rfl

/-- A running step raises the fault that its opcode calls for, and none where it calls for none. The
opcode is then skipped and the fault counted, with no other effect but the timers' own. A step that
waits for a key or takes one raises nothing. -/
theorem fault_skips_opcode (reachable : m.Reachable) :
    (m.console.processor.wait = .running →
      (∀ fault, m.fault? .step = some fault ↔ m.console.Faulty fault) ∧
      ∀ fault, m.console.Faulty fault → Skipped m fault m.step.state) ∧
    (m.console.processor.wait ≠ .running → m.fault? .step = none) ∧
    (m.fault? .step = none → m.step.state.faults = m.faults) := by
  have bound := reachable.sound.aligned.stack.depth
  refine ⟨?_, Console.answer_of_waiting, ?_⟩
  · intro running
    have owed (fault : Fault) : m.fault? .step = some fault ↔ m.console.Faulty fault :=
      Console.answer_eq_some bound running
    refine ⟨owed, ?_⟩
    intro fault faulty
    exact skipped_of_fault ((owed fault).mpr faulty)
  · intro quiet
    have answered : m.console.cycle.answer = none := quiet
    rw [state_step, after, answered]
    rfl

/-- The last word of the ring is `FF00`, put there by the program: it is reported at its own address,
and the program goes on at the first. -/
theorem top_word_skipped :
    let top := ((booted [0x60, 0xFF, 0xAF, 0xFE, 0xF0, 0x55, 0x1F, 0xFE]).run
      [.step, .step, .step, .step]).state
    Skipped top (.unknownOpcode 0xFFE 0xFF00) top.step.state ∧
      top.step.state.console.processor.pc = 0 := by
  intro top
  have reachable : top.Reachable := (reachable_booted _).run _
  have ⟨running, raised, pc⟩ : top.console.processor.wait = .running ∧
      top.fault? .step = some (.unknownOpcode 0xFFE 0xFF00) ∧
      top.step.state.console.processor.pc = 0 := by decide +kernel
  obtain ⟨exactly, skips⟩ := (fault_skips_opcode reachable).1 running
  exact ⟨skips _ ((exactly _).mp raised), pc⟩

end Machine

end Chip8
