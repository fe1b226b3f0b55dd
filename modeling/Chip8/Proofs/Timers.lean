import Chip8.Proofs.KeyWait
import Chip8.Proofs.Restart
import Chip8.Proofs.Trace

/-! The timers over whole runs. A timer that no instruction sets loses one for each tick and, where the
timers follow the steps, one for each step of any kind. Since it stops at zero, the order in which
ticks and steps come does not matter, only their number. -/
namespace Chip8

/-- One of the two timers. -/
inductive Timer where
  | delay
  | sound
deriving DecidableEq, Repr

def Processor.timer (p : Processor) : Timer → UInt8
  | .delay => p.delay
  | .sound => p.sound

/-- The register that an instruction puts into a timer: the one of `FX15` into the delay timer, the
one of `FX18` into the sound timer. -/
def Instruction.sets? : Instruction → Timer → Option Register
  | setDelay x, .delay | setSound x, .sound => some x
  | _, _ => none

theorem Processor.toNat_timer_elapse (p : Processor) (mode : TimerMode) (t : Timer) :
    ((p.elapse mode).timer t).toNat = (p.timer t).toNat - Operation.step.countdown mode := by
  cases t with
  | delay => exact p.toNat_delay_elapse mode
  | sound => exact p.toNat_sound_elapse mode

namespace Operation

/-- Ticks count in both modes, steps only where the timers follow them. -/
theorem countdowns_eq_count (mode : TimerMode) (ops : List Operation) :
    countdowns mode ops = ops.count .tick + match mode with
      | .perStep => ops.count .step
      | .decoupled => 0 := by
  induction ops with
  | nil => cases mode <;> rfl
  | cons op rest ih =>
    rw [countdowns, ih]
    cases mode <;> cases op <;> simp [countdown] <;> omega

end Operation

theorem Console.timer_cycle (c : Console) (t : Timer) : c.cycle.state.processor.timer t =
    (c.pending?.bind (·.sets? t)).elim (c.processor.timer t) c.processor.get := by
  obtain ⟨delay, sound, -⟩ := c.cycle_devices
  cases t with
  | delay =>
    rw [Processor.timer, delay]
    rcases c.pending? with _ | i
    · rfl
    · cases i <;> rfl
  | sound =>
    rw [Processor.timer, sound]
    rcases c.pending? with _ | i
    · rfl
    · cases i <;> rfl

namespace Machine
variable {m : Machine} {ops : List Operation} {t : Timer}

theorem toNat_timer_step (m : Machine) (t : Timer) : (m.step.state.console.processor.timer t).toNat =
    ((m.console.pending?.bind (·.sets? t)).elim (m.console.processor.timer t)
      m.console.processor.get).toNat - Operation.step.countdown m.config.timerMode := by
  rw [state_step, after, Processor.toNat_timer_elapse, Console.timer_cycle]

/-- An operation that sets no timer only counts it down. -/
theorem toNat_timer_apply {op : Operation} (keeps : op.KeepsProgram)
    (unset : ∀ i ∈ m.executed? op, i.sets? t = none) :
    ((m.apply op).state.console.processor.timer t).toNat =
      (m.console.processor.timer t).toNat - op.countdown m.config.timerMode := by
  by_cases host : op = .step
  · subst host
    have none : m.console.pending?.bind (·.sets? t) = none := Option.bind_eq_none_iff.mpr unset
    rw [state_apply_step, toNat_timer_step, none]
    rfl
  · have suspended : Suspended m [op] (m.apply op).state := suspended_host keeps host
    cases t with
    | delay => exact suspended.delay
    | sound => exact suspended.sound

theorem toNat_timer_run (keeps : ∀ op ∈ ops, op.KeepsProgram)
    (unset : ∀ i ∈ m.executed ops, i.sets? t = none) :
    ((m.run ops).state.console.processor.timer t).toNat =
      (m.console.processor.timer t).toNat - Operation.countdowns m.config.timerMode ops := by
  induction ops generalizing m with
  | nil => rfl
  | cons op rest ih =>
    obtain ⟨keepsFirst, keepsRest⟩ := List.forall_mem_cons.mp keeps
    obtain ⟨unsetFirst, unsetRest⟩ := List.forall_mem_append.mp unset
    have first := toNat_timer_apply keepsFirst fun i executes =>
      unsetFirst i (Option.mem_toList.mpr executes)
    have mode : (m.apply op).state.config.timerMode = m.config.timerMode := by
      rw [config_apply]
      rfl
    have later := ih keepsRest unsetRest
    rw [first, mode, Nat.sub_sub] at later
    exact later

theorem get_step_readDelay {x : Register} (pending : m.console.pending? = some (.readDelay x)) :
    m.step.state.console.processor.get x = m.console.processor.delay := by
  have stored : m.console.cycle.state.processor.registers =
      m.console.processor.registers.set x m.console.processor.delay := by
    rw [Console.cycle_pending pending]
    rfl
  rw [state_step, after, Processor.get, Processor.elapse_registers, stored, Registers.get_set,
    if_pos rfl]

/-- The exact law of a timer. Over a run that does not set it, it goes down by the number of ticks and
of the steps that count, and no further than zero. A step that sets it leaves the register's value,
less the step's own count; a step that reads the delay timer reads it before that count. -/
theorem timer_counts_exactly (m : Machine) (t : Timer) :
    (∀ ops, (∀ op ∈ ops, op.KeepsProgram) → (∀ i ∈ m.executed ops, i.sets? t = none) →
      ((m.run ops).state.console.processor.timer t).toNat =
        (m.console.processor.timer t).toNat - (ops.count .tick + match m.config.timerMode with
          | .perStep => ops.count .step
          | .decoupled => 0)) ∧
    (∀ i x, m.console.pending? = some i → i.sets? t = some x →
      (m.step.state.console.processor.timer t).toNat = match m.config.timerMode with
        | .perStep => (m.console.processor.get x).toNat - 1
        | .decoupled => (m.console.processor.get x).toNat) ∧
    ∀ x, m.console.pending? = some (.readDelay x) →
      m.step.state.console.processor.get x = m.console.processor.timer .delay := by
  refine ⟨?_, ?_, ?_⟩
  · intro ops keeps unset
    rw [toNat_timer_run keeps unset, Operation.countdowns_eq_count]
  · intro i x pending sets
    rw [toNat_timer_step, pending, Option.bind_some, sets]
    cases m.config.timerMode <;> rfl
  · intro x pending
    exact get_step_readDelay pending

/-- A timer set to nine loses one in the step that sets it, and five over a wait, a tick, the taking of
a key and a return without a call; the next step reads the three that are left. -/
theorem timer_counts_through_wait :
    let set := ((booted [0x60, 0x09, 0xF0, 0x15, 0xF1, 0x0A, 0, 0xEE, 0xF2, 0x07]).run [.step]).state
    let wait := [.step, .tick, .step, .press 3, .step, .step]
    (set.step.state.console.processor.timer .delay).toNat = 9 - 1 ∧
      ((set.step.state.run wait).state.console.processor.timer .delay).toNat = 8 - (1 + 4) ∧
      (set.step.state.run wait).state.step.state.console.processor.get 2 = 3 := by
  intro set wait
  have ⟨sets, keeps, unset, reads⟩ : set.console.pending? = some (.setDelay 0) ∧
      (∀ op ∈ wait, op.KeepsProgram) ∧
      (∀ i ∈ set.step.state.executed wait, i.sets? .delay = none) ∧
      (set.step.state.run wait).state.console.pending? = some (.readDelay 2) := by decide +kernel
  refine ⟨?_, ?_, ?_⟩
  · rw [(timer_counts_exactly set .delay).2.1 _ 0 sets rfl]
    decide +kernel
  · rw [(timer_counts_exactly set.step.state .delay).1 wait keeps unset]
    decide +kernel
  · rw [(timer_counts_exactly _ .delay).2.2 2 reads]
    decide +kernel

end Machine

end Chip8
