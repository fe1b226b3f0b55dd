import Chip8.Proofs.Restart
import Chip8.Proofs.Trace

/-! Random bytes over whole runs. A ghost counts how many `CXNN` a run has executed since its last
seeding. This count is the place in the stream of the present seed, so a replay needs the seed and
the count and nothing else of the past. -/
namespace Chip8

/-- Only `CXNN` draws a random byte, whatever its mask. -/
def Instruction.drawsByte : Instruction → Bool
  | random _ _ => true
  | _ => false

/-- The operations that start the random bytes again, where there is a seed. -/
def Operation.seeds : Operation → Bool
  | load _ | reset | reseed _ => true
  | _ => false

/-- The source after some more draws. -/
def RandomSource.after (source : RandomSource) (draws : Nat) : RandomSource :=
  { source with drawn := source.drawn + draws }

theorem Console.random_cycle (c : Console) : c.cycle.state.processor.random =
    c.processor.random.after (c.pending?.toList.countP Instruction.drawsByte) := by
  rw [c.cycle_devices.2.2]
  rcases c.pending? with _ | i
  · rfl
  · cases i <;> rfl

namespace Machine

/-- The random bytes drawn since the last seeding: `n` before a run, and one for each `CXNN` that it
executes. -/
def drawn (m : Machine) (n : Nat) : List Operation → Nat
  | [] => n
  | op :: rest =>
    (m.apply op).state.drawn
      (if op.seeds then 0 else n + (m.executed? op).toList.countP Instruction.drawsByte) rest

variable {m : Machine} {n : Nat}

theorem drawn_append (m : Machine) (n : Nat) (first second : List Operation) :
    m.drawn n (first ++ second) = (m.run first).state.drawn (m.drawn n first) second := by
  induction first generalizing m n with
  | nil => rfl
  | cons op rest ih => exact ih _ _

/-- Between two seedings the ghost counts what is executed. -/
theorem drawn_quiet {ops : List Operation} (quiet : ∀ op ∈ ops, op.seeds = false) :
    m.drawn n ops = n + (m.executed ops).countP Instruction.drawsByte := by
  induction ops generalizing m n with
  | nil => rfl
  | cons op rest ih =>
    obtain ⟨quietFirst, quietRest⟩ := List.forall_mem_cons.mp quiet
    rw [drawn, quietFirst, if_neg Bool.false_ne_true, ih quietRest, executed, List.countP_append,
      Nat.add_assoc]

theorem random_apply {op : Operation} (quiet : op.seeds = false) :
    (m.apply op).state.console.processor.random =
      m.console.processor.random.after ((m.executed? op).toList.countP Instruction.drawsByte) := by
  rw [state_apply]
  cases op with
  | load | reset | reseed => contradiction
  | step =>
    rw [after, Processor.elapse_random]
    exact m.console.random_cycle
  | tick | press | release | start | stop | consumeRedraw | listen => rfl

/-- Where there is a seed, the random source stands `n` bytes into its stream. -/
def HasDrawn (m : Machine) (n : Nat) : Prop :=
  ∀ seed, m.config.seed = some seed → m.console.processor.random = ⟨Key.ofSeed seed, n⟩

theorem hasDrawn_ofConfig (config : Config) (own : Key) : (ofConfig config own).HasDrawn 0 := by
  intro seed seeded
  have given : config.seed = some seed := seeded
  simp only [ofConfig, Console.initial, Processor.initial, given]
  rfl

theorem hasDrawn_restarted (m : Machine) (memory : Memory) : (m.restarted memory).HasDrawn 0 := by
  intro seed seeded
  have given : m.config.seed = some seed := seeded
  simp only [restarted, Processor.initial, given]
  rfl

theorem HasDrawn.apply (draws : m.HasDrawn n) (op : Operation) : (m.apply op).state.HasDrawn
    (if op.seeds then 0 else n + (m.executed? op).toList.countP Instruction.drawsByte) := by
  cases seeds : op.seeds with
  | true =>
    rw [if_pos rfl, state_apply]
    cases op with
    | load | reset => exact hasDrawn_restarted m _
    | reseed seed =>
      intro other seeded
      obtain rfl := Option.some.inj seeded
      rfl
    | step | tick | press | release | start | stop | consumeRedraw | listen => contradiction
  | false =>
    rw [if_neg Bool.false_ne_true]
    intro seed seeded
    have same : (m.apply op).state.config.seed = m.config.seed := by
      rw [config_apply]
      cases op with
      | load | reset | reseed => contradiction
      | step | tick | press | release | start | stop | consumeRedraw | listen => rfl
    rw [random_apply seeds, draws seed (same.symm.trans seeded)]
    rfl

theorem HasDrawn.run (draws : m.HasDrawn n) (ops : List Operation) :
    (m.run ops).state.HasDrawn (m.drawn n ops) := by
  induction ops generalizing m n with
  | nil => exact draws
  | cons op rest ih => exact ih (draws.apply op)

theorem registers_step_random {x : Register} {mask : UInt8}
    (pending : m.console.pending? = some (.random x mask)) :
    m.step.state.console.processor.registers = m.console.processor.registers.set x
      (m.console.processor.random.next.1 &&& mask) := by
  rw [state_step, after, Processor.elapse_registers, Console.cycle_pending pending]
  rfl

/-- In a run with a seed, the `CXNN` that comes after `n` others since the last seeding stores byte `n`
of the seed's stream under its mask, and writes no other register. The seed is that of the last
reseeding or else that of the settings; construction, resets, loads and reseedings set the count to
zero, each executed `CXNN` adds one, and nothing else moves it. -/
theorem draws_follow_stream (config : Config) (own : Key) (history : List Operation) (seed : UInt64)
    (seeded : (Operation.lastSeed? history).or config.seed = some seed) :
    let new := ofConfig config own
    let m := (new.run history).state
    let n := new.drawn 0 history
    m.console.processor.random = ⟨Key.ofSeed seed, n⟩ ∧
    (∀ x mask, m.console.pending? = some (.random x mask) →
      m.step.state.console.processor.registers =
        m.console.processor.registers.set x (RandomSource.byte (Key.ofSeed seed) n &&& mask)) ∧
    (∀ op, op.seeds = true → new.drawn 0 (history ++ [op]) = 0) ∧
    ∀ later, (∀ op ∈ later, op.seeds = false) →
      new.drawn 0 (history ++ later) = n + (m.executed later).countP Instruction.drawsByte := by
  intro new m n
  have present : m.config.seed = some seed := by
    rw [config_run]
    exact seeded
  have source : m.console.processor.random = ⟨Key.ofSeed seed, n⟩ :=
    (hasDrawn_ofConfig config own).run history seed present
  refine ⟨source, ?_, ?_, ?_⟩
  · intro x mask pending
    rw [registers_step_random pending, source]
    rfl
  · intro op seeds
    rw [drawn_append, drawn, seeds]
    rfl
  · intro later quiet
    rw [drawn_append, drawn_quiet quiet]

/-- A byte that is masked out counts, and so does none of what lies between two draws: the third draw
of seed 0 takes the third byte of its stream, `A8`. -/
theorem third_draw_takes_third_byte :
    let drawing := ((ofConfig { seed := some 7 } (Vector.replicate 8 0)).run
      [.reseed 0, .load [0xC0, 0xFF, 0xC1, 0x00, 0, 0xEE, 0xF3, 0x0A, 0xC2, 0xFF],
        .step, .step, .tick, .step, .step, .step, .press 5, .step]).state
    drawing.step.state.console.processor.get 2 = 0xA8 := by
  intro drawing
  have pending : drawing.console.pending? = some (.random 2 0xFF) := by decide +kernel
  have stored := (draws_follow_stream { seed := some 7 } (Vector.replicate 8 0)
    [.reseed 0, .load [0xC0, 0xFF, 0xC1, 0x00, 0, 0xEE, 0xF3, 0x0A, 0xC2, 0xFF],
      .step, .step, .tick, .step, .step, .step, .press 5, .step] 0 rfl).2.1 2 0xFF pending
  rw [Processor.get, stored, Registers.get_set, if_pos rfl]
  decide +kernel

end Machine

end Chip8
