import Chip8.Proofs.Effects
import Chip8.Proofs.Run

/-! Loading and resetting forget the past. Whatever happened to a machine, it is afterwards as a new
machine of its current settings would be; it keeps its listener and, where no seed restarts them,
its random bytes. Machines that start alike in this way stay alike under the same operations. -/
namespace Chip8

/-- The settings after some operations: only a reseeding changes them. -/
def Config.after (config : Config) (ops : List Operation) : Config :=
  { config with seed := (Operation.lastSeed? ops).or config.seed }

theorem Config.after_append (config : Config) (first second : List Operation) :
    config.after (first ++ second) = (config.after first).after second := by
  simp only [after, Operation.lastSeed?_append, Option.or_assoc]

namespace Machine

variable (m n : Machine)

theorem config_apply (op : Operation) : (m.apply op).state.config = m.config.after [op] := by
  rw [state_apply]
  cases op <;> rfl

theorem config_run (ops : List Operation) : (m.run ops).state.config = m.config.after ops := by
  induction ops generalizing m with
  | nil => rfl
  | cons op rest ih =>
    calc ((m.apply op).state.run rest).state.config
        = (m.apply op).state.config.after rest := ih _
      _ = (m.config.after [op]).after rest := by rw [config_apply]
      _ = m.config.after (op :: rest) := (Config.after_append m.config [op] rest).symm

def withListener (listener : Option String) : Machine :=
  { m with listener }

def withRandom (random : RandomSource) : Machine :=
  { m with
    console := { m.console with processor := { m.console.processor with random } } }

/-- The machine with a new picture pending. -/
def redrawn : Machine :=
  { m with console := { m.console with display := { m.console.display with needsRedraw := true } } }

/-- What is left of the past of `n` in a machine that starts again. -/
def inheriting : Machine :=
  (m.withListener n.listener).withRandom
    (n.config.seed.elim n.console.processor.random fun _ => m.console.processor.random)

theorem inheriting_seeded (seeded : n.config.seed.isSome) :
    m.inheriting n = m.withListener n.listener := by
  obtain ⟨seed, found⟩ := Option.isSome_iff_exists.mp seeded
  rw [inheriting, found]
  rfl

theorem inheriting_unseeded (unseeded : n.config.seed = none) : m.inheriting n =
    (m.withListener n.listener).withRandom n.console.processor.random := by
  rw [inheriting, unseeded]
  rfl

variable {m n}

/-- Of a machine's past, a restart sees nothing but the settings and what it leaves alone. -/
theorem restarted_eq_restarted (same : n.config = m.config) (memory : Memory) :
    m.restarted memory = (n.restarted memory).inheriting m := by
  rw [restarted, restarted, same]
  cases found : m.config.seed with
  | none =>
    rw [inheriting_unseeded _ _ found]
    rfl
  | some seed =>
    rw [inheriting_seeded _ _ (by rw [found]; rfl)]
    rfl

theorem reset_eq_reset (same : n.config = m.config) :
    m.reset.state = n.reset.state.inheriting m := by
  rw [state_reset, state_reset, restarted_eq_restarted same]

/-- Refused or not, a program meets the same machine. -/
theorem load_eq_load (same : n.config = m.config) (program : List UInt8) :
    (m.load program).state = (n.load program).state.inheriting m := by
  rw [state_load, state_load, restarted_eq_restarted same]

theorem answer_load_eq (m n : Machine) (program : List UInt8) :
    (m.load program).answer = (n.load program).answer := by
  rw [answer_load, answer_load]

/-- A new machine needs no reset, but it has no picture pending. -/
theorem reset_new (config : Config) (own : Key) :
    (ofConfig config own).reset.state = (ofConfig config own).redrawn := by
  rw [state_reset, restarted]
  cases found : config.seed <;>
    simp only [ofConfig, found, redrawn, Console.initial, Display.initial] <;> rfl

/-- The listener hears of a machine and never changes what it does or answers. -/
theorem apply_withListener (m : Machine) (listener : Option String) (op : Operation) :
    ∃ later, ((m.withListener listener).apply op).state = (m.apply op).state.withListener later ∧
      ((m.withListener listener).apply op).answer = (m.apply op).answer := by
  rw [state_apply, state_apply]
  cases op with
  | load program => exact ⟨listener, rfl, congrArg Answer.loaded (answer_load_eq _ m program)⟩
  | listen name => exact ⟨some name, rfl, rfl⟩
  | _ => exact ⟨listener, rfl, rfl⟩

theorem run_withListener (m : Machine) (listener : Option String) (ops : List Operation) :
    ∃ later, ((m.withListener listener).run ops).state = (m.run ops).state.withListener later ∧
      ((m.withListener listener).run ops).answer = (m.run ops).answer := by
  induction ops generalizing m listener with
  | nil => exact ⟨listener, rfl, rfl⟩
  | cons op rest ih =>
    obtain ⟨between, state, answer⟩ := apply_withListener m listener op
    obtain ⟨later, stateRest, answerRest⟩ := ih (m.apply op).state between
    rw [← state] at stateRest answerRest
    exact ⟨later, stateRest, List.cons_eq_cons.mpr ⟨answer, answerRest⟩⟩

/-- Seeded machines with the same settings that load the same program replay the same history. -/
theorem replays_after_load (same : n.config = m.config) (seeded : m.config.seed.isSome)
    (program : List UInt8) (ops : List Operation) :
    ∃ listener, (m.run (.load program :: ops)).state =
        (n.run (.load program :: ops)).state.withListener listener ∧
      (m.run (.load program :: ops)).answer = (n.run (.load program :: ops)).answer := by
  have loaded : (m.load program).state = (n.load program).state.withListener m.listener :=
    (load_eq_load same program).trans (inheriting_seeded _ m seeded)
  obtain ⟨listener, state, answer⟩ :=
    run_withListener (n.load program).state m.listener ops
  rw [← loaded] at state answer
  have first : (m.apply (.load program)).answer = (n.apply (.load program)).answer :=
    congrArg Answer.loaded (answer_load_eq m n program)
  exact ⟨listener, state, List.cons_eq_cons.mpr ⟨first, answer⟩⟩

/-- Two machines of one mode and one present seed, with any histories, are as good as new once they
load a program or are reset. -/
theorem restart_forgets_past (first second : Config) (firstOwn secondOwn own : Key)
    (firstPast secondPast : List Operation) (program : List UInt8)
    (sameMode : first.timerMode = second.timerMode)
    (sameSeed : (first.after firstPast).seed = (second.after secondPast).seed) :
    let config := first.after firstPast
    let m := ((ofConfig first firstOwn).run firstPast).state
    let n := ((ofConfig second secondOwn).run secondPast).state
    let new := ofConfig config own
    (m.config = config ∧ n.config = config) ∧
    ((m.load program).answer = (n.load program).answer ∧
      (m.load program).answer = (new.load program).answer) ∧
    (config.seed.isSome →
      let kept (other : Machine) := other.withListener m.listener
      (m.load program).state = kept (n.load program).state ∧
      (m.load program).state = kept (new.load program).state ∧
      m.reset.state = kept n.reset.state ∧
      m.reset.state = kept new.redrawn) ∧
    (config.seed = none →
      let kept (other : Machine) :=
        (other.withListener m.listener).withRandom m.console.processor.random
      (m.load program).state = kept (n.load program).state ∧
      (m.load program).state = kept (new.load program).state ∧
      m.reset.state = kept n.reset.state ∧
      m.reset.state = kept new.redrawn) := by
  intro config m n new
  have present : m.config = config := config_run _ _
  have other : n.config = config := by
    have sameConfig : second.after secondPast = config := by
      rw [Config.mk.injEq]
      exact ⟨sameMode.symm, sameSeed.symm⟩
    exact (config_run _ _).trans sameConfig
  have asOther : n.config = m.config := other.trans present.symm
  have asNew : new.config = m.config := present.symm
  have renewed : m.reset.state = new.redrawn.inheriting m := by
    rw [reset_eq_reset asNew, reset_new]
  refine ⟨⟨present, other⟩, ⟨answer_load_eq m n program, answer_load_eq m new program⟩, ?_, ?_⟩
  · intro seeded kept
    have inherits (k : Machine) : k.inheriting m = kept k :=
      inheriting_seeded k m (present ▸ seeded)
    exact ⟨inherits _ ▸ load_eq_load asOther program, inherits _ ▸ load_eq_load asNew program,
      inherits _ ▸ reset_eq_reset asOther, inherits _ ▸ renewed⟩
  · intro unseeded kept
    have inherits (k : Machine) : k.inheriting m = kept k :=
      inheriting_unseeded k m (present ▸ unseeded)
    exact ⟨inherits _ ▸ load_eq_load asOther program, inherits _ ▸ load_eq_load asNew program,
      inherits _ ▸ reset_eq_reset asOther, inherits _ ▸ renewed⟩

/-- A machine that has drawn random bytes and one that has refused a program go on alike. -/
theorem reseeded_is_seeded :
    let drawn := (ofConfig { seed := some 9 } (Vector.replicate 8 0)).run
      [.load [0xC0, 0xFF], .step, .press 3]
    let refused := (ofConfig {} (Vector.replicate 8 1)).run [.listen "host", .load [], .reseed 9]
    (drawn.state.load [0xC1, 0xFF]).state =
      (refused.state.load [0xC1, 0xFF]).state.withListener drawn.state.listener :=
  ((restart_forgets_past { seed := some 9 } {} (Vector.replicate 8 0) (Vector.replicate 8 1)
      (Vector.replicate 8 2) [.load [0xC0, 0xFF], .step, .press 3]
      [.listen "host", .load [], .reseed 9] [0xC1, 0xFF] rfl rfl).2.2.1 rfl).1

end Machine

end Chip8
