import Chip8.Machine.Operation

/-! Runs of operations and the machines they reach. What one operation keeps, every run keeps. Loading
and resetting are set apart: all other operations leave the program and its progress in place. -/
namespace Chip8

namespace Operation

/-- Every operation but loading and resetting. -/
def KeepsProgram : Operation → Prop
  | load _ | reset => False
  | _ => True

instance : DecidablePred KeepsProgram
  | load _ | reset => isFalse id
  | step | tick | press _ | release _ | reseed _ | start | stop | consumeRedraw | listen _ =>
    isTrue trivial

def seed? : Operation → Option UInt64
  | reseed seed => some seed
  | _ => none

/-- The seed of the last reseeding. -/
def lastSeed? : List Operation → Option UInt64
  | [] => none
  | op :: rest => (lastSeed? rest).or op.seed?

theorem lastSeed?_append (first second : List Operation) :
    lastSeed? (first ++ second) = (lastSeed? second).or (lastSeed? first) := by
  induction first with
  | nil => simp only [List.nil_append, lastSeed?, Option.or_none]
  | cons op rest ih => simp only [List.cons_append, lastSeed?, ih, Option.or_assoc]

/-- How often the timers count in a mode. -/
def countdown (mode : TimerMode) : Operation → Nat
  | tick => 1
  | step => match mode with
    | .perStep => 1
    | .decoupled => 0
  | _ => 0

def countdowns (mode : TimerMode) : List Operation → Nat
  | [] => 0
  | op :: rest => countdown mode op + countdowns mode rest

theorem countdowns_singleton (mode : TimerMode) (op : Operation) :
    countdowns mode [op] = countdown mode op :=
  rfl

theorem countdowns_append (mode : TimerMode) (first second : List Operation) :
    countdowns mode (first ++ second) = countdowns mode first + countdowns mode second := by
  induction first with
  | nil => simp only [List.nil_append, countdowns, Nat.zero_add]
  | cons op rest ih => simp only [List.cons_append, countdowns, ih, Nat.add_assoc]

end Operation

namespace Machine

theorem state_run_append (m : Machine) (first second : List Operation) :
    (m.run (first ++ second)).state = ((m.run first).state.run second).state := by
  induction first generalizing m with
  | nil => rfl
  | cons op rest ih => exact ih (m.apply op).state

theorem run_invariant {P : Machine → Prop} (preserves : ∀ {m} op, P m → P (m.apply op).state)
    {m : Machine} (initial : P m) (ops : List Operation) : P (m.run ops).state := by
  induction ops generalizing m with
  | nil => exact initial
  | cons op rest ih => exact ih (preserves op initial)

/-- Some settings, some key of the machine's own and some history lead to the machine. -/
def Reachable (m : Machine) : Prop :=
  ∃ config own history, ((ofConfig config own).run history).state = m

namespace Reachable

theorem history (config : Config) (own : Key) (ops : List Operation) :
    ((ofConfig config own).run ops).state.Reachable :=
  ⟨config, own, ops, rfl⟩

theorem run {m : Machine} (reachable : m.Reachable) (ops : List Operation) :
    (m.run ops).state.Reachable := by
  obtain ⟨config, own, before, rfl⟩ := reachable
  exact ⟨config, own, before ++ ops, state_run_append _ before ops⟩

theorem invariant {P : Machine → Prop} (preserves : ∀ {m} op, P m → P (m.apply op).state)
    (initial : ∀ config own, P (ofConfig config own)) {m : Machine} (reachable : m.Reachable) :
    P m := by
  obtain ⟨config, own, before, rfl⟩ := reachable
  exact run_invariant preserves (initial config own) before

end Reachable

/-- A machine of a seed with a program in memory. -/
def booted (program : List UInt8) : Machine :=
  ((ofConfig { seed := some 0 } (Vector.replicate 8 0)).load program).state

theorem reachable_booted (program : List UInt8) : (booted program).Reachable :=
  ⟨_, _, [.load program], rfl⟩

end Machine

end Chip8
