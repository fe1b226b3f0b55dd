import Chip8.Proofs.Guarded

/-! The processor under guard, in any surroundings. Each cycle may find another memory, display and
keypad, and ticks, keys, resets and seeds may come in between; no guard ever traps. -/
namespace Chip8

/-- A register that waits for a key, or takes one, is one of the sixteen. -/
def KeyWait.Bounded : KeyWait → Prop
  | running => True
  | waiting x | received x _ => x.toNat < 16

theorem KeyWait.Bounded.offer {wait : KeyWait} (bounded : wait.Bounded) (key : UInt8) :
    (wait.offer key).Bounded := by
  cases wait <;> exact bounded

/-- What keeps the guards quiet says nothing about memory, display and keypad. -/
structure Processor.Contained (p : Processor) : Prop extends p.Aligned where
  bounded : p.wait.Bounded

/-- What a processor may be called upon to do, with the surroundings of each cycle. -/
inductive Duty where
  | cycle (memory : Memory) (display : Display) (keypad : Keypad)
  | tick
  | offerKey (key : UInt8)
  | reset
  | reseed (seed : UInt64)

def Processor.serve (p : Processor) : Duty → Processor
  | .cycle memory display keypad => (Console.mk p memory display keypad).cycle.state.processor
  | .tick => p.tick
  | .offerKey key => (p.offerKey key).state
  | .reset => p.reset
  | .reseed seed => p.reseed seed

namespace Guarded

/-- Executes one instruction, as `Console.execute` does. -/
def execute (c : Console) (pc : Address) (instruction : Instruction) :
    Guarded (Except Fault Console) := do
  let p := c.processor
  let ok (after : Processor) : Guarded (Except Fault Console) := return .ok { c with processor := after }
  match instruction with
  | .machineRoutine _ => return .ok c
  | .clearScreen => return .ok { c with display := c.display.clear }
  | .returnFromCall =>
    match ← pop p.stack with
    | some (a, stack) => ok { p with pc := a, stack }
    | none => return .error (.stackUnderflow pc)
  | .jump a => ok (p.jump a)
  | .call a =>
    match ← push p.stack p.pc with
    | some stack => ok ({ p with stack }.jump a)
    | none => return .error (.stackOverflow pc)
  | .skipIfConst x n => ok (p.skipIf ((← get p x.toNat) == n))
  | .skipUnlessConst x n => ok (p.skipIf ((← get p x.toNat) != n))
  | .skipIfEqual x y => ok (p.skipIf ((← get p x.toNat) == (← get p y.toNat)))
  | .setConst x n => ok (← set p x.toNat n)
  | .addConst x n => ok (← set p x.toNat ((← get p x.toNat) + n))
  | .copy x y => ok (← set p x.toNat (← get p y.toNat))
  | .bitOr x y => ok (← set p x.toNat ((← get p x.toNat) ||| (← get p y.toNat)))
  | .bitAnd x y => ok (← set p x.toNat ((← get p x.toNat) &&& (← get p y.toNat)))
  | .bitXor x y => ok (← set p x.toNat ((← get p x.toNat) ^^^ (← get p y.toNat)))
  | .add x y =>
    let a ← get p x.toNat
    let b ← get p y.toNat
    ok (← setFlagged p x.toNat (a + b) (if 256 ≤ a.toNat + b.toNat then 1 else 0))
  | .subtract x y =>
    let a ← get p x.toNat
    let b ← get p y.toNat
    ok (← setFlagged p x.toNat (a - b) (if b ≤ a then 1 else 0))
  | .shiftRight x =>
    let a ← get p x.toNat
    ok (← setFlagged p x.toNat (a >>> UInt8.ofNat (← shift 1 8)) (a &&& 1))
  | .subtractFrom x y =>
    let a ← get p x.toNat
    let b ← get p y.toNat
    ok (← setFlagged p x.toNat (b - a) (if a ≤ b then 1 else 0))
  | .shiftLeft x =>
    let a ← get p x.toNat
    ok (← setFlagged p x.toNat (a <<< UInt8.ofNat (← shift 1 8)) (a >>> UInt8.ofNat (← shift 7 8)))
  | .skipUnlessEqual x y => ok (p.skipIf ((← get p x.toNat) != (← get p y.toNat)))
  | .setIndex a => ok { p with index := a }
  | .jumpOffset a => ok (p.jump (← word ((← get p 0).toNat + a.toNat)))
  | .random x mask =>
    let (byte, random) := p.random.next
    ok (← set { p with random } x.toNat (byte &&& mask))
  | .draw x y height =>
    let column ← get p x.toNat
    let line ← get p y.toNat
    let sprite ← readBytes c.memory p.index height.toNat
    let (display, collision) ← draw c.display column.toNat line.toNat sprite
    return .ok { c with processor := ← set p 15 (if collision then 1 else 0), display }
  | .skipIfKey x => ok (p.skipIf (c.keypad.isHeld (← get p x.toNat).toNat))
  | .skipUnlessKey x => ok (p.skipIf (!c.keypad.isHeld (← get p x.toNat).toNat))
  | .readDelay x => ok (← set p x.toNat p.delay)
  | .awaitKey x => ok { p with pc, wait := .waiting x }
  | .setDelay x => ok { p with delay := ← get p x.toNat }
  | .setSound x => ok { p with sound := ← get p x.toNat }
  | .addIndex x => ok { p with index := Processor.wrap (p.index + (← get p x.toNat).toUInt16) }
  | .pointAtGlyph x =>
    ok { p with index := ← glyph ((← get p x.toNat) % 16) }
  | .storeDecimal x =>
    let n ← get p x.toNat
    let hundreds ← write c.memory p.index (n / 100)
    let tens ← write hundreds (p.index + 1) (n / 10 % 10)
    return .ok { c with memory := ← write tens (p.index + 2) (n % 10) }
  | .storeRegisters x =>
    return .ok { c with memory := ← (List.range (x.toNat + 1)).foldlM (storeRegister p) c.memory }
  | .loadRegisters x => ok (← (List.range (x.toNat + 1)).foldlM (loadRegister c.memory) p)

/-- One cycle, as `Console.cycle` does it: the console after it, and the fault if there was one. -/
def cycle (c : Console) : Guarded (Console × Option Fault) :=
  match c.processor.wait with
  | .waiting _ => return (c, none)
  | .received x key => do
    let stored ← set c.processor x.toNat key
    return ({ c with processor := { stored with wait := .running }.skip }, none)
  | .running => do
    let pc := c.processor.pc
    let opcode ← readWord c.memory pc
    match Instruction.decode? opcode with
    | none => return (c.fetched, some (.unknownOpcode pc opcode))
    | some instruction =>
      match ← execute c.fetched pc instruction with
      | .ok after => return (after, none)
      | .error fault => return (c.fetched, some fault)

/-- One duty. Only cycles have anything to guard: a timer at zero is not counted down. -/
def serve (p : Processor) : Duty → Guarded Processor
  | .cycle memory display keypad => do
    let (after, _) ← cycle ⟨p, memory, display, keypad⟩
    return after.processor
  | other => return p.serve other

/-- The guards let an instruction pass if its operands fit an opcode and the stack is no deeper than its
slots. -/
theorem execute_eq {c : Console} (pc : Address) {i : Instruction} (inRange : i.InRange)
    (bound : c.processor.stack.depth ≤ 16) : execute c pc i = pure (c.execute pc i) := by
  cases i with
  | machineRoutine | clearScreen | jump | setIndex | awaitKey => rfl
  | skipIfConst | skipUnlessConst | setConst | addConst | random | skipIfKey | skipUnlessKey
  | readDelay | setDelay | setSound | addIndex =>
    simp only [execute, get_of_lt _ inRange, set_of_lt _ inRange, pure_bind]
    rfl
  | skipIfEqual | skipUnlessEqual | copy | bitOr | bitAnd | bitXor | add | subtract
  | subtractFrom =>
    simp only [execute, get_of_lt _ inRange.1, get_of_lt _ inRange.2, set_of_lt _ inRange.1,
      setFlagged_of_lt _ inRange.1, pure_bind]
    rfl
  | shiftRight x =>
    simp only [execute, get_of_lt _ inRange, setFlagged_of_lt _ inRange,
      shift_of_lt (by decide : 1 < 8), shiftRight_eq_div _ (by decide : 1 < 8), and_one, pure_bind]
    rfl
  | shiftLeft x =>
    simp only [execute, get_of_lt _ inRange, setFlagged_of_lt _ inRange,
      shift_of_lt (by decide : 1 < 8), shift_of_lt (by decide : 7 < 8), shiftLeft_one,
      shiftRight_eq_div _ (by decide : 7 < 8), pure_bind]
    rfl
  | returnFromCall =>
    simp only [execute, Console.execute, pop_eq bound, pure_bind]
    cases c.processor.stack.pop? <;> rfl
  | call a =>
    simp only [execute, Console.execute, push_eq bound, pure_bind]
    cases c.processor.stack.push? c.processor.pc <;> rfl
  | jumpOffset a =>
    have sum : (c.processor.get 0).toNat + a.toNat < 65536 := by
      have byte := (c.processor.get 0).toNat_lt
      have address : a.toNat < 4096 := inRange
      omega
    have fetched : get c.processor 0 = pure (c.processor.get 0) :=
      get_of_lt c.processor (by decide : (0 : Register).toNat < 16)
    have target : UInt16.ofNat ((c.processor.get 0).toNat + a.toNat) =
        (c.processor.get 0).toUInt16 + a := by
      apply UInt16.toNat_inj.mp
      rw [UInt16.toNat_ofNat', UInt16.toNat_add, UInt8.toNat_toUInt16]
    simp only [execute, fetched, word_of_lt sum, target, pure_bind]
    rfl
  | draw x y height =>
    obtain ⟨boundX, boundY, boundHeight⟩ := inRange
    have short : (c.memory.readBytes c.processor.index height.toNat).length < 256 := by
      rw [Memory.length_readBytes]
      exact height.toNat_lt
    have flagged (value : UInt8) : set c.processor 15 value =
        pure (c.processor.set Registers.flag value) :=
      set_of_lt c.processor (by decide : Registers.flag.toNat < 16) value
    simp only [execute, get_of_lt _ boundX, get_of_lt _ boundY, readBytes_eq, pure_bind,
      draw_eq (UInt8.toNat_lt _) (UInt8.toNat_lt _) short, flagged]
    rfl
  | pointAtGlyph x =>
    simp only [execute, get_of_lt _ inRange, glyph_eq, pure_bind]
    rfl
  | storeDecimal x =>
    have third : c.processor.index + 2 = c.processor.index + 1 + 1 :=
      (UInt16.add_assoc _ 1 1).symm
    simp only [execute, get_of_lt _ inRange, write_eq, third, pure_bind]
    rfl
  | storeRegisters x =>
    simp only [execute, storeRegisters_eq _ _ inRange, pure_bind]
    rfl
  | loadRegisters x =>
    simp only [execute, loadRegisters_eq _ _ inRange, pure_bind]
    rfl

theorem cycle_eq {c : Console} (contained : c.processor.Contained) :
    cycle c = pure (c.cycle.state, c.cycle.answer) := by
  cases wait : c.processor.wait with
  | waiting x => simp only [cycle, Console.cycle, wait]
  | received x key =>
    have bound : x.toNat < 16 := by
      have bounded := contained.bounded
      rwa [wait] at bounded
    simp only [cycle, Console.cycle, wait, set_of_lt c.processor bound, pure_bind]
  | running =>
    cases decoded : Instruction.decode? (c.memory.readWord c.processor.pc) with
    | none =>
      simp only [cycle, Console.cycle_unknown wait decoded, wait, readWord_eq, pure_bind, decoded]
    | some i =>
      have pending := Console.pending?_eq_some.mpr ⟨wait, decoded⟩
      have inRange := Console.inRange_of_pending pending
      have executed := execute_eq (c := c.fetched) c.processor.pc inRange contained.stack.depth
      simp only [cycle, Console.cycle_pending pending, wait, readWord_eq, pure_bind, decoded, executed]
      cases c.fetched.execute c.processor.pc i <;> rfl

/-- Without that invariant a cycle may well trap: a key for a seventeenth register has no place. -/
theorem cycle_eq_trap {c : Console} {x : Register} {key : UInt8}
    (received : c.processor.wait = .received x key) (outside : 16 ≤ x.toNat) :
    cycle c = throw (.index x.toNat 16) := by
  simp only [cycle, received, set, index, dif_neg (Nat.not_lt.mpr outside)]
  rfl

theorem serve_eq {p : Processor} (contained : p.Contained) (duty : Duty) :
    serve p duty = pure (p.serve duty) := by
  cases duty with
  | cycle memory display keypad =>
    have kept : (Console.mk p memory display keypad).processor.Contained := contained
    rw [serve, cycle_eq kept, pure_bind]
    rfl
  | tick | offerKey | reset | reseed => rfl

end Guarded

theorem Console.bounded_cycle {c : Console} (bounded : c.processor.wait.Bounded) :
    c.cycle.state.processor.wait.Bounded := by
  generalize ended : c.cycle = done
  cases ended ▸ c.cycles with
  | waits | unknown | fails => exact bounded
  | takes => trivial
  | executes i after pending executed =>
    rcases wait_execute executed with kept | ⟨x, rfl, rfl⟩
    · rw [kept]
      exact bounded
    · exact inRange_of_pending pending

namespace Processor
variable {p : Processor}

theorem contained_initial (random : RandomSource) : (initial random).Contained where
  toAligned := aligned_initial random
  bounded := trivial

theorem Contained.serve (contained : p.Contained) (duty : Duty) : (p.serve duty).Contained := by
  cases duty with
  | cycle =>
    exact ⟨Console.aligned_cycle contained.toAligned, Console.bounded_cycle contained.bounded⟩
  | tick => exact ⟨contained.elapse .perStep, contained.bounded⟩
  | offerKey key =>
    rw [Processor.serve, state_offerKey]
    exact ⟨⟨contained.pc, contained.stack, contained.index⟩, contained.bounded.offer key⟩
  | reset => exact contained_initial p.random
  | reseed => exact ⟨⟨contained.pc, contained.stack, contained.index⟩, contained.bounded⟩

/-- A contained processor goes through all its duties and stays contained. -/
theorem Contained.serve_all (contained : p.Contained) (duties : List Duty) :
    duties.foldlM Guarded.serve p = pure (duties.foldl Processor.serve p) ∧
      (duties.foldl Processor.serve p).Contained := by
  induction duties generalizing p with
  | nil => exact ⟨rfl, contained⟩
  | cons duty rest ih =>
    rw [List.foldlM_cons, Guarded.serve_eq contained, pure_bind]
    exact ih (contained.serve duty)

/-- From power-on no duty traps, whatever came before it, and the guards change nothing: a cycle in
any surroundings does to all of the console, and reports, what it does without them. -/
theorem no_duty_traps (random : RandomSource) (duties : List Duty) :
    let p := duties.foldl serve (initial random)
    duties.foldlM Guarded.serve (initial random) = .ok p ∧
      ∀ memory display keypad, let c : Console := ⟨p, memory, display, keypad⟩
        Guarded.cycle c = .ok (c.cycle.state, c.cycle.answer) := by
  intro p
  obtain ⟨served, contained⟩ := (contained_initial random).serve_all duties
  refine ⟨served, ?_⟩
  intro memory display keypad c
  have surrounded : c.processor.Contained := contained
  exact Guarded.cycle_eq surrounded

end Processor

end Chip8
