import Chip8.Proofs.Parity
import Chip8.Proofs.Redraw
import Chip8.Proofs.Ring

/-! The step that draws. Its sprite is the stretch of memory at the index register, its corner the two
coordinate registers as they were before, and its answer goes into the flag register. Three rings meet
here, of the memory and of both sides of the screen, and the flag may be a coordinate. -/
namespace Chip8

namespace Memory
variable (memory : Memory) (a : Address)

theorem isSet_readBytes {n dy : Nat} (inside : dy < n) (dx : Nat) :
    Sprite.isSet (memory.readBytes a n) dy dx =
      (memory.read (UInt16.ofNat ((a.toNat + dy) % 4096))).toNat.testBit (7 - dx) := by
  simp [Sprite.isSet, readBytes, inside, read_add]

end Memory

theorem Instruction.decode?_draw {o : Opcode} (family : o.toNat / 4096 = 0xD) :
    decode? o = some (.draw o.x o.y o.nibble) := by
  simp only [decode?, Opcode.family, family]

namespace Console
variable {c : Console} {x y : Register} {height : UInt8}

/-- A row of the sprite at the index register. -/
def spriteRow (c : Console) (dy : Nat) : UInt8 :=
  c.memory.read (UInt16.ofNat ((c.processor.index.toNat + dy) % 4096))

/-- The display and the answer of a drawing instruction. -/
def drawing (c : Console) (x y : Register) (height : UInt8) : Display × Bool :=
  c.display.draw (c.processor.get x).toNat (c.processor.get y).toNat
    (c.memory.readBytes c.processor.index height.toNat)

/-- The cells that change are those under a set bit, wherever its row lies in the ring of the memory. -/
theorem drawing_changes_iff (pending : c.pending? = some (.draw x y height)) (px py : Nat) :
    (c.drawing x y height).1.screen.lit px py ≠ c.display.screen.lit px py ↔
      ∃ dy < height.toNat, ∃ dx < 8, (c.spriteRow dy).toNat.testBit (7 - dx) = true ∧
        ((c.processor.get x).toNat + dx) % 64 = px % 64 ∧
        ((c.processor.get y).toNat + dy) % 32 = py % 32 := by
  have changes := c.display.screen.draw_changes_iff (length_sprite pending) px py
    (x := (c.processor.get x).toNat) (y := (c.processor.get y).toNat)
  rw [Sprite.hits_pos_iff, Memory.length_readBytes] at changes
  apply changes.trans
  apply exists_congr
  intro dy
  apply and_congr_right
  intro inside
  simp only [Memory.isSet_readBytes c.memory c.processor.index inside, spriteRow]

theorem drawing_collides_iff (pending : c.pending? = some (.draw x y height)) :
    (c.drawing x y height).2 = true ↔ ∃ px py, c.display.screen.lit px py = true ∧
      (c.drawing x y height).1.screen.lit px py = false :=
  c.display.screen.collides_draw_short (length_sprite pending)

theorem drawing_blank (pending : c.pending? = some (.draw x y height))
    (rows : ∀ dy < height.toNat, c.spriteRow dy = 0) : (c.drawing x y height).2 = false := by
  apply Bool.eq_false_iff.mpr
  intro collides
  obtain ⟨px, py, lit, dark⟩ := (drawing_collides_iff pending).mp collides
  have differs : (c.drawing x y height).1.screen.lit px py ≠ c.display.screen.lit px py := by
    rw [lit]
    exact ne_true_of_eq_false dark
  obtain ⟨dy, inside, dx, -, bit, -⟩ := (drawing_changes_iff pending px py).mp differs
  rw [rows dy inside, UInt8.toNat_zero, Nat.zero_testBit] at bit
  exact Bool.false_ne_true bit

theorem state_cycle_draw (pending : c.pending? = some (.draw x y height)) : c.cycle.state =
    { c with
      processor :=
        c.processor.skip.set Registers.flag (if (c.drawing x y height).2 then 1 else 0)
      display := (c.drawing x y height).1 } := by
  rw [cycle_pending pending]
  rfl

end Console

namespace Machine

/-- A machine behind `DXYN`: the cells under the set bits of the sprite have changed, the flag tells
whether one of them went dark, and a change has raised the mark of a new picture. -/
structure Drawn (m : Machine) (x y : Register) (height : Nat) (after : Machine) : Prop where
  toggled : ∀ px py,
    after.console.display.screen.lit px py ≠ m.console.display.screen.lit px py ↔
      ∃ dy < height, ∃ dx < 8, (m.console.spriteRow dy).toNat.testBit (7 - dx) = true ∧
        ((m.console.processor.get x).toNat + dx) % 64 = px % 64 ∧
        ((m.console.processor.get y).toNat + dy) % 32 = py % 32
  flag : after.console.processor.get Registers.flag = 0 ∨
    after.console.processor.get Registers.flag = 1
  collided : after.console.processor.get Registers.flag = 1 ↔
    ∃ px py, m.console.display.screen.lit px py = true ∧
      after.console.display.screen.lit px py = false
  blank : (∀ dy < height, m.console.spriteRow dy = 0) →
    after.console.processor.get Registers.flag = 0
  marked : after.console.display.needsRedraw = true ↔ m.console.display.needsRedraw = true ∨
    ∃ px py, after.console.display.screen.lit px py ≠ m.console.display.screen.lit px py
  index : after.console.processor.index = m.console.processor.index
  memory : after.console.memory = m.console.memory
  registers : ∀ z : Register, z.toNat < 16 → z ≠ Registers.flag →
    after.console.processor.get z = m.console.processor.get z

variable {m : Machine}

theorem display_step_draw {x y : Register} {height : UInt8}
    (pending : m.console.pending? = some (.draw x y height)) :
    m.step.state.console.display = (m.console.drawing x y height).1 := by
  rw [state_step, after, Console.state_cycle_draw pending]

theorem registers_step_draw {x y : Register} {height : UInt8}
    (pending : m.console.pending? = some (.draw x y height)) :
    m.step.state.console.processor.registers =
      m.console.processor.registers.set Registers.flag
        (if (m.console.drawing x y height).2 then 1 else 0) := by
  rw [state_step, after, Processor.elapse_registers, Console.state_cycle_draw pending]
  rfl

theorem drawn_step {x y : Register} {height : UInt8}
    (pending : m.console.pending? = some (.draw x y height)) :
    Drawn m x y height.toNat m.step.state := by
  have display := display_step_draw pending
  have registers := registers_step_draw pending
  have flag : m.step.state.console.processor.get Registers.flag =
      if (m.console.drawing x y height).2 then 1 else 0 := by
    rw [Processor.get, registers, Registers.get_set, if_pos rfl]
  constructor
  case toggled =>
    rw [display]
    exact Console.drawing_changes_iff pending
  case flag =>
    rw [flag]
    cases (m.console.drawing x y height).2
    · exact .inl rfl
    · exact .inr rfl
  case collided =>
    rw [flag, display, ← Console.drawing_collides_iff pending]
    cases (m.console.drawing x y height).2 <;> decide
  case blank =>
    intro rows
    rw [flag, Console.drawing_blank pending rows]
    rfl
  case marked =>
    rw [display]
    exact m.console.display.draw_marks_iff_changes _ _ _ (Console.length_sprite pending)
  case index =>
    rw [state_step, after, Processor.elapse_index, Console.state_cycle_draw pending]
    rfl
  case memory => rw [state_step, after, Console.state_cycle_draw pending]
  case registers =>
    intro z low other
    rw [Processor.get, registers]
    exact Registers.get_set_of_ne _ _ (by decide) low other

/-- A running machine at `DXYN` draws exactly, in whichever registers the coordinates stand and wherever
the sprite lies. -/
theorem draw_step_exact (running : m.console.processor.wait = .running)
    (family : (m.console.memory.readWord m.console.processor.pc).toNat / 4096 = 0xD) :
    let opcode := m.console.memory.readWord m.console.processor.pc
    Drawn m opcode.x opcode.y opcode.nibble.toNat m.step.state := by
  intro opcode
  apply drawn_step
  exact Console.pending?_eq_some.mpr ⟨running, Instruction.decode?_draw family⟩

/-- `D0F2` takes its line from the flag, which the sprite drawn before has left at zero. It meets that
sprite again, over the right edge, darkens it and says so in the flag. -/
theorem flag_is_line_and_answer :
    let m := ((booted [0x60, 0x3F, 0xA2, 0x04, 0xD0, 0x12, 0xD0, 0xF2]).run
      [.step, .step, .step]).state
    m.console.processor.wait = .running ∧
      (m.console.memory.readWord m.console.processor.pc).toNat / 4096 = 0xD ∧
      m.step.state.console.processor.get Registers.flag = 1 ∧
      m.step.state.console.display.screen.lit 0 0 ≠ m.console.display.screen.lit 0 0 := by
  intro m
  let opcode := m.console.memory.readWord m.console.processor.pc
  obtain ⟨running, family, lit, dark, tall, bit, column, line⟩ :
      m.console.processor.wait = .running ∧ opcode.toNat / 4096 = 0xD ∧
      m.console.display.screen.lit 63 0 = true ∧
      m.step.state.console.display.screen.lit 63 0 = false ∧
      0 < opcode.nibble.toNat ∧ (m.console.spriteRow 0).toNat.testBit (7 - 1) = true ∧
      ((m.console.processor.get opcode.x).toNat + 1) % 64 = 0 ∧
      ((m.console.processor.get opcode.y).toNat + 0) % 32 = 0 := by decide +kernel
  have drawn := draw_step_exact running family
  refine ⟨running, family, drawn.collided.mpr ⟨63, 0, lit, dark⟩, (drawn.toggled 0 0).mpr ?_⟩
  exact ⟨0, tall, 1, by decide, bit, column, line⟩

end Machine

end Chip8
