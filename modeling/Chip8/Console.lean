import Chip8.Display
import Chip8.Instruction.Decode
import Chip8.Keypad
import Chip8.Processor

/-! The hardware and its cycle. A cycle fetches the opcode at the program counter, moves the counter
past it, and then executes; an instruction that fails leaves the console as it was at that point. -/
namespace Chip8

structure Console where
  processor : Processor
  memory : Memory
  display : Display
  keypad : Keypad
deriving DecidableEq

namespace Console

def initial (random : RandomSource) : Console :=
  ⟨.initial random, .initial, .initial, .initial⟩

/-- Executes one instruction whose own address is `pc`. The program counter is already past it. -/
def execute (c : Console) (pc : Address) (instruction : Instruction) : Except Fault Console :=
  let p := c.processor
  let ok (after : Processor) : Except Fault Console := .ok { c with processor := after }
  match instruction with
  | .machineRoutine _ => .ok c
  | .clearScreen => .ok { c with display := c.display.clear }
  | .returnFromCall =>
    match p.stack.pop? with
    | some (a, stack) => ok { p with pc := a, stack }
    | none => .error (.stackUnderflow pc)
  | .jump a => ok (p.jump a)
  | .call a =>
    match p.stack.push? p.pc with
    | some stack => ok ({ p with stack }.jump a)
    | none => .error (.stackOverflow pc)
  | .skipIfConst x n => ok (p.skipIf (p.get x == n))
  | .skipUnlessConst x n => ok (p.skipIf (p.get x != n))
  | .skipIfEqual x y => ok (p.skipIf (p.get x == p.get y))
  | .setConst x n => ok (p.set x n)
  | .addConst x n => ok (p.set x (p.get x + n))
  | .copy x y => ok (p.set x (p.get y))
  | .bitOr x y => ok (p.set x (p.get x ||| p.get y))
  | .bitAnd x y => ok (p.set x (p.get x &&& p.get y))
  | .bitXor x y => ok (p.set x (p.get x ^^^ p.get y))
  | .add x y =>
    ok (p.setFlagged x (p.get x + p.get y) (if 256 ≤ (p.get x).toNat + (p.get y).toNat then 1 else 0))
  | .subtract x y => ok (p.setFlagged x (p.get x - p.get y) (if p.get y ≤ p.get x then 1 else 0))
  | .shiftRight x => ok (p.setFlagged x (p.get x / 2) (p.get x % 2))
  | .subtractFrom x y => ok (p.setFlagged x (p.get y - p.get x) (if p.get x ≤ p.get y then 1 else 0))
  | .shiftLeft x => ok (p.setFlagged x (p.get x * 2) (p.get x / 128))
  | .skipUnlessEqual x y => ok (p.skipIf (p.get x != p.get y))
  | .setIndex a => ok { p with index := a }
  | .jumpOffset a => ok (p.jump ((p.get 0).toUInt16 + a))
  | .random x mask =>
    let (byte, random) := p.random.next
    ok ({ p with random }.set x (byte &&& mask))
  | .draw x y height =>
    let sprite := c.memory.readBytes p.index height.toNat
    let (display, collision) := c.display.draw (p.get x).toNat (p.get y).toNat sprite
    .ok { c with processor := p.set Registers.flag (if collision then 1 else 0), display }
  | .skipIfKey x => ok (p.skipIf (c.keypad.isHeld (p.get x).toNat))
  | .skipUnlessKey x => ok (p.skipIf (!c.keypad.isHeld (p.get x).toNat))
  | .readDelay x => ok (p.set x p.delay)
  | .awaitKey x => ok { p with pc, wait := .waiting x }
  | .setDelay x => ok { p with delay := p.get x }
  | .setSound x => ok { p with sound := p.get x }
  | .addIndex x => ok { p with index := Processor.wrap (p.index + (p.get x).toUInt16) }
  | .pointAtGlyph x =>
    ok { p with index := Memory.fontStart + Memory.glyphHeight * (p.get x % 16).toUInt16 }
  | .storeDecimal x =>
    let n := p.get x
    .ok { c with memory := c.memory.writeBytes p.index [n / 100, n / 10 % 10, n % 10] }
  | .storeRegisters x => .ok { c with memory := c.memory.writeBytes p.index (p.registers.upTo x) }
  | .loadRegisters x =>
    ok { p with registers := p.registers.fill (c.memory.readBytes p.index (x.toNat + 1)) }

/-- The events of an instruction that is executed. -/
def announce (pc : Address) (instruction : Instruction) : List Event :=
  .executing pc instruction ::
    match instruction with
    | .awaitKey x => [.awaitingKey x]
    | _ => []

/-- One cycle. A processor that waits for a key stays as it is; one that has received a key stores
it and moves on without a fetch. -/
def cycle (c : Console) : Outcome Console (Option Fault) :=
  match c.processor.wait with
  | .waiting _ => { state := c, answer := none }
  | .received x key =>
    { state := { c with processor := { c.processor.set x key with wait := .running }.skip }
      answer := none }
  | .running =>
    let pc := c.processor.pc
    let opcode := c.memory.readWord pc
    let fetched := { c with processor := c.processor.skip }
    match Instruction.decode? opcode with
    | none => { state := fetched, answer := some (.unknownOpcode pc opcode) }
    | some instruction =>
      match fetched.execute pc instruction with
      | .ok after => { state := after, answer := none, events := announce pc instruction }
      | .error fault => { state := fetched, answer := some fault, events := announce pc instruction }

end Console

end Chip8
