import Chip8.Proofs.Calls
import Chip8.Proofs.Commuting
import Chip8.Proofs.Faults

/-! Where a step goes on. A cycle counts its opcode off before it executes it, so whatever neither jumps
nor waits goes on behind the opcode, faults among it, and a skip that is taken one opcode further; the
top of the ring is passed in both. The digits of the opcode tell these cases apart. -/
namespace Chip8

namespace Console

/-- The condition of a skip. No other opcode skips. -/
def skips (c : Console) (o : Opcode) : Bool :=
  let a := c.processor.get o.x
  let b := c.processor.get o.y
  match o.digits with
  | [0x3, _, _, _] => a == o.byte
  | [0x4, _, _, _] => a != o.byte
  | [0x5, _, _, 0x0] => a == b
  | [0x9, _, _, 0x0] => a != b
  | [0xE, _, 0x9, 0xE] => decide (a.toNat < 16) && c.keypad.isHeld a.toNat
  | [0xE, _, 0xA, 0x1] => !(decide (a.toNat < 16) && c.keypad.isHeld a.toNat)
  | _ => false

/-- The address at which the program goes on after the opcode at the program counter. -/
def destination (c : Console) : Nat :=
  let o := c.opcode
  let pc := c.processor.pc.toNat
  match o.digits with
  | [0x0, 0x0, 0xE, 0xE] =>
    match c.processor.stack.live with
    | top :: _ => top.toNat
    | [] => (pc + 2) % 4096
  | [0x1, _, _, _] => o.address.toNat / 2 * 2
  | [0x2, _, _, _] =>
    if c.processor.stack.depth < 16 then o.address.toNat / 2 * 2 else (pc + 2) % 4096
  | [0xB, _, _, _] => ((c.processor.get 0).toNat + o.address.toNat) % 4096 / 2 * 2
  | [0xF, _, 0x0, 0xA] => pc
  | _ => if c.skips o then (pc + 4) % 4096 else (pc + 2) % 4096

variable {c : Console} {i : Instruction}

theorem toNat_pc_fetched : c.fetched.processor.pc.toNat = (c.processor.pc.toNat + 2) % 4096 :=
  c.processor.toNat_pc_skip

theorem pc_cycle_skip {condition : Bool} (pending : c.pending? = some i)
    (executes : c.fetched.execute c.processor.pc i =
      .ok { c.fetched with processor := c.fetched.processor.skipIf condition }) :
    c.cycle.state.processor.pc.toNat =
      if condition then (c.processor.pc.toNat + 4) % 4096 else (c.processor.pc.toNat + 2) % 4096 := by
  rw [cycle_pending pending, executes]
  cases condition with
  | false => exact toNat_pc_fetched
  | true =>
    change c.fetched.processor.skip.pc.toNat = (c.processor.pc.toNat + 4) % 4096
    rw [Processor.toNat_pc_skip, toNat_pc_fetched]
    omega

theorem pc_cycle_refused (refused : c.cycle.answer ≠ none) :
    c.cycle.state.processor.pc.toNat = (c.processor.pc.toNat + 2) % 4096 := by
  obtain ⟨fault, raised⟩ := Option.ne_none_iff_exists'.mp refused
  rw [state_of_answer raised]
  exact toNat_pc_fetched

theorem pc_cycle_return (bound : c.processor.stack.depth ≤ 16)
    (pending : c.pending? = some .returnFromCall) :
    c.cycle.state.processor.pc.toNat =
      match c.processor.stack.live with
      | top :: _ => top.toNat
      | [] => (c.processor.pc.toNat + 2) % 4096 := by
  obtain ⟨answers, returns⟩ := cycle_return bound pending
  cases live : c.processor.stack.live with
  | cons top rest => rw [returns top rest live]
  | nil => exact pc_cycle_refused fun accepted => answers.mp accepted live

theorem pc_cycle_call {a : Address} (bound : c.processor.stack.depth ≤ 16)
    (pending : c.pending? = some (.call a)) :
    c.cycle.state.processor.pc.toNat =
      if c.processor.stack.depth < 16 then a.toNat % 4096 / 2 * 2
      else (c.processor.pc.toNat + 2) % 4096 := by
  obtain ⟨answers, calls⟩ := cycle_call bound pending
  rw [CallStack.length_live bound] at answers calls
  split
  · rename_i room
    rw [calls room, Processor.toNat_pc_jump]
  · rename_i full
    exact pc_cycle_refused fun accepted => full (answers.mp accepted)

/-- Whether the keypad has the key is part of the question whether it is held. -/
theorem inside_and_isHeld (key : Nat) :
    (decide (key < 16) && c.keypad.isHeld key) = c.keypad.isHeld key := by
  cases held : c.keypad.isHeld key with
  | false => exact Bool.and_false _
  | true => rw [decide_eq_true (Keypad.lt_of_isHeld held), Bool.true_and]

/-- An opcode that is neither a jump, a call, a return nor `FX0A` goes on behind itself, or behind the next
one where it skips. -/
theorem pc_cycle_onward (running : c.processor.wait = .running)
    (notReturn : c.opcode.digits ≠ [0x0, 0x0, 0xE, 0xE])
    (notJump : ∀ n m k, c.opcode.digits ≠ [0x1, n, m, k])
    (notCall : ∀ n m k, c.opcode.digits ≠ [0x2, n, m, k])
    (notOffset : ∀ n m k, c.opcode.digits ≠ [0xB, n, m, k])
    (notAwait : ∀ x, c.opcode.digits ≠ [0xF, x, 0x0, 0xA]) :
    c.cycle.state.processor.pc.toNat =
      if c.skips c.opcode then (c.processor.pc.toNat + 4) % 4096
      else (c.processor.pc.toNat + 2) % 4096 := by
  have executes {i : Instruction} (decoded : Instruction.decode? c.opcode = some i) :
      c.pending? = some i :=
    pending?_eq_some.mpr ⟨running, decoded⟩
  unfold skips
  dsimp only
  split
  case h_1 digits =>
    obtain ⟨family, -, -, -⟩ := Opcode.fields_of_digits digits
    have decoded : Instruction.decode? c.opcode = some (.skipIfConst c.opcode.x c.opcode.byte) := by
      simp only [Instruction.decode?, family]
    exact pc_cycle_skip (executes decoded) rfl
  case h_2 digits =>
    obtain ⟨family, -, -, -⟩ := Opcode.fields_of_digits digits
    have decoded :
        Instruction.decode? c.opcode = some (.skipUnlessConst c.opcode.x c.opcode.byte) := by
      simp only [Instruction.decode?, family]
    exact pc_cycle_skip (executes decoded) rfl
  case h_3 digits =>
    obtain ⟨family, -, -, last⟩ := Opcode.fields_of_digits digits
    have last : c.opcode.nibble = 0 := UInt8.toNat_inj.mp last
    have decoded : Instruction.decode? c.opcode = some (.skipIfEqual c.opcode.x c.opcode.y) := by
      simp only [Instruction.decode?, family, if_pos last]
    exact pc_cycle_skip (executes decoded) rfl
  case h_4 digits =>
    obtain ⟨family, -, -, last⟩ := Opcode.fields_of_digits digits
    have last : c.opcode.nibble = 0 := UInt8.toNat_inj.mp last
    have decoded :
        Instruction.decode? c.opcode = some (.skipUnlessEqual c.opcode.x c.opcode.y) := by
      simp only [Instruction.decode?, family, if_pos last]
    exact pc_cycle_skip (executes decoded) rfl
  case h_5 digits =>
    obtain ⟨family, -, -, -⟩ := Opcode.fields_of_digits digits
    have last : c.opcode.byte = 0x9E := UInt8.toNat_inj.mp (Opcode.byte_of_digits digits)
    have decoded : Instruction.decode? c.opcode = some (.skipIfKey c.opcode.x) := by
      simp only [Instruction.decode?, family, if_pos last]
    rw [inside_and_isHeld]
    exact pc_cycle_skip (executes decoded) rfl
  case h_6 digits =>
    obtain ⟨family, -, -, -⟩ := Opcode.fields_of_digits digits
    have last : c.opcode.byte = 0xA1 := UInt8.toNat_inj.mp (Opcode.byte_of_digits digits)
    have decoded : Instruction.decode? c.opcode = some (.skipUnlessKey c.opcode.x) := by
      simp only [Instruction.decode?, family, last]
      rfl
    rw [inside_and_isHeld]
    exact pc_cycle_skip (executes decoded) rfl
  case h_7 notIfConst notUnlessConst notIfEqual notUnlessEqual notIfKey notUnlessKey =>
    cases decoded : Instruction.decode? c.opcode with
    | none =>
      rw [cycle_unknown running decoded]
      exact toNat_pc_fetched
    | some i =>
      -- An instruction of one of the shapes ruled out would be written in the digits of that shape.
      obtain ⟨inRange, -, encoded⟩ := Instruction.reads_of_decode? decoded
      cases i with
      | returnFromCall =>
        have written : 0x00EE = c.opcode := encoded id
        exact absurd (written ▸ rfl) notReturn
      | jump a =>
        exact absurd (Instruction.digits_of_overAddress (encoded id) (by decide) inRange)
          (notJump _ _ _)
      | call a =>
        exact absurd (Instruction.digits_of_overAddress (encoded id) (by decide) inRange)
          (notCall _ _ _)
      | jumpOffset a =>
        exact absurd (Instruction.digits_of_overAddress (encoded id) (by decide) inRange)
          (notOffset _ _ _)
      | awaitKey x =>
        exact absurd (Instruction.digits_of_overByte (encoded id) (by decide) inRange (by decide))
          (notAwait _)
      | skipIfConst x n =>
        exact absurd (Instruction.digits_of_overByte (encoded id) (by decide) inRange n.toNat_lt)
          (notIfConst _ _ _)
      | skipUnlessConst x n =>
        exact absurd (Instruction.digits_of_overByte (encoded id) (by decide) inRange n.toNat_lt)
          (notUnlessConst _ _ _)
      | skipIfEqual x y =>
        exact absurd (Instruction.digits_of_overDigits (encoded id) (by decide) inRange.1 inRange.2
          (by decide)) (notIfEqual _ _)
      | skipUnlessEqual x y =>
        exact absurd (Instruction.digits_of_overDigits (encoded id) (by decide) inRange.1 inRange.2
          (by decide)) (notUnlessEqual _ _)
      | skipIfKey x =>
        exact absurd (Instruction.digits_of_overByte (encoded id) (by decide) inRange (by decide))
          (notIfKey _)
      | skipUnlessKey x =>
        exact absurd (Instruction.digits_of_overByte (encoded id) (by decide) inRange (by decide))
          (notUnlessKey _)
      | _ =>
        rw [cycle_pending (executes decoded)]
        exact toNat_pc_fetched (c := c)

theorem pc_cycle (running : c.processor.wait = .running) (bound : c.processor.stack.depth ≤ 16) :
    c.cycle.state.processor.pc.toNat = c.destination := by
  have executes {i : Instruction} (decoded : Instruction.decode? c.opcode = some i) :
      c.pending? = some i :=
    pending?_eq_some.mpr ⟨running, decoded⟩
  have inside := c.opcode.address_lt
  unfold destination
  dsimp only
  split
  case h_1 digits =>
    have opcode : c.opcode = 0x00EE := Opcode.eq_of_digits digits
    exact pc_cycle_return bound (executes (Instruction.decode?_eq_return.mpr opcode))
  case h_2 digits =>
    obtain ⟨family, -, -, -⟩ := Opcode.fields_of_digits digits
    have decoded : Instruction.decode? c.opcode = some (.jump c.opcode.address) := by
      simp only [Instruction.decode?, family]
    rw [cycle_pending (executes decoded)]
    change (c.fetched.processor.jump c.opcode.address).pc.toNat = _
    rw [Processor.toNat_pc_jump, Nat.mod_eq_of_lt inside]
  case h_3 digits =>
    obtain ⟨family, -, -, -⟩ := Opcode.fields_of_digits digits
    rw [pc_cycle_call bound (executes (Instruction.decode?_call family)), Nat.mod_eq_of_lt inside]
  case h_4 digits =>
    obtain ⟨family, -, -, -⟩ := Opcode.fields_of_digits digits
    have decoded : Instruction.decode? c.opcode = some (.jumpOffset c.opcode.address) := by
      simp only [Instruction.decode?, family]
    have small := (c.processor.get 0).toNat_lt
    rw [cycle_pending (executes decoded)]
    change (c.fetched.processor.jump ((c.processor.get 0).toUInt16 + c.opcode.address)).pc.toNat = _
    rw [Processor.toNat_pc_jump, UInt16.toNat_add, UInt8.toNat_toUInt16]
    omega
  case h_5 digits =>
    obtain ⟨-, rfl, -, -⟩ := Opcode.fields_of_digits digits
    rw [cycle_pending (executes (Instruction.decode?_awaitKey digits))]
    rfl
  case h_6 notReturn notJump notCall notOffset notAwait =>
    exact pc_cycle_onward running notReturn notJump notCall notOffset notAwait

end Console

/-- Two skips with the same operands, of which one asks for what the other rules out. -/
inductive Opcode.Opposite (o p : Opcode) : Prop where
  | const (x n m : Nat) : o.digits = [0x3, x, n, m] → p.digits = [0x4, x, n, m] → Opposite o p
  | registers (x y : Nat) : o.digits = [0x5, x, y, 0x0] → p.digits = [0x9, x, y, 0x0] → Opposite o p
  | key (x : Nat) : o.digits = [0xE, x, 0x9, 0xE] → p.digits = [0xE, x, 0xA, 0x1] → Opposite o p

namespace Console
variable {c : Console} {o p : Opcode}

theorem skips_opposite (opposite : o.Opposite p) : c.skips p = !c.skips o := by
  cases opposite with
  | const x n m first second =>
    obtain ⟨-, firstX, -, -⟩ := Opcode.fields_of_digits first
    obtain ⟨-, secondX, -, -⟩ := Opcode.fields_of_digits second
    have sameX : p.x = o.x := UInt8.toNat_inj.mp (secondX.trans firstX.symm)
    have sameByte : p.byte = o.byte := UInt8.toNat_inj.mp
      ((Opcode.byte_of_digits second).trans (Opcode.byte_of_digits first).symm)
    simp only [skips, first, second, sameX, sameByte]
    rfl
  | registers x y first second =>
    obtain ⟨-, firstX, firstY, -⟩ := Opcode.fields_of_digits first
    obtain ⟨-, secondX, secondY, -⟩ := Opcode.fields_of_digits second
    have sameX : p.x = o.x := UInt8.toNat_inj.mp (secondX.trans firstX.symm)
    have sameY : p.y = o.y := UInt8.toNat_inj.mp (secondY.trans firstY.symm)
    simp only [skips, first, second, sameX, sameY]
    rfl
  | key x first second =>
    obtain ⟨-, firstX, -, -⟩ := Opcode.fields_of_digits first
    obtain ⟨-, secondX, -, -⟩ := Opcode.fields_of_digits second
    have sameX : p.x = o.x := UInt8.toNat_inj.mp (secondX.trans firstX.symm)
    simp only [skips, first, second, sameX]

theorem destination_of_opposite (opposite : c.opcode.Opposite p ∨ p.Opposite c.opcode) :
    c.destination = if c.skips c.opcode then (c.processor.pc.toNat + 4) % 4096
      else (c.processor.pc.toNat + 2) % 4096 := by
  rcases opposite with (⟨_, _, _, digits, -⟩ | ⟨_, _, digits, -⟩ | ⟨_, digits, -⟩) |
    (⟨_, _, _, -, digits⟩ | ⟨_, _, -, digits⟩ | ⟨_, -, digits⟩)
  all_goals simp only [destination, digits]

end Console

namespace Machine
variable {m : Machine}

theorem withMemory_self (m : Machine) : m.withMemory m.console.memory = m :=
  rfl

theorem pc_step (bound : m.console.processor.stack.depth ≤ 16)
    (running : m.console.processor.wait = .running) :
    m.step.state.console.processor.pc.toNat = m.console.destination := by
  rw [state_step, after, Processor.elapse_pc]
  exact Console.pc_cycle running bound

/-- A step goes on exactly where its opcode says. Of two opposite skips in the same place, whatever else
stands in memory, one skips and the other does not. -/
theorem control_flow_exact (reachable : m.Reachable)
    (running : m.console.processor.wait = .running) :
    m.step.state.console.processor.pc.toNat = m.console.destination ∧
    ∀ first second : Memory,
      (first.readWord m.console.processor.pc).Opposite
        (second.readWord m.console.processor.pc) →
      let pc := m.console.processor.pc.toNat
      let left := (m.withMemory first).step.state.console.processor.pc.toNat
      let right := (m.withMemory second).step.state.console.processor.pc.toNat
      (left = (pc + 4) % 4096 ∧ right = (pc + 2) % 4096) ∨
        (left = (pc + 2) % 4096 ∧ right = (pc + 4) % 4096) := by
  have bound := reachable.sound.aligned.stack.depth
  refine ⟨pc_step bound running, ?_⟩
  intro first second opposite pc left right
  have goesLeft : left = (m.withMemory first).console.destination :=
    pc_step (m := m.withMemory first) bound running
  have goesRight : right = (m.withMemory second).console.destination :=
    pc_step (m := m.withMemory second) bound running
  rw [Console.destination_of_opposite (c := (m.withMemory first).console) (.inl opposite)]
    at goesLeft
  rw [Console.destination_of_opposite (c := (m.withMemory second).console) (.inr opposite)]
    at goesRight
  have contrary : (m.withMemory second).console.skips (m.withMemory second).console.opcode =
      !(m.withMemory first).console.skips (m.withMemory first).console.opcode :=
    Console.skips_opposite (c := (m.withMemory first).console) opposite
  rw [contrary] at goesRight
  rw [goesLeft, goesRight]
  cases (m.withMemory first).console.skips (m.withMemory first).console.opcode with
  | true => exact .inl ⟨rfl, rfl⟩
  | false => exact .inr ⟨rfl, rfl⟩

/-- A skip in the last word of the ring goes behind the first one, and its opposite there does not. -/
theorem top_skip_goes_around :
    let top := ((booted [0x60, 0x40, 0xAF, 0xFE, 0xF1, 0x55, 0x1F, 0xFE]).run
      [.step, .step, .step, .step]).state
    let opposite := top.console.memory.write 0xFFE 0x30
    top.console.processor.pc = 0xFFE ∧ top.step.state.console.processor.pc.toNat = 2 ∧
      (top.withMemory opposite).step.state.console.processor.pc.toNat = 0 := by
  intro top opposite
  have reachable : top.Reachable := (reachable_booted _).run _
  obtain ⟨running, pc, skips, destination, opposed⟩ : top.console.processor.wait = .running ∧
      top.console.processor.pc = 0xFFE ∧
      (top.console.memory.readWord top.console.processor.pc).digits = [0x4, 0, 0, 0] ∧
      top.console.destination = 2 ∧
      (opposite.readWord top.console.processor.pc).digits = [0x3, 0, 0, 0] := by decide +kernel
  obtain ⟨goes, opposes⟩ := control_flow_exact reachable running
  have pair := opposes opposite top.console.memory (.const 0 0 0 opposed skips)
  have number : top.console.processor.pc.toNat = 4094 := congrArg UInt16.toNat pc
  rw [withMemory_self, goes, destination, number] at pair
  refine ⟨pc, goes.trans destination, ?_⟩
  rcases pair with ⟨-, falls⟩ | ⟨falls, -⟩
  · exact absurd falls (by decide)
  · exact falls

end Machine

end Chip8
