import Chip8.Proofs.Decoding
import Chip8.Proofs.Effects
import Chip8.Proofs.Run

/-! Arithmetic on registers and its flags. The operation of an opcode is told in natural numbers, on what
its registers held before; a carry, a missing borrow or a lost bit goes into the flag, also where the
flag is an operand or the target. None of it needs a sound machine, only one that runs. -/
namespace Chip8

/-- What an operation on two bytes gives: a byte for the first register and, where the operation tells of
it, a bit for the flag. -/
structure Reckoning where
  value : Nat
  bit? : Option Nat

/-- The operation of an opcode, where `a` is the value of its first register and `b` that of its second. -/
def Opcode.reckoning? (o : Opcode) (a b : Nat) : Option Reckoning :=
  match o.digits with
  | [0x6, _, _, _] => some ⟨o.byte.toNat, none⟩
  | [0x7, _, _, _] => some ⟨(a + o.byte.toNat) % 256, none⟩
  | [0x8, _, _, 0x0] => some ⟨b, none⟩
  | [0x8, _, _, 0x1] => some ⟨a ||| b, none⟩
  | [0x8, _, _, 0x2] => some ⟨a &&& b, none⟩
  | [0x8, _, _, 0x3] => some ⟨a ^^^ b, none⟩
  | [0x8, _, _, 0x4] => some ⟨(a + b) % 256, some ((a + b) / 256)⟩
  | [0x8, _, _, 0x5] => some ⟨(256 + a - b) % 256, some (if b ≤ a then 1 else 0)⟩
  | [0x8, _, _, 0x6] => some ⟨a / 2, some (a % 2)⟩
  | [0x8, _, _, 0x7] => some ⟨(256 + b - a) % 256, some (if a ≤ b then 1 else 0)⟩
  | [0x8, _, _, 0xE] => some ⟨2 * a % 256, some (a / 128)⟩
  | _ => none

namespace Registers

/-- The registers with a byte in one of them and, where there is one, a bit in the flag, which wins where
both are one. -/
def put (registers : Registers) (x : Register) (value : UInt8) : Option UInt8 → Registers
  | none => registers.set x value
  | some bit => registers.setFlagged x value bit

end Registers

section Bytes
variable (a b : UInt8)

theorem toNat_carry :
    (if 256 ≤ a.toNat + b.toNat then 1 else 0 : UInt8).toNat = (a.toNat + b.toNat) / 256 := by
  have boundA := a.toNat_lt
  have boundB := b.toNat_lt
  split
  · change 1 = _
    omega
  · change 0 = _
    omega

theorem toNat_difference : (a - b).toNat = (256 + a.toNat - b.toNat) % 256 := by
  have boundA := a.toNat_lt
  have boundB := b.toNat_lt
  rw [UInt8.toNat_sub]
  omega

theorem toNat_unborrowed :
    (if b ≤ a then 1 else 0 : UInt8).toNat = if b.toNat ≤ a.toNat then 1 else 0 := by
  simp only [UInt8.le_iff_toNat_le]
  split <;> rfl

theorem toNat_doubled : (a * 2).toNat = 2 * a.toNat % 256 := by
  rw [UInt8.toNat_mul, Nat.mul_comm]
  rfl

end Bytes

namespace Console
variable {c : Console} {o : Opcode}

/-- The opcode is executed by putting these bytes into its first register and into the flag, and they are
the numbers of the result. -/
structure Performs (c : Console) (o : Opcode) (result : Reckoning) (i : Instruction) (value : UInt8)
    (bit? : Option UInt8) : Prop where
  decoded : Instruction.decode? o = some i
  executed : ∀ pc, c.execute pc i =
    .ok { c with
      processor := { c.processor with registers := c.processor.registers.put o.x value bit? } }
  value : value.toNat = result.value
  bit : bit?.map UInt8.toNat = result.bit?

theorem performs_of_reckoning {result : Reckoning}
    (reckoned : o.reckoning? (c.processor.get o.x).toNat (c.processor.get o.y).toNat = some result) :
    ∃ i value bit?, c.Performs o result i value bit? := by
  unfold Opcode.reckoning? at reckoned
  split at reckoned
  all_goals first | contradiction | cases reckoned
  all_goals
    rename_i digits
    obtain ⟨family, -, -, last⟩ := Opcode.fields_of_digits digits
  case h_1 =>
    have decoded : Instruction.decode? o = some (.setConst o.x o.byte) := by
      simp only [Instruction.decode?, family]
    exact ⟨_, _, none, decoded, fun _ => rfl, rfl, rfl⟩
  case h_2 =>
    have decoded : Instruction.decode? o = some (.addConst o.x o.byte) := by
      simp only [Instruction.decode?, family]
    exact ⟨_, _, none, decoded, fun _ => rfl, UInt8.toNat_add .., rfl⟩
  all_goals
    have decoded := Instruction.decode?_arithmetic family
    simp only [Instruction.arithmetic?, last] at decoded
  case h_3 => exact ⟨_, _, none, decoded, fun _ => rfl, rfl, rfl⟩
  case h_4 => exact ⟨_, _, none, decoded, fun _ => rfl, UInt8.toNat_or .., rfl⟩
  case h_5 => exact ⟨_, _, none, decoded, fun _ => rfl, UInt8.toNat_and .., rfl⟩
  case h_6 => exact ⟨_, _, none, decoded, fun _ => rfl, UInt8.toNat_xor .., rfl⟩
  case h_7 =>
    exact ⟨_, _, some _, decoded, fun _ => rfl, UInt8.toNat_add .., congrArg some (toNat_carry ..)⟩
  case h_8 =>
    exact ⟨_, _, some _, decoded, fun _ => rfl, toNat_difference .., congrArg some (toNat_unborrowed ..)⟩
  case h_9 =>
    exact ⟨_, _, some _, decoded, fun _ => rfl, UInt8.toNat_div .., congrArg some (UInt8.toNat_mod ..)⟩
  case h_10 =>
    exact ⟨_, _, some _, decoded, fun _ => rfl, toNat_difference .., congrArg some (toNat_unborrowed ..)⟩
  case h_11 =>
    exact ⟨_, _, some _, decoded, fun _ => rfl, toNat_doubled .., congrArg some (UInt8.toNat_div ..)⟩

theorem state_cycle_performs {result : Reckoning} {i : Instruction} {value : UInt8}
    {bit? : Option UInt8} (running : c.processor.wait = .running)
    (performs : c.fetched.Performs c.opcode result i value bit?) : c.cycle.state =
      { c.fetched with
        processor :=
          { c.fetched.processor with
            registers := c.processor.registers.put c.opcode.x value bit? } } := by
  rw [cycle_pending (pending?_eq_some.mpr ⟨running, performs.decoded⟩), performs.executed]
  rfl

end Console

namespace Registers
variable (registers : Registers) {x : Register} (value : UInt8) (bit? : Option UInt8)

theorem get_put_self (low : x.toNat < 16) (plain : x ≠ flag ∨ bit? = none) :
    (registers.put x value bit?).get x = value := by
  cases bit? with
  | none => rw [put, get_set, if_pos rfl]
  | some bit =>
    have other : x ≠ flag := by simpa using plain
    rw [put, setFlagged, get_set_of_ne _ _ (by decide) low other, get_set, if_pos rfl]

theorem get_put_flag (bit : UInt8) : (registers.put x value (some bit)).get flag = bit := by
  rw [put, setFlagged, get_set, if_pos rfl]

theorem get_put_other {y : Register} (lowX : x.toNat < 16) (lowY : y.toNat < 16) (other : y ≠ x)
    (plain : y ≠ flag ∨ bit? = none) : (registers.put x value bit?).get y = registers.get y := by
  cases bit? with
  | none => rw [put, get_set_of_ne _ _ lowX lowY other]
  | some bit =>
    have unflagged : y ≠ flag := by simpa using plain
    rw [put, setFlagged, get_set_of_ne _ _ (by decide) lowY unflagged,
      get_set_of_ne _ _ lowX lowY other]

end Registers

namespace Machine

/-- A machine behind an operation on the register `x`. A bit goes into the flag in any case, and where
the flag is `x` itself only the bit remains. -/
structure Reckoned (m : Machine) (x : Register) (result : Reckoning) (after : Machine) : Prop where
  value : x ≠ Registers.flag ∨ result.bit? = none →
    (after.console.processor.get x).toNat = result.value
  flag : ∀ bit, result.bit? = some bit →
    (after.console.processor.get Registers.flag).toNat = bit
  others : ∀ z : Register, z.toNat < 16 → z ≠ x → z ≠ Registers.flag ∨ result.bit? = none →
    after.console.processor.get z = m.console.processor.get z
  wait : after.console.processor.wait = .running

variable {m : Machine} {x y : Register}

theorem reckoned_step {result : Reckoning} (running : m.console.processor.wait = .running)
    (reckoned : m.console.opcode.reckoning?
      (m.console.processor.get m.console.opcode.x).toNat
      (m.console.processor.get m.console.opcode.y).toNat = some result) :
    Reckoned m m.console.opcode.x result m.step.state := by
  obtain ⟨i, value, bit?, performs⟩ :=
    Console.performs_of_reckoning (c := m.console.fetched) reckoned
  have state := Console.state_cycle_performs running performs
  have registers : m.step.state.console.processor.registers =
      m.console.processor.registers.put m.console.opcode.x value bit? := by
    rw [state_step, after, Processor.elapse_registers, state]
  have low := m.console.opcode.x_lt
  have plain (z : Register) : z ≠ Registers.flag ∨ result.bit? = none →
      z ≠ Registers.flag ∨ bit? = none := by
    rw [← performs.bit, Option.map_eq_none_iff]
    exact id
  constructor
  case value =>
    intro unflagged
    rw [Processor.get, registers, Registers.get_put_self _ _ _ low (plain _ unflagged)]
    exact performs.value
  case flag =>
    intro bit present
    obtain ⟨byte, rfl, rfl⟩ := Option.map_eq_some_iff.mp (performs.bit.trans present)
    rw [Processor.get, registers, Registers.get_put_flag]
  case others =>
    intro z lowZ other unflagged
    rw [Processor.get, registers, Registers.get_put_other _ _ _ low lowZ other (plain z unflagged)]
    rfl
  case wait =>
    rw [state_step, after, Processor.elapse_wait, state]
    exact running

theorem index_step_addIndex (pending : m.console.pending? = some (.addIndex x)) :
    m.step.state.console.processor.index.toNat =
        (m.console.processor.index.toNat + (m.console.processor.get x).toNat) % 4096 ∧
      m.step.state.console.processor.registers = m.console.processor.registers := by
  have state : m.console.cycle.state =
      { m.console.fetched with
        processor :=
          { m.console.fetched.processor with
            index := Processor.wrap
              (m.console.processor.index + (m.console.processor.get x).toUInt16) } } := by
    rw [Console.cycle_pending pending]
    rfl
  rw [state_step, after, Processor.elapse_index, Processor.elapse_registers, state]
  refine ⟨?_, rfl⟩
  rw [Processor.toNat_wrap, UInt16.toNat_add, UInt8.toNat_toUInt16]
  omega

theorem reckoned_add (running : m.console.processor.wait = .running)
    (adds : m.console.opcode.digits = [0x8, x.toNat, y.toNat, 0x4]) :
    let sum := (m.console.processor.get x).toNat + (m.console.processor.get y).toNat
    Reckoned m x ⟨sum % 256, some (sum / 256)⟩ m.step.state := by
  intro sum
  obtain ⟨rfl, rfl⟩ := Opcode.registers_of_digits adds
  apply reckoned_step running
  simp only [Opcode.reckoning?, adds, sum]

theorem reckoned_subtract (running : m.console.processor.wait = .running)
    (subtracts : m.console.opcode.digits = [0x8, x.toNat, y.toNat, 0x5]) :
    let a := (m.console.processor.get x).toNat
    let b := (m.console.processor.get y).toNat
    Reckoned m x ⟨(256 + a - b) % 256, some (if b ≤ a then 1 else 0)⟩ m.step.state := by
  intro a b
  obtain ⟨rfl, rfl⟩ := Opcode.registers_of_digits subtracts
  apply reckoned_step running
  simp only [Opcode.reckoning?, subtracts, a, b]

/-- A subtraction takes an addition back, and its flag is set where the sum had no carry. -/
theorem subtract_undoes_add (running : m.console.processor.wait = .running)
    (distinct : x ≠ y) (unflaggedX : x ≠ Registers.flag) (unflaggedY : y ≠ Registers.flag)
    (adds : m.console.opcode.digits = [0x8, x.toNat, y.toNat, 0x4])
    (subtracts : m.step.state.console.opcode.digits = [0x8, x.toNat, y.toNat, 0x5]) :
    let twice := m.step.state.step.state.console.processor
    let sum := (m.console.processor.get x).toNat + (m.console.processor.get y).toNat
    twice.get x = m.console.processor.get x ∧
      (twice.get Registers.flag).toNat = 1 - sum / 256 := by
  intro twice sum
  have lowY : y.toNat < 16 := by
    obtain ⟨-, rfl⟩ := Opcode.registers_of_digits adds
    exact Opcode.y_lt _
  have added := reckoned_add running adds
  have subtracted := reckoned_subtract added.wait subtracts
  have between : (m.step.state.console.processor.get x).toNat = sum % 256 :=
    added.value (.inl unflaggedX)
  have kept := added.others y lowY (Ne.symm distinct) (.inl unflaggedY)
  have value := subtracted.value (.inl unflaggedX)
  have flag := subtracted.flag _ rfl
  rw [kept, between] at value flag
  have boundX := (m.console.processor.get x).toNat_lt
  have boundY := (m.console.processor.get y).toNat_lt
  dsimp only [sum] at value flag
  constructor
  · apply UInt8.toNat_inj.mp
    rw [value]
    omega
  · rw [flag]
    dsimp only [sum]
    split <;> omega

/-- Registers are reckoned exactly, whichever of them coincide. -/
theorem arithmetic_exact (running : m.console.processor.wait = .running) :
    let opcode := m.console.opcode
    let value (z : Register) := (m.console.processor.get z).toNat
    let once := m.step.state
    let twice := once.step.state
    (∀ result, opcode.reckoning? (value opcode.x) (value opcode.y) = some result →
      Reckoned m opcode.x result once) ∧
    (∀ x : Register, opcode.digits = [0xF, x.toNat, 0x1, 0xE] →
      once.console.processor.index.toNat = (m.console.processor.index.toNat + value x) % 4096 ∧
      once.console.processor.registers = m.console.processor.registers) ∧
    ∀ x y : Register, x ≠ y → x ≠ Registers.flag → y ≠ Registers.flag →
      opcode.digits = [0x8, x.toNat, y.toNat, 0x4] →
      once.console.opcode.digits = [0x8, x.toNat, y.toNat, 0x5] →
      twice.console.processor.get x = m.console.processor.get x ∧
      (twice.console.processor.get Registers.flag).toNat = 1 - (value x + value y) / 256 := by
  intro opcode value once twice
  refine ⟨fun result => reckoned_step running, ?_, ?_⟩
  · intro x digits
    have decoded := Instruction.decode?_addIndex digits
    exact index_step_addIndex (Console.pending?_eq_some.mpr ⟨running, decoded⟩)
  · intro x y distinct unflaggedX unflaggedY adds subtracts
    exact subtract_undoes_add running distinct unflaggedX unflaggedY adds subtracts

/-- 200 and 100 add up to 44 with a carry; taking 100 away borrows and leaves 200 again. -/
theorem carry_is_borrowed_back :
    let m := ((booted [0x60, 0xC8, 0x61, 0x64, 0x80, 0x14, 0x80, 0x15]).run [.step, .step]).state
    m.console.processor.wait = .running ∧
      m.step.state.step.state.console.processor.get 0 = m.console.processor.get 0 ∧
      (m.step.state.step.state.console.processor.get Registers.flag).toNat = 0 := by
  intro m
  obtain ⟨running, adds, subtracts, sum⟩ : m.console.processor.wait = .running ∧
      m.console.opcode.digits = [0x8, 0, 1, 0x4] ∧
      m.step.state.console.opcode.digits = [0x8, 0, 1, 0x5] ∧
      (m.console.processor.get 0).toNat + (m.console.processor.get 1).toNat = 300 := by
    decide +kernel
  obtain ⟨restored, flag⟩ := (arithmetic_exact running).2.2 0 1 (by decide) (by decide) (by decide)
    adds subtracts
  rw [sum] at flag
  exact ⟨running, restored, flag⟩

end Machine

end Chip8
