import Chip8.Proofs.Ring
import Chip8.Proofs.Trace

/-! Decoding against the table of opcodes. An opcode decodes to an instruction if and only if the
instruction's own opcode is that one, up to the digit that the shifts ignore; so encoding is undone,
what is refused has no instruction, and a cycle performs the instruction of the two bytes that it finds. -/
namespace Chip8

namespace Opcode

theorem digits_withoutY (o : Opcode) :
    o.withoutY.digits = [o.family, o.x.toNat, 0, o.nibble.toNat] := by
  have bound := o.toNat_lt
  simp only [digits, family, toNat_x, toNat_y, toNat_nibble, withoutY, UInt16.toNat_ofNat',
    List.cons.injEq, and_true]
  omega

theorem withoutY_of_y {o : Opcode} (zero : o.y = 0) : o.withoutY = o := by
  apply eq_of_digits
  rw [digits_withoutY, digits, zero]
  rfl

end Opcode

namespace Instruction

section Written
variable {o : Opcode} {family last : Nat} {x y : Register} {a : Address}

theorem fields_overAddress (written : overAddress family a = o) (leading : family < 16)
    (inside : a.toNat < 4096) : o.family = family ∧ o.address = a := by
  obtain ⟨first, -, -, -⟩ :=
    Opcode.fields_of_digits (digits_of_overAddress written leading inside)
  refine ⟨first, UInt16.toNat_inj.mp ?_⟩
  rw [Opcode.toNat_address, ← written]
  simp only [overAddress, UInt16.toNat_ofNat']
  omega

theorem fields_overByte (written : overByte family x last = o) (leading : family < 16)
    (low : x.toNat < 16) (trailing : last < 256) :
    o.family = family ∧ o.x = x ∧ o.byte.toNat = last := by
  have digits := digits_of_overByte written leading low trailing
  obtain ⟨first, second, -, -⟩ := Opcode.fields_of_digits digits
  refine ⟨first, UInt8.toNat_inj.mp second, ?_⟩
  rw [Opcode.byte_of_digits digits]
  omega

theorem fields_overDigits (written : overDigits family x y last = o) (leading : family < 16)
    (lowX : x.toNat < 16) (lowY : y.toNat < 16) (trailing : last < 16) :
    o.family = family ∧ o.x = x ∧ o.y = y ∧ o.nibble.toNat = last := by
  have digits := digits_of_overDigits written leading lowX lowY trailing
  obtain ⟨first, -, -, fourth⟩ := Opcode.fields_of_digits digits
  obtain ⟨second, third⟩ := Opcode.registers_of_digits digits
  exact ⟨first, second, third, fourth⟩

/-- Where the third digit is cleared, the other three are as they were. -/
theorem fields_withoutY (written : overDigits family x 0 last = o.withoutY) (leading : family < 16)
    (low : x.toNat < 16) (trailing : last < 16) :
    o.family = family ∧ o.x = x ∧ o.nibble.toNat = last := by
  have digits := digits_of_overDigits written leading low (by decide) trailing
  rw [Opcode.digits_withoutY] at digits
  simp only [List.cons.injEq, and_true, true_and, UInt8.toNat_zero, UInt8.toNat_inj] at digits
  exact digits

end Written

variable {o : Opcode} {i : Instruction}

/-- Decoding is complete for the instruction table. -/
theorem decode?_of_reads (reads : i.Reads o) : decode? o = some i := by
  obtain ⟨inRange, ignoring, encoded⟩ := reads
  cases i with
  | clearScreen | returnFromCall =>
    obtain rfl := encoded id
    rfl
  | machineRoutine a =>
    obtain ⟨inside, notClear, notBack⟩ := inRange
    obtain ⟨family, rfl⟩ := fields_overAddress (encoded id) (by decide) inside
    rw [address_of_family_zero family] at notClear notBack ⊢
    simp only [decode?, family, if_neg notClear, if_neg notBack, address_of_family_zero family]
  | jump a | call a | setIndex a | jumpOffset a =>
    obtain ⟨family, rfl⟩ := fields_overAddress (encoded id) (by decide) inRange
    simp only [decode?, family]
  | skipIfConst x n | skipUnlessConst x n | setConst x n | addConst x n | random x n =>
    obtain ⟨family, rfl, byte⟩ := fields_overByte (encoded id) (by decide) inRange n.toNat_lt
    obtain rfl := UInt8.toNat_inj.mp byte
    simp only [decode?, family]
  | skipIfKey x =>
    obtain ⟨family, rfl, byte⟩ := fields_overByte (encoded id) (by decide) inRange (by decide)
    have byte : o.byte = 0x9E := UInt8.toNat_inj.mp byte
    simp only [decode?, family, if_pos byte]
  | skipUnlessKey x =>
    obtain ⟨family, rfl, byte⟩ := fields_overByte (encoded id) (by decide) inRange (by decide)
    have byte : o.byte = 0xA1 := UInt8.toNat_inj.mp byte
    simp only [decode?, family, byte]
    rfl
  | readDelay x | awaitKey x | setDelay x | setSound x | addIndex x | pointAtGlyph x
  | storeDecimal x | storeRegisters x | loadRegisters x =>
    obtain ⟨family, rfl, byte⟩ := fields_overByte (encoded id) (by decide) inRange (by decide)
    simp only [decode?, family, device?, byte]
  | skipIfEqual x y | skipUnlessEqual x y =>
    obtain ⟨family, rfl, rfl, digit⟩ :=
      fields_overDigits (encoded id) (by decide) inRange.1 inRange.2 (by decide)
    have digit : o.nibble = 0 := UInt8.toNat_inj.mp digit
    simp only [decode?, family, if_pos digit]
  | copy x y | bitOr x y | bitAnd x y | bitXor x y | add x y | subtract x y | subtractFrom x y =>
    obtain ⟨family, rfl, rfl, digit⟩ :=
      fields_overDigits (encoded id) (by decide) inRange.1 inRange.2 (by decide)
    simp only [decode?, family, arithmetic?, digit]
  | draw x y height =>
    obtain ⟨family, rfl, rfl, digit⟩ :=
      fields_overDigits (encoded id) (by decide) inRange.1 inRange.2.1 inRange.2.2
    obtain rfl := UInt8.toNat_inj.mp digit
    simp only [decode?, family]
  | shiftRight x | shiftLeft x =>
    obtain ⟨family, rfl, digit⟩ := fields_withoutY (ignoring trivial) (by decide) inRange (by decide)
    simp only [decode?, family, arithmetic?, digit]

theorem decode?_eq_some_iff : decode? o = some i ↔ i.Reads o :=
  ⟨reads_of_decode?, decode?_of_reads⟩

/-- The opcode of a shift has a zero for the digit that decoding ignores. -/
theorem withoutY_encode (inRange : i.InRange) (ignoring : i.IgnoresY) :
    i.encode.withoutY = i.encode := by
  apply Opcode.withoutY_of_y
  cases i with
  | shiftRight x =>
    have written : overDigits 0x8 x 0 0x6 = (shiftRight x).encode := rfl
    exact (fields_overDigits written (by decide) inRange (by decide) (by decide)).2.2.1
  | shiftLeft x =>
    have written : overDigits 0x8 x 0 0xE = (shiftLeft x).encode := rfl
    exact (fields_overDigits written (by decide) inRange (by decide) (by decide)).2.2.1
  | _ => exact ignoring.elim

theorem reads_encode (inRange : i.InRange) : i.Reads i.encode :=
  ⟨inRange, fun ignoring => (withoutY_encode inRange ignoring).symm, fun _ => rfl⟩

theorem reads_iff : i.Reads o ↔
    i.InRange ∧ (i.encode = o ∨ (i.IgnoresY ∧ i.encode = o.withoutY)) := by
  constructor
  · rintro ⟨inRange, ignoring, encoded⟩
    refine ⟨inRange, ?_⟩
    by_cases ignores : i.IgnoresY
    · exact .inr ⟨ignores, ignoring ignores⟩
    · exact .inl (encoded ignores)
  · rintro ⟨inRange, rfl | ⟨ignores, cleared⟩⟩
    · exact reads_encode inRange
    · exact ⟨inRange, fun _ => cleared, fun heeds => absurd ignores heeds⟩

theorem decode?_eq_none_iff : decode? o = none ↔ ¬ ∃ i : Instruction, i.Reads o := by
  rw [Option.eq_none_iff_forall_ne_some, not_exists]
  exact forall_congr' fun i => not_congr decode?_eq_some_iff

end Instruction

namespace Console
variable {c : Console}

/-- The end of a cycle that has come to an instruction, or to an opcode without one. -/
def perform (c : Console) : Option Instruction → Outcome Console (Option Fault)
  | none => ⟨c.fetched, some (.unknownOpcode c.processor.pc c.opcode), []⟩
  | some i =>
    match c.fetched.execute c.processor.pc i with
    | .ok after => ⟨after, none, announce c.processor.pc i⟩
    | .error fault => ⟨c.fetched, some fault, announce c.processor.pc i⟩

/-- The two bytes at the program counter, decoded. -/
def found? (c : Console) : Option Instruction :=
  Instruction.ofBytes? (c.memory.byteAt c.processor.pc.toNat)
    (c.memory.byteAt (c.processor.pc.toNat + 1))

theorem decode?_opcode (c : Console) : Instruction.decode? c.opcode = c.found? := by
  have next : c.memory.read (c.processor.pc + 1) = c.memory.byteAt (c.processor.pc.toNat + 1) :=
    Memory.read_add c.memory c.processor.pc 1
  rw [found?, Instruction.ofBytes?, opcode, Memory.readWord, next, Memory.read_eq_byteAt]

theorem cycle_running (running : c.processor.wait = .running) : c.cycle = c.perform c.found? := by
  rw [← decode?_opcode]
  cases decoded : Instruction.decode? c.opcode with
  | none => exact cycle_unknown running decoded
  | some i => exact cycle_pending (pending?_eq_some.mpr ⟨running, decoded⟩)

/-- What is told of is what is performed. -/
theorem executing_mem_cycle (running : c.processor.wait = .running) {pc : Address} {i : Instruction} :
    .executing pc i ∈ c.cycle.events ↔ pc = c.processor.pc ∧ c.found? = some i := by
  rw [cycle_running running]
  cases c.found? with
  | none => simp [perform]
  | some j =>
    have told : (c.perform (some j)).events = announce c.processor.pc j := by
      simp only [perform]
      split <;> rfl
    rw [told]
    cases j <;> simp [announce, eq_comm]

end Console

theorem Machine.executing_mem_step {m : Machine} (running : m.console.processor.wait = .running)
    {pc : Address} {i : Instruction} :
    .executing pc i ∈ m.step.events ↔
      pc = m.console.processor.pc ∧ m.console.found? = some i := by
  rw [step_eq, List.mem_append, Console.executing_mem_cycle running]
  cases m.console.cycle.answer <;> simp

namespace Instruction

/-- Encoding and decoding undo each other. Operands in range survive their opcode; an opcode that decodes
is the instruction's own, or that of a shift with another third digit, and every other opcode is
refused. Two bytes decode like the word that they make, and a running machine performs, and tells
of, the instruction of the two bytes at its program counter. -/
theorem decoding_undoes_encoding :
    (∀ i : Instruction, i.InRange → decode? i.encode = some i) ∧
    (∀ (o : Opcode) (i : Instruction), decode? o = some i →
      i.InRange ∧ (i.IgnoresY → i.encode = o.withoutY) ∧ (¬ i.IgnoresY → i.encode = o)) ∧
    (∀ o : Opcode, decode? o = none ↔
      ¬ ∃ i : Instruction, i.InRange ∧ (i.encode = o ∨ (i.IgnoresY ∧ i.encode = o.withoutY))) ∧
    (∀ high low : UInt8,
      ofBytes? high low = decode? (UInt16.ofNat (256 * high.toNat + low.toNat))) ∧
    ∀ m : Machine, m.console.processor.wait = .running →
      m.console.cycle = m.console.perform m.console.found? ∧
      ∀ pc i, .executing pc i ∈ m.step.events ↔
        pc = m.console.processor.pc ∧ m.console.found? = some i := by
  refine ⟨?_, ?_, ?_, ?_, ?_⟩
  · intro i inRange
    exact decode?_of_reads (reads_encode inRange)
  · intro o i decoded
    exact reads_of_decode? decoded
  · intro o
    rw [decode?_eq_none_iff]
    exact not_congr (exists_congr fun _ => reads_iff)
  · intro high low
    rw [ofBytes?, ← Opcode.toNat_ofBytes, UInt16.ofNat_toNat]
  · intro m running
    exact ⟨Console.cycle_running running, fun _ _ => Machine.executing_mem_step running⟩

/-- A sprite's three operands come back, a shift loses its third digit, and a step executes a shift. -/
theorem shift_decodes_without_digit :
    decode? (encode (draw 0xA 0xB 0xC)) = some (draw 0xA 0xB 0xC) ∧
    (shiftRight 0xA).encode = Opcode.withoutY 0x8AF6 ∧
    .executing 0x200 (shiftRight 0xA) ∈ (Machine.booted [0x8A, 0xF6]).step.events :=
  ⟨decoding_undoes_encoding.1 _ ⟨by decide, by decide, by decide⟩,
    (decoding_undoes_encoding.2.1 0x8AF6 (shiftRight 0xA) rfl).2.1 trivial,
    ((decoding_undoes_encoding.2.2.2.2 (Machine.booted [0x8A, 0xF6]) (by decide +kernel)).2 _ _).mpr
      (by decide +kernel)⟩

end Instruction

end Chip8
