import Chip8.Fault
import Chip8.Instruction.Mnemonic
import Chip8.LoadError
import Chip8.Proofs.Encoding
import Chip8.Proofs.Tokens

/-! Each text tells which value it was written for. Instructions, faults and refusals are read back from
the tokens of their texts, so no two of them share a text, whatever their operands; and opcodes
with one assembler text differ at most in the digit that the shifts ignore. -/
namespace Chip8

namespace Instruction

/-- The instruction that the tokens of an assembler text stand for. -/
def ofTokens? : List Token → Option Instruction
  | [.name "SYS", .hex a] => some (machineRoutine (UInt16.ofNat a))
  | [.name "CLS"] => some clearScreen
  | [.name "RET"] => some returnFromCall
  | [.name "JP", .hex a] => some (jump (UInt16.ofNat a))
  | [.name "CALL", .hex a] => some (call (UInt16.ofNat a))
  | [.name "SE", .register x, .hex n] => some (skipIfConst x (UInt8.ofNat n))
  | [.name "SNE", .register x, .hex n] => some (skipUnlessConst x (UInt8.ofNat n))
  | [.name "SE", .register x, .register y] => some (skipIfEqual x y)
  | [.name "LD", .register x, .hex n] => some (setConst x (UInt8.ofNat n))
  | [.name "ADD", .register x, .hex n] => some (addConst x (UInt8.ofNat n))
  | [.name "LD", .register x, .register y] => some (copy x y)
  | [.name "OR", .register x, .register y] => some (bitOr x y)
  | [.name "AND", .register x, .register y] => some (bitAnd x y)
  | [.name "XOR", .register x, .register y] => some (bitXor x y)
  | [.name "ADD", .register x, .register y] => some (add x y)
  | [.name "SUB", .register x, .register y] => some (subtract x y)
  | [.name "SHR", .register x] => some (shiftRight x)
  | [.name "SUBN", .register x, .register y] => some (subtractFrom x y)
  | [.name "SHL", .register x] => some (shiftLeft x)
  | [.name "SNE", .register x, .register y] => some (skipUnlessEqual x y)
  | [.name "LD", .name "I", .hex a] => some (setIndex (UInt16.ofNat a))
  | [.name "JP", .register 0, .hex a] => some (jumpOffset (UInt16.ofNat a))
  | [.name "RND", .register x, .hex n] => some (random x (UInt8.ofNat n))
  | [.name "DRW", .register x, .register y, .count n] => some (draw x y (UInt8.ofNat n))
  | [.name "SKP", .register x] => some (skipIfKey x)
  | [.name "SKNP", .register x] => some (skipUnlessKey x)
  | [.name "LD", .register x, .name "DT"] => some (readDelay x)
  | [.name "LD", .register x, .name "K"] => some (awaitKey x)
  | [.name "LD", .name "DT", .register x] => some (setDelay x)
  | [.name "LD", .name "ST", .register x] => some (setSound x)
  | [.name "ADD", .name "I", .register x] => some (addIndex x)
  | [.name "LD", .name "F", .register x] => some (pointAtGlyph x)
  | [.name "LD", .name "B", .register x] => some (storeDecimal x)
  | [.name "LD", .name "[I]", .register x] => some (storeRegisters x)
  | [.name "LD", .register x, .name "[I]"] => some (loadRegisters x)
  | _ => none

theorem tokens_registerText (x : Register) : tokens (registerText x) = [.register x] :=
  Numeral.tokens_upperHex x

theorem tokens_registersText (x y : Register) :
    tokens (registersText x y) = [.register x, .register y] := by
  simp (disch := decide +kernel) only [registersText, tokens_middle, tokens_registerText]
  rfl

theorem tokens_constantText (n : UInt8) : tokens (constantText n) = [.hex n.toNat] :=
  Numeral.tokens_markedHex 2 n.toNat

theorem tokens_addressText (a : Address) : tokens (addressText a) = [.hex a.toNat] :=
  Numeral.tokens_markedHex 3 a.toNat

/-- Every instruction comes back from the tokens of its assembler text. -/
theorem ofTokens?_mnemonic (i : Instruction) : ofTokens? (tokens i.mnemonic) = some i := by
  cases i with
  | clearScreen | returnFromCall => rfl
  | machineRoutine a | jump a | call a | setIndex a | jumpOffset a =>
    simp (disch := decide +kernel) only [mnemonic, tokens_front, tokens_addressText]
    conv => rhs; rw [← UInt16.ofNat_toNat (x := a)]
    rfl
  | skipIfConst x n | skipUnlessConst x n | setConst x n | addConst x n | random x n =>
    simp (disch := decide +kernel) only [mnemonic, tokens_middle, tokens_front, tokens_registerText,
      tokens_constantText]
    conv => rhs; rw [← UInt8.ofNat_toNat (x := n)]
    rfl
  | draw x y height =>
    simp (disch := decide +kernel) only [mnemonic, tokens_middle, tokens_front, tokens_registersText,
      Numeral.tokens_decimal]
    conv => rhs; rw [← UInt8.ofNat_toNat (x := height)]
    rfl
  | skipIfEqual x y | copy x y | bitOr x y | bitAnd x y | bitXor x y | add x y | subtract x y
  | subtractFrom x y | skipUnlessEqual x y =>
    simp (disch := decide +kernel) only [mnemonic, tokens_front, tokens_registersText]
    rfl
  | shiftRight x | shiftLeft x | skipIfKey x | skipUnlessKey x | setDelay x | setSound x | addIndex x
  | pointAtGlyph x | storeDecimal x | storeRegisters x =>
    simp (disch := decide +kernel) only [mnemonic, tokens_front, tokens_registerText]
    rfl
  | readDelay x | awaitKey x | loadRegisters x =>
    simp (disch := decide +kernel) only [mnemonic, tokens_front, tokens_back, tokens_registerText]
    rfl

theorem mnemonic_injective : Function.Injective mnemonic :=
  injective_of_tokens ofTokens?_mnemonic

/-- Two opcodes of the shifts, of one kind and one register. -/
def ShiftsAlike (o p : Opcode) : Prop :=
  ∃ x y z last, (last = 0x6 ∨ last = 0xE) ∧
    o.digits = [0x8, x, y, last] ∧ p.digits = [0x8, x, z, last]

/-- Opcodes that read as one instruction are equal, or shifts that differ in the ignored digit. -/
theorem eq_or_shiftsAlike {o p : Opcode} {i : Instruction} (first : i.Reads o) (second : i.Reads p) :
    o = p ∨ ShiftsAlike o p := by
  obtain ⟨inRange, firstIgnoring, firstHeeding⟩ := first
  obtain ⟨-, secondIgnoring, secondHeeding⟩ := second
  cases i with
  | shiftRight x | shiftLeft x =>
    obtain ⟨familyO, xO, lastO⟩ :=
      fields_withoutY (firstIgnoring trivial) (by decide) inRange (by decide)
    obtain ⟨familyP, xP, lastP⟩ :=
      fields_withoutY (secondIgnoring trivial) (by decide) inRange (by decide)
    refine .inr ⟨x.toNat, o.y.toNat, p.y.toNat, o.nibble.toNat, ?_, ?_, ?_⟩
    · rw [lastO]
      decide
    · rw [Opcode.digits, familyO, xO]
    · rw [Opcode.digits, familyP, xP, lastO, lastP]
  | _ => exact .inl ((firstHeeding id).symm.trans (secondHeeding id))

end Instruction

namespace Fault

/-- The fault that the tokens of a message stand for. -/
def ofTokens? : List Token → Option Fault
  | [.name "stack", .name "overflow", .name "at", .hex pc] => some (stackOverflow (UInt16.ofNat pc))
  | [.name "stack", .name "underflow", .name "at", .hex pc] =>
    some (stackUnderflow (UInt16.ofNat pc))
  | [.name "unknown", .name "opcode", .hex opcode, .name "at", .hex pc] =>
    some (unknownOpcode (UInt16.ofNat pc) (UInt16.ofNat opcode))
  | _ => none

theorem ofTokens?_message (fault : Fault) : ofTokens? (tokens fault.message) = some fault := by
  cases fault with
  | stackOverflow pc | stackUnderflow pc =>
    unfold message
    simp (disch := decide +kernel) only [tokens_front, Numeral.tokens_markedHex]
    conv => rhs; rw [← UInt16.ofNat_toNat (x := pc)]
    rfl
  | unknownOpcode pc opcode =>
    unfold message
    simp (disch := decide +kernel) only [tokens_middle, tokens_front, Numeral.tokens_markedHex]
    conv => rhs; rw [← UInt16.ofNat_toNat (x := pc), ← UInt16.ofNat_toNat (x := opcode)]
    rfl

theorem message_injective : Function.Injective message :=
  injective_of_tokens ofTokens?_message

end Fault

namespace LoadError

/-- The refusal that the tokens of a message stand for. -/
def ofTokens? : List Token → Option LoadError
  | [.name "program", .name "is", .name "too", .name "large", .count size, .name "bytes",
      .name "max", .name "size", .name "is", .count max, .name "bytes"] => some (tooLarge size max)
  | [.name "program", .name "is", .name "empty"] => some empty
  | _ => none

theorem ofTokens?_message (refusal : LoadError) :
    ofTokens? (tokens refusal.message) = some refusal := by
  cases refusal with
  | tooLarge size max =>
    unfold message
    simp (disch := decide +kernel) only [tokens_middle, tokens_front, tokens_back,
      Numeral.tokens_decimal]
    rfl
  | empty => rfl

theorem message_injective : Function.Injective message :=
  injective_of_tokens ofTokens?_message

end LoadError

namespace Instruction

/-- Different values have different texts: instructions whatever their operands, faults at any
address and refusals of any size. Two opcodes with one assembler text decode to one instruction and
are equal, or shifts of one register that differ in the ignored digit alone. -/
theorem renderings_unambiguous :
    Function.Injective mnemonic ∧
    (∀ (o p : Opcode) (i j : Instruction), decode? o = some i → decode? p = some j →
      i.mnemonic = j.mnemonic → i = j ∧ (o = p ∨ ShiftsAlike o p)) ∧
    Function.Injective Fault.message ∧ Function.Injective LoadError.message := by
  refine ⟨mnemonic_injective, ?_, Fault.message_injective, LoadError.message_injective⟩
  intro o p i j decodedO decodedP same
  obtain rfl := mnemonic_injective same
  exact ⟨rfl, eq_or_shiftsAlike (reads_of_decode? decodedO) (reads_of_decode? decodedP)⟩

/-- Two opcodes of a shift have one text. -/
theorem shifts_share_text :
    decode? 0x8016 = some (shiftRight 0) ∧ decode? 0x80F6 = some (shiftRight 0) ∧
    ShiftsAlike 0x8016 0x80F6 :=
  ⟨rfl, rfl, ((renderings_unambiguous.2.1 0x8016 0x80F6 _ _ rfl rfl rfl).2).resolve_left (by decide)⟩

end Instruction

end Chip8
