import Chip8.Proofs.Effects
import Chip8.Proofs.Ring

/-! Loading a program. A program of one byte to the greatest length is copied whole to its start, and any
other is refused with its cause and leaves nothing behind. A machine meets every program with fresh
memory, so nothing of an earlier one is left either. -/
namespace Chip8

/-- The answer to a program is the one that its length calls for. -/
structure Judged (program : List UInt8) (answer : Except LoadError Unit) : Prop where
  accepted : answer = .ok () ↔ 1 ≤ program.length ∧ program.length ≤ 3584
  empty : answer = .error .empty ↔ program = []
  tooLarge : ∀ size max, answer = .error (.tooLarge size max) ↔
    3584 < program.length ∧ size = program.length ∧ max = 3584

namespace Memory
variable {memory : Memory} {program : List UInt8}

/-- The program lies at its start, and every other byte is as it was. -/
structure Copied (memory : Memory) (program : List UInt8) (after : Memory) : Prop where
  present : ∀ k byte, program[k]? = some byte → after.byteAt (0x200 + k) = byte
  others : ∀ place < 4096, place < 0x200 ∨ 0x200 + program.length ≤ place →
    after.byteAt place = memory.byteAt place

/-- The memory is the program, the glyphs of the digits, and zeros. -/
structure Holds (memory : Memory) (program : List UInt8) : Prop where
  present : ∀ k byte, program[k]? = some byte → memory.byteAt (0x200 + k) = byte
  glyphs : ∀ k byte, font[k]? = some byte → memory.byteAt (0x050 + k) = byte
  blank : ∀ place < 4096, place < 0x050 ∨ 0x0A0 ≤ place →
    place < 0x200 ∨ 0x200 + program.length ≤ place → memory.byteAt place = 0

theorem judged_load (memory : Memory) (program : List UInt8) :
    Judged program (memory.load program).answer := by
  unfold load capacity
  by_cases none : program = []
  · subst none
    constructor <;> simp
  · have some : 1 ≤ program.length := List.length_pos_iff.mpr none
    rw [if_neg (mt List.isEmpty_iff.mp none)]
    by_cases long : 3584 < program.length
    · rw [if_pos long]
      constructor
      case accepted => simpa using fun _ => long
      case empty => simpa using none
      case tooLarge =>
        intro size max
        rw [Except.error.injEq, LoadError.tooLarge.injEq]
        constructor
        · exact fun ⟨size, max⟩ => ⟨long, size.symm, max.symm⟩
        · exact fun ⟨_, size, max⟩ => ⟨size.symm, max.symm⟩
    · rw [if_neg long]
      constructor
      case accepted => exact ⟨fun _ => ⟨some, Nat.le_of_not_lt long⟩, fun _ => rfl⟩
      case empty => simpa using none
      case tooLarge =>
        intro size max
        exact ⟨nofun, fun ⟨tooLong, _⟩ => absurd tooLong long⟩

theorem copied_writeBytes (fits : program.length ≤ 3584) :
    Copied memory program (memory.writeBytes programStart program) := by
  constructor
  case present =>
    intro k byte found
    exact memory.byteAt_writeBytes (Nat.le_trans fits (by decide)) found
  case others =>
    intro place inside outside
    apply byteAt_writeBytes_of_missed
    intro k within
    change place % 4096 ≠ (512 + k) % 4096
    omega

theorem copied_of_load (accepted : (memory.load program).answer = .ok ()) :
    Copied memory program (memory.load program).state := by
  obtain ⟨present, fits⟩ := (memory.judged_load program).accepted.mp accepted
  have filled : ¬ program.isEmpty = true := mt List.isEmpty_iff.mp (List.length_pos_iff.mp present)
  have short : ¬ capacity < program.length := Nat.not_lt.mpr fits
  rw [load, if_neg filled, if_neg short]
  exact copied_writeBytes fits

/-- The guards stand before the first byte is written. -/
theorem state_load_of_error {error : LoadError} (refused : (memory.load program).answer = .error error) :
    (memory.load program).state = memory := by
  revert refused
  unfold load
  split
  · exact fun _ => rfl
  · split
    · exact fun _ => rfl
    · intro accepted
      contradiction

theorem holds_initial : Holds initial [] := by
  constructor
  case present => nofun
  case glyphs =>
    intro k byte found
    exact byteAt_writeBytes _ (by decide) found
  case blank =>
    intro place inside noGlyph _
    rw [initial, byteAt_writeBytes_of_missed]
    · simp [byteAt, read]
    · intro k within
      have short : k < 80 := within
      change place % 4096 ≠ (80 + k) % 4096
      omega

/-- Programs start above the glyphs and leave them whole. -/
theorem Copied.holds {after : Memory} (copied : Copied initial program after) :
    Holds after program := by
  constructor
  case present => exact copied.present
  case glyphs =>
    intro k byte found
    have within : k < 80 := (List.getElem?_eq_some_iff.mp found).1
    rw [copied.others (0x050 + k) (by omega) (by omega)]
    exact holds_initial.glyphs k byte found
  case blank =>
    intro place inside noGlyph outside
    rw [copied.others place inside outside]
    exact holds_initial.blank place inside noGlyph (by simp; omega)

end Memory

namespace Machine

/-- Of the memory it meets, the judgement sees nothing. -/
theorem answer_load_of_memory (m : Machine) (memory : Memory) (program : List UInt8) :
    (m.load program).answer = (memory.load program).answer := by
  rw [answer_load]
  unfold Memory.load
  split
  · rfl
  · split <;> rfl

/-- A program is loaded whole or not at all, into any memory and by any machine. -/
theorem load_all_or_nothing (m : Machine) (memory : Memory) (program : List UInt8) :
    let result := memory.load program
    let loaded := m.load program
    (Judged program result.answer ∧
      (result.answer = .ok () → memory.Copied program result.state) ∧
      ∀ error, result.answer = .error error → result.state = memory) ∧
    loaded.answer = result.answer ∧
    (loaded.answer = .ok () → loaded.state.console.memory.Holds program) ∧
    ∀ error, loaded.answer = .error error →
      loaded.state = m.reset.state ∧ loaded.state.console.memory.Holds [] := by
  intro result loaded
  have state : loaded.state = m.restarted (Memory.initial.load program).state :=
    m.state_load program
  refine ⟨⟨memory.judged_load program, Memory.copied_of_load,
    fun _ => Memory.state_load_of_error⟩, m.answer_load_of_memory memory program, ?held, ?refused⟩
  case held =>
    intro accepted
    rw [state]
    exact (Memory.copied_of_load accepted).holds
  case refused =>
    intro error refused
    rw [answer_load] at refused
    rw [state, Memory.state_load_of_error refused, state_reset]
    exact ⟨rfl, Memory.holds_initial⟩

/-- A program of one byte too many clears away the one before it, of which a load of one byte leaves
nothing either. -/
theorem oversized_leaves_nothing :
    let m := ((ofConfig {} (Vector.replicate 8 0)).run [.load [0x60, 0x01, 0xA2], .step]).state
    let program := List.replicate 3585 0x12
    (m.load program).answer = .error (.tooLarge 3585 3584) ∧
      (m.load program).state = m.reset.state ∧
      (m.load [0x12]).state.console.memory.Holds [0x12] := by
  intro m program
  have judged := (m.load_all_or_nothing m.console.memory program).1.1
  have refused : (m.console.memory.load program).answer = .error (.tooLarge 3585 3584) := by
    have length : program.length = 3585 := List.length_replicate
    rw [judged.tooLarge, length]
    exact ⟨by decide, rfl, rfl⟩
  have answer : (m.load program).answer = .error (.tooLarge 3585 3584) :=
    (m.load_all_or_nothing m.console.memory program).2.1.trans refused
  refine ⟨answer, ?nothing, ?holds⟩
  case nothing => exact ((m.load_all_or_nothing m.console.memory program).2.2.2 _ answer).1
  case holds => exact (m.load_all_or_nothing m.console.memory [0x12]).2.2.1 rfl

end Machine

end Chip8
