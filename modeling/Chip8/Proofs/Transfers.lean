import Chip8.Proofs.Footprint

/-! Registers stored to memory and loaded from it. Up to sixteen bytes on the ring never meet themselves,
so each place is written once, also over the top and over the program. What has been stored is loaded
back as long as its place and the index register stay as they were. -/
namespace Chip8

namespace Registers
variable (registers : Registers) {k : Nat}

theorem getElem?_upTo {x : Register} (low : x.toNat < 16) (inside : k ≤ x.toNat) :
    (registers.upTo x)[k]? = some (registers.get (UInt8.ofNat k)) := by
  have below : k < 16 := by omega
  have same : k % 256 % 16 = k := by omega
  rw [upTo, List.getElem?_take_of_lt (Nat.lt_succ_of_le inside)]
  simp [get, place, same, below]

theorem get_fill {bytes : List UInt8} {byte : UInt8} (low : k < 16)
    (found : bytes[k]? = some byte) : (registers.fill bytes).get (UInt8.ofNat k) = byte := by
  have same : k % 256 % 16 = k := by omega
  simp [fill, get, place, same, found]

end Registers

namespace Memory

theorem readWord_congr {memory other : Memory} {a : Address}
    (first : memory.byteAt a.toNat = other.byteAt a.toNat)
    (second : memory.byteAt (a.toNat + 1) = other.byteAt (a.toNat + 1)) :
    memory.readWord a = other.readWord a := by
  apply UInt16.toNat_inj.mp
  rw [toNat_readWord, toNat_readWord, first, second]

end Memory

namespace Console
variable {c : Console} {x : Register} {i : Instruction}

theorem state_cycle_storing (pending : c.pending? = some i) (stores : 0 < i.stored) :
    c.cycle.state =
      { c.fetched with memory := c.memory.writeBytes c.processor.index (c.bytesStored i) } := by
  cases i with
  | storeDecimal | storeRegisters =>
    rw [cycle_pending pending]
    rfl
  | _ => contradiction

theorem state_cycle_loading (pending : c.pending? = some (.loadRegisters x)) : c.cycle.state =
    { c.fetched with
      processor :=
        { c.fetched.processor with
          registers := c.processor.registers.fill
            (c.memory.readBytes c.processor.index (x.toNat + 1)) } } := by
  rw [cycle_pending pending]
  rfl

end Console

namespace Machine

/-- A machine behind an instruction that stores `count` bytes from the index register on, where they may
go around the ring. -/
structure Stored (m : Machine) (count : Nat) (after : Machine) : Prop where
  others : ∀ place, (∀ k < count, place % 4096 ≠ (m.console.processor.index.toNat + k) % 4096) →
    after.console.memory.byteAt place = m.console.memory.byteAt place
  index : after.console.processor.index = m.console.processor.index
  wait : after.console.processor.wait = .running

/-- A machine behind `FX55`. -/
structure Dumped (m : Machine) (x : Register) (after : Machine) : Prop
    extends Stored m (x.toNat + 1) after where
  bytes : ∀ k ≤ x.toNat, after.console.memory.byteAt (m.console.processor.index.toNat + k) =
    m.console.processor.get (UInt8.ofNat k)

/-- A machine behind `FX33`: three decimal digits. -/
structure Digits (m : Machine) (x : Register) (after : Machine) : Prop extends Stored m 3 after where
  digits :
    let digit (k : Nat) :=
      (after.console.memory.byteAt (m.console.processor.index.toNat + k)).toNat
    (digit 0 ≤ 9 ∧ digit 1 ≤ 9 ∧ digit 2 ≤ 9) ∧
      100 * digit 0 + 10 * digit 1 + digit 2 = (m.console.processor.get x).toNat

/-- A machine behind `FX65`. -/
structure Restored (m : Machine) (x : Register) (after : Machine) : Prop where
  registers : ∀ k ≤ x.toNat, after.console.processor.get (UInt8.ofNat k) =
    m.console.memory.byteAt (m.console.processor.index.toNat + k)
  others : ∀ z : Register, x.toNat < z.toNat → z.toNat < 16 →
    after.console.processor.get z = m.console.processor.get z
  index : after.console.processor.index = m.console.processor.index
  memory : after.console.memory = m.console.memory
  wait : after.console.processor.wait = .running

variable {m : Machine} {x : Register} {i : Instruction}

theorem memory_step_storing (pending : m.console.pending? = some i) (stores : 0 < i.stored) :
    m.step.state.console.memory =
      m.console.memory.writeBytes m.console.processor.index (m.console.bytesStored i) := by
  rw [state_step, after, Console.state_cycle_storing pending stores]

theorem stored_step (pending : m.console.pending? = some i) (stores : 0 < i.stored) :
    Stored m i.stored m.step.state := by
  constructor
  case others =>
    intro place missed
    rw [memory_step_storing pending stores]
    apply Memory.byteAt_writeBytes_of_missed
    rwa [Console.length_bytes_of_pending pending]
  case index =>
    rw [state_step, after, Processor.elapse_index, Console.state_cycle_storing pending stores]
    rfl
  case wait =>
    rw [state_step, after, Processor.elapse_wait, Console.state_cycle_storing pending stores]
    exact (Console.pending?_eq_some.mp pending).1

theorem byteAt_step_storing {k : Nat} {byte : UInt8} (pending : m.console.pending? = some i)
    (stores : 0 < i.stored) (fits : i.stored ≤ 4096)
    (found : (m.console.bytesStored i)[k]? = some byte) :
    m.step.state.console.memory.byteAt (m.console.processor.index.toNat + k) = byte := by
  rw [memory_step_storing pending stores]
  apply Memory.byteAt_writeBytes _ _ found
  rwa [Console.length_bytes_of_pending pending]

theorem dumped_step (pending : m.console.pending? = some (.storeRegisters x)) :
    Dumped m x m.step.state := by
  refine ⟨stored_step pending (Nat.succ_pos _), ?_⟩
  intro k inside
  have low : x.toNat < 16 := Console.inRange_of_pending pending
  have fits : x.toNat + 1 ≤ 4096 := by omega
  exact byteAt_step_storing pending (Nat.succ_pos _) fits
    (m.console.processor.registers.getElem?_upTo low inside)

theorem digits_step (pending : m.console.pending? = some (.storeDecimal x)) :
    Digits m x m.step.state := by
  have stores : 0 < (Instruction.storeDecimal x).stored := Nat.succ_pos 2
  have fits : 3 ≤ 4096 := by decide
  refine ⟨stored_step pending stores, ?_⟩
  have hundreds := byteAt_step_storing (k := 0) pending stores fits rfl
  have tens := byteAt_step_storing (k := 1) pending stores fits rfl
  have ones := byteAt_step_storing (k := 2) pending stores fits rfl
  have small := (m.console.processor.get x).toNat_lt
  simp only [hundreds, tens, ones, UInt8.toNat_div, UInt8.toNat_mod, UInt8.reduceToNat]
  omega

theorem restored_step (pending : m.console.pending? = some (.loadRegisters x)) :
    Restored m x m.step.state := by
  have low : x.toNat < 16 := Console.inRange_of_pending pending
  have state := Console.state_cycle_loading pending
  have registers : m.step.state.console.processor.registers =
      m.console.processor.registers.fill
        (m.console.memory.readBytes m.console.processor.index (x.toNat + 1)) := by
    rw [state_step, after, Processor.elapse_registers, state]
  constructor
  case registers =>
    intro k inside
    rw [Processor.get, registers]
    apply Registers.get_fill
    · omega
    · exact m.console.memory.getElem?_readBytes _ (Nat.lt_succ_of_le inside)
  case others =>
    intro z above inside
    rw [Processor.get, registers]
    apply (Registers.get_fill_or _ _ inside).resolve_right
    rw [Memory.length_readBytes]
    omega
  case index =>
    rw [state_step, after, Processor.elapse_index, state]
    rfl
  case memory =>
    rw [state_step, after, state]
    rfl
  case wait =>
    rw [state_step, after, Processor.elapse_wait, state]
    exact (Console.pending?_eq_some.mp pending).1

theorem Dumped.restores {once later after : Machine} (dumped : Dumped m x once)
    (restored : Restored later x after)
    (index : later.console.processor.index = once.console.processor.index)
    (bytes : ∀ k ≤ x.toNat,
      later.console.memory.byteAt (m.console.processor.index.toNat + k) =
        once.console.memory.byteAt (m.console.processor.index.toNat + k)) :
    ∀ k ≤ x.toNat, after.console.processor.get (UInt8.ofNat k) =
      m.console.processor.get (UInt8.ofNat k) := by
  intro k inside
  calc after.console.processor.get (UInt8.ofNat k)
      = later.console.memory.byteAt (m.console.processor.index.toNat + k) := by
        rw [restored.registers k inside, index, dumped.index]
    _ = once.console.memory.byteAt (m.console.processor.index.toNat + k) := bytes k inside
    _ = m.console.processor.get (UInt8.ofNat k) := dumped.bytes k inside

/-- What has just been loaded may be stored again without a trace. -/
theorem Restored.stores {once twice : Machine} (restored : Restored m x once)
    (dumped : Dumped once x twice) : twice.console.memory = m.console.memory := by
  apply Memory.ext_byteAt
  intro place
  rw [← restored.memory]
  -- Every place of the store holds what was loaded from that same place, however far around the ring.
  by_cases stored : ∃ k < x.toNat + 1,
      place % 4096 = (once.console.processor.index.toNat + k) % 4096
  · obtain ⟨k, inside, met⟩ := stored
    have upTo : k ≤ x.toNat := Nat.le_of_lt_succ inside
    rw [Memory.byteAt_congr _ met, Memory.byteAt_congr _ met, dumped.bytes k upTo,
      restored.registers k upTo, restored.memory, restored.index]
  · apply dumped.others
    intro k inside met
    exact stored ⟨k, inside, met⟩

theorem pc_step_storing (pending : m.console.pending? = some i) (stores : 0 < i.stored) :
    m.step.state.console.processor.pc = m.console.fetched.processor.pc := by
  rw [state_step, after, Processor.elapse_pc, Console.state_cycle_storing pending stores]

/-- An opcode that the stored bytes do not meet is next as it stood in memory before. -/
theorem opcode_step_storing (pending : m.console.pending? = some i) (stores : 0 < i.stored)
    (spared : ∀ k < i.stored,
      (m.console.processor.index.toNat + k) % 4096 ≠ (m.console.processor.pc.toNat + 2) % 4096 ∧
      (m.console.processor.index.toNat + k) % 4096 ≠ (m.console.processor.pc.toNat + 3) % 4096) :
    m.step.state.console.opcode = m.console.fetched.opcode := by
  have stored := stored_step pending stores
  have next : m.console.fetched.processor.pc.toNat = (m.console.processor.pc.toNat + 2) % 4096 :=
    m.console.processor.toNat_pc_skip
  rw [Console.opcode, pc_step_storing pending stores]
  apply Memory.readWord_congr
  · apply stored.others
    intro k inside
    have apart := (spared k inside).1
    omega
  · apply stored.others
    intro k inside
    have apart := (spared k inside).2
    omega

theorem dumped_of_digits (running : m.console.processor.wait = .running)
    (digits : m.console.opcode.digits = [0xF, x.toNat, 0x5, 0x5]) : Dumped m x m.step.state :=
  dumped_step (Console.pending?_eq_some.mpr ⟨running, Instruction.decode?_storeRegisters digits⟩)

theorem restored_of_digits (running : m.console.processor.wait = .running)
    (digits : m.console.opcode.digits = [0xF, x.toNat, 0x6, 0x5]) : Restored m x m.step.state :=
  restored_step (Console.pending?_eq_some.mpr ⟨running, Instruction.decode?_loadRegisters digits⟩)

/-- Transfers between registers and memory are exact, and each takes back what the other did, wherever in
the ring the bytes lie. -/
theorem transfers_exact (running : m.console.processor.wait = .running) (x : Register) :
    let opcode := m.console.opcode
    let index := m.console.processor.index.toNat
    let once := m.step.state
    let restores (after : Machine) := ∀ k ≤ x.toNat,
      after.console.processor.get (UInt8.ofNat k) = m.console.processor.get (UInt8.ofNat k)
    (opcode.digits = [0xF, x.toNat, 0x3, 0x3] → Digits m x once) ∧
    (opcode.digits = [0xF, x.toNat, 0x6, 0x5] → Restored m x once ∧
      (once.console.opcode.digits = [0xF, x.toNat, 0x5, 0x5] →
        once.step.state.console.memory = m.console.memory)) ∧
    (opcode.digits = [0xF, x.toNat, 0x5, 0x5] → Dumped m x once ∧
      (∀ ops,
        let later := (once.run ops).state
        later.console.processor.index = once.console.processor.index →
        (∀ k ≤ x.toNat,
          later.console.memory.byteAt (index + k) = once.console.memory.byteAt (index + k)) →
        later.console.processor.wait = .running →
        later.console.opcode.digits = [0xF, x.toNat, 0x6, 0x5] → restores later.step.state) ∧
      ((∀ k ≤ x.toNat,
          (index + k) % 4096 ≠ (m.console.processor.pc.toNat + 2) % 4096 ∧
          (index + k) % 4096 ≠ (m.console.processor.pc.toNat + 3) % 4096) →
        m.console.fetched.opcode.digits = [0xF, x.toNat, 0x6, 0x5] → restores once.step.state)) := by
  intro opcode index once restores
  refine ⟨?_, ?_, ?_⟩
  · intro digits
    exact digits_step
      (Console.pending?_eq_some.mpr ⟨running, Instruction.decode?_storeDecimal digits⟩)
  · intro digits
    have restored := restored_of_digits running digits
    exact ⟨restored, fun again => restored.stores (dumped_of_digits restored.wait again)⟩
  · intro digits
    have dumped := dumped_of_digits running digits
    refine ⟨dumped, ?_, ?_⟩
    · intro ops later sameIndex sameBytes runs back
      exact dumped.restores (restored_of_digits runs back) sameIndex sameBytes
    · intro spared next
      have pending := Console.pending?_eq_some.mpr
        ⟨running, Instruction.decode?_storeRegisters digits⟩
      have kept : once.console.opcode = m.console.fetched.opcode := by
        apply opcode_step_storing pending (Nat.succ_pos _)
        intro k inside
        exact spared k (Nat.le_of_lt_succ inside)
      have back : once.console.opcode.digits = [0xF, x.toNat, 0x6, 0x5] := by
        rw [kept]
        exact next
      exact dumped.restores (restored_of_digits dumped.wait back) rfl fun _ _ => rfl

/-- Three registers go over the top of the ring and come back after one of them has been lost. -/
theorem lost_register_restored :
    let m := ((booted [0x61, 0x11, 0x62, 0x22, 0xAF, 0xFE, 0xF2, 0x55, 0x62, 0x99, 0xF2, 0x65]).run
      [.step, .step, .step]).state
    let later := (m.step.state.run [.press 5, .step, .tick]).state
    later.console.processor.get 2 = 0x99 ∧ later.step.state.console.processor.get 2 = 0x22 := by
  intro m later
  obtain ⟨running, dumps, index, bytes, runs, loads, lost, kept⟩ :
      m.console.processor.wait = .running ∧
      m.console.opcode.digits = [0xF, UInt8.toNat 2, 0x5, 0x5] ∧
      later.console.processor.index = m.step.state.console.processor.index ∧
      (∀ k ≤ UInt8.toNat 2, later.console.memory.byteAt (m.console.processor.index.toNat + k) =
        m.step.state.console.memory.byteAt (m.console.processor.index.toNat + k)) ∧
      later.console.processor.wait = .running ∧
      later.console.opcode.digits = [0xF, UInt8.toNat 2, 0x6, 0x5] ∧
      later.console.processor.get 2 = 0x99 ∧ m.console.processor.get 2 = 0x22 := by
    decide +kernel
  obtain ⟨-, -, dumped⟩ := transfers_exact running 2
  obtain ⟨-, restores, -⟩ := dumped dumps
  have restored := restores [.press 5, .step, .tick] index bytes runs loads 2 (by decide)
  have two : UInt8.ofNat 2 = 2 := rfl
  rw [two, kept] at restored
  refine ⟨lost, ?_⟩
  dsimp only [later]
  exact restored

end Machine

end Chip8
