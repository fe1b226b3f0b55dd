import Chip8.Proofs.Decoding
import Chip8.Proofs.Effects
import Chip8.Proofs.Run

/-! Soundness of every reachable machine. Its program counter and all return addresses are even and
inside the ring, the depth of calls and the index register are bounded, and while a key is awaited
or taken the opcode at the program counter is the `FX0A` that asked for it. -/
namespace Chip8

/-- An address at which an instruction may stand. -/
def IsCode (a : Address) : Prop :=
  a.toNat % 2 = 0 ∧ a.toNat < 4096

instance : DecidablePred IsCode := fun _ => inferInstanceAs (Decidable (_ ∧ _))

/-- Dead slots count too: a later push may make one live without a write in between. -/
structure CallStack.Sound (stack : CallStack) : Prop where
  slots : ∀ a ∈ stack.slots, IsCode a
  depth : stack.depth ≤ 16

structure Processor.Aligned (p : Processor) : Prop where
  pc : IsCode p.pc
  stack : p.stack.Sound
  index : p.index.toNat < 4096

/-- A wait belongs to an opcode: it is the `FX0A` of the register that waits. -/
def KeyWait.Justified (opcode : Opcode) : KeyWait → Prop
  | running => True
  | waiting x => x.toNat < 16 ∧ opcode.toNat = 0xF00A + 256 * x.toNat
  | received x key =>
    (x.toNat < 16 ∧ opcode.toNat = 0xF00A + 256 * x.toNat) ∧ key.toNat < 16

theorem KeyWait.Justified.of_running {opcode : Opcode} {wait : KeyWait} (running : wait = .running) :
    wait.Justified opcode := by
  subst running
  trivial

theorem KeyWait.Justified.offer {opcode : Opcode} {wait : KeyWait} {key : Nat}
    (justified : wait.Justified opcode) (bound : key < 16) :
    (wait.offer (UInt8.ofNat key)).Justified opcode := by
  cases wait with
  | running | received => exact justified
  | waiting x =>
    refine ⟨justified, ?_⟩
    rw [UInt8.toNat_ofNat']
    omega

structure Console.Sound (c : Console) : Prop where
  aligned : c.processor.Aligned
  justified : c.processor.wait.Justified (c.memory.readWord c.processor.pc)

theorem Memory.toNat_glyph (digit : UInt8) :
    (fontStart + glyphHeight * (digit % 16).toUInt16).toNat = 80 + 5 * (digit.toNat % 16) := by
  have bound := Nat.mod_lt digit.toNat (by decide : 0 < 16)
  simp only [fontStart, glyphHeight, UInt16.toNat_add, UInt16.toNat_mul, UInt8.toNat_toUInt16,
    UInt8.toNat_mod, UInt16.reduceToNat, UInt8.reduceToNat]
  generalize digit.toNat % 16 = d at bound ⊢
  omega

namespace CallStack
variable {stack after : CallStack} {a : Address}

theorem sound_empty : empty.Sound where
  slots a member := by
    obtain ⟨-, rfl⟩ := Vector.mem_replicate.mp member
    decide
  depth := Nat.zero_le 16

theorem Sound.push? (sound : stack.Sound) (code : IsCode a) (pushed : stack.push? a = some after) :
    after.Sound := by
  unfold CallStack.push? at pushed
  split at pushed
  · rename_i room
    cases pushed
    refine ⟨?_, room⟩
    intro b member
    have written : b ∈ stack.slots.set stack.depth a room := member
    rcases Vector.mem_or_eq_of_mem_set written with old | rfl
    · exact sound.slots b old
    · exact code
  · contradiction

theorem Sound.pop? (sound : stack.Sound) (popped : stack.pop? = some (a, after)) :
    IsCode a ∧ after.Sound := by
  have bound := sound.depth
  unfold CallStack.pop? at popped
  split at popped
  · contradiction
  · rename_i depth deep
    obtain ⟨top, found, same⟩ := Option.map_eq_some_iff.mp popped
    cases same
    refine ⟨sound.slots a (Vector.mem_of_getElem? found), sound.slots, ?_⟩
    change depth ≤ 16
    omega

end CallStack

namespace Processor
variable {p : Processor}

theorem aligned_initial (random : RandomSource) : (initial random).Aligned where
  pc := (by decide : IsCode Memory.programStart)
  stack := CallStack.sound_empty
  index := Nat.zero_lt_succ _

theorem Aligned.skip (aligned : p.Aligned) : p.skip.Aligned where
  pc := by
    have even := aligned.pc.1
    rw [IsCode, toNat_pc_skip]
    omega
  stack := aligned.stack
  index := aligned.index

theorem Aligned.skipIf (aligned : p.Aligned) (condition : Bool) : (p.skipIf condition).Aligned := by
  cases condition with
  | false => exact aligned
  | true => exact aligned.skip

theorem Aligned.jump (aligned : p.Aligned) (target : Address) : (p.jump target).Aligned where
  pc := by
    rw [IsCode, toNat_pc_jump]
    omega
  stack := aligned.stack
  index := aligned.index

theorem Aligned.elapse (aligned : p.Aligned) (mode : TimerMode) : (p.elapse mode).Aligned := by
  cases mode <;> exact ⟨aligned.pc, aligned.stack, aligned.index⟩

end Processor

namespace Console
variable {c after : Console} {pc : Address} {i : Instruction}

theorem aligned_execute (aligned : c.processor.Aligned) (own : IsCode pc) (inRange : i.InRange)
    (executed : c.execute pc i = .ok after) : after.processor.Aligned := by
  cases i with
  | returnFromCall =>
    simp only [execute] at executed
    split at executed
    · rename_i a stack popped
      obtain rfl := Except.ok.inj executed
      obtain ⟨code, sound⟩ := aligned.stack.pop? popped
      exact ⟨code, sound, aligned.index⟩
    · contradiction
  | call a =>
    simp only [execute] at executed
    split at executed
    · rename_i stack pushed
      obtain rfl := Except.ok.inj executed
      have sound := aligned.stack.push? aligned.pc pushed
      exact Processor.Aligned.jump (p := { c.processor with stack }) ⟨aligned.pc, sound, aligned.index⟩ a
    · contradiction
  | jump | jumpOffset =>
    obtain rfl := Except.ok.inj executed
    exact aligned.jump _
  | skipIfConst | skipUnlessConst | skipIfEqual | skipUnlessEqual | skipIfKey | skipUnlessKey =>
    obtain rfl := Except.ok.inj executed
    exact aligned.skipIf _
  | setIndex a =>
    obtain rfl := Except.ok.inj executed
    exact ⟨aligned.pc, aligned.stack, inRange⟩
  | addIndex x =>
    obtain rfl := Except.ok.inj executed
    refine ⟨aligned.pc, aligned.stack, ?_⟩
    rw [Processor.toNat_wrap]
    omega
  | pointAtGlyph x =>
    obtain rfl := Except.ok.inj executed
    refine ⟨aligned.pc, aligned.stack, ?_⟩
    have digit := Nat.mod_lt (c.processor.get x).toNat (by decide : 0 < 16)
    rw [Memory.toNat_glyph]
    omega
  | awaitKey x =>
    obtain rfl := Except.ok.inj executed
    exact ⟨own, aligned.stack, aligned.index⟩
  | _ =>
    obtain rfl := Except.ok.inj executed
    exact ⟨aligned.pc, aligned.stack, aligned.index⟩

/-- `FX0A` alone begins a wait; it goes back to its own address and writes no memory. -/
theorem wait_execute (executed : c.execute pc i = .ok after) :
    after.processor.wait = c.processor.wait ∨ ∃ x, i = .awaitKey x ∧
      after = { c with processor := { c.processor with pc, wait := .waiting x } } := by
  cases i with
  | awaitKey x =>
    obtain rfl := Except.ok.inj executed
    exact .inr ⟨x, rfl, rfl⟩
  | _ => exact .inl (execute_devices executed).2.2.2

theorem sound_initial (random : RandomSource) : (initial random).Sound where
  aligned := Processor.aligned_initial random
  justified := trivial

theorem aligned_cycle (aligned : c.processor.Aligned) : c.cycle.state.processor.Aligned := by
  generalize ended : c.cycle = done
  cases ended ▸ c.cycles with
  | waits => exact aligned
  | takes x key =>
    exact Processor.Aligned.skip (p := { c.processor.set x key with wait := .running })
      ⟨aligned.pc, aligned.stack, aligned.index⟩
  | unknown | fails => exact aligned.skip
  | executes i after pending executed =>
    exact aligned_execute aligned.skip aligned.pc (inRange_of_pending pending) executed

theorem Sound.cycle (sound : c.Sound) : c.cycle.state.Sound := by
  refine ⟨aligned_cycle sound.aligned, ?_⟩
  generalize ended : c.cycle = done
  cases ended ▸ c.cycles with
  | waits => exact sound.justified
  | takes => trivial
  | unknown running => exact .of_running running
  | fails i fault pending =>
    obtain ⟨running, -⟩ := pending?_eq_some.mp pending
    exact .of_running running
  | executes i after pending executed =>
    obtain ⟨running, decoded⟩ := pending?_eq_some.mp pending
    rcases wait_execute executed with kept | ⟨x, rfl, rfl⟩
    · exact .of_running (kept.trans running)
    · exact Instruction.awaitKey_opcode decoded

end Console

/-- Every cell of a picture is dark or lit, and there are as many as the screen has. -/
theorem Screen.binary_frame (screen : Screen) :
    screen.frame.pixels.size = width * height ∧
      ∀ pixel ∈ screen.frame.pixels, pixel = 0 ∨ pixel = 1 := by
  constructor
  · simp only [frame, width, height, Array.size_flatMap, Array.size_map, Vector.size_toArray,
      Array.map_const', Array.sum_replicate_nat]
  · intro pixel member
    simp only [frame, Array.mem_flatMap, Array.mem_map] at member
    obtain ⟨row, -, lit, -, rfl⟩ := member
    cases lit
    · exact .inl rfl
    · exact .inr rfl

namespace Machine
variable {m : Machine}

theorem sound_press (sound : m.console.Sound) (key : Nat) :
    (m.after (.press key)).console.Sound := by
  rw [after]
  refine ⟨⟨sound.aligned.pc, sound.aligned.stack, sound.aligned.index⟩, ?_⟩
  have justified := sound.justified
  dsimp only
  split
  · rename_i fresh
    simp only [isFresh, Bool.and_eq_true, decide_eq_true_eq] at fresh
    exact justified.offer fresh.1
  · exact justified

theorem sound_restarted (m : Machine) (memory : Memory) : (m.restarted memory).console.Sound :=
  ⟨Processor.aligned_initial _, trivial⟩

theorem sound_apply (op : Operation) (sound : m.console.Sound) :
    (m.apply op).state.console.Sound := by
  rw [state_apply]
  cases op with
  | load | reset => exact sound_restarted m _
  | step =>
    have cycled := sound.cycle
    rw [after]
    exact ⟨cycled.aligned.elapse _, by simpa using cycled.justified⟩
  | tick => exact ⟨sound.aligned.elapse .perStep, sound.justified⟩
  | press key => exact sound_press sound key
  | release | reseed | start | stop | consumeRedraw | listen =>
    exact ⟨⟨sound.aligned.pc, sound.aligned.stack, sound.aligned.index⟩, sound.justified⟩

theorem Reachable.sound (reachable : m.Reachable) : m.console.Sound :=
  reachable.invariant (P := fun m => m.console.Sound) sound_apply fun _ _ => Console.sound_initial _

/-- Soundness is an invariant of every machine under every history of its host. -/
theorem history_sound (config : Config) (own : Key) (history : List Operation) :
    let console := ((ofConfig config own).run history).state.console
    console.Sound ∧
      console.display.screen.frame.pixels.size = Screen.width * Screen.height ∧
      ∀ pixel ∈ console.display.screen.frame.pixels, pixel = 0 ∨ pixel = 1 :=
  ⟨(Reachable.history config own history).sound, Screen.binary_frame _⟩

end Machine

end Chip8
