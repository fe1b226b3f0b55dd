import Chip8.Proofs.Parity
import Chip8.Proofs.Views

/-! The mark of a new picture. A host that takes the picture whenever it finds the mark, and only then,
never shows a stale one; and apart from restarts nothing raises the mark but a clearing or a sprite
that changes a cell. -/
namespace Chip8

/-- A sprite without a bit leaves the display as it is, and any other marks it. -/
theorem Display.draw_kept_or_marked {display : Display} {x y : Nat} {sprite : Sprite} :
    (display.draw x y sprite).1 = display ∨ (display.draw x y sprite).1.needsRedraw = true := by
  cases struck : Sprite.cells x y sprite with
  | nil => exact .inl (by simp [draw, Screen.draw, struck])
  | cons cell rest => exact .inr (by simp [draw, struck])

namespace Console

def onDisplay (c : Console) : Instruction → Display
  | .clearScreen => c.display.clear
  | .draw x y height => (c.display.draw (c.processor.get x).toNat (c.processor.get y).toNat
      (c.memory.readBytes c.processor.index height.toNat)).1
  | _ => c.display

variable {c : Console}

theorem display_execute {after : Console} {pc : Address} {i : Instruction}
    (executed : c.execute pc i = .ok after) : after.display = c.onDisplay i := by
  cases i with
  | returnFromCall | call =>
    simp only [execute] at executed
    split at executed
    · cases executed
      rfl
    · contradiction
  | _ =>
    obtain rfl := Except.ok.inj executed
    rfl

theorem onDisplay_of_error {pc : Address} {i : Instruction} {fault : Fault}
    (failed : c.execute pc i = .error fault) : c.onDisplay i = c.display := by
  cases i with
  | clearScreen | draw => contradiction
  | _ => rfl

theorem display_cycle (c : Console) : c.cycle.state.display = c.pending?.elim c.display c.onDisplay := by
  cases pending : c.pending? with
  | none =>
    rw [state_cycle_idle pending]
    rfl
  | some i =>
    have skipped : c.fetched.onDisplay i = c.onDisplay i := rfl
    rw [cycle_pending pending, Option.elim_some, ← skipped]
    cases executed : c.fetched.execute c.processor.pc i with
    | ok after => exact display_execute executed
    | error fault => exact (onDisplay_of_error executed).symm

/-- An instruction that touches the display leaves the mark behind. -/
theorem onDisplay_kept_or_marked (c : Console) (i : Instruction) :
    c.onDisplay i = c.display ∨ (c.onDisplay i).needsRedraw = true := by
  cases i with
  | clearScreen => exact .inr rfl
  | draw => exact Display.draw_kept_or_marked
  | _ => exact .inl rfl

theorem length_sprite {x y : Register} {height : UInt8}
    (pending : c.pending? = some (.draw x y height)) :
    (c.memory.readBytes c.processor.index height.toNat).length ≤ 32 := by
  have inRange : x.toNat < 16 ∧ y.toNat < 16 ∧ height.toNat < 16 := inRange_of_pending pending
  rw [Memory.length_readBytes]
  omega

theorem cycle_marks_iff (seen : c.display.needsRedraw = false) :
    c.cycle.state.display.needsRedraw = true ↔
      c.pending? = some .clearScreen ∨
      (∃ x y height, c.pending? = some (.draw x y height)) ∧
        ∃ px py, c.cycle.state.display.screen.lit px py ≠ c.display.screen.lit px py := by
  rw [display_cycle]
  cases pending : c.pending? with
  | none => simp [seen]
  | some i =>
    rw [Option.elim_some]
    cases i with
    | clearScreen => simp [onDisplay, Display.clear]
    | draw x y height =>
      simp [onDisplay, Display.draw_marks_iff_changes _ _ _ _ (length_sprite pending), seen]
    | _ => simp [onDisplay, seen]

end Console

namespace Frame

def dark : Frame :=
  ⟨Array.replicate (Screen.width * Screen.height) 0⟩

theorem frame_blank : Screen.blank.frame = dark := by
  simp [Screen.frame, Screen.blank, dark, Screen.width, Screen.height, Array.flatMap_replicate]

end Frame

namespace Machine

def onDisplay (m : Machine) : Operation → Display
  | .load _ | .reset => m.console.display.clear
  | .step => m.console.pending?.elim m.console.display m.console.onDisplay
  | .consumeRedraw => m.console.display.consumeRedraw.1
  | _ => m.console.display

theorem display_apply (m : Machine) (op : Operation) :
    (m.apply op).state.console.display = m.onDisplay op := by
  rw [state_apply]
  cases op with
  | step => exact m.console.display_cycle
  | _ => rfl

/-- The picture that a host has after an operation: the present one if it found the mark of a new
picture, and else the one that it had. -/
def look (m : Machine) (picture : Frame) (op : Operation) : Frame :=
  match (m.apply op).answer with
  | .redraw true => (m.apply op).state.frame
  | _ => picture

/-- The picture that a host has after a run. -/
def shown (m : Machine) (picture : Frame) : List Operation → Frame
  | [] => picture
  | op :: rest => (m.apply op).state.shown (m.look picture op) rest

/-- A picture is stale only while the mark is up. -/
def Shows (m : Machine) (picture : Frame) : Prop :=
  m.console.display.needsRedraw = false → picture = m.frame

variable {m : Machine} {picture : Frame}

theorem Shows.of_display {after : Machine} (shows : m.Shows picture)
    (same : after.console.display = m.console.display) : after.Shows picture := by
  intro seen
  rw [same] at seen
  rw [shows seen, frame, frame, same]

theorem Shows.step (shows : m.Shows picture) : (m.apply .step).state.Shows picture := by
  have after := m.display_apply .step
  rw [onDisplay] at after
  cases pending : m.console.pending? with
  | none =>
    rw [pending] at after
    exact shows.of_display after
  | some i =>
    rw [pending, Option.elim_some] at after
    rcases m.console.onDisplay_kept_or_marked i with kept | marked
    · exact shows.of_display (after.trans kept)
    · intro seen
      rw [after, marked] at seen
      contradiction

theorem Shows.consumeRedraw (shows : m.Shows picture) :
    m.consumeRedraw.state.Shows (m.look picture .consumeRedraw) := by
  intro _
  have answer : (m.apply .consumeRedraw).answer = .redraw m.console.display.needsRedraw := rfl
  rw [look, answer]
  cases marked : m.console.display.needsRedraw with
  | true => rfl
  | false => exact shows marked

theorem Shows.apply (shows : m.Shows picture) (op : Operation) :
    (m.apply op).state.Shows (m.look picture op) := by
  cases op with
  | load | reset =>
    intro seen
    rw [display_apply] at seen
    contradiction
  | step => exact shows.step
  | consumeRedraw => exact shows.consumeRedraw
  | tick | press | release | reseed | start | stop | listen =>
    exact shows.of_display (m.display_apply _)

theorem shows_run (shows : m.Shows picture) (ops : List Operation) :
    (m.run ops).state.Shows (m.shown picture ops) := by
  induction ops generalizing m picture with
  | nil => exact shows
  | cons op rest ih => exact ih (shows.apply op)

theorem apply_marks_iff (seen : m.console.display.needsRedraw = false) (op : Operation) :
    (m.apply op).state.console.display.needsRedraw = true ↔
      op = .reset ∨ (∃ program, op = .load program) ∨
      op = .step ∧ (m.console.pending? = some .clearScreen ∨
        (∃ x y height, m.console.pending? = some (.draw x y height)) ∧
          ∃ px py, m.step.state.console.display.screen.lit px py ≠
            m.console.display.screen.lit px py) := by
  rw [← state_apply_step, display_apply, display_apply]
  cases op with
  | load | reset => simp [onDisplay, Display.clear]
  | step =>
    have cycled := Console.cycle_marks_iff seen
    rw [Console.display_cycle] at cycled
    simpa [onDisplay] using cycled
  | consumeRedraw => simp [onDisplay, Display.consumeRedraw]
  | tick | press | release | reseed | start | stop | listen => simp [onDisplay, seen]

/-- A host that follows the mark never shows a stale picture: whenever the mark is down, and so
whenever it is told that nothing is new, its picture is the present one, cell by cell. The mark goes
up at a restart, at a clearing, and at a sprite that changes a cell, and never else. -/
theorem no_stale_picture (config : Config) (own : Key) (ops : List Operation) :
    let new := ofConfig config own
    let m := (new.run ops).state
    let picture := new.shown .dark ops
    let present := picture = m.frame ∧
      ∀ px py, picture.isOn px py = m.console.display.screen.lit px py
    (m.console.display.needsRedraw = false → present) ∧
    (m.consumeRedraw.answer = false → present) ∧
    ∀ op, m.console.display.needsRedraw = false →
      ((m.apply op).state.console.display.needsRedraw = true ↔
        op = .reset ∨ (∃ program, op = .load program) ∨
        op = .step ∧ (m.console.pending? = some .clearScreen ∨
          (∃ x y height, m.console.pending? = some (.draw x y height)) ∧
            ∃ px py, m.step.state.console.display.screen.lit px py ≠
              m.console.display.screen.lit px py)) := by
  intro new m picture present
  have initial : new.Shows .dark := fun _ => Frame.frame_blank.symm
  have shows : m.Shows picture := shows_run initial ops
  have agrees (seen : m.console.display.needsRedraw = false) : present := by
    refine ⟨shows seen, ?_⟩
    intro px py
    rw [shows seen]
    exact m.console.display.screen.isOn_frame px py
  refine ⟨agrees, agrees, ?_⟩
  intro op seen
  exact apply_marks_iff seen op

/-- A glyph that is drawn raises the mark; once taken it stays the present picture through a step that
draws nothing. -/
theorem glyph_not_stale :
    let new := ofConfig {} (Vector.replicate 8 0)
    let loaded := [.load [0x60, 0x05, 0xF0, 0x29, 0xD0, 0x05], .consumeRedraw, .step, .step]
    let drawn := loaded ++ [.step, .consumeRedraw, .step]
    ((new.run loaded).state.apply .step).state.console.display.needsRedraw = true ∧
      new.shown .dark drawn = (new.run drawn).state.frame := by
  dsimp only
  constructor
  · apply ((no_stale_picture _ _ _).2.2 .step (by decide +kernel)).mpr
    refine .inr (.inr ⟨rfl, .inr ⟨⟨0, 0, 5, ?_⟩, 5, 5, ?_⟩⟩) <;> decide +kernel
  · exact ((no_stale_picture _ _ _).1 (by decide +kernel)).1

end Machine

end Chip8
