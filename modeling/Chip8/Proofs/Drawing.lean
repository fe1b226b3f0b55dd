import Chip8.Display

/-! Which cells a sprite strikes. Drawing flips a cell once for every hit, so the parity of its hits
decides whether it changes. A sprite no taller than the screen hits no cell twice. -/
namespace Chip8

/-- Whether a struck cell is the one at `px`, `py`, around the edges. -/
def Screen.Meets (px py : Nat) (cell : Nat × Nat) : Prop :=
  cell.1 % 64 = px % 64 ∧ cell.2 % 32 = py % 32

instance (px py : Nat) : DecidablePred (Screen.Meets px py) := fun _ =>
  inferInstanceAs (Decidable (_ ∧ _))

namespace Sprite

/-- How often a sprite at `x`, `y` strikes the cell at `px`, `py`. -/
def hits (x y : Nat) (sprite : Sprite) (px py : Nat) : Nat :=
  (cells x y sprite).countP fun cell => Screen.Meets px py cell

variable {x y px py : Nat} {sprite : Sprite}

theorem hits_nil : hits x y [] px py = 0 := rfl

theorem hits_cons (row : UInt8) : hits x y (row :: sprite) px py =
    ((columns row).countP fun dx => Screen.Meets px py (x + dx, y)) + hits x (y + 1) sprite px py := by
  simp only [hits, cells_cons, List.countP_append, List.countP_map]
  rfl

theorem row_missed (missed : y % 32 ≠ py % 32) (row : UInt8) :
    ((columns row).countP fun dx => Screen.Meets px py (x + dx, y)) = 0 := by
  apply List.countP_eq_zero.mpr
  intro dx _
  simp [Screen.Meets, missed]

/-- The eight columns of a row are eight different columns of the screen. -/
theorem row_hits_le_one (row : UInt8) :
    ((columns row).countP fun dx => Screen.Meets px py (x + dx, y)) ≤ 1 := by
  have distinct : (columns row).Nodup := List.nodup_range.filter _
  by_cases struck : ∃ dx ∈ columns row, Screen.Meets px py (x + dx, y)
  · obtain ⟨dx, member, meets⟩ := struck
    have column : (x + dx) % 64 = px % 64 := meets.1
    have bound : dx < 8 := List.mem_range.mp (List.mem_filter.mp member).1
    calc ((columns row).countP fun dx => Screen.Meets px py (x + dx, y))
        ≤ (columns row).countP (· == dx) := by
          -- Columns less than eight apart are the same around the edge only if they are equal.
          apply List.countP_mono_left
          intro other otherMember otherMeets
          have otherColumn : (x + other) % 64 = px % 64 := (of_decide_eq_true otherMeets).1
          have otherBound : other < 8 := List.mem_range.mp (List.mem_filter.mp otherMember).1
          apply beq_iff_eq.mpr
          omega
      _ ≤ 1 := List.nodup_iff_count.mp distinct dx
  · have none : ((columns row).countP fun dx => Screen.Meets px py (x + dx, y)) = 0 := by
      apply List.countP_eq_zero.mpr
      intro dx member meets
      exact struck ⟨dx, member, of_decide_eq_true meets⟩
    rw [none]
    exact Nat.zero_le 1

theorem hits_missed (missed : ∀ k < sprite.length, (y + k) % 32 ≠ py % 32) :
    hits x y sprite px py = 0 := by
  induction sprite generalizing y with
  | nil => exact hits_nil
  | cons row rest ih =>
    have first : y % 32 ≠ py % 32 := missed 0 (Nat.zero_lt_succ _)
    rw [hits_cons, row_missed first, Nat.zero_add]
    apply ih
    intro k inside
    have later := missed (k + 1) (Nat.succ_lt_succ inside)
    rwa [← Nat.add_assoc, Nat.add_right_comm] at later

/-- The rows of a sprite that fits the screen go to different rows of it. -/
theorem hits_le_one (short : sprite.length ≤ 32) : hits x y sprite px py ≤ 1 := by
  induction sprite generalizing y with
  | nil => exact Nat.zero_le 1
  | cons row rest ih =>
    rw [List.length_cons] at short
    rw [hits_cons]
    by_cases first : y % 32 = py % 32
    · -- None of the other rows, at most 31 below, comes round to this one.
      have later : hits x (y + 1) rest px py = 0 := by
        apply hits_missed
        intro k inside
        omega
      rw [later]
      exact row_hits_le_one row
    · rw [row_missed first, Nat.zero_add]
      exact ih (by omega)

theorem hits_of_mem {cell : Nat × Nat} (struck : cell ∈ cells x y sprite) :
    0 < hits x y sprite cell.1 cell.2 :=
  List.countP_pos_iff.mpr ⟨cell, struck, decide_eq_true ⟨rfl, rfl⟩⟩

end Sprite

namespace Screen

theorem lit_strike (drawn : Screen × Bool) (cell : Nat × Nat) (px py : Nat) :
    (strike drawn cell).1.lit px py = (drawn.1.lit px py ^^ decide (Meets px py cell)) :=
  lit_flip drawn.1 cell.1 cell.2 px py

theorem lit_strikes (cells : List (Nat × Nat)) (drawn : Screen × Bool) (px py : Nat) :
    (cells.foldl strike drawn).1.lit px py =
      (drawn.1.lit px py ^^ decide ((cells.countP fun cell => Meets px py cell) % 2 = 1)) := by
  induction cells generalizing drawn with
  | nil => simp
  | cons cell rest ih =>
    rw [List.foldl_cons, ih, lit_strike, List.countP_cons, Bool.xor_assoc]
    congr 1
    by_cases meets : Meets px py cell
    · simp only [meets, decide_true, Bool.true_xor, if_true, ← decide_not, decide_eq_decide]
      omega
    · simp [meets]

/-- A cell changes if and only if the number of its hits is odd. -/
theorem lit_draw (screen : Screen) (x y : Nat) (sprite : Sprite) (px py : Nat) :
    (screen.draw x y sprite).1.lit px py =
      (screen.lit px py ^^ decide (Sprite.hits x y sprite px py % 2 = 1)) :=
  lit_strikes _ _ px py

end Screen

end Chip8
