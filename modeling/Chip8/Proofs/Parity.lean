import Mathlib.Algebra.BigOperators.Group.Finset.Sigma
import Mathlib.Algebra.BigOperators.Intervals
import Mathlib.Algebra.BigOperators.Ring.Finset
import Chip8.Proofs.Drawing

/-! Drawing against a count. The hits of a cell are the set bits of the sprite that fall onto it; their
parity decides the cell, and a collision is a hit on a cell that is lit or hit again. A sprite no taller
than the screen hits every cell at most once, and then a collision is a cell that goes dark. -/
namespace Chip8

namespace Sprite

/-- Whether the bit at a row and a column, counted from the left, is set. -/
def isSet (sprite : Sprite) (dy dx : Nat) : Bool :=
  (sprite[dy]?.getD 0).toNat.testBit (7 - dx)

/-- The set bits of a sprite at `x`, `y` that fall onto the cell at `px`, `py`, each as the pair of its
row and its column. -/
def bitsOn (x y : Nat) (sprite : Sprite) (px py : Nat) : Finset (Nat × Nat) :=
  {bit ∈ Finset.range sprite.length ×ˢ Finset.range 8 |
    sprite.isSet bit.1 bit.2 ∧ (x + bit.2) % 64 = px % 64 ∧ (y + bit.1) % 32 = py % 32}

variable {x y px py : Nat} {sprite : Sprite}

theorem countP_range (n : Nat) (P : Nat → Prop) [DecidablePred P] :
    (List.range n).countP P = ∑ k ∈ Finset.range n, if P k then 1 else 0 := by
  rw [List.countP_eq_length_filter, ← Finset.card_filter]
  rfl

theorem countP_columns (row : UInt8) (P : Nat → Prop) [DecidablePred P] :
    (columns row).countP P =
      ∑ dx ∈ Finset.range 8, if row.toNat.testBit (7 - dx) ∧ P dx then 1 else 0 := by
  rw [columns, List.countP_filter, ← countP_range]
  simp [Bool.and_comm]

theorem hits_eq_sum : hits x y sprite px py = ∑ dy ∈ Finset.range sprite.length,
    ∑ dx ∈ Finset.range 8,
      if sprite.isSet dy dx ∧ Screen.Meets px py (x + dx, y + dy) then 1 else 0 := by
  induction sprite generalizing y with
  | nil => rfl
  | cons row rest ih =>
    have below (dy : Nat) : y + 1 + dy = y + (dy + 1) := by omega
    rw [hits_cons, ih, countP_columns, List.length_cons, Finset.sum_range_succ' _ rest.length,
      Nat.add_comm]
    simp only [below]
    rfl

theorem hits_eq_card : hits x y sprite px py = (bitsOn x y sprite px py).card := by
  rw [hits_eq_sum, bitsOn, Finset.card_filter, Finset.sum_product]
  rfl

theorem hits_pos_iff : 1 ≤ hits x y sprite px py ↔ ∃ dy < sprite.length, ∃ dx < 8,
    sprite.isSet dy dx ∧ (x + dx) % 64 = px % 64 ∧ (y + dy) % 32 = py % 32 := by
  rw [hits_eq_card, Nat.one_le_iff_ne_zero, Finset.card_ne_zero]
  constructor
  · rintro ⟨⟨dy, dx⟩, member⟩
    simp only [bitsOn, Finset.mem_filter, Finset.mem_product, Finset.mem_range] at member
    obtain ⟨⟨inRow, inColumn⟩, falls⟩ := member
    exact ⟨dy, inRow, dx, inColumn, falls⟩
  · rintro ⟨dy, inRow, dx, inColumn, falls⟩
    refine ⟨(dy, dx), ?_⟩
    simp only [bitsOn, Finset.mem_filter, Finset.mem_product, Finset.mem_range]
    exact ⟨⟨inRow, inColumn⟩, falls⟩

theorem cells_ne_nil_iff : cells x y sprite ≠ [] ↔ ∃ px py, 1 ≤ hits x y sprite px py := by
  constructor
  · intro struck
    obtain ⟨cell, member⟩ := List.exists_mem_of_ne_nil _ struck
    exact ⟨cell.1, cell.2, hits_of_mem member⟩
  · rintro ⟨px, py, hit⟩ empty
    rw [hits, empty] at hit
    contradiction

end Sprite

namespace Screen

theorem lit_of_meets {screen : Screen} {px py : Nat} {cell : Nat × Nat} (meets : Meets px py cell) :
    screen.lit cell.1 cell.2 = screen.lit px py := by
  simp only [lit, Fin.ofNat, meets.1, meets.2]

/-- The first of several strikes collides with a lit cell, and makes the next one on a dark cell
collide. -/
theorem collides_first {cell : Nat × Nat} {rest : List (Nat × Nat)} {drawn : Screen × Bool}
    {px py : Nat} :
    (1 ≤ ((cell :: rest).countP fun cell => Meets px py cell) ∧ (drawn.1.lit px py = true ∨
      2 ≤ ((cell :: rest).countP fun cell => Meets px py cell))) ↔
    (Meets px py cell ∧ drawn.1.lit px py = true) ∨
      (1 ≤ (rest.countP fun cell => Meets px py cell) ∧ ((strike drawn cell).1.lit px py = true ∨
        2 ≤ (rest.countP fun cell => Meets px py cell))) := by
  rw [lit_strike, List.countP_cons]
  by_cases meets : Meets px py cell
  · cases drawn.1.lit px py <;> simp [meets]
  · simp [meets]

theorem collides_strikes (cells : List (Nat × Nat)) (drawn : Screen × Bool) :
    (cells.foldl strike drawn).2 = true ↔ drawn.2 = true ∨
      ∃ px py, 1 ≤ (cells.countP fun cell => Meets px py cell) ∧
        (drawn.1.lit px py = true ∨ 2 ≤ (cells.countP fun cell => Meets px py cell)) := by
  induction cells generalizing drawn with
  | nil => simp
  | cons cell rest ih =>
    have met : (∃ px py, Meets px py cell ∧ drawn.1.lit px py = true) ↔
        drawn.1.lit cell.1 cell.2 = true := by
      constructor
      · rintro ⟨px, py, meets, lit⟩
        exact (lit_of_meets meets).trans lit
      · intro lit
        exact ⟨cell.1, cell.2, ⟨rfl, rfl⟩, lit⟩
    have noted : (strike drawn cell).2 = (drawn.2 || drawn.1.lit cell.1 cell.2) := rfl
    simp only [List.foldl_cons, ih, collides_first, exists_or, met, noted, Bool.or_eq_true, or_assoc]

variable (screen : Screen) {x y : Nat} {sprite : Sprite}

theorem collides_draw : (screen.draw x y sprite).2 = true ↔
    ∃ px py, 1 ≤ Sprite.hits x y sprite px py ∧
      (screen.lit px py = true ∨ 2 ≤ Sprite.hits x y sprite px py) := by
  rw [draw, collides_strikes]
  simp [Sprite.hits]

theorem toNat_lit_draw (px py : Nat) : ((screen.draw x y sprite).1.lit px py).toNat =
    ((screen.lit px py).toNat + Sprite.hits x y sprite px py) % 2 := by
  rw [lit_draw]
  rcases Nat.mod_two_eq_zero_or_one (Sprite.hits x y sprite px py) with even | odd
  · cases screen.lit px py <;> simp [even, Nat.add_mod]
  · cases screen.lit px py <;> simp [odd, Nat.add_mod]

section Short
variable (short : sprite.length ≤ 32)
include short

theorem lit_draw_short (px py : Nat) : (screen.draw x y sprite).1.lit px py =
    (screen.lit px py ^^ decide (1 ≤ Sprite.hits x y sprite px py)) := by
  have most : Sprite.hits x y sprite px py ≤ 1 := Sprite.hits_le_one short
  rw [lit_draw, decide_eq_decide.mpr]
  omega

theorem draw_changes_iff (px py : Nat) :
    (screen.draw x y sprite).1.lit px py ≠ screen.lit px py ↔
      1 ≤ Sprite.hits x y sprite px py := by
  rw [lit_draw_short screen short]
  cases screen.lit px py <;> simp [Nat.one_le_iff_ne_zero]

/-- Where no cell is hit twice, a collision is a cell that goes dark. -/
theorem collides_draw_short : (screen.draw x y sprite).2 = true ↔
    ∃ px py, screen.lit px py = true ∧ (screen.draw x y sprite).1.lit px py = false := by
  rw [collides_draw]
  apply exists₂_congr
  intro px py
  have most : Sprite.hits x y sprite px py ≤ 1 := Sprite.hits_le_one short
  rw [lit_draw_short screen short]
  cases screen.lit px py with
  | false => simp [Nat.not_le.mpr (Nat.lt_succ_of_le most)]
  | true => simp

end Short

end Screen

namespace Display
variable (display : Display) (x y : Nat) (sprite : Sprite)

theorem draw_marks_iff_hits : (display.draw x y sprite).1.needsRedraw = true ↔
    display.needsRedraw = true ∨ ∃ px py, 1 ≤ Sprite.hits x y sprite px py := by
  rw [← Sprite.cells_ne_nil_iff]
  simp [draw]

theorem draw_marks_iff_changes (short : sprite.length ≤ 32) :
    (display.draw x y sprite).1.needsRedraw = true ↔ display.needsRedraw = true ∨
      ∃ px py, (display.draw x y sprite).1.screen.lit px py ≠ display.screen.lit px py := by
  rw [draw_marks_iff_hits]
  apply or_congr_right
  apply exists₂_congr
  intro px py
  exact (display.screen.draw_changes_iff short px py).symm

/-- Drawing follows the count of the bits on each cell, for sprites of every height. The parity of the
count decides the cell, a collision is a bit on a cell that is lit or has another bit on it, and any bit
raises the mark of a new picture. Up to the height of the screen this means: a collision is a cell that
goes dark, and the mark goes up with a cell that changes. -/
theorem draw_follows_count :
    let drawn := display.draw x y sprite
    let hits px py := (Sprite.bitsOn x y sprite px py).card
    let before := display.screen.lit
    let after := drawn.1.screen.lit
    (∀ px py, (after px py).toNat = ((before px py).toNat + hits px py) % 2) ∧
    (drawn.2 = true ↔ ∃ px py, 1 ≤ hits px py ∧ (before px py = true ∨ 2 ≤ hits px py)) ∧
    (drawn.1.needsRedraw = true ↔ display.needsRedraw = true ∨ ∃ px py, 1 ≤ hits px py) ∧
    (sprite.length ≤ 32 →
      (drawn.2 = true ↔ ∃ px py, before px py = true ∧ after px py = false) ∧
      (drawn.1.needsRedraw = true ↔
        display.needsRedraw = true ∨ ∃ px py, after px py ≠ before px py)) := by
  intro drawn hits before after
  simp only [hits, ← Sprite.hits_eq_card]
  refine ⟨display.screen.toNat_lit_draw, display.screen.collides_draw,
    display.draw_marks_iff_hits x y sprite, ?_⟩
  intro short
  exact ⟨display.screen.collides_draw_short short, display.draw_marks_iff_changes x y sprite short⟩

/-- Two rows in the corner darken the lit cell on the other side of both edges. A sprite of thirty-three
rows meets its own first row and collides on a blank screen. -/
theorem corner_collides :
    let lit := (initial.draw 0 0 [0x80]).1
    let corner : Sprite := [0xC0, 0xC0]
    let tall : Sprite := 0x80 :: List.replicate 31 0 ++ [0x80]
    (corner.length ≤ 32 ∧ (lit.draw 63 31 corner).2 = true) ∧ (initial.draw 5 7 tall).2 = true := by
  intro lit corner tall
  have short : corner.length ≤ 32 := by decide
  obtain ⟨-, -, -, fits⟩ := draw_follows_count lit 63 31 corner
  obtain ⟨-, collides, -⟩ := draw_follows_count initial 5 7 tall
  refine ⟨⟨short, (fits short).1.mpr ⟨0, 0, ?_⟩⟩, collides.mpr ⟨5, 7, ?_⟩⟩ <;> decide +kernel

end Display

end Chip8
