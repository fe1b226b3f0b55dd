import Chip8.Proofs.Drawing

/-! Sprites drawn over each other. A drawing flips cells and raises the mark of a new picture, so drawings
commute and the second of two equal ones takes the first one's cells back; where they stand in a
series does not matter. Only what a drawing answers depends on those before it. -/
namespace Chip8

namespace Sprite

theorem cells_shift (x y dx dy : Nat) (sprite : Sprite) :
    cells (x + dx) (y + dy) sprite =
      (cells x y sprite).map fun cell => (cell.1 + dx, cell.2 + dy) := by
  induction sprite generalizing y with
  | nil => rfl
  | cons row rest ih =>
    have below : y + dy + 1 = y + 1 + dy := Nat.add_right_comm y dy 1
    simp only [cells_cons, List.map_append, List.map_map, below, ih]
    congr 2
    funext column
    simp only [Function.comp_apply, Nat.add_right_comm]

theorem cells_append (x y : Nat) (upper lower : Sprite) :
    cells x y (upper ++ lower) = cells x y upper ++ cells x (y + upper.length) lower := by
  simp only [cells, List.zipIdx_append, List.flatMap_append]

end Sprite

namespace Screen

/-- A screen is what its cells show. -/
theorem ext_lit {first second : Screen} (same : ∀ px py, first.lit px py = second.lit px py) :
    first = second := by
  obtain ⟨first⟩ := first
  obtain ⟨second⟩ := second
  rw [mk.injEq]
  ext py below px inside
  have cell := same px py
  simp only [lit, Fin.ofNat, Fin.getElem_fin, Nat.mod_eq_of_lt below, Nat.mod_eq_of_lt inside] at cell
  rw [cell]

variable (screen : Screen) {x y : Nat} {sprite : Sprite}

theorem draw_comm (x' y' : Nat) (sprite' : Sprite) :
    ((screen.draw x y sprite).1.draw x' y' sprite').1 =
      ((screen.draw x' y' sprite').1.draw x y sprite).1 := by
  apply ext_lit
  intro px py
  simp only [lit_draw]
  exact Bool.xor_right_comm _ _ _

theorem draw_draw : ((screen.draw x y sprite).1.draw x y sprite).1 = screen := by
  apply ext_lit
  intro px py
  simp only [lit_draw, Bool.xor_assoc, Bool.xor_self, Bool.xor_false]

/-- What was noted before is kept and changes nothing else. -/
theorem strikes_noted (cells : List (Nat × Nat)) (noted : Bool) :
    cells.foldl strike (screen, noted) =
      ((cells.foldl strike (screen, false)).1,
        noted || (cells.foldl strike (screen, false)).2) := by
  induction cells generalizing screen noted with
  | nil => simp
  | cons cell rest ih =>
    have later (noted : Bool) := ih (screen.flip cell.1 cell.2) (noted || screen.lit cell.1 cell.2)
    rw [List.foldl_cons, List.foldl_cons, strike, strike, later noted, later false, Bool.false_or,
      Bool.or_assoc]

theorem draw_append (upper lower : Sprite) : screen.draw x y (upper ++ lower) =
    let first := screen.draw x y upper
    let second := first.1.draw x (y + upper.length) lower
    (second.1, first.2 || second.2) := by
  rw [draw, Sprite.cells_append, List.foldl_append, ← draw]
  exact strikes_noted _ _ _

theorem strike_around (drawn : Screen × Bool) (cell : Nat × Nat) (a b : Nat) :
    strike drawn (cell.1 + 64 * a, cell.2 + 32 * b) = strike drawn cell := by
  simp only [strike, flip, lit, Fin.ofNat, Nat.add_mul_mod_self_left]

theorem draw_around (a b : Nat) :
    screen.draw (x + 64 * a) (y + 32 * b) sprite = screen.draw x y sprite := by
  simp only [draw, Sprite.cells_shift, List.foldl_map, strike_around]

end Screen

/-- A sprite with the place of its top left corner. -/
structure Stamp where
  x : Nat
  y : Nat
  sprite : Sprite
deriving DecidableEq, Repr

namespace Display

/-- Draws a sprite and forgets the answer. -/
def stamp (display : Display) (s : Stamp) : Display :=
  (display.draw s.x s.y s.sprite).1

/-- Draws a series of sprites, first one first. -/
def stampAll (display : Display) (stamps : List Stamp) : Display :=
  stamps.foldl stamp display

variable (display : Display)

theorem stamp_comm (s t : Stamp) : (display.stamp s).stamp t = (display.stamp t).stamp s := by
  simp only [stamp, draw, display.screen.draw_comm t.x t.y t.sprite, Bool.or_right_comm]

theorem stampAll_perm {stamps others : List Stamp} (perm : stamps.Perm others) :
    display.stampAll stamps = display.stampAll others := by
  apply perm.foldl_eq'
  intro s _ t _ before
  exact before.stamp_comm s t

theorem screen_stampAll (stamps : List Stamp) : (display.stampAll stamps).screen =
    stamps.foldl (fun screen s => (screen.draw s.x s.y s.sprite).1) display.screen := by
  induction stamps generalizing display with
  | nil => rfl
  | cons s rest ih => exact ih (display.stamp s)

theorem screen_stampAll_twice (s : Stamp) (stamps : List Stamp) :
    (display.stampAll (s :: s :: stamps)).screen = (display.stampAll stamps).screen := by
  rw [screen_stampAll, screen_stampAll, List.foldl_cons, List.foldl_cons, Screen.draw_draw]

theorem draw_around (x y a b : Nat) (sprite : Sprite) :
    display.draw (x + 64 * a) (y + 32 * b) sprite = display.draw x y sprite := by
  simp only [draw, Screen.draw_around, Sprite.cells_shift, List.isEmpty_map]

theorem draw_append (x y : Nat) (upper lower : Sprite) : display.draw x y (upper ++ lower) =
    let first := display.draw x y upper
    let second := first.1.draw x (y + upper.length) lower
    (second.1, first.2 || second.2) := by
  have marked (first second : List (Nat × Nat)) :
      (!(first ++ second).isEmpty) = (!first.isEmpty || !second.isEmpty) := by
    cases first <;> rfl
  simp only [draw, Screen.draw_append, Sprite.cells_append, marked, Bool.or_assoc]

/-- The algebra of drawing. The order of a series does not matter to the display that it leaves; two
equal drawings anywhere in it leave no trace on the screen; a drawing is the same from every corner that
stands for the same cell; and a sprite is drawn like its upper part and then, that much lower, the rest. -/
theorem stamps_superpose :
    (∀ stamps others : List Stamp, stamps.Perm others →
      display.stampAll stamps = display.stampAll others) ∧
    (∀ (s : Stamp) (before between after : List Stamp),
      (display.stampAll (before ++ s :: between ++ s :: after)).screen =
        (display.stampAll (before ++ between ++ after)).screen) ∧
    (∀ (x y a b : Nat) (sprite : Sprite),
      display.draw (x + 64 * a) (y + 32 * b) sprite = display.draw x y sprite) ∧
    ∀ (x y : Nat) (upper lower : Sprite),
      let first := display.draw x y upper
      let second := first.1.draw x (y + upper.length) lower
      display.draw x y (upper ++ lower) = (second.1, first.2 || second.2) := by
  refine ⟨?_, ?_, display.draw_around, display.draw_append⟩
  · intro stamps others perm
    exact display.stampAll_perm perm
  · intro s before between after
    have outer : (before ++ s :: between ++ s :: after).Perm (s :: (before ++ s :: between ++ after)) :=
      List.perm_middle
    have inner : (before ++ s :: between).Perm (s :: (before ++ between)) := List.perm_middle
    have front := outer.trans ((inner.append_right after).cons s)
    rw [display.stampAll_perm front]
    exact display.screen_stampAll_twice s _

/-- A glyph over both edges, drawn before and after another sprite or twice before it. -/
theorem glyph_in_any_place :
    let glyph : Stamp := ⟨62, 30, [0xF0, 0x90, 0x90, 0x90, 0xF0]⟩
    let bar : Stamp := ⟨0, 0, [0xFF]⟩
    [glyph, bar, glyph].Perm [glyph, glyph, bar] ∧
      initial.stampAll [glyph, bar, glyph] = initial.stampAll [glyph, glyph, bar] := by
  intro glyph bar
  have perm : [glyph, bar, glyph].Perm [glyph, glyph, bar] := by decide
  exact ⟨perm, (stamps_superpose initial).1 _ _ perm⟩

end Display

end Chip8
