import Chip8.Proofs.Soundness
import Chip8.Proofs.Superposition

/-! The views of a screen. Its cells, the pixels of its frame row after row, and the text with its line ends
count the cells in different ways and tell the same of each, so every view determines the others. -/
namespace Chip8

/-- In a concatenation of equally long lists each list begins where those before it end. -/
theorem getElem?_flatMap {α β : Type} {f : α → List β} {items : List α} {width x : Nat}
    (even : ∀ item ∈ items, (f item).length = width) (inside : x < width) (y : Nat) :
    (items.flatMap f)[y * width + x]? = items[y]?.bind fun item => (f item)[x]? := by
  induction items generalizing y with
  | nil => rfl
  | cons first rest ih =>
    obtain ⟨evenFirst, evenRest⟩ := List.forall_mem_cons.mp even
    rw [List.flatMap_cons]
    cases y with
    | zero =>
      rw [Nat.zero_mul, Nat.zero_add, List.getElem?_append_left (by omega)]
      rfl
    | succ y =>
      have below : (y + 1) * width + x = (f first).length + (y * width + x) := by
        rw [evenFirst, Nat.succ_mul]
        omega
      rw [below, List.getElem?_append_right (Nat.le_add_right _ _), Nat.add_sub_cancel_left, ih evenRest]
      rfl

namespace Screen
variable (screen : Screen)

theorem lit_mod (x y : Nat) : screen.lit (x % 64) (y % 32) = screen.lit x y := by
  simp only [lit, Fin.ofNat, Nat.mod_mod]

/-- A frame has the rows of the screen one after the other. -/
theorem getElem?_frame (x y : Nat) : screen.frame.pixels[y % 32 * 64 + x % 64]? =
    some (if screen.lit x y then 1 else 0) := by
  have listed : screen.frame.pixels.toList =
      screen.rows.toList.flatMap fun row => row.toList.map fun lit => if lit then 1 else 0 := by
    simp only [frame, Array.toList_flatMap, Array.toList_map]
    rfl
  have even : ∀ row ∈ screen.rows.toList,
      (row.toList.map fun lit => if lit then (1 : UInt8) else 0).length = 64 := by simp
  have across : x % 64 < 64 := Nat.mod_lt x (by decide)
  have down : y % 32 < 32 := Nat.mod_lt y (by decide)
  rw [← Array.getElem?_toList, listed, getElem?_flatMap even across]
  simp only [List.getElem?_map, List.getElem?_eq_getElem, Vector.length_toList, Vector.getElem_toList,
    across, down, Option.bind_some, Option.map_some]
  rfl

theorem isOn_frame (x y : Nat) : screen.frame.isOn x y = screen.lit x y := by
  rw [Frame.isOn, width, height, getElem?_frame]
  cases screen.lit x y <;> rfl

theorem frame_eq_iff (other : Screen) :
    screen.frame = other.frame ↔ ∀ x y, screen.lit x y = other.lit x y := by
  constructor
  · intro same x y
    rw [← isOn_frame, same, isOn_frame]
  · intro same
    rw [ext_lit same]

end Screen

namespace Frame

/-- A text shows a picture as 32 lines of 64 characters, each line with its end. -/
def Depicts (text : String) (picture : Nat → Nat → Bool) : Prop :=
  ∃ lines : List (List Char), text.toList = lines.flatMap (· ++ ['\n']) ∧ lines.length = 32 ∧
    ∀ y < 32, ∃ row, lines[y]? = some row ∧ row.length = 64 ∧
      ∀ x < 64, row[x]? = some (if picture x y then '#' else '.')

variable {text : String} {picture other : Nat → Nat → Bool}

/-- With its end every line has 65 characters. -/
theorem Depicts.getElem?_toList (depicts : Depicts text picture) {x y : Nat} (across : x < 64)
    (down : y < 32) : text.toList[y * 65 + x]? = some (if picture x y then '#' else '.') := by
  obtain ⟨lines, written, count, each⟩ := depicts
  have even : ∀ line ∈ lines, (line ++ ['\n']).length = 65 := by
    intro line member
    obtain ⟨y, inside, found⟩ := List.mem_iff_getElem.mp member
    obtain ⟨same, present, long, -⟩ := each y (count ▸ inside)
    rw [List.getElem?_eq_getElem inside, found] at present
    obtain rfl := Option.some.inj present
    rw [List.length_append, long]
    rfl
  obtain ⟨row, present, long, shows⟩ := each y down
  rw [written, getElem?_flatMap even (by omega), present, Option.bind_some,
    List.getElem?_append_left (by omega), shows x across]

/-- A text shows at most one picture. -/
theorem Depicts.unique (first : Depicts text picture) (second : Depicts text other) {x y : Nat}
    (across : x < 64) (down : y < 32) : picture x y = other x y := by
  have same := (first.getElem?_toList across down).symm.trans (second.getElem?_toList across down)
  cases here : picture x y <;> cases there : other x y <;> simp [here, there] at same ⊢

end Frame

namespace Screen
variable (screen : Screen)

theorem depicts_text : Frame.Depicts screen.frame.text screen.frame.isOn := by
  have size : screen.frame.pixels.size = 2048 := screen.binary_frame.1
  refine ⟨screen.frame.rows.map (·.map Frame.symbol), ?written, ?count, ?each⟩
  case written => rw [Frame.text, String.toList_ofList, List.flatMap_map]
  case count => rw [List.length_map, Frame.rows, List.length_map, List.length_range, height]
  case each =>
    intro y down
    let row := (screen.frame.pixels.extract (y * 64) ((y + 1) * 64)).toList
    refine ⟨row.map Frame.symbol, ?found, ?long, ?shows⟩
    case found => simp [Frame.rows, height, width, down, row]
    case long =>
      rw [List.length_map, Array.length_toList, Array.size_extract, size]
      omega
    case shows =>
      intro x across
      have pixel := screen.getElem?_frame x y
      have inside : x < min ((y + 1) * 64) 2048 - y * 64 := by omega
      rw [Nat.mod_eq_of_lt down, Nat.mod_eq_of_lt across] at pixel
      rw [isOn_frame, List.getElem?_map, Array.getElem?_toList, Array.getElem?_extract, size,
        if_pos inside, pixel]
      cases screen.lit x y <;> rfl

/-- Cells far outside are taken around the edges, so those of one screen decide. -/
theorem text_eq_iff (other : Screen) :
    screen.frame.text = other.frame.text ↔ screen.frame = other.frame := by
  constructor
  · intro same
    apply (screen.frame_eq_iff other).mpr
    intro x y
    have across : x % 64 < 64 := Nat.mod_lt x (by decide)
    have down : y % 32 < 32 := Nat.mod_lt y (by decide)
    have depicts : Frame.Depicts screen.frame.text other.frame.isOn := same ▸ other.depicts_text
    have cell := screen.depicts_text.unique depicts across down
    rwa [isOn_frame, isOn_frame, lit_mod, lit_mod] at cell
  · exact congrArg Frame.text

end Screen

namespace Display

/-- The views of any display, however it came about, agree. Its frame has 2048 pixels of brightness zero or
one; a cell at any coordinates is on in the frame if and only if it is lit, and if and only if the pixel
that many rows and columns on is one; the text is 32 lines of 64 characters that mark the cells which
are on. Two displays have one text if and only if they have one frame, and if and only if the same
cells are lit. -/
theorem views_agree (display other : Display) :
    let frame := display.screen.frame
    (frame.pixels.size = 2048 ∧ ∀ pixel ∈ frame.pixels, pixel = 0 ∨ pixel = 1) ∧
    (∀ x y, (frame.isOn x y = true ↔ display.screen.lit x y = true) ∧
      (frame.isOn x y = true ↔ frame.pixels[y % 32 * 64 + x % 64]? = some 1)) ∧
    Frame.Depicts frame.text frame.isOn ∧
    (frame.text = other.screen.frame.text ↔ frame = other.screen.frame) ∧
    (frame = other.screen.frame ↔ ∀ x y, display.screen.lit x y = other.screen.lit x y) := by
  intro frame
  refine ⟨display.screen.binary_frame, ?_, display.screen.depicts_text,
    display.screen.text_eq_iff other.screen, display.screen.frame_eq_iff other.screen⟩
  intro x y
  rw [display.screen.isOn_frame, display.screen.getElem?_frame]
  cases display.screen.lit x y <;> simp

/-- A bar over the right edge gives one text, drawn whole or in two parts, and pixel 60 of it is on. -/
theorem bar_shows_around_edge :
    let whole := (initial.draw 60 0 [0xFF]).1
    let parts := ((initial.draw 0 0 [0xF0]).1.draw 60 0 [0xF0]).1
    whole.screen.frame.text = parts.screen.frame.text ∧ whole.screen.frame.isOn 124 32 = true := by
  intro whole parts
  have same : whole.screen = parts.screen := by decide +kernel
  refine ⟨(views_agree whole parts).2.2.2.1.mpr (congrArg Screen.frame same), ?_⟩
  exact ((views_agree whole parts).2.1 124 32).1.mpr (by decide +kernel)

end Display

end Chip8
