import Chip8.Proofs.Soundness

/-! Work that looks before it leaps. Every index is compared with its bound, every sum, product and
difference with its word, and every shift with the width of what is shifted; what does not fit ends the
work with a trap. The accesses, the drawing and the loops of the processor are told again in this way; where
their operands are in range they are the plain ones. -/
namespace Chip8

namespace Memory
variable (memory : Memory) (a : Address)

theorem writeBytes_concat (bytes : List UInt8) (byte : UInt8) :
    memory.writeBytes a (bytes ++ [byte]) =
      (memory.writeBytes a bytes).write (a + UInt16.ofNat bytes.length) byte := by
  induction bytes generalizing memory a with
  | nil => simp [writeBytes]
  | cons first rest ih =>
    have next : a + 1 + UInt16.ofNat rest.length = a + UInt16.ofNat (rest.length + 1) := by
      rw [UInt16.ofNat_add, UInt16.add_assoc, UInt16.add_comm 1]
      rfl
    rw [List.cons_append, writeBytes, ih, next]
    rfl

theorem readBytes_succ (n : Nat) :
    memory.readBytes a (n + 1) = memory.readBytes a n ++ [memory.read (a + UInt16.ofNat n)] := by
  rw [readBytes, List.range_succ, List.map_append]
  rfl

end Memory

namespace Registers
variable (registers : Registers)

theorem fill_nil : registers.fill [] = registers := by
  cases registers with
  | mk values =>
    rw [fill, mk.injEq]
    ext k inside
    rw [Vector.getElem_ofFn]
    rfl

theorem fill_concat (bytes : List UInt8) (byte : UInt8) {x : Register}
    (last : x.toNat = bytes.length) (room : bytes.length < 16) :
    registers.fill (bytes ++ [byte]) = (registers.fill bytes).set x byte := by
  simp only [fill, set, place, mk.injEq]
  ext k inside
  simp only [Vector.getElem_ofFn, Vector.getElem_set, last, Nat.mod_eq_of_lt room]
  rcases Nat.lt_trichotomy k bytes.length with before | rfl | behind
  · rw [if_neg (Nat.ne_of_gt before), List.getElem?_append_left before]
  · rw [if_pos rfl, List.getElem?_concat_length]
    rfl
  · rw [if_neg (Nat.ne_of_lt behind), List.getElem?_eq_none (Nat.le_of_lt behind),
      List.getElem?_eq_none (List.length_append ▸ behind)]

end Registers

/-- What ends guarded work. -/
inductive Trap where
  /-- An index that is not below the size. -/
  | index (i size : Nat)
  /-- A result that its word cannot hold. -/
  | overflow (result : Nat)
  /-- A difference below zero. -/
  | underflow
  /-- A shift by the whole width or more. -/
  | shift (amount width : Nat)
deriving DecidableEq, Repr

/-- A value, unless a guard traps. -/
abbrev Guarded := Except Trap

namespace Guarded

section Bits
variable (a : UInt8)

theorem toNat_shiftRight {k : Nat} (short : k < 8) : (a >>> UInt8.ofNat k).toNat = a.toNat >>> k := by
  have whole : (UInt8.ofNat k).toNat % 8 = k := by
    rw [UInt8.toNat_ofNat']
    omega
  rw [UInt8.toNat_shiftRight, whole]

theorem shiftRight_eq_div {k : Nat} (short : k < 8) :
    a >>> UInt8.ofNat k = a / UInt8.ofNat (1 <<< k) := by
  have power : (UInt8.ofNat (1 <<< k)).toNat = 1 <<< k := by
    rw [UInt8.toNat_ofNat', Nat.one_shiftLeft]
    exact Nat.mod_eq_of_lt (Nat.pow_lt_pow_right (by decide) short)
  apply UInt8.toNat_inj.mp
  rw [toNat_shiftRight a short, UInt8.toNat_div, power, Nat.one_shiftLeft]
  exact Nat.shiftRight_eq_div_pow _ _

theorem shiftLeft_one : a <<< UInt8.ofNat 1 = a * 2 := by
  apply UInt8.toNat_inj.mp
  rw [UInt8.toNat_shiftLeft, UInt8.toNat_mul]
  exact congrArg (· % 2 ^ 8) (Nat.shiftLeft_eq _ _)

theorem and_one : a &&& 1 = a % 2 := by
  apply UInt8.toNat_inj.mp
  rw [UInt8.toNat_and]
  exact Nat.and_one_is_mod _

theorem shiftRight_and_one_eq_zero {k : Nat} (short : k < 8) :
    (a >>> UInt8.ofNat k) &&& 1 = 0 ↔ a.toNat.testBit k = false := by
  rw [← UInt8.toNat_inj, UInt8.toNat_and, toNat_shiftRight a short, Nat.testBit,
    bne_eq_false_iff_eq, Nat.and_comm]
  rfl

theorem shiftLeft_eight_or (high low : UInt8) :
    (high.toUInt16 <<< UInt16.ofNat 8) ||| low.toUInt16 = Opcode.ofBytes high low := by
  have small : high.toNat * 256 + low.toNat < 65536 := by
    have first := high.toNat_lt
    have second := low.toNat_lt
    omega
  have shifted : (high.toUInt16 <<< UInt16.ofNat 8).toNat = high.toNat <<< 8 := by
    rw [UInt16.toNat_shiftLeft, UInt8.toNat_toUInt16]
    change high.toNat <<< 8 % 65536 = high.toNat <<< 8
    rw [Nat.shiftLeft_eq]
    omega
  apply UInt16.toNat_inj.mp
  rw [UInt16.toNat_or, shifted, UInt8.toNat_toUInt16, ← Nat.shiftLeft_add_eq_or_of_lt low.toNat_lt,
    Nat.shiftLeft_eq, Opcode.ofBytes, UInt16.toNat_ofNat']
  exact (Nat.mod_eq_of_lt small).symm

end Bits

section Guards

def index (i size : Nat) : Guarded (Fin size) :=
  if inside : i < size then return ⟨i, inside⟩ else throw (.index i size)

/-- Puts a value at a place that its guard has let pass. -/
def put {α : Type} {size : Nat} (values : Vector α size) (place : Fin size) (value : α) :
    Vector α size :=
  values.set place value place.isLt

/-- A result in 16 bits. -/
def word (n : Nat) : Guarded UInt16 :=
  if n < UInt16.size then return UInt16.ofNat n else throw (.overflow n)

/-- A result in 64 bits. -/
def long (n : Nat) : Guarded Nat :=
  if n < UInt64.size then return n else throw (.overflow n)

def minus (a b : Nat) : Guarded Nat :=
  if b ≤ a then return a - b else throw .underflow

/-- The number of bits by which a word of a width may be shifted. -/
def shift (amount width : Nat) : Guarded Nat :=
  if amount < width then return amount else throw (.shift amount width)

theorem index_of_lt {i size : Nat} (inside : i < size) : index i size = pure ⟨i, inside⟩ :=
  dif_pos inside

theorem word_of_lt {n : Nat} (fits : n < 65536) : word n = pure (UInt16.ofNat n) :=
  if_pos fits

theorem long_of_lt {n : Nat} (small : n < 65536) : long n = pure n :=
  if_pos (Nat.lt_trans small (by decide))

theorem minus_of_le {a b : Nat} (le : b ≤ a) : minus a b = pure (a - b) :=
  if_pos le

theorem shift_of_lt {amount width : Nat} (short : amount < width) :
    shift amount width = pure amount :=
  if_pos short

/-- A guarded loop is the plain one if every turn of it is. -/
theorem foldlM_of_pure {α β : Type} {guarded : β → α → Guarded β} {plain : β → α → β}
    {turns : List α} (each : ∀ state, ∀ turn ∈ turns, guarded state turn = pure (plain state turn))
    (start : β) : turns.foldlM guarded start = pure (turns.foldl plain start) := by
  induction turns generalizing start with
  | nil => rfl
  | cons turn rest ih =>
    obtain ⟨first, later⟩ : _ ∧ _ :=
      ⟨each start turn List.mem_cons_self, fun state next member =>
        each state next (List.mem_cons_of_mem turn member)⟩
    rw [List.foldlM_cons, first, pure_bind]
    exact ih later (plain start turn)

end Guards

section Processor
variable (p : Processor) {x : Register}

def get (k : Nat) : Guarded UInt8 := do
  let place ← index k 16
  return p.registers.values.get place

def set (k : Nat) (value : UInt8) : Guarded Processor := do
  let place ← index k 16
  return { p with registers := ⟨put p.registers.values place value⟩ }

/-- A register first and the flag after it. -/
def setFlagged (k : Nat) (value flag : UInt8) : Guarded Processor := do
  let stored ← set p k value
  set stored 15 flag

theorem index_register (bound : x.toNat < 16) : index x.toNat 16 = pure (Registers.place x) := by
  rw [index_of_lt bound]
  exact congrArg pure (Fin.ext (Nat.mod_eq_of_lt bound).symm)

theorem get_of_lt (bound : x.toNat < 16) : get p x.toNat = pure (p.get x) := by
  rw [get, index_register bound, pure_bind]
  rfl

theorem set_of_lt (bound : x.toNat < 16) (value : UInt8) :
    set p x.toNat value = pure (p.set x value) := by
  rw [set, index_register bound, pure_bind]
  rfl

theorem setFlagged_of_lt (bound : x.toNat < 16) (value flag : UInt8) :
    setFlagged p x.toNat value flag = pure (p.setFlagged x value flag) := by
  rw [setFlagged, set_of_lt p bound, pure_bind]
  exact set_of_lt (p.set x value) (by decide : Registers.flag.toNat < 16) flag

/-- The latest address and the stack without it, as long as there is one. -/
def pop (stack : CallStack) : Guarded (Option (Address × CallStack)) := do
  if stack.depth = 0 then return none
  let depth ← minus stack.depth 1
  let top ← index depth 16
  return some (stack.slots.get top, { stack with depth })

/-- Refuses an address only at the one depth that leaves no room. -/
def push (stack : CallStack) (a : Address) : Guarded (Option CallStack) := do
  if stack.depth = 16 then return none
  let top ← index stack.depth 16
  let depth ← long (stack.depth + 1)
  return some ⟨put stack.slots top a, depth⟩

theorem pop_eq {stack : CallStack} (bound : stack.depth ≤ 16) : pop stack = pure stack.pop? := by
  unfold pop CallStack.pop?
  cases deep : stack.depth with
  | zero => rfl
  | succ depth =>
    have inside : depth < 16 := by omega
    have found : stack.slots[depth]? = some (stack.slots.get ⟨depth, inside⟩) :=
      Vector.getElem?_eq_getElem inside
    rw [if_neg (Nat.succ_ne_zero depth), minus_of_le (Nat.le_add_left 1 depth), pure_bind,
      Nat.add_sub_cancel, index_of_lt inside, pure_bind]
    simp only [found]
    rfl

theorem push_eq {stack : CallStack} (bound : stack.depth ≤ 16) (a : Address) :
    push stack a = pure (stack.push? a) := by
  unfold push CallStack.push?
  by_cases full : stack.depth = 16
  · rw [if_pos full, dif_neg (by omega)]
  · have room : stack.depth < 16 := by omega
    have sum : stack.depth + 1 < 65536 := by omega
    rw [if_neg full, dif_pos room, index_of_lt room, pure_bind, long_of_lt sum, pure_bind]
    rfl

/-- The address of a digit's glyph. -/
def glyph (digit : UInt8) : Guarded Address := do
  let offset ← word (Memory.glyphHeight.toNat * digit.toNat)
  word (Memory.fontStart.toNat + offset.toNat)

theorem glyph_eq (n : UInt8) :
    glyph (n % 16) = pure (Memory.fontStart + Memory.glyphHeight * (n % 16).toUInt16) := by
  have digit : (n % 16).toNat < 16 := by
    rw [UInt8.toNat_mod]
    exact Nat.mod_lt n.toNat (by decide)
  have offset : Memory.glyphHeight.toNat * (n % 16).toNat = 5 * (n % 16).toNat := rfl
  have small : 5 * (n % 16).toNat < 65536 := by omega
  have whole : (UInt16.ofNat (5 * (n % 16).toNat)).toNat = 5 * (n % 16).toNat := by
    rw [UInt16.toNat_ofNat']
    exact Nat.mod_eq_of_lt small
  have start : Memory.fontStart.toNat = 80 := rfl
  have sum : 80 + 5 * (n % 16).toNat < 65536 := by omega
  rw [glyph, offset, word_of_lt small, pure_bind, whole, start, word_of_lt sum]
  apply congrArg pure
  apply UInt16.toNat_inj.mp
  rw [Memory.toNat_glyph, UInt16.toNat_ofNat', Nat.mod_eq_of_lt sum, UInt8.toNat_mod]
  rfl

end Processor

section Memory
variable (memory : Memory) (a : Address) (p : Processor)

def read : Guarded UInt8 := do
  let place ← index (Processor.wrap a).toNat 4096
  return memory.bytes.get place

def write (byte : UInt8) : Guarded Memory := do
  let place ← index (Processor.wrap a).toNat 4096
  return ⟨put memory.bytes place byte⟩

def readWord : Guarded Opcode := do
  let high ← read memory a
  let low ← read memory (a + 1)
  return (high.toUInt16 <<< UInt16.ofNat (← shift 8 16)) ||| low.toUInt16

def readBytes (n : Nat) : Guarded (List UInt8) :=
  (List.range n).mapM fun k => read memory (a + UInt16.ofNat k)

theorem index_wrap : index (Processor.wrap a).toNat 4096 = pure (Memory.slot a) := by
  have inside : (Processor.wrap a).toNat < 4096 := by
    rw [Processor.toNat_wrap]
    exact Nat.mod_lt _ (by decide)
  rw [index_of_lt inside]
  exact congrArg pure (Fin.ext (Processor.toNat_wrap a))

theorem read_eq : read memory a = pure (memory.read a) := by
  rw [read, index_wrap, pure_bind]
  rfl

theorem write_eq (byte : UInt8) : write memory a byte = pure (memory.write a byte) := by
  rw [write, index_wrap, pure_bind]
  rfl

theorem readWord_eq : readWord memory a = pure (memory.readWord a) := by
  rw [readWord, read_eq, pure_bind, read_eq, pure_bind, shift_of_lt (by decide), pure_bind,
    Memory.readWord, shiftLeft_eight_or]

theorem readBytes_eq (n : Nat) : readBytes memory a n = pure (memory.readBytes a n) := by
  simp only [readBytes, read_eq, List.mapM_pure]
  rfl

/-- Puts a register into the memory, counted from the index register. -/
def storeRegister (p : Processor) (memory : Memory) (k : Nat) : Guarded Memory := do
  write memory (p.index + UInt16.ofNat k) (← get p k)

/-- Fetches a register from the memory, counted from the index register. -/
def loadRegister (memory : Memory) (p : Processor) (k : Nat) : Guarded Processor := do
  set p k (← read memory (p.index + UInt16.ofNat k))

theorem storeRegisters_eq {n : Nat} (bound : n ≤ 16) :
    (List.range n).foldlM (storeRegister p) memory =
      pure (memory.writeBytes p.index (p.registers.values.toList.take n)) := by
  induction n with
  | zero => rfl
  | succ n ih =>
    have before : n ≤ 16 := Nat.le_of_succ_le bound
    have fetched : get p n = pure (p.registers.values.get ⟨n, bound⟩) := by
      rw [get, index_of_lt bound, pure_bind]
    have last : p.registers.values.toList.take (n + 1) =
        p.registers.values.toList.take n ++ [p.registers.values.get ⟨n, bound⟩] := by
      have inside : n < p.registers.values.toList.length := by
        rw [Vector.length_toList]
        exact bound
      rw [List.take_add_one, List.getElem?_eq_getElem inside]
      rfl
    have length : (p.registers.values.toList.take n).length = n := by
      rw [List.length_take, Vector.length_toList, Nat.min_eq_left before]
    rw [List.range_succ, List.foldlM_append, ih before, pure_bind, List.foldlM_cons, storeRegister,
      fetched, pure_bind, write_eq, pure_bind, List.foldlM_nil, last, Memory.writeBytes_concat,
      length]

theorem loadRegisters_eq {n : Nat} (bound : n ≤ 16) :
    (List.range n).foldlM (loadRegister memory) p =
      pure { p with registers := p.registers.fill (memory.readBytes p.index n) } := by
  induction n with
  | zero =>
    rw [Memory.readBytes, List.range_zero, List.map_nil, Registers.fill_nil]
    rfl
  | succ n ih =>
    have before : n ≤ 16 := Nat.le_of_succ_le bound
    have register : (UInt8.ofNat n).toNat = n := by
      rw [UInt8.toNat_ofNat']
      omega
    have stored (q : Processor) (byte : UInt8) :
        set q n byte = pure (q.set (UInt8.ofNat n) byte) := by
      have small : (UInt8.ofNat n).toNat < 16 := by
        rw [register]
        exact bound
      have whole := set_of_lt q small byte
      rwa [register] at whole
    have place : (UInt8.ofNat n).toNat = (memory.readBytes p.index n).length := by
      rw [register, Memory.length_readBytes]
    have room : (memory.readBytes p.index n).length < 16 := by
      rw [Memory.length_readBytes]
      exact bound
    rw [List.range_succ, List.foldlM_append, ih before, pure_bind, List.foldlM_cons, loadRegister,
      read_eq, pure_bind, stored, pure_bind, List.foldlM_nil, Processor.set, Memory.readBytes_succ,
      Registers.fill_concat _ _ _ place room]

end Memory

section Drawing

/-- Flips the cell of a column and a line and notes whether it was lit. -/
def strike (drawn : Display × Bool) (column line : Nat) : Guarded (Display × Bool) := do
  let y ← index line Screen.height
  let x ← index column Screen.width
  let row := drawn.1.screen.rows.get y
  let lit := row.get x
  let rows := put drawn.1.screen.rows y (put row x (!lit))
  return (⟨⟨rows⟩, true⟩, drawn.2 || lit)

/-- One bit of a sprite's row. -/
def drawBit (x line : Nat) (row : UInt8) (drawn : Display × Bool) (dx : Nat) :
    Guarded (Display × Bool) := do
  let amount ← shift (← minus 7 dx) 8
  if (row >>> UInt8.ofNat amount) &&& 1 = 0 then return drawn
  else
    let column ← long (x + dx)
    strike drawn (column % Screen.width) line

/-- A row of a sprite with its number. -/
def drawRow (x y : Nat) (drawn : Display × Bool) (row : UInt8 × Nat) :
    Guarded (Display × Bool) := do
  let line ← long (y + row.2)
  (List.range 8).foldlM (drawBit x (line % Screen.height) row.1) drawn

def draw (display : Display) (x y : Nat) (sprite : Sprite) : Guarded (Display × Bool) :=
  sprite.zipIdx.foldlM (drawRow x y) (display, false)

/-- What a strike makes of a display, whatever the size of its coordinates. -/
def struck (drawn : Display × Bool) (cell : Nat × Nat) : Display × Bool :=
  (⟨drawn.1.screen.flip cell.1 cell.2, true⟩, drawn.2 || drawn.1.screen.lit cell.1 cell.2)

theorem strike_eq (drawn : Display × Bool) (x y : Nat) :
    strike drawn (x % Screen.width) (y % Screen.height) = pure (struck drawn (x, y)) := by
  have row : y % Screen.height < Screen.height := Nat.mod_lt y (by decide)
  have column : x % Screen.width < Screen.width := Nat.mod_lt x (by decide)
  rw [strike, index_of_lt row, pure_bind, index_of_lt column, pure_bind]
  rfl

theorem drawBit_eq {x dx : Nat} (near : x < 256) (inRow : dx < 8) (y : Nat) (row : UInt8)
    (drawn : Display × Bool) : drawBit x (y % Screen.height) row drawn dx =
      pure (if row.toNat.testBit (7 - dx) then struck drawn (x + dx, y) else drawn) := by
  have amount : 7 - dx < 8 := by omega
  have sum : x + dx < 65536 := by omega
  rw [drawBit, minus_of_le (Nat.le_of_lt_succ inRow), pure_bind, shift_of_lt amount, pure_bind]
  cases bit : row.toNat.testBit (7 - dx) with
  | false =>
    rw [if_pos ((shiftRight_and_one_eq_zero row amount).mpr bit)]
    rfl
  | true =>
    have set : ¬ (row >>> UInt8.ofNat (7 - dx)) &&& 1 = 0 := by
      rw [shiftRight_and_one_eq_zero row amount, bit]
      decide
    rw [if_neg set, long_of_lt sum, pure_bind, strike_eq]
    rfl

theorem drawRow_eq {x y dy : Nat} (near : x < 256) (sum : y + dy < 65536)
    (row : UInt8) (drawn : Display × Bool) : drawRow x y drawn (row, dy) =
      pure (((Sprite.columns row).map fun dx => (x + dx, y + dy)).foldl struck drawn) := by
  rw [drawRow, long_of_lt sum, pure_bind, Sprite.columns, List.foldl_map, List.foldl_filter]
  exact foldlM_of_pure (fun drawn dx member =>
    drawBit_eq near (List.mem_range.mp member) (y + dy) row drawn) drawn

/-- Strikes keep the screen's own account of them, and one is enough to raise the mark. -/
theorem foldl_struck (cells : List (Nat × Nat)) (display : Display) (collided : Bool) :
    cells.foldl struck (display, collided) =
      let drawn := cells.foldl Screen.strike (display.screen, collided)
      (⟨drawn.1, display.needsRedraw || !cells.isEmpty⟩, drawn.2) := by
  induction cells generalizing display collided with
  | nil => simp
  | cons cell rest ih =>
    rw [List.foldl_cons, struck, ih]
    simp [Screen.strike]

theorem draw_eq {x y : Nat} {sprite : Sprite} (near : x < 256) (low : y < 256)
    (short : sprite.length < 256) (display : Display) :
    draw display x y sprite = pure (display.draw x y sprite) := by
  have rows : draw display x y sprite =
      pure (sprite.zipIdx.foldl (fun drawn row =>
        ((Sprite.columns row.1).map fun dx => (x + dx, y + row.2)).foldl struck drawn)
        (display, false)) :=
    foldlM_of_pure (fun drawn (row, dy) member => by
      have inSprite := List.snd_lt_of_mem_zipIdx member
      exact drawRow_eq near (by omega) row drawn) (display, false)
  -- Here the rows are numbered from zero, in `Sprite.cells` from `y` on.
  have cells : Sprite.cells x y sprite = sprite.zipIdx.flatMap fun row =>
      (Sprite.columns row.1).map fun dx => (x + dx, y + row.2) := by
    rw [Sprite.cells, List.zipIdx_eq_map_add, List.flatMap_map]
  rw [rows, ← List.foldl_flatMap, ← cells, foldl_struck]
  rfl

end Drawing

end Guarded

end Chip8
