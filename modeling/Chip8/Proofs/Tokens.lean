import Chip8.Numeral

/-! Reading texts back as tokens. Blanks, commas and brackets mark where a word ends. A word is a
register, a marked hexadecimal number, a decimal number or a name, and the numbers that a text was
written with come back at any width. -/
namespace Chip8

namespace Numeral

variable {base : Nat}

theorem digits_lt (valid : 2 ≤ base) (n : Nat) : ∀ d ∈ digits base n, d < base := by
  fun_induction digits base n with
  | case1 n small =>
    intro d mem
    rw [List.mem_singleton] at mem
    omega
  | case2 n _ ih =>
    intro d mem
    rcases List.mem_append.mp mem with front | back
    · exact ih d front
    · rw [List.mem_singleton.mp back]
      exact Nat.mod_lt n (by omega)

theorem digits_ne_nil (base n : Nat) : digits base n ≠ [] := by
  fun_induction digits base n <;> simp

theorem value_zeros (base k : Nat) (ds : List Nat) :
    value base (List.replicate k 0 ++ ds) = value base ds := by
  induction k with
  | zero => rfl
  | succ k ih => simpa [List.replicate_succ, value] using ih

/-- The digit that a character of either case stands for. -/
def digit (c : Char) : Nat :=
  "0123456789abcdef".toList.idxOf c.toLower

theorem digit_digitChar : ∀ d < 16, digit d.digitChar = d := by decide

theorem digit_toUpper_digitChar : ∀ d < 16, digit d.digitChar.toUpper = d := by decide

/-- The number that a text of digits stands for. -/
def read (base : Nat) (text : List Char) : Nat :=
  value base (text.map digit)

/-- A number comes back from its digits, behind any number of zeros and in any form of the digits
that can be told apart. -/
theorem read_digits {form : Nat → Char} (valid : 2 ≤ base) (told : ∀ d < base, digit (form d) = d)
    (zeros n : Nat) :
    read base (List.replicate zeros '0' ++ (digits base n).map form) = n := by
  have back : ((digits base n).map form).map digit = digits base n := by
    rw [List.map_map, ← List.map_id (digits base n), List.map_map]
    exact List.map_congr_left fun d mem => told d (digits_lt valid n d mem)
  have zero : digit '0' = 0 := by decide
  rw [read, List.map_append, back, List.map_replicate, zero, value_zeros, value_digits]

end Numeral

/-- The characters that end a word. -/
def isMark (c : Char) : Bool :=
  [' ', ',', '(', ')'].contains c

/-- The words of a text, without the marks around them. -/
def words (text : List Char) : List (List Char) :=
  (text.splitOnP isMark).filter fun word => !word.isEmpty

theorem words_append_mark {mark : Char} (marks : isMark mark = true) (front back : List Char) :
    words (front ++ mark :: back) = words front ++ words back := by
  rw [words, List.splitOnP_append_cons _ _ marks, List.filter_append]
  rfl

theorem words_of_unmarked {word : List Char} (filled : word ≠ [])
    (unmarked : ∀ c ∈ word, isMark c = false) : words word = [word] := by
  rw [words, List.splitOnP_eq_singleton unmarked]
  simp [filled]

/-- What a word of a text stands for. -/
inductive Token where
  | name (letters : String)
  | register (x : UInt8)
  | hex (n : Nat)
  | count (n : Nat)
deriving DecidableEq, Repr

def Token.ofWord : List Char → Token
  | 'V' :: digits => .register (UInt8.ofNat (Numeral.read 16 digits))
  | '0' :: 'x' :: digits => .hex (Numeral.read 16 digits)
  | letters =>
    if letters.all Char.isDigit then .count (Numeral.read 10 letters)
    else .name (String.ofList letters)

theorem Token.ofWord_decimal {letters : List Char} (decimal : ∀ c ∈ letters, c.isDigit = true) :
    ofWord letters = .count (Numeral.read 10 letters) := by
  unfold ofWord
  split
  · exact absurd (decimal 'V' (by simp)) (by decide)
  · exact absurd (decimal 'x' (by simp)) (by decide)
  · rw [if_pos (List.all_eq_true.mpr decimal)]

def tokens (text : String) : List Token :=
  (words text.toList).map Token.ofWord

section Joined
variable {front middle back : String}

/-- A front that ends in a mark is read on its own. -/
theorem tokens_front (marked : front.toList.getLast?.any isMark = true) :
    tokens (front ++ back) = tokens front ++ tokens back := by
  obtain ⟨mark, last, marks⟩ := (Option.any_eq_true _ _).mp marked
  obtain ⟨rest, split⟩ := List.getLast?_eq_some_iff.mp last
  have whole := words_append_mark marks rest back.toList
  have alone := words_append_mark marks rest []
  have nothing : words [] = [] := rfl
  rw [nothing, List.append_nil] at alone
  simp only [tokens, String.toList_append, split, List.append_assoc, List.singleton_append, whole,
    alone, List.map_append]

/-- A back that begins with a mark is read on its own. -/
theorem tokens_back (marked : back.toList.head?.any isMark = true) :
    tokens (front ++ back) = tokens front ++ tokens back := by
  obtain ⟨mark, first, marks⟩ := (Option.any_eq_true _ _).mp marked
  obtain ⟨rest, split⟩ := List.head?_eq_some_iff.mp first
  have whole := words_append_mark marks front.toList rest
  have alone := words_append_mark marks [] rest
  have nothing : words [] = [] := rfl
  rw [nothing, List.nil_append, List.nil_append] at alone
  simp only [tokens, String.toList_append, split, whole, alone, List.map_append]

/-- Marks at both ends of a middle keep what stands before it from what stands behind it. -/
theorem tokens_middle (opened : middle.toList.head?.any isMark = true)
    (closed : middle.toList.getLast?.any isMark = true) :
    tokens (front ++ middle ++ back) = tokens front ++ (tokens middle ++ tokens back) := by
  rw [← tokens_front closed, String.append_assoc]
  apply tokens_back
  obtain ⟨mark, first, marks⟩ := (Option.any_eq_true _ _).mp opened
  rw [String.toList_append, List.head?_append, first]
  exact marks

end Joined

namespace Numeral

theorem isMark_digitChar : ∀ d < 16, isMark d.digitChar = false := by decide

theorem isMark_toUpper_digitChar : ∀ d < 16, isMark d.digitChar.toUpper = false := by decide

theorem isDigit_digitChar : ∀ d < 10, d.digitChar.isDigit = true := by decide

/-- What holds of the form of each digit holds of every character of a number. -/
theorem forall_mem_digits {form : Nat → Char} {P : Char → Prop} (valid : 2 ≤ base)
    (each : ∀ d < base, P (form d)) (n : Nat) : ∀ c ∈ (digits base n).map form, P c := by
  intro c mem
  obtain ⟨d, digit, rfl⟩ := List.mem_map.mp mem
  exact each d (digits_lt valid n d digit)

/-- A number behind an opening, zeros included, is one word. -/
theorem tokens_of_written {text : String} {opening : List Char} {form : Nat → Char} {zeros n : Nat}
    (written : text.toList = opening ++ (List.replicate zeros '0' ++ (digits base n).map form))
    (valid : 2 ≤ base) (clear : opening.any isMark = false)
    (each : ∀ d < base, isMark (form d) = false) :
    tokens text =
      [Token.ofWord (opening ++ (List.replicate zeros '0' ++ (digits base n).map form))] := by
  have filled : text.toList ≠ [] := by simp [written, digits_ne_nil]
  have unmarked : ∀ c ∈ text.toList, isMark c = false := by
    intro c mem
    rw [written, List.mem_append, List.mem_append] at mem
    rcases mem with front | zero | digit
    · exact Bool.eq_false_iff.mpr (List.any_eq_false.mp clear c front)
    · rw [(List.mem_replicate.mp zero).2]
      decide
    · exact forall_mem_digits (P := (isMark · = false)) valid each n c digit
  rw [tokens, words_of_unmarked filled unmarked, written]
  rfl

theorem tokens_decimal (n : Nat) : tokens (decimal n) = [.count n] := by
  have written : (decimal n).toList =
      [] ++ (List.replicate 0 '0' ++ (digits 10 n).map Nat.digitChar) := String.toList_ofList
  have digital : ∀ c ∈ [] ++ (List.replicate 0 '0' ++ (digits 10 n).map Nat.digitChar),
      c.isDigit = true := forall_mem_digits (by decide) isDigit_digitChar n
  rw [tokens_of_written written (by decide) rfl fun d small => isMark_digitChar d (by omega),
    Token.ofWord_decimal digital, List.nil_append,
    read_digits (by decide) fun d small => digit_digitChar d (by omega)]

theorem tokens_markedHex (width n : Nat) : tokens (markedHex width n) = [.hex n] := by
  have written : (markedHex width n).toList = ['0', 'x'] ++
      (List.replicate (width - (digits 16 n).length) '0' ++ (digits 16 n).map Nat.digitChar) := by
    rw [markedHex, String.toList_append]
    exact congrArg (['0', 'x'] ++ ·) String.toList_ofList
  rw [tokens_of_written written (by decide) rfl isMark_digitChar]
  simp only [List.cons_append, List.nil_append, Token.ofWord]
  rw [read_digits (by decide) digit_digitChar]

/-- The text of a register. -/
theorem tokens_upperHex (x : UInt8) : tokens ("V" ++ upperHex x.toNat) = [.register x] := by
  have written : ("V" ++ upperHex x.toNat).toList = ['V'] ++
      (List.replicate 0 '0' ++ (digits 16 x.toNat).map fun d => d.digitChar.toUpper) := by
    rw [String.toList_append]
    exact congrArg (['V'] ++ ·) String.toList_ofList
  rw [tokens_of_written written (by decide) rfl isMark_toUpper_digitChar]
  simp only [List.cons_append, List.nil_append, Token.ofWord]
  rw [read_digits (by decide) digit_toUpper_digitChar, UInt8.ofNat_toNat]

end Numeral

/-- Values whose texts can be read back through tokens have different texts. -/
theorem injective_of_tokens {α : Type} {text : α → String} {ofTokens? : List Token → Option α}
    (back : ∀ a, ofTokens? (tokens (text a)) = some a) : Function.Injective text := by
  intro a b same
  apply Option.some.inj
  rw [← back a, same, back b]

end Chip8
