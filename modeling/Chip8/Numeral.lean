/-! Numbers as text. A number is written by its digits, most significant first and without leading
zeros; hexadecimal forms may carry the mark `0x` and a least number of digits. -/
namespace Chip8.Numeral

/-- The digits of `n`, most significant first. A base below two leaves `n` as one digit. -/
def digits (base n : Nat) : List Nat :=
  if n < base ∨ base < 2 then [n] else digits base (n / base) ++ [n % base]
termination_by n
decreasing_by exact Nat.div_lt_self (by omega) (by omega)

/-- The number that a list of digits stands for. -/
def value (base : Nat) (ds : List Nat) : Nat :=
  ds.foldl (fun n d => n * base + d) 0

theorem value_append (base : Nat) (ds : List Nat) (d : Nat) :
    value base (ds ++ [d]) = value base ds * base + d := by
  simp [value]

/-- Reading the digits of a number gives the number back. -/
theorem value_digits (base n : Nat) : value base (digits base n) = n := by
  fun_induction digits base n with
  | case1 => simp [value]
  | case2 n _ ih =>
    rw [value_append, ih, Nat.mul_comm]
    exact Nat.div_add_mod n base

/-- Decimal text. -/
def decimal (n : Nat) : String :=
  String.ofList ((digits 10 n).map Nat.digitChar)

/-- Upper-case hexadecimal text without a mark, as registers and keys are written. -/
def upperHex (n : Nat) : String :=
  String.ofList ((digits 16 n).map fun d => (Nat.digitChar d).toUpper)

/-- Lower-case hexadecimal digits, filled up with zeros to at least `width` and never cut. -/
def paddedHex (width n : Nat) : String :=
  let ds := digits 16 n
  String.ofList (List.replicate (width - ds.length) '0' ++ ds.map Nat.digitChar)

/-- Padded hexadecimal text behind the mark `0x`. -/
def markedHex (width n : Nat) : String :=
  "0x" ++ paddedHex width n

end Chip8.Numeral
