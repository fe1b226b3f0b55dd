import Chip8.Instruction.Decode

/-! What a decoded instruction says about its opcode. Its operands are in range, and encoding it gives
the opcode back but for the digit that the shifts ignore. -/
namespace Chip8

namespace Opcode

theorem toNat_x (o : Opcode) : o.x.toNat = o.toNat / 256 % 16 := by
  simp only [x, UInt8.toNat_ofNat']
  omega

theorem toNat_y (o : Opcode) : o.y.toNat = o.toNat / 16 % 16 := by
  simp only [y, UInt8.toNat_ofNat']
  omega

theorem toNat_nibble (o : Opcode) : o.nibble.toNat = o.toNat % 16 := by
  simp only [nibble, UInt8.toNat_ofNat']
  omega

theorem toNat_byte (o : Opcode) : o.byte.toNat = o.toNat % 256 := by
  simp only [byte, UInt8.toNat_ofNat']
  omega

theorem toNat_address (o : Opcode) : o.address.toNat = o.toNat % 4096 := by
  simp only [address, UInt16.toNat_ofNat']
  omega

theorem x_lt (o : Opcode) : o.x.toNat < 16 := by
  rw [toNat_x]
  omega

theorem y_lt (o : Opcode) : o.y.toNat < 16 := by
  rw [toNat_y]
  omega

theorem nibble_lt (o : Opcode) : o.nibble.toNat < 16 := by
  rw [toNat_nibble]
  omega

theorem address_lt (o : Opcode) : o.address.toNat < 4096 := by
  rw [toNat_address]
  omega

theorem fields_of_digits {o : Opcode} {family x y last : Nat}
    (digits : o.digits = [family, x, y, last]) :
    o.family = family ∧ o.x.toNat = x ∧ o.y.toNat = y ∧ o.nibble.toNat = last := by
  simpa [Opcode.digits] using digits

theorem byte_of_digits {o : Opcode} {family x y last : Nat}
    (digits : o.digits = [family, x, y, last]) : o.byte.toNat = y * 16 + last := by
  obtain ⟨-, -, third, fourth⟩ := fields_of_digits digits
  rw [toNat_y] at third
  rw [toNat_nibble] at fourth
  rw [toNat_byte]
  omega

theorem eq_of_digits {o p : Opcode} (same : o.digits = p.digits) : o = p := by
  obtain ⟨first, second, third, fourth⟩ := fields_of_digits same
  rw [toNat_x, toNat_x] at second
  rw [toNat_y, toNat_y] at third
  rw [toNat_nibble, toNat_nibble] at fourth
  simp only [family] at first
  apply UInt16.toNat_inj.mp
  omega

theorem registers_of_digits {o : Opcode} {family last : Nat} {x y : Register}
    (digits : o.digits = [family, x.toNat, y.toNat, last]) : o.x = x ∧ o.y = y := by
  obtain ⟨-, second, third, -⟩ := fields_of_digits digits
  exact ⟨UInt8.toNat_inj.mp second, UInt8.toNat_inj.mp third⟩

/-- The opcode with a zero for its third digit. -/
def withoutY (o : Opcode) : Opcode :=
  UInt16.ofNat (o.toNat - o.toNat / 16 % 16 * 16)

end Opcode

namespace Instruction

/-- The shifts, whose opcodes have a digit of no meaning. -/
def IgnoresY : Instruction → Prop
  | shiftRight _ | shiftLeft _ => True
  | _ => False

/-- The instruction's own opcode is the given one, up to a digit that it ignores. -/
def Reads (i : Instruction) (o : Opcode) : Prop :=
  i.InRange ∧ (i.IgnoresY → i.encode = o.withoutY) ∧ (¬ i.IgnoresY → i.encode = o)

section Fields
variable {o : Opcode} {family last : Nat}

theorem overAddress_fields (leading : o.family = family) : overAddress family o.address = o := by
  apply UInt16.toNat_inj.mp
  simp only [Opcode.family] at leading
  have bound := o.toNat_lt
  simp only [overAddress, UInt16.toNat_ofNat', Opcode.toNat_address]
  omega

theorem overByte_fields (leading : o.family = family) (trailing : o.byte.toNat = last) :
    overByte family o.x last = o := by
  apply UInt16.toNat_inj.mp
  simp only [Opcode.family, Opcode.toNat_byte] at leading trailing
  have bound := o.toNat_lt
  simp only [overByte, UInt16.toNat_ofNat', Opcode.toNat_x]
  omega

theorem overDigits_fields (leading : o.family = family) (trailing : o.nibble.toNat = last) :
    overDigits family o.x o.y last = o := by
  apply UInt16.toNat_inj.mp
  simp only [Opcode.family, Opcode.toNat_nibble] at leading trailing
  have bound := o.toNat_lt
  simp only [overDigits, UInt16.toNat_ofNat', Opcode.toNat_x, Opcode.toNat_y]
  omega

theorem overDigits_withoutY (leading : o.family = family) (trailing : o.nibble.toNat = last) :
    overDigits family o.x 0 last = o.withoutY := by
  apply UInt16.toNat_inj.mp
  simp only [Opcode.family, Opcode.toNat_nibble] at leading trailing
  have bound := o.toNat_lt
  simp only [overDigits, Opcode.withoutY, UInt16.toNat_ofNat', Opcode.toNat_x, UInt8.toNat_zero]
  omega

/-- An opcode of family 0 is its own address. -/
theorem address_of_family_zero (leading : o.family = 0) : o.address = o := by
  apply UInt16.toNat_inj.mp
  simp only [Opcode.family] at leading
  rw [Opcode.toNat_address]
  omega

end Fields

section Digits
variable {o : Opcode} {family last : Nat} {x y : Register} {a : Address}

theorem digits_of_overAddress (written : overAddress family a = o) (leading : family < 16)
    (inside : a.toNat < 4096) :
    o.digits = [family, a.toNat / 256, a.toNat / 16 % 16, a.toNat % 16] := by
  subst written
  simp only [Opcode.digits, Opcode.family, Opcode.toNat_x, Opcode.toNat_y, Opcode.toNat_nibble,
    overAddress, UInt16.toNat_ofNat', List.cons.injEq, and_true]
  omega

theorem digits_of_overByte (written : overByte family x last = o) (leading : family < 16)
    (low : x.toNat < 16) (trailing : last < 256) :
    o.digits = [family, x.toNat, last / 16, last % 16] := by
  subst written
  simp only [Opcode.digits, Opcode.family, Opcode.toNat_x, Opcode.toNat_y, Opcode.toNat_nibble,
    overByte, UInt16.toNat_ofNat', List.cons.injEq, and_true]
  omega

theorem digits_of_overDigits (written : overDigits family x y last = o) (leading : family < 16)
    (lowX : x.toNat < 16) (lowY : y.toNat < 16) (trailing : last < 16) :
    o.digits = [family, x.toNat, y.toNat, last] := by
  subst written
  simp only [Opcode.digits, Opcode.family, Opcode.toNat_x, Opcode.toNat_y, Opcode.toNat_nibble,
    overDigits, UInt16.toNat_ofNat', List.cons.injEq, and_true]
  omega

end Digits

variable {o : Opcode} {i : Instruction}

theorem reads_of_arithmetic? (family : o.family = 0x8) (decoded : arithmetic? o = some i) :
    i.Reads o := by
  unfold arithmetic? at decoded
  split at decoded <;> rename_i digit
  all_goals first | contradiction | cases decoded
  case h_7 | h_9 =>
    exact ⟨o.x_lt, fun _ => overDigits_withoutY family digit, fun other => (other trivial).elim⟩
  all_goals exact ⟨⟨o.x_lt, o.y_lt⟩, False.elim, fun _ => overDigits_fields family digit⟩

theorem reads_of_device? (family : o.family = 0xF) (decoded : device? o = some i) : i.Reads o := by
  unfold device? at decoded
  split at decoded <;> rename_i last
  all_goals first | contradiction | cases decoded
  all_goals exact ⟨o.x_lt, False.elim, fun _ => overByte_fields family last⟩

/-- Decoding is faithful to the instruction table. -/
theorem reads_of_decode? (decoded : decode? o = some i) : i.Reads o := by
  unfold decode? at decoded
  split at decoded <;> rename_i family
  case h_1 =>
    split at decoded
    · rename_i clear
      cases decoded
      exact ⟨trivial, False.elim, fun _ => clear.symm⟩
    · rename_i notClear
      split at decoded
      · rename_i back
        cases decoded
        exact ⟨trivial, False.elim, fun _ => back.symm⟩
      · rename_i notBack
        cases decoded
        have same : o.address = o := address_of_family_zero family
        refine ⟨⟨o.address_lt, ?_, ?_⟩, False.elim, fun _ => overAddress_fields family⟩
        · rwa [same]
        · rwa [same]
  case h_6 | h_10 =>
    split at decoded <;> cases decoded
    rename_i digit
    have digit : o.nibble.toNat = 0 := by rw [digit]; rfl
    exact ⟨⟨o.x_lt, o.y_lt⟩, False.elim, fun _ => overDigits_fields family digit⟩
  case h_9 => exact reads_of_arithmetic? family decoded
  case h_15 =>
    split at decoded
    · rename_i last
      cases decoded
      exact ⟨o.x_lt, False.elim, fun _ => overByte_fields family (by rw [last]; rfl)⟩
    · split at decoded <;> cases decoded
      rename_i last
      exact ⟨o.x_lt, False.elim, fun _ => overByte_fields family (by rw [last]; rfl)⟩
  case h_16 => exact reads_of_device? family decoded
  case h_2 | h_3 | h_11 | h_12 =>
    cases decoded
    exact ⟨o.address_lt, False.elim, fun _ => overAddress_fields family⟩
  case h_4 | h_5 | h_7 | h_8 | h_13 =>
    cases decoded
    exact ⟨o.x_lt, False.elim, fun _ => overByte_fields family rfl⟩
  case h_14 =>
    cases decoded
    exact ⟨⟨o.x_lt, o.y_lt, o.nibble_lt⟩, False.elim, fun _ => overDigits_fields family rfl⟩
  case h_17 => contradiction

/-- Only `FX0A` waits for a key, and it does so for its own second digit. -/
theorem awaitKey_opcode {x : Register} (decoded : decode? o = some (.awaitKey x)) :
    x.toNat < 16 ∧ o.toNat = 0xF00A + 256 * x.toNat := by
  obtain ⟨inRange, -, encoded⟩ := reads_of_decode? decoded
  simp only [InRange] at inRange
  have value := congrArg UInt16.toNat (encoded id)
  simp only [encode, overByte, UInt16.toNat_ofNat'] at value
  omega

theorem decode?_arithmetic (family : o.family = 0x8) : decode? o = arithmetic? o := by
  simp only [decode?, family]

section Devices
variable {x : Register}

theorem decode?_device {y last : Nat} (digits : o.digits = [0xF, x.toNat, y, last]) :
    decode? o = device? o ∧ o.x = x ∧ o.byte.toNat = y * 16 + last := by
  obtain ⟨family, second, -, -⟩ := Opcode.fields_of_digits digits
  refine ⟨?_, UInt8.toNat_inj.mp second, Opcode.byte_of_digits digits⟩
  simp only [decode?, family]

theorem decode?_awaitKey (digits : o.digits = [0xF, x.toNat, 0x0, 0xA]) :
    decode? o = some (awaitKey x) := by
  obtain ⟨device, rfl, last⟩ := decode?_device digits
  simp only [device, device?, last]

theorem decode?_addIndex (digits : o.digits = [0xF, x.toNat, 0x1, 0xE]) :
    decode? o = some (addIndex x) := by
  obtain ⟨device, rfl, last⟩ := decode?_device digits
  simp only [device, device?, last]

theorem decode?_storeDecimal (digits : o.digits = [0xF, x.toNat, 0x3, 0x3]) :
    decode? o = some (storeDecimal x) := by
  obtain ⟨device, rfl, last⟩ := decode?_device digits
  simp only [device, device?, last]

theorem decode?_storeRegisters (digits : o.digits = [0xF, x.toNat, 0x5, 0x5]) :
    decode? o = some (storeRegisters x) := by
  obtain ⟨device, rfl, last⟩ := decode?_device digits
  simp only [device, device?, last]

theorem decode?_loadRegisters (digits : o.digits = [0xF, x.toNat, 0x6, 0x5]) :
    decode? o = some (loadRegisters x) := by
  obtain ⟨device, rfl, last⟩ := decode?_device digits
  simp only [device, device?, last]

end Devices

theorem decode?_call (family : o.toNat / 4096 = 2) : decode? o = some (.call o.address) := by
  simp only [decode?, Opcode.family, family]

end Instruction

end Chip8
