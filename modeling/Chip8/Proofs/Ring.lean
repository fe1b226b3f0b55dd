import Chip8.Memory

/-! The ring of the memory. Addresses that differ by whole turns name one byte, so the `k`-th place from an
address is their sum modulo the size, and a write leaves every byte alone that it does not come to.
Offsets are cut to the width of an address before they are added; the size divides that width, so a
reading of any length still goes around the ring place by place. -/
namespace Chip8.Memory
variable (memory : Memory) {a b : Address}

theorem slot_eq_iff : slot a = slot b ↔ a.toNat % 4096 = b.toNat % 4096 := by
  simp [slot, Fin.ofNat, Fin.ext_iff]

theorem read_congr (same : a.toNat % 4096 = b.toNat % 4096) : memory.read a = memory.read b := by
  simp only [read, slot_eq_iff.mpr same]

theorem toNat_add_mod (a : Address) (k : Nat) :
    (a + UInt16.ofNat k).toNat % 4096 = (a.toNat + k) % 4096 := by
  simp only [UInt16.toNat_add, UInt16.toNat_ofNat']
  omega

theorem read_add (a : Address) (k : Nat) :
    memory.read (a + UInt16.ofNat k) = memory.read (UInt16.ofNat ((a.toNat + k) % 4096)) := by
  apply read_congr
  rw [toNat_add_mod, UInt16.toNat_ofNat']
  omega

/-- The byte at a place of the ring, which may be counted around it. -/
def byteAt (memory : Memory) (place : Nat) : UInt8 :=
  memory.read (UInt16.ofNat (place % 4096))

theorem read_eq_byteAt (a : Address) : memory.read a = memory.byteAt a.toNat := by
  apply read_congr
  rw [UInt16.toNat_ofNat']
  omega

theorem byteAt_congr {place other : Nat} (same : place % 4096 = other % 4096) :
    memory.byteAt place = memory.byteAt other := by
  rw [byteAt, byteAt, same]

theorem ext_byteAt {memory other : Memory} (same : ∀ place, memory.byteAt place = other.byteAt place) :
    memory = other := by
  rcases memory with ⟨bytes⟩
  rcases other with ⟨others⟩
  congr
  apply Vector.ext
  intro place inside
  have found := same place
  have small : place % 65536 = place := by omega
  simpa [byteAt, read, slot, Nat.mod_eq_of_lt inside, small] using found

theorem getElem?_bytes (place : Nat) : memory.bytes[place % 4096]? = some (memory.byteAt place) := by
  have inside : place % 4096 < 4096 := Nat.mod_lt _ (by decide)
  have small : place % 4096 % 65536 % 4096 = place % 4096 := by omega
  rw [Vector.getElem?_eq_getElem inside]
  simp [byteAt, read, slot, Fin.ofNat, small]

theorem getElem?_readBytes (a : Address) {n k : Nat} (inside : k < n) :
    (memory.readBytes a n)[k]? = some (memory.byteAt (a.toNat + k)) := by
  simp [readBytes, read_add, byteAt, inside]

theorem readBytes_add (a : Address) (m n : Nat) :
    memory.readBytes a (m + n) = memory.readBytes a m ++ memory.readBytes (a + UInt16.ofNat m) n := by
  simp only [readBytes, List.range_add, List.map_append, List.map_map, Function.comp_def,
    UInt16.ofNat_add, UInt16.add_assoc]

theorem toNat_readWord (a : Address) : (memory.readWord a).toNat =
    256 * (memory.byteAt a.toNat).toNat + (memory.byteAt (a.toNat + 1)).toNat := by
  have next : memory.read (a + 1) = memory.byteAt (a.toNat + 1) := memory.read_add a 1
  rw [readWord, Opcode.toNat_ofBytes, read_eq_byteAt, next]

theorem read_writeBytes_of_missed {bytes : List UInt8} {query : Address}
    (missed : ∀ k < bytes.length, query.toNat % 4096 ≠ (a.toNat + k) % 4096) :
    (memory.writeBytes a bytes).read query = memory.read query := by
  induction bytes generalizing memory a with
  | nil => rfl
  | cons byte rest ih =>
    have first : slot a ≠ slot query := by
      intro same
      exact missed 0 (Nat.zero_lt_succ _) (slot_eq_iff.mp same).symm
    rw [writeBytes, ih, read_write, if_neg first]
    intro k inside
    have later := missed (k + 1) (Nat.succ_lt_succ inside)
    have next : (a + 1).toNat % 4096 = (a.toNat + 1) % 4096 := toNat_add_mod a 1
    omega

/-- What is written lies where it was written, unless it is longer than the ring. -/
theorem read_writeBytes_of_met {bytes : List UInt8} {byte : UInt8} {query : Address} {k : Nat}
    (fits : bytes.length ≤ 4096) (found : bytes[k]? = some byte)
    (met : query.toNat % 4096 = (a.toNat + k) % 4096) :
    (memory.writeBytes a bytes).read query = byte := by
  induction bytes generalizing memory a k with
  | nil => contradiction
  | cons first rest ih =>
    have next : (a + 1).toNat % 4096 = (a.toNat + 1) % 4096 := toNat_add_mod a 1
    rw [List.length_cons] at fits
    rw [writeBytes]
    cases k with
    | zero =>
      have here : slot a = slot query := slot_eq_iff.mpr met.symm
      rw [read_writeBytes_of_missed, read_write, if_pos here]
      · exact Option.some.inj found
      · intro k later
        omega
    | succ k => exact ih _ (by omega) found (by omega)

theorem byteAt_writeBytes {bytes : List UInt8} {byte : UInt8} {k : Nat}
    (fits : bytes.length ≤ 4096) (found : bytes[k]? = some byte) :
    (memory.writeBytes a bytes).byteAt (a.toNat + k) = byte := by
  apply read_writeBytes_of_met memory fits found
  rw [UInt16.toNat_ofNat']
  omega

theorem byteAt_writeBytes_of_missed {bytes : List UInt8} {place : Nat}
    (missed : ∀ k < bytes.length, place % 4096 ≠ (a.toNat + k) % 4096) :
    (memory.writeBytes a bytes).byteAt place = memory.byteAt place := by
  apply read_writeBytes_of_missed
  intro k inside
  have other := missed k inside
  rw [UInt16.toNat_ofNat']
  omega

/-- Single bytes written one after the other, each to its own address. -/
def writeEach (memory : Memory) (writes : List (Address × UInt8)) : Memory :=
  writes.foldl (fun before w => before.write w.1 w.2) memory

/-- The byte of the last write to a place of the ring, under any of its addresses. -/
def lastWritten? (place : Nat) (writes : List (Address × UInt8)) : Option UInt8 :=
  (writes.reverse.find? fun w => w.1.toNat % 4096 == place % 4096).map Prod.snd

theorem read_writeEach (writes : List (Address × UInt8)) :
    (memory.writeEach writes).read a = (lastWritten? a.toNat writes).getD (memory.read a) := by
  induction writes generalizing memory with
  | nil => rfl
  | cons w rest ih =>
    have first : memory.writeEach (w :: rest) = (memory.write w.1 w.2).writeEach rest := rfl
    rw [first, ih, read_write, lastWritten?, lastWritten?, List.reverse_cons, List.find?_append]
    -- A later write to the place hides the first one.
    cases rest.reverse.find? fun w => w.1.toNat % 4096 == a.toNat % 4096 with
    | some last => rfl
    | none => by_cases met : w.1.toNat % 4096 = a.toNat % 4096 <;> simp [slot_eq_iff, met]

/-- Memory is a ring under every way of reading it. A reading of any length has the bytes of the places
from its address on, one after the other and around as often as needed, and a longer reading goes on
where a shorter one ends. A word is two neighbours, the first one high, also over the top. After any
series of writes a byte is that of the last write to its place, or else what it was before. -/
theorem reads_around_ring (memory : Memory) (a : Address) :
    (∀ n, (memory.readBytes a n).length = n ∧
      ∀ k < n, (memory.readBytes a n)[k]? = memory.bytes[(a.toNat + k) % 4096]?) ∧
    (∀ m n, memory.readBytes a (m + n) = memory.readBytes a m ++
      memory.readBytes (UInt16.ofNat ((a.toNat + m) % 65536)) n) ∧
    (∃ high low, memory.bytes[a.toNat % 4096]? = some high ∧
      memory.bytes[(a.toNat + 1) % 4096]? = some low ∧
      (memory.readWord a).toNat = 256 * high.toNat + low.toNat) ∧
    ∀ writes : List (Address × UInt8), some ((memory.writeEach writes).read a) =
      (lastWritten? a.toNat writes).or memory.bytes[a.toNat % 4096]? := by
  refine ⟨?reading, ?longer, ?word, ?written⟩
  case reading =>
    intro n
    refine ⟨memory.length_readBytes a n, ?_⟩
    intro k inside
    rw [getElem?_bytes, memory.getElem?_readBytes a inside]
  case longer =>
    intro m n
    have next : UInt16.ofNat ((a.toNat + m) % 65536) = a + UInt16.ofNat m := by
      apply UInt16.toNat_inj.mp
      rw [UInt16.toNat_ofNat', UInt16.toNat_add, UInt16.toNat_ofNat']
      omega
    rw [next, readBytes_add]
  case word =>
    exact ⟨_, _, memory.getElem?_bytes _, memory.getElem?_bytes _, memory.toNat_readWord a⟩
  case written =>
    intro writes
    rw [read_writeEach, getElem?_bytes, read_eq_byteAt]
    cases lastWritten? a.toNat writes <;> rfl

/-- A reading longer than there are addresses comes from the last of them to the first glyph again. -/
theorem glyph_met_after_turns :
    65617 < 65620 ∧ (initial.readBytes 0xFFFF 65620)[65617]? = some 0xF0 := by
  have inside : 65617 < 65620 := by decide
  have met := ((reads_around_ring initial 0xFFFF).1 65620).2 65617 inside
  refine ⟨inside, met.trans ?_⟩
  decide +kernel

end Chip8.Memory
