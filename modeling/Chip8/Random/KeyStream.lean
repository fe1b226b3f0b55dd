/-! The ChaCha stream of twenty rounds as numbered words. Word `n` depends on the key and on `n`
alone, so a place in the stream is a number and not a buffer. -/
namespace Chip8

/-- Eight words of key. -/
abbrev Key := Vector UInt32 8

namespace KeyStream

/-- Sixteen words, four by four. -/
abbrev Block := Vector UInt32 16

def rotateLeft (w n : UInt32) : UInt32 :=
  (w <<< n) ||| (w >>> (32 - n))

/-- Mixes four words of a block. -/
def quarterRound (a b c d : Fin 16) (s : Block) : Block :=
  let a₁ := s[a] + s[b]
  let d₁ := rotateLeft (s[d] ^^^ a₁) 16
  let c₁ := s[c] + d₁
  let b₁ := rotateLeft (s[b] ^^^ c₁) 12
  let a₂ := a₁ + b₁
  let d₂ := rotateLeft (d₁ ^^^ a₂) 8
  let c₂ := c₁ + d₂
  let b₂ := rotateLeft (b₁ ^^^ c₂) 7
  (((s.set a a₂).set b b₂).set c c₂).set d d₂

/-- A round over the columns and one over the diagonals. -/
def doubleRound (s : Block) : Block :=
  let columns := quarterRound 3 7 11 15 (quarterRound 2 6 10 14
    (quarterRound 1 5 9 13 (quarterRound 0 4 8 12 s)))
  quarterRound 3 4 9 14 (quarterRound 2 7 8 13
    (quarterRound 1 6 11 12 (quarterRound 0 5 10 15 columns)))

/-- The constants, the key, the number of the block in two words, and no nonce. -/
def seedBlock (key : Key) (counter : UInt64) : Block :=
  #v[0x61707865, 0x3320646e, 0x79622d32, 0x6b206574,
    key[0], key[1], key[2], key[3], key[4], key[5], key[6], key[7],
    counter.toUInt32, (counter >>> 32).toUInt32, 0, 0]

def block (key : Key) (counter : UInt64) : Block :=
  let start := seedBlock key counter
  (Nat.repeat doubleRound 10 start).zipWith (· + ·) start

/-- The words of all blocks, one block after the other. -/
def word (key : Key) (n : Nat) : UInt32 :=
  (block key (UInt64.ofNat (n / 16)))[Fin.ofNat 16 n]

end KeyStream

end Chip8
