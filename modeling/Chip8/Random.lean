import Chip8.Random.KeyStream

/-! Random bytes that replay. A source is a key and the number of bytes drawn from it; a seed is
widened to a key by a permuted congruential generator. -/
namespace Chip8

/-- One step of the generator that widens seeds. -/
def Key.advance (state : UInt64) : UInt64 :=
  state * 6364136223846793005 + 11634580027462260723

/-- The word shown by a state of that generator: high bits, turned by the highest five. -/
def Key.output (state : UInt64) : UInt32 :=
  let shown := (((state >>> 18) ^^^ state) >>> 27).toUInt32
  let turn := (state >>> 59).toUInt32
  (shown >>> turn) ||| (shown <<< ((32 - turn) % 32))

/-- The key of a seed. -/
def Key.ofSeed (seed : UInt64) : Key :=
  Vector.ofFn fun k => output (Nat.repeat advance (k.val + 1) seed)

structure RandomSource where
  key : Key
  /-- The number of bytes drawn so far. -/
  drawn : Nat
deriving DecidableEq

namespace RandomSource

def ofKey (key : Key) : RandomSource :=
  ⟨key, 0⟩

def ofSeed (seed : UInt64) : RandomSource :=
  ofKey (Key.ofSeed seed)

/-- Byte `n` of a key's stream: each word of the stream gives its low byte. -/
def byte (key : Key) (n : Nat) : UInt8 :=
  (KeyStream.word key n).toUInt8

def next (source : RandomSource) : UInt8 × RandomSource :=
  (byte source.key source.drawn, { source with drawn := source.drawn + 1 })

end RandomSource

end Chip8
