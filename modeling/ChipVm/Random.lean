/-
# Random bytes

The bytes that a seed stands for are fixed: a 64-bit seed is expanded into a ChaCha key, and the
`k`-th random byte is the low byte of the `k`-th word of that key's stream.  A generator is a
key and the number of bytes drawn from it.
-/
import ChipVm.Random.ChaCha

namespace ChipVm

namespace Random

/-- One step of the linear congruence that expands a seed. -/
def seedStep (s : UInt64) : UInt64 :=
  s * 6364136223846793005 + 11634580027462260723

/-- The key word that a state of the expansion puts out: some of its bits, rotated to the right
by its topmost five. -/
def seedWord (s : UInt64) : UInt32 :=
  let bits := (((s >>> 18) ^^^ s) >>> 27).toUInt32
  let turn := (s >>> 59).toUInt32
  (bits >>> turn) ||| (bits <<< ((32 - turn) % 32))

/-- The key of a seed: the words of the first eight states after it. -/
def keyOfSeed (seed : UInt64) : ChaCha.Key :=
  Vector.ofFn fun place => seedWord (Nat.repeat seedStep (place.val + 1) seed)

/-- The random byte at a given place of the stream of a key. -/
def byteAt (key : ChaCha.Key) (position : Nat) : UInt8 :=
  (ChaCha.word key position).toUInt8

end Random

/-- A source of random bytes. -/
structure Generator where
  /-- Which stream is drawn from. -/
  key : ChaCha.Key
  /-- How many bytes have been drawn. -/
  drawn : Nat
deriving DecidableEq

namespace Generator

/-- The generator of a seed, with nothing drawn yet. -/
def ofSeed (seed : UInt64) : Generator := ⟨Random.keyOfSeed seed, 0⟩

/-- The next byte, and the generator after it. -/
def next (generator : Generator) : UInt8 × Generator :=
  (Random.byteAt generator.key generator.drawn,
    { generator with drawn := generator.drawn + 1 })

end Generator

end ChipVm
