import Watershed.Binary32
import Watershed.RandomSource

/-!
# Random numbers from a seed

A seed of 64 bits is the key of the ChaCha cipher with eight rounds, and its key stream is a source
of random numbers. The stream is a sequence of 32-bit words in blocks of sixteen; the block number
is the only other input of a block. A 64-bit number takes two words, the low one first.
-/

namespace Watershed

/-- The state of the key stream: the key, the next block, and the words left of the last block. -/
structure Generator where
  key : Vector UInt32 8
  block : UInt64
  pending : List UInt32
  deriving DecidableEq

namespace Generator

/-- The sixteen words that the rounds work on. -/
abbrev Words := Vector UInt32 16

/-- The bits of a word moved to the left, and those pushed out put back on the right. -/
def rotateLeft (word amount : UInt32) : UInt32 :=
  (word <<< amount) ||| (word >>> (32 - amount))

/-- The bits of a word moved to the right, by any amount below 32, zero included. -/
def rotateRight (word amount : UInt32) : UInt32 :=
  (word >>> amount) ||| (word <<< ((32 - amount) % 32))

/-- Adds, mixes and rotates: word `b` goes into `a`, and the result into `d`. -/
def mix (words : Words) (a b d : Fin 16) (amount : UInt32) : Words :=
  let sum := words[a] + words[b]
  (words.set a sum).set d (rotateLeft (words[d] ^^^ sum) amount)

/-- Four mixing steps on four words. -/
def quarterRound (words : Words) (a b c d : Fin 16) : Words :=
  let words := mix words a b d 16
  let words := mix words c d b 12
  let words := mix words a b d 8
  mix words c d b 7

/-- One round on the columns and one on the diagonals. -/
def doubleRound (words : Words) : Words :=
  let words := quarterRound words 0 4 8 12
  let words := quarterRound words 1 5 9 13
  let words := quarterRound words 2 6 10 14
  let words := quarterRound words 3 7 11 15
  let words := quarterRound words 0 5 10 15
  let words := quarterRound words 1 6 11 12
  let words := quarterRound words 2 7 8 13
  quarterRound words 3 4 9 14

/-- The words before the rounds: four constants, the key, the block number, and zeros. -/
def initialWords (key : Vector UInt32 8) (block : UInt64) : Words :=
  #v[0x61707865, 0x3320646e, 0x79622d32, 0x6b206574,
    key[0], key[1], key[2], key[3], key[4], key[5], key[6], key[7],
    block.toUInt32, (block >>> 32).toUInt32, 0, 0]

/-- The sixteen words of a block of the stream. -/
def blockWords (key : Vector UInt32 8) (block : UInt64) : Words :=
  let initial := initialWords key block
  let mixed := doubleRound (doubleRound (doubleRound (doubleRound initial)))
  initial.zipWith (· + ·) mixed

/-- The multiplier of the sequence that spreads a seed over a key. -/
def seedMultiplier : UInt64 := 6364136223846793005

/-- The increment of the sequence that spreads a seed over a key. -/
def seedIncrement : UInt64 := 11634580027462260723

/-- A key word from a number of the sequence. -/
def keyWord (state : UInt64) : UInt32 :=
  rotateRight (((state >>> 18) ^^^ state) >>> 27).toUInt32 (state >>> 59).toUInt32

/-- The next number of the sequence that spreads a seed over a key. -/
def nextSeed (state : UInt64) : UInt64 :=
  state * seedMultiplier + seedIncrement

/-- The number that follows a seed after a number of steps. -/
def seedAfter : Nat → UInt64 → UInt64
  | 0, state => state
  | steps + 1, state => seedAfter steps (nextSeed state)

/-- The key of a seed. -/
def keyOfSeed (seed : UInt64) : Vector UInt32 8 :=
  Vector.ofFn fun index => keyWord (seedAfter (index + 1) seed)

/-- The start of the stream of a seed. -/
def ofSeed (seed : Nat) : Generator where
  key := keyOfSeed seed.toUInt64
  block := 0
  pending := []

/-- The next word of the stream. -/
def nextWord (generator : Generator) : UInt32 × Generator :=
  match generator with
  | ⟨key, block, word :: rest⟩ => (word, ⟨key, block, rest⟩)
  | ⟨key, block, []⟩ =>
      let words := blockWords key block
      (words[0], ⟨key, block + 1, words.toList.tail⟩)

/-- The next 64-bit number of the stream. -/
def nextLong (generator : Generator) : UInt64 × Generator :=
  match generator.nextWord with
  | (low, generator) =>
      match generator.nextWord with
      | (high, generator) => (low.toUInt64 ||| (high.toUInt64 <<< 32), generator)

instance : RandomSource Generator where
  nextLong := nextLong

/-- A multiple of `2 ^ -23` between zero, included, and one, excluded. -/
def nextFraction (generator : Generator) : Binary32 × Generator :=
  match generator.nextWord with
  | (word, generator) => ((⟨(word >>> 9) ||| 0x3f800000⟩ : Binary32) - .one, generator)

/-- A number between zero, included, and a positive bound, excluded. -/
def nextBelow (bound : Binary32) (generator : Generator) : Binary32 × Generator :=
  match generator.nextFraction with
  | (fraction, generator) => (fraction * bound + .zero, generator)

/-- A number between minus one and one. -/
def nextSigned (generator : Generator) : Binary32 × Generator :=
  match generator.nextFraction with
  | (fraction, generator) => (fraction * ⟨0x40000001⟩ + .minusOne, generator)

end Generator

end Watershed
