/-!
# Random/Keystream — the stream of random words of one seed

ChaCha with twelve rounds and a counter of 64 bits: blocks of sixteen words, one after the other.

* `Keystream.ofSeed` — the stream of a seed and a stream number, from which the key is made.
* `Keystream.next32`, `Keystream.next64` — the next word; the next two words, low one first.
-/

namespace Backgammon.Random

/-- Sixteen words. -/
abbrev Block := Vector UInt32 16

namespace Block

def rotateLeft (x : UInt32) (n : UInt32) : UInt32 := (x <<< n) ||| (x >>> (32 - n))

/-- The quarter round on four words of a block. -/
def quarterRound (s : Block) (a b c d : Fin 16) : Block :=
  let s := s.set a (s[a] + s[b])
  let s := s.set d (rotateLeft (s[d] ^^^ s[a]) 16)
  let s := s.set c (s[c] + s[d])
  let s := s.set b (rotateLeft (s[b] ^^^ s[c]) 12)
  let s := s.set a (s[a] + s[b])
  let s := s.set d (rotateLeft (s[d] ^^^ s[a]) 8)
  let s := s.set c (s[c] + s[d])
  s.set b (rotateLeft (s[b] ^^^ s[c]) 7)

/-- A round down the columns and one along the diagonals. -/
def doubleRound (s : Block) : Block :=
  let s := s.quarterRound 0 4 8 12
  let s := s.quarterRound 1 5 9 13
  let s := s.quarterRound 2 6 10 14
  let s := s.quarterRound 3 7 11 15
  let s := s.quarterRound 0 5 10 15
  let s := s.quarterRound 1 6 11 12
  let s := s.quarterRound 2 7 8 13
  s.quarterRound 3 4 9 14

/-- Twelve rounds, added to the block they start from. -/
def scramble (s : Block) : Block :=
  Vector.zipWith (· + ·) (Nat.repeat doubleRound 6 s) s

end Block

/-- The low word of a double word. -/
def lowWord (x : UInt64) : UInt32 := x.toUInt32

/-- The high word of a double word. -/
def highWord (x : UInt64) : UInt32 := (x >>> 32).toUInt32

/-- A double word turned left by 17 places. -/
def turn17 (x : UInt64) : UInt64 := (x <<< 17) ||| (x >>> 47)

/-- **A stream of random words**: the key, the number of the next block, and what is left of the
present one. -/
structure Keystream where
  key : Vector UInt32 8
  counter : UInt64
  block : Block
  used : Nat

namespace Keystream

/-- Block number `counter` of a key. -/
def blockAt (key : Vector UInt32 8) (counter : UInt64) : Block :=
  Block.scramble
    #v[0x61707865, 0x3320646e, 0x79622d32, 0x6b206574,
      key[0], key[1], key[2], key[3], key[4], key[5], key[6], key[7],
      lowWord counter, highWord counter, 0, 0]

/-- **The stream of a seed.**  The key holds the seed, the number of the stream, the seed turned, and
the complement of the number. -/
def ofSeed (seed stream : UInt64) : Keystream :=
  let turned := turn17 seed
  let other := ~~~stream
  { key := #v[lowWord seed, highWord seed, lowWord stream, highWord stream,
      lowWord turned, highWord turned, lowWord other, highWord other]
    counter := 0
    block := .replicate 16 0
    used := 16 }

/-- The next word. -/
def next32 (k : Keystream) : UInt32 × Keystream :=
  if h : k.used < 16 then (k.block[k.used], { k with used := k.used + 1 })
  else
    let block := blockAt k.key k.counter
    (block[0], { k with block, counter := k.counter + 1, used := 1 })

/-- The next two words as one, low one first. -/
def next64 (k : Keystream) : UInt64 × Keystream :=
  let (low, k) := k.next32
  let (high, k) := k.next32
  (low.toUInt64 ||| (high.toUInt64 <<< 32), k)

end Keystream

end Backgammon.Random
