/-!
# Random numbers

The numbers behind `Few` and `Many` come from a ChaCha stream of twelve rounds whose key is
expanded from a seed.  A generator remembers only its key and how many words of the stream
have been used, so that equal seeds and equal draws give equal numbers.
-/

namespace Verse

/-- The state of a ChaCha block: sixteen words in rows of four. -/
abbrev ChaCha := Vector UInt32 16

namespace ChaCha

/-- Rotate a word to the left. -/
def rotate (x turn : UInt32) : UInt32 :=
  (x <<< turn) ||| (x >>> (32 - turn))

/-- Stir four words of a block. -/
def quarterRound (block : ChaCha) (i j k l : Fin 16) : ChaCha :=
  let a := block[i]
  let b := block[j]
  let c := block[k]
  let d := block[l]
  let a := a + b
  let d := rotate (d ^^^ a) 16
  let c := c + d
  let b := rotate (b ^^^ c) 12
  let a := a + b
  let d := rotate (d ^^^ a) 8
  let c := c + d
  let b := rotate (b ^^^ c) 7
  (((block.set i a).set j b).set k c).set l d

/-- Stir the four columns of a block, then its four diagonals. -/
def doubleRound (block : ChaCha) : ChaCha :=
  let block := quarterRound block 0 4 8 12
  let block := quarterRound block 1 5 9 13
  let block := quarterRound block 2 6 10 14
  let block := quarterRound block 3 7 11 15
  let block := quarterRound block 0 5 10 15
  let block := quarterRound block 1 6 11 12
  let block := quarterRound block 2 7 8 13
  quarterRound block 3 4 9 14

/-- Stir a block a number of times. -/
def stir (block : ChaCha) : Nat → ChaCha
  | 0 => block
  | n + 1 => stir (doubleRound block) n

/-- The block of a key and a block counter, before it is stirred. -/
def initial (key : Vector UInt32 8) (counter : Nat) : ChaCha :=
  #v[0x61707865, 0x3320646e, 0x79622d32, 0x6b206574,
     key[0], key[1], key[2], key[3],
     key[4], key[5], key[6], key[7],
     UInt32.ofNat counter, UInt32.ofNat (counter / UInt32.size), 0, 0]

/-- A block of the stream: twelve rounds, added to the block before them. -/
def block (key : Vector UInt32 8) (counter : Nat) : ChaCha :=
  let start := initial key counter
  (stir start 6).zipWith (· + ·) start

end ChaCha

/-- A source of random words. -/
structure Generator where
  /-- The key of the stream. -/
  key : Vector UInt32 8
  /-- How many words of the stream have been used. -/
  used : Nat := 0
deriving DecidableEq

namespace Generator

/-- One step of the generator that expands a seed into a key. -/
def expand (state : UInt64) : UInt64 :=
  state * 6364136223846793005 + 11634580027462260723

/-- The word of the key that a state of the expansion gives. -/
def keyWord (state : UInt64) : UInt32 :=
  let x := (((state >>> 18) ^^^ state) >>> 27).toUInt32
  let turn := (state >>> 59).toUInt32
  ChaCha.rotate x ((32 - turn) % 32)

/-- The state of the expansion after a number of steps. -/
def expanded (seed : UInt64) : Nat → UInt64
  | 0 => seed
  | n + 1 => expand (expanded seed n)

/-- The generator of a seed. -/
def ofSeed (seed : UInt64) : Generator where
  key := Vector.ofFn fun i : Fin 8 => keyWord (expanded seed (i.val + 1))

/-- The word of the stream with a number. -/
def word (generator : Generator) (n : Nat) : UInt32 :=
  (ChaCha.block generator.key (n / 16))[n % 16]

/-- Take the next word of the stream. -/
def next (generator : Generator) : Nat × Generator :=
  ((generator.word generator.used).toNat, { generator with used := generator.used + 1 })

/-- Draw a number below `range`, which is positive.  A word that would favour some numbers
    is passed over, at most `patience` times; each word is passed over with a chance below
    one half. -/
def drawBelow (range : Nat) : Nat → Generator → Nat × Generator
  | 0, generator => (0, generator)
  | patience + 1, generator =>
    let (word, generator) := generator.next
    let product := word * range
    if product % UInt32.size < range <<< (31 - range.log2) then
      (product / UInt32.size, generator)
    else drawBelow range patience generator

/-- Draw a number from `low` to `high`. -/
def draw (generator : Generator) (low high : Nat) : Nat × Generator :=
  let (n, generator) := drawBelow (high - low + 1) 4096 generator
  (low + n, generator)

end Generator

end Verse
