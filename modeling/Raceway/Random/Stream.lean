/-!
# The random stream

Random numbers come from the keystream of the ChaCha cipher with eight rounds. A stream has a key
and counts the blocks of its keystream; each block of sixteen 32-bit words gives eight 64-bit draws.
The key of a seed is eight outputs of a permuted congruential generator.

The sixteen words of a block stand in four rows of four lanes. A round works on the four columns at
once, and turning the rows against each other brings the diagonals into columns.

## Main definitions

* `Raceway.Random.Stream`: a stream, and `Raceway.Random.Stream.ofSeed` for the one of a seed.
* `Raceway.Random.Stream.next`: the next 64-bit draw.
* `Raceway.Random.Stream.unit`: the next number between zero and one.
-/

namespace Raceway.Random

/-! ### The keystream -/

/-- A word rotated to the left. -/
def rotate (x : UInt32) (n : UInt32) : UInt32 :=
  (x <<< n) ||| (x >>> (32 - n))

/-- A row of four words. -/
structure Row where
  w0 : UInt32
  w1 : UInt32
  w2 : UInt32
  w3 : UInt32
deriving DecidableEq

namespace Row

/-- Combine two rows lane by lane. -/
@[inline]
def zip (f : UInt32 → UInt32 → UInt32) (x y : Row) : Row :=
  ⟨f x.w0 y.w0, f x.w1 y.w1, f x.w2 y.w2, f x.w3 y.w3⟩

/-- Add, lane by lane. -/
def add (x y : Row) : Row :=
  zip (· + ·) x y

/-- Exclusive or and rotation, lane by lane. -/
def mix (n : UInt32) (x y : Row) : Row :=
  zip (fun a b => rotate (a ^^^ b) n) x y

/-- The lanes turned to the left by one place. -/
def turn (x : Row) : Row :=
  ⟨x.w1, x.w2, x.w3, x.w0⟩

/-- The words of a row in order. -/
def toList (x : Row) : List UInt32 :=
  [x.w0, x.w1, x.w2, x.w3]

end Row

/-- A block of sixteen words in four rows. -/
structure Block where
  a : Row
  b : Row
  c : Row
  d : Row
deriving DecidableEq

namespace Block

/-- A quarter round on each of the four columns. -/
def columnRound (s : Block) : Block :=
  let a := s.a.add s.b
  let d := s.d.mix 16 a
  let c := s.c.add d
  let b := s.b.mix 12 c
  let a := a.add b
  let d := d.mix 8 a
  let c := c.add d
  let b := b.mix 7 c
  ⟨a, b, c, d⟩

/-- A quarter round on each of the four diagonals. -/
def diagonalRound (s : Block) : Block :=
  let t := columnRound ⟨s.a, s.b.turn, s.c.turn.turn, s.d.turn.turn.turn⟩
  ⟨t.a, t.b.turn.turn.turn, t.c.turn.turn, t.d.turn⟩

/-- A column round and a diagonal round. -/
def doubleRound (s : Block) : Block :=
  s.columnRound.diagonalRound

/-- Add the words of two blocks. -/
def add (s t : Block) : Block :=
  ⟨s.a.add t.a, s.b.add t.b, s.c.add t.c, s.d.add t.d⟩

/-- The keystream block of a state: eight rounds, and the state added again. -/
def keystream (s : Block) : Block :=
  s.doubleRound.doubleRound.doubleRound.doubleRound.add s

/-- The words of a block in order. -/
def toList (s : Block) : List UInt32 :=
  s.a.toList ++ s.b.toList ++ s.c.toList ++ s.d.toList

end Block

/-! ### Streams -/

/-- Two 32-bit words as one of 64 bits, the low one first. -/
def joinWords (low high : UInt32) : UInt64 :=
  low.toUInt64 ||| (high.toUInt64 <<< 32)

/-- The words of a list in pairs. -/
def joinPairs : List UInt32 → List UInt64
  | low :: high :: rest => joinWords low high :: joinPairs rest
  | _ => []

/-- A random stream. -/
structure Stream where
  /-- The first half of the key. -/
  keyLow : Row
  /-- The second half of the key. -/
  keyHigh : Row
  /-- The number of blocks taken from the keystream. -/
  blocks : UInt64
  /-- The draws that are left of the last block. -/
  pending : List UInt64
deriving DecidableEq

namespace Stream

/-- The state behind a block of the keystream: four constant words, the key, the number of the block
and two words of zero. -/
def state (s : Stream) : Block :=
  ⟨⟨0x61707865, 0x3320646e, 0x79622d32, 0x6b206574⟩, s.keyLow, s.keyHigh,
    ⟨s.blocks.toUInt32, (s.blocks >>> 32).toUInt32, 0, 0⟩⟩

/-- The draws of the next block. -/
def blockDraws (s : Stream) : List UInt64 :=
  joinPairs s.state.keystream.toList

/-- The next draw, and the stream behind it. -/
def next (s : Stream) : UInt64 × Stream :=
  match s.pending with
  | draw :: rest => (draw, { s with pending := rest })
  | [] =>
    match s.blockDraws with
    | draw :: rest => (draw, { s with blocks := s.blocks + 1, pending := rest })
    | [] => (0, s)

/-- The next number from zero up to one, in steps of `2 ^ -53`, and the stream behind it. -/
def unit (s : Stream) : Float × Stream :=
  let (draw, rest) := s.next
  ((draw >>> 11).toFloat * Float.ofBits 0x3CA0000000000000, rest)

end Stream

/-! ### Seeds -/

/-- One step of the congruential generator. -/
def advance (x : UInt64) : UInt64 :=
  x * 6364136223846793005 + 11634580027462260723

/-- The output of a state of the generator: its upper bits, folded, and rotated by its top bits. -/
def output (x : UInt64) : UInt32 :=
  let folded : UInt32 := (((x >>> 18) ^^^ x) >>> 27).toUInt32
  let turn : UInt32 := (x >>> 59).toUInt32
  rotate folded (32 - turn)

/-- The next four outputs as a row, and the state behind them. -/
def outputs (x : UInt64) : Row × UInt64 :=
  let x0 := advance x
  let x1 := advance x0
  let x2 := advance x1
  let x3 := advance x2
  (⟨output x0, output x1, output x2, output x3⟩, x3)

/-- The stream of a seed. -/
def Stream.ofSeed (seed : UInt64) : Stream :=
  let (low, x) := outputs seed
  ⟨low, (outputs x).1, 0, []⟩

end Raceway.Random
