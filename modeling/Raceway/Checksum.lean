/-!
# A 32-bit checksum

The checksum xxHash of 32 bits. Stripes of sixteen bytes go into four accumulators, one 32-bit word
each, with the low byte first; what is left goes in by words of four bytes and then by single bytes.
A final mixing spreads every bit.

## Main definitions

* `Raceway.Checksum.xxh32`: the checksum of a byte string under a seed.
-/

namespace Raceway.Checksum

/-- The first of the five multipliers. -/
def prime1 : UInt32 := 2654435761

/-- The second of the five multipliers. -/
def prime2 : UInt32 := 2246822519

/-- The third of the five multipliers. -/
def prime3 : UInt32 := 3266489917

/-- The fourth of the five multipliers. -/
def prime4 : UInt32 := 668265263

/-- The fifth of the five multipliers. -/
def prime5 : UInt32 := 374761393

/-- A word rotated to the left. -/
def rotate (x n : UInt32) : UInt32 :=
  (x <<< n) ||| (x >>> (32 - n))

/-- The byte at a position, and zero behind the end. -/
def byteAt (bytes : ByteArray) (i : Nat) : UInt32 :=
  if h : i < bytes.size then bytes[i].toUInt32 else 0

/-- The word of four bytes at a position, the low byte first. -/
def wordAt (bytes : ByteArray) (i : Nat) : UInt32 :=
  byteAt bytes i ||| (byteAt bytes (i + 1) <<< 8) ||| (byteAt bytes (i + 2) <<< 16)
    ||| (byteAt bytes (i + 3) <<< 24)

/-- Take a word into an accumulator. -/
def round (acc word : UInt32) : UInt32 :=
  rotate (acc + word * prime2) 13 * prime1

/-- The four accumulators of the stripes. -/
structure Lanes where
  v1 : UInt32
  v2 : UInt32
  v3 : UInt32
  v4 : UInt32

namespace Lanes

/-- The accumulators before the first stripe. -/
def start (seed : UInt32) : Lanes :=
  ⟨seed + prime1 + prime2, seed + prime2, seed, seed - prime1⟩

/-- Take the stripe at a position into the accumulators. -/
def stripe (bytes : ByteArray) (i : Nat) (v : Lanes) : Lanes :=
  ⟨round v.v1 (wordAt bytes i), round v.v2 (wordAt bytes (i + 4)),
    round v.v3 (wordAt bytes (i + 8)), round v.v4 (wordAt bytes (i + 12))⟩

/-- The accumulators brought together. -/
def merge (v : Lanes) : UInt32 :=
  rotate v.v1 1 + rotate v.v2 7 + rotate v.v3 12 + rotate v.v4 18

end Lanes

/-- Take the word at a position into the checksum. -/
def mixWord (bytes : ByteArray) (i : Nat) (h : UInt32) : UInt32 :=
  rotate (h + wordAt bytes i * prime3) 17 * prime4

/-- Take the byte at a position into the checksum. -/
def mixByte (bytes : ByteArray) (i : Nat) (h : UInt32) : UInt32 :=
  rotate (h + byteAt bytes i * prime5) 11 * prime1

/-- Exclusive or of a word with itself, shifted to the right. -/
def shiftIn (n h : UInt32) : UInt32 :=
  h ^^^ (h >>> n)

/-- The final mixing. -/
def finish (h : UInt32) : UInt32 :=
  shiftIn 16 (shiftIn 13 (shiftIn 15 h * prime2) * prime3)

/-- The checksum before the bytes behind the last full stripe. -/
def stripes (seed : UInt32) (bytes : ByteArray) : UInt32 :=
  if bytes.size < 16 then seed + prime5
  else
    ((bytes.size / 16).fold (fun k _ v => Lanes.stripe bytes (16 * k) v) (Lanes.start seed)).merge

/-- The checksum of a byte string under a seed. -/
def xxh32 (seed : UInt32) (bytes : ByteArray) : UInt32 :=
  let size := bytes.size
  let base := size / 16 * 16
  let words := (size - base) / 4
  let h := stripes seed bytes + UInt32.ofNat size
  let h := words.fold (fun k _ h => mixWord bytes (base + 4 * k) h) h
  let h := (size % 4).fold (fun k _ h => mixByte bytes (base + 4 * words + k) h) h
  finish h

end Raceway.Checksum
