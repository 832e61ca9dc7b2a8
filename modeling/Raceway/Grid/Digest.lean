import Raceway.Checksum
import Raceway.Grid.Basic
/-!
# The digest of a grid

A grid is written as a byte string: its dimensions and margins, and for each slot a mark, followed
by the bits of the two offsets where there is a tile. Words are written with the low byte first. The
digest is the checksum of that string; no grid at all is the empty string.

## Main definitions

* `Raceway.Grid.bytes`: the byte string of a grid.
* `Raceway.digestOf`: the digest of a grid, or of none.
-/

namespace Raceway

/-- Append the bytes of a word, the low byte first. -/
def pushWord (bytes : ByteArray) (w : UInt32) : ByteArray :=
  (((bytes.push w.toUInt8).push (w >>> 8).toUInt8).push (w >>> 16).toUInt8).push (w >>> 24).toUInt8

/-- Append the bytes of a slot. -/
def pushSlot (bytes : ByteArray) : Option Tile → ByteArray
  | some t => pushWord (pushWord (bytes.push 1) t.lateral.bits) t.height.bits
  | none => bytes.push 0

/-- The dimensions and margins of a grid as bytes. -/
def Grid.headerBytes (g : Grid) : ByteArray :=
  pushWord (pushWord (pushWord (pushWord ByteArray.empty g.rows) g.cols) g.marginStart) g.marginEnd

/-- The byte string of a grid. -/
def Grid.bytes (g : Grid) : ByteArray :=
  g.slots.foldl pushSlot g.headerBytes

/-- The byte string of a grid, or of none. -/
def gridBytes : Option Grid → ByteArray
  | some g => g.bytes
  | none => ByteArray.empty

/-- The seed of the digest. -/
def digestSeed : UInt32 := 0x74726b31

/-- The digest of a grid, or of none. -/
def digestOf (g : Option Grid) : UInt32 :=
  Checksum.xxh32 digestSeed (gridBytes g)

end Raceway
