import Raceway.Grid.Basic
import Raceway.Random.Stream
import Raceway.Scalar
/-!
# Removing tiles

Tiles are removed by rows, by columns of a row, at random, or in evenly spaced rows. Each removal
gives the changed grid and the number of tiles that it removed. Random removals and gaps spare the
rows in the margins.

## Main definitions

* `Raceway.Grid.deleteRows`, `Raceway.Grid.deleteTiles`.
* `Raceway.Grid.randomHoles`: one draw for each tile outside the margins.
* `Raceway.Grid.gapRows` and `Raceway.Grid.jumpGaps`.
-/

namespace Raceway

open Raceway.Random Scalar

namespace Grid

/-- Remove the tiles of some slots, given by a range and a test. -/
def removeWhere (g : Grid) (span : Span) (p : Nat → Bool) : Grid × Nat :=
  (g.mapTiles span fun i t => if p i then none else some t, (g.tilesWhere span p).length)

/-- Remove the tile at a row and a column. -/
def removeTile (g : Grid) (row col : UInt32) : Grid × Nat :=
  if g.inBounds row col then g.removeWhere ⟨g.index row col, 1⟩ fun _ => true else (g, 0)

/-- Remove the tiles of a row. -/
def removeRow (g : Grid) (row : UInt32) : Grid × Nat :=
  g.removeWhere (g.rowSpan row) fun _ => true

/-- Remove the tiles of the rows between two rows, both included. -/
def deleteRows (g : Grid) (a b : UInt32) : Grid × Nat :=
  g.removeWhere (g.rowsSpan a b) fun _ => true

/-- Remove the tiles of a row whose columns, counted from one, are listed. -/
def deleteTiles (g : Grid) (cols : List UInt32) (row : UInt32) : Grid × Nat :=
  g.removeWhere (g.rowSpan row) fun i => cols.any fun c => c.toNat == (g.colOf i).toNat + 1

/-! ### Random removals -/

/-- What a random removal has done so far: the slots, the stream and the number of tiles removed. -/
structure Holes where
  /-- The slots. -/
  slots : Array (Option Tile)
  /-- The stream that the next draw comes from. -/
  stream : Stream
  /-- The number of tiles removed. -/
  removed : Nat

/-- Draw for the tile in a slot, if there is one outside the margins, and remove it where the draw
is below the threshold. -/
def drawHole (g : Grid) (threshold : Float) (s : Holes) (i : Nat) : Holes :=
  if (s.slots[i]?.join).isSome && !g.isProtected (g.rowOf i) then
    let (u, stream) := s.stream.unit
    if u < threshold then ⟨mapSlot (fun _ => none) i s.slots, stream, s.removed + 1⟩
    else ⟨s.slots, stream, s.removed⟩
  else s

/-- Remove each tile outside the margins with a chance given in percent. -/
def randomHoles (g : Grid) (percent : Float) (stream : Stream) : Grid × Stream × Nat :=
  let threshold := percent / 100
  let s := (List.range g.slots.size).foldl (g.drawHole threshold) ⟨g.slots, stream, 0⟩
  ({ g with slots := s.slots }, s.stream, s.removed)

/-! ### Evenly spaced gaps -/

variable (α : Type) [Scalar α]

/-- The row of the gap with the given number, of `n` gaps that are evenly spaced along the rows. -/
def gapRow (rows n i : UInt32) : UInt32 :=
  toCount (round (ofCount i * ofCount rows / (ofCount n + ofCount 1 : α)))

/-- The rows of all gaps. With at least as many gaps as rows, less than a row lies between two gaps,
so that every row from the first gap on is one. -/
def gapRows (rows n : UInt32) : List UInt32 :=
  if n = 0 then []
  else if n ≥ rows then
    let first := (gapRow α rows n 1).toNat
    (List.range' first (rows.toNat - first)).map UInt32.ofNat
  else (List.range' 1 n.toNat).map fun i => gapRow α rows n (UInt32.ofNat i)

/-- Remove the row of a gap, unless it is protected. -/
def cutGap (s : Grid × Nat) (row : UInt32) : Grid × Nat :=
  if row < s.1.rows && !s.1.isProtected row then
    let (g, n) := s.1.removeRow row
    (g, s.2 + n)
  else s

/-- Remove a number of evenly spaced rows outside the margins. -/
def jumpGaps (g : Grid) (n : UInt32) : Grid × Nat :=
  (gapRows α g.rows n).foldl cutGap (g, 0)

end Grid

end Raceway
