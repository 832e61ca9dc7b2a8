import Raceway.Params
/-!
# The grid of tiles

A built grid has rows and columns and one slot for each pair of them, row by row. A slot holds a
tile or, where the tile was removed, nothing. A tile is displaced from its place by a lateral offset
and a height. Both are kept by their bits, so that bits which stand for no number are kept as well.

Everything that changes the tiles goes through `Raceway.Grid.mapTiles`, which maps the tiles in a
range of slots to a new tile or to none; no tile ever appears in an empty slot.

## Main definitions

* `Raceway.Single`: numbers of single precision by their bits.
* `Raceway.Tile` and `Raceway.Grid`.
* `Raceway.Grid.tile?`: the tile at a row and a column.
* `Raceway.Grid.mapTiles` and `Raceway.Grid.countTiles`: changing and counting tiles.
* `Raceway.Grid.placed`: the tiles with their rows and columns.

## Main results

* `Raceway.Grid.size_mapTiles`: the number of slots never changes.
-/

namespace Raceway

/-! ### Numbers by their bits -/

/-- A number of single precision, by its bits. Many words stand for no number, and `Float32` does
not tell them apart; here each of them is a value of its own. -/
structure Single where
  /-- The bits. -/
  bits : UInt32
deriving DecidableEq

namespace Single

/-- The number that the bits stand for. -/
def toFloat32 (x : Single) : Float32 :=
  Float32.ofBits x.bits

/-- The bits of a number. What is no number has the bits of the quiet one without a sign. -/
def ofFloat32 (x : Float32) : Single :=
  ⟨x.toBits⟩

instance {n : Nat} : OfNat Single n := ⟨ofFloat32 (.ofNat n)⟩

instance : OfScientific Single := ⟨fun m negative e => ofFloat32 (.ofScientific m negative e)⟩

instance : Coe Float32 Single := ⟨ofFloat32⟩

-- Arithmetic may choose the bits of a result that is no number: those of `ofFloat32` are taken.
instance : Add Single := ⟨fun x y => x.toFloat32 + y.toFloat32⟩

instance : Mul Single := ⟨fun x y => x.toFloat32 * y.toFloat32⟩

end Single

/-! ### Tiles and grids -/

/-- A tile, by its displacement from its place. -/
structure Tile where
  /-- The offset across the track, positive to the right. -/
  lateral : Single
  /-- The offset upwards. -/
  height : Single

/-- A tile in its place. -/
def Tile.flat : Tile := ⟨0, 0⟩

/-- A built grid. -/
structure Grid where
  /-- The number of rows. -/
  rows : UInt32
  /-- The number of columns. -/
  cols : UInt32
  /-- The number of protected rows at the start. -/
  marginStart : UInt32
  /-- The number of protected rows at the end. -/
  marginEnd : UInt32
  /-- The slots, row by row. -/
  slots : Array (Option Tile)

namespace Grid

/-- A full grid without margins. -/
def full (rows cols : UInt32) : Grid :=
  ⟨rows, cols, 0, 0, Array.replicate (rows.toNat * cols.toNat) (some Tile.flat)⟩

/-! ### Places -/

/-- The row and the column lie in the grid. -/
def inBounds (g : Grid) (row col : UInt32) : Bool :=
  row < g.rows && col < g.cols

/-- The slot of a row and a column. -/
def index (g : Grid) (row col : UInt32) : Nat :=
  row.toNat * g.cols.toNat + col.toNat

/-- The row of a slot. -/
def rowOf (g : Grid) (i : Nat) : UInt32 :=
  UInt32.ofNat (i / max g.cols.toNat 1)

/-- The column of a slot. -/
def colOf (g : Grid) (i : Nat) : UInt32 :=
  UInt32.ofNat (i % max g.cols.toNat 1)

/-- The tile in a slot. -/
def slotTile? (g : Grid) (i : Nat) : Option Tile :=
  g.slots[i]?.join

/-- The tile at a row and a column. -/
def tile? (g : Grid) (row col : UInt32) : Option Tile :=
  if g.inBounds row col then g.slotTile? (g.index row col) else none

/-- The row lies in a margin. -/
def isProtected (g : Grid) (row : UInt32) : Bool :=
  row < g.marginStart || g.rows.toNat - g.marginEnd.toNat ≤ row.toNat

/-- A range of slots. -/
structure Span where
  /-- The first slot. -/
  start : Nat
  /-- The number of slots. -/
  length : Nat

/-- The slots of a range. -/
def Span.slots (s : Span) : List Nat :=
  List.range' s.start s.length

/-- The slots of a row, none for a row that is not in the grid. -/
def rowSpan (g : Grid) (row : UInt32) : Span :=
  if row < g.rows then ⟨row.toNat * g.cols.toNat, g.cols.toNat⟩ else ⟨0, 0⟩

/-- The slots of the rows between two rows, both included, as far as they are in the grid. -/
def rowsSpan (g : Grid) (a b : UInt32) : Span :=
  let low := (min a b).toNat
  let stop := min ((max a b).toNat + 1) g.rows.toNat
  ⟨low * g.cols.toNat, (stop - low) * g.cols.toNat⟩

/-- All slots. -/
def fullSpan (g : Grid) : Span :=
  ⟨0, g.slots.size⟩

/-! ### Changing and counting tiles -/

/-- Change the tile in a slot to another one or to none. -/
def mapSlot (f : Tile → Option Tile) (i : Nat) (slots : Array (Option Tile)) :
    Array (Option Tile) :=
  slots.modify i (·.bind f)

/-- Change the tiles in a range of slots to others or to none. -/
def mapTiles (g : Grid) (span : Span) (f : Nat → Tile → Option Tile) : Grid :=
  { g with slots := span.slots.foldl (fun slots i => mapSlot (f i) i slots) g.slots }

/-- Set the displacement of the tile at a row and a column, if there is one. -/
def setTile (g : Grid) (row col : UInt32) (t : Tile) : Grid :=
  if g.inBounds row col then g.mapTiles ⟨g.index row col, 1⟩ fun _ _ => some t else g

/-- The number of tiles in a range of slots. -/
def countTiles (g : Grid) (span : Span) : Nat :=
  span.slots.countP fun i => (g.slotTile? i).isSome

/-- The number of tiles. -/
def tileCount (g : Grid) : Nat :=
  g.slots.countP Option.isSome

/-- The number of tiles in a row. -/
def rowTileCount (g : Grid) (row : UInt32) : Nat :=
  g.countTiles (g.rowSpan row)

/-- The slots in a range that hold a tile which passes a test. -/
def tilesWhere (g : Grid) (span : Span) (p : Nat → Bool) : List Nat :=
  span.slots.filter fun i => (g.slotTile? i).isSome && p i

/-- The tiles with their rows and columns, row by row. -/
def placed (g : Grid) : List (UInt32 × UInt32 × Tile) :=
  (g.slots.toList.zipIdx).filterMap fun (slot, i) => slot.map fun t => (g.rowOf i, g.colOf i, t)

/-- The centre of a tile in the world: across the track, upwards and along it. -/
def position? (g : Grid) (params : Params) (row col : UInt32) :
    Option (Single × Single × Single) :=
  (g.tile? row col).map fun t =>
    let centre := (g.cols.toFloat32 - 1) * 0.5
    let across := (col.toFloat32 - centre) * params.tileWidth
    (across + t.lateral, t.height, (row.toFloat32 * params.rowPitch : Float32))

/-! ### Small facts -/

private theorem size_foldl_mapSlot (f : Nat → Tile → Option Tile) (is : List Nat)
    (slots : Array (Option Tile)) :
    (is.foldl (fun slots i => mapSlot (f i) i slots) slots).size = slots.size := by
  induction is generalizing slots with
  | nil => rfl
  | cons i is ih => rw [List.foldl_cons, ih, mapSlot, Array.size_modify]

/-- Changing tiles keeps the number of slots. -/
theorem size_mapTiles (g : Grid) (span : Span) (f : Nat → Tile → Option Tile) :
    (g.mapTiles span f).slots.size = g.slots.size :=
  size_foldl_mapSlot f span.slots g.slots

/-- A full grid has a slot for each pair of a row and a column. -/
theorem size_full (rows cols : UInt32) :
    (full rows cols).slots.size = rows.toNat * cols.toNat :=
  Array.size_replicate

end Grid

end Raceway
