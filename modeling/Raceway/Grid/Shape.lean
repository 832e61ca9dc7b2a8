import Raceway.Grid.Basic
import Raceway.Op.Basic
import Raceway.Random.Stream
/-!
# Shaping the tiles

Curves and bends move the tiles of some rows sideways; slopes and smoothing change heights. Each of
them gives the changed grid and the number of tiles that it visits.

## Main definitions

* `Raceway.Grid.displaceRows`: a lateral offset for each row of a range.
* `Raceway.Grid.curve` and `Raceway.Grid.sBend`.
* `Raceway.Grid.slopes`: heights along segments of random slope.
* `Raceway.Grid.smoothColumns`: heights averaged along each column.
-/

namespace Raceway

open Raceway.Random

/-- The ratio of a circle to its diameter. -/
def circleRatio : Float := 3.141592653589793

/-- An angle in degrees as one in radians. -/
def radians (degrees : Float) : Float :=
  degrees * (circleRatio / 180)

/-- The sign of a side. -/
def Side.sign : Side → Float
  | left => -1
  | right => 1

namespace Grid

/-! ### Lateral offsets -/

/-- How far a row lies between two rows, from zero to one. A single row counts as the end. -/
def rowShare (a b row : UInt32) : Float :=
  if a = b then 1 else (row - min a b).toFloat / (max a b - min a b).toFloat

/-- Move the tiles of the rows between two rows, both included, by an offset that depends on how far
the row lies between them. -/
def displaceRows (g : Grid) (a b : UInt32) (offset : Float → Float) : Grid × Nat :=
  let span := g.rowsSpan a b
  let moved := g.mapTiles span fun i t =>
    some { t with lateral := t.lateral + (offset (rowShare a b (g.rowOf i))).toFloat32 }
  (moved, g.countTiles span)

/-- The offset of a curve: a smooth step up to its amplitude. -/
def curveOffset (amplitude t : Float) : Float :=
  amplitude * t * t * (3 - 2 * t)

/-- Lean the rows between two rows to a side. -/
def curve (g : Grid) (params : Params) (a b : UInt32) (side : Side) (degrees : Float) :
    Grid × Nat :=
  g.displaceRows a b
    (curveOffset (side.sign * (radians degrees).tan * params.lateralScale.toFloat))

/-- The number brought between two bounds; what is not a number stays. -/
def clampFloat (low high x : Float) : Float :=
  if x < low then low else if high < x then high else x

/-- The offset of a bend: one lobe out, up to the given share of the rows, and one back. -/
def bendOffset (amplitude ratio t : Float) : Float :=
  if t < ratio then amplitude * (circleRatio * t / ratio).sin
  else -amplitude * (circleRatio * (t - ratio) / (1 - ratio)).sin

/-- Bend the rows between two rows out and back. -/
def sBend (g : Grid) (params : Params) (a b : UInt32) (degrees gain ratio : Float) :
    Grid × Nat :=
  g.displaceRows a b
    (bendOffset ((radians degrees).tan * params.lateralScale.toFloat * gain)
      (clampFloat 0.05 0.95 ratio))

/-! ### Slopes -/

/-- The rise from row to row of a segment, drawn between two angles. -/
def drawSlope (low high : Float) (stream : Stream) : Float × Stream :=
  let (u, stream) := stream.unit
  ((radians (low + (high - low) * u)).tan, stream)

/-- What is known of the slopes up to a row: its lift, the slope of its segment, and the stream. -/
structure Lift where
  /-- The height added to the row. -/
  height : Float
  /-- The slope of the segment. -/
  slope : Float
  /-- The stream that the next draw comes from. -/
  stream : Stream

/-- Go on to a row: the first row of a segment draws its slope, and every row but the first rises by
the slope. -/
def Lift.step (low high : Float) (segment : UInt32) (pitch : Float) (row : Nat) (s : Lift) :
    Lift :=
  let (slope, stream) :=
    if row % segment.toNat = 0 then drawSlope low high s.stream else (s.slope, s.stream)
  ⟨if row > 0 then s.height + slope * pitch else s.height, slope, stream⟩

/-- The heights added to the first rows, and the state behind them. -/
def lifts (low high : Float) (segment : UInt32) (pitch : Float) (rows : Nat) (stream : Stream) :
    Array Float × Lift :=
  rows.fold (fun row _ (heights, s) =>
    let s := s.step low high segment pitch row
    (heights.push s.height, s)) (#[], ⟨0, 0, stream⟩)

/-- Raise the rows along segments of random slope. -/
def slopes (g : Grid) (params : Params) (low high : Float) (segment : UInt32) (stream : Stream) :
    Grid × Stream × Nat :=
  let (heights, last) := lifts low high segment params.rowPitch.toFloat g.rows.toNat stream
  let raised := g.mapTiles g.fullSpan fun i t =>
    some { t with height := t.height + (heights.getD (g.rowOf i).toNat 0).toFloat32 }
  (raised, last.stream, g.tileCount)

/-! ### Smoothing -/

section Blend

variable {α : Type} [Add α] [Mul α] [OfScientific α]

/-- A height averaged with its two neighbours. -/
@[inline]
def blend (before x after : α) : α :=
  0.25 * before + 0.5 * x + 0.25 * after

/-- Average heights with their neighbours, given the one before the first. The last height is its
own neighbour. -/
@[specialize]
def smoothAfter (before : α) : List α → List α
  | [] => []
  | [x] => [blend before x x]
  | x :: y :: rest => blend before x y :: smoothAfter x (y :: rest)

/-- Average heights with their neighbours. The first and the last height are their own
neighbours. -/
@[specialize]
def smooth : List α → List α
  | [] => []
  | x :: rest => smoothAfter x (x :: rest)

end Blend

/-- Average heights a number of times. -/
def smoothTimes (passes : Nat) (heights : List Single) : List Single :=
  passes.repeat smooth heights

/-- The slots of a column that hold a tile, row by row. -/
def columnSlots (g : Grid) (col : Nat) : List Nat :=
  ((List.range g.rows.toNat).map fun row => row * g.cols.toNat + col).filter fun i =>
    (g.slotTile? i).isSome

/-- Set the heights of the tiles in some slots. -/
def setHeights (slots : Array (Option Tile)) (heights : List (Nat × Single)) :
    Array (Option Tile) :=
  heights.foldl (fun slots (i, h) => mapSlot (fun t => some { t with height := h }) i slots) slots

/-- The smoothed heights of a column, with the slots that they belong to. -/
def smoothedColumn (g : Grid) (passes : Nat) (col : Nat) : List (Nat × Single) :=
  let slots := g.columnSlots col
  slots.zip (smoothTimes passes (slots.filterMap fun i => (g.slotTile? i).map (·.height)))

/-- Smooth the heights along each column. -/
def smoothColumns (g : Grid) (passes : UInt32) : Grid × Nat :=
  let heights := (List.range g.cols.toNat).flatMap (g.smoothedColumn passes.toNat)
  ({ g with slots := setHeights g.slots heights }, heights.length)

end Grid

end Raceway
